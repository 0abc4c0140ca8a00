import Mathlib.Data.List.Forall2
import MmixAsm.Macro.Selection
import MmixAsm.Proofs.ActiveLines

/-
  Selection drops exactly the lines that are not active.

  Selection works on offsets: it goes over the entries of a
  file and drops ranges of slots.  On balanced lines the
  ranges are the parts of regions, so what it leaves in the
  slots is what reading line by line says about the lines.

  Key definitions include:
    * `MmixAsm.Library.SlotAgrees`
    * `MmixAsm.Library.SelectionAgrees`

  Key theorems include:
    * `MmixAsm.Library.selectEntries_dropped`
    * `MmixAsm.Library.selectEntries_agrees`
    * `MmixAsm.Library.selectUnit_agrees`
-/

------------------------------------------------------------
-- Slots In The Middle
------------------------------------------------------------

namespace MmixAsm

/- A macro line leaves its slot vacant. -/
theorem Slot.ofInstruction_of_macroLine
    {line : Instruction}
    {content : Line MacroKind}
    (hMacro : line.macroLine? = some content) :
    ofInstruction line = .vacant := by
  cases line <;>
    simp_all [Instruction.macroLine?, ofInstruction,
      Instruction.isMacro]

theorem Slot.ofInstruction_of_isBracket
    {line : Instruction}
    (hLine : line.isBracket = true) :
    ofInstruction line = .vacant := by
  cases hMacro : line.macroLine? with
  | none =>
      rw [Instruction.isBracket_eq_false_of_macroLine? hMacro]
        at hLine
      cases hLine
  | some content => exact ofInstruction_of_macroLine hMacro

namespace SourceUnit

theorem isDropped_middle
    (before after : List Slot)
    (slot : Slot)
    (table : MacroTable) :
    isDropped ⟨before ++ slot :: after, table⟩
      before.length = (slot == .dropped) := by
  simp only [isDropped, List.getElem?_append_right
    (Nat.le_refl _), Nat.sub_self, List.getElem?_cons_zero]
  rfl

/- Dropping a region in the middle keeps what is around. -/
theorem dropRegion_middle
    (before middle after : List Slot)
    (table : MacroTable)
    (start stop : Nat)
    (hStart : start = before.length)
    (hStop : stop = start + middle.length) :
    dropRegion ⟨before ++ (middle ++ after), table⟩
        ⟨start, stop⟩ =
      ⟨before ++ (List.replicate middle.length .dropped
        ++ after), table⟩ := by
  simp only [dropRegion, SourceUnit.mk.injEq, and_true]
  rw [List.mapIdx_append, List.mapIdx_append]
  congr 1
  · rw [List.mapIdx_eq_iff]
    intro i
    by_cases hi : i < before.length
    · have hNot : ¬ (start ≤ i ∧ i < stop) := by omega
      rw [List.getElem?_eq_getElem hi]
      simp only [hNot, if_false, Option.map_some]
    · rw [List.getElem?_eq_none (by omega)]
      rfl
  · congr 1
    · rw [List.mapIdx_eq_replicate_iff]
      intro i hi
      have hIn :
          start ≤ i + before.length ∧
            i + before.length < stop := by
        omega
      simp only [hIn, and_self, if_true]
    · rw [List.mapIdx_eq_iff]
      intro i
      have hNot :
          ¬ (start ≤ i + middle.length + before.length ∧
            i + middle.length + before.length < stop) := by
        omega
      simp only [hNot, if_false, Option.map_id']

end SourceUnit

end MmixAsm

------------------------------------------------------------
-- Slots And Lines
------------------------------------------------------------

namespace MmixAsm

namespace Library

/-
  What selection leaves in the slot of a line.  A bracket has
  no instruction of its own, so it does not matter whether
  its slot is dropped.
-/
def SlotAgrees
    (library : Library)
    (table : MacroTable)
    (enclosed : EnclosedLine)
    (slot : Slot) : Prop :=
  if enclosed.line.isBracket then
    slot.instruction? = none
  else if library.isActive table enclosed then
    slot = Slot.ofInstruction enclosed.line
  else
    slot = .dropped

variable {library : Library}
variable {table : MacroTable}

theorem slotAgrees_bracket
    {enclosed : EnclosedLine}
    {slot : Slot}
    (hLine : enclosed.line.isBracket = true)
    (hSlot : slot.instruction? = none) :
    library.SlotAgrees table enclosed slot := by
  simp [SlotAgrees, hLine, hSlot]

theorem slotAgrees_dropped
    {enclosed : EnclosedLine}
    (hActive : library.isActive table enclosed = false) :
    library.SlotAgrees table enclosed .dropped := by
  unfold SlotAgrees
  split
  · rfl
  · simp [hActive]

/- Balanced lines in a part that is not kept are inactive. -/
theorem isActive_eq_false_of_mem
    {lines : List Instruction}
    (hLines : Balanced lines)
    {part : Part}
    {parts : List Part}
    (hPart : library.keepsPart table part = false)
    {enclosed : EnclosedLine}
    (hMem :
      enclosed ∈ EnclosedLine.ofLines (part :: parts) lines) :
    library.isActive table enclosed = false := by
  have hIn : part ∈ enclosed.parts :=
    (hLines.parts_suffix hMem).subset List.mem_cons_self
  rw [isActive, List.all_eq_false]
  exact ⟨part, hIn, by simp [hPart]⟩

theorem forall₂_dropped
    {enclosed : List EnclosedLine}
    (hActive :
      ∀ e ∈ enclosed, library.isActive table e = false) :
    List.Forall₂ (library.SlotAgrees table) enclosed
      (List.replicate enclosed.length .dropped) := by
  induction enclosed with
  | nil => exact .nil
  | cons e rest ih =>
      refine .cons ?_ (ih ?_)
      · exact slotAgrees_dropped (hActive e (by simp))
      · intro e he
        exact hActive e (List.mem_cons_of_mem _ he)

/- An inactive line is not at fault. -/
theorem isFaulty_eq_false_of_inactive
    {enclosed : EnclosedLine}
    (hActive : library.isActive table enclosed = false) :
    library.isFaulty table enclosed = false := by
  simp [isFaulty, hActive]

/- Only a line that opens a region can be at fault. -/
theorem isFaulty_eq_false_of_not_opensRegion
    {enclosed : EnclosedLine}
    (hLine : enclosed.line.opensRegion = false) :
    library.isFaulty table enclosed = false := by
  cases hMacro : enclosed.line.macroLine? with
  | none => simp [isFaulty, hMacro]
  | some content =>
      have hKind :
          enclosed.line.macroKind? = some content.keyword := by
        simp [Instruction.macroKind?, hMacro]
      cases hKeyword : content.keyword <;>
        simp [isFaulty, hMacro, isUndecided, hKeyword,
          Instruction.opensRegion, hKind] at hLine ⊢

end Library

end MmixAsm

------------------------------------------------------------
-- Single Entries
------------------------------------------------------------

namespace MmixAsm

namespace Library

variable {library : Library}
variable {file : String}

theorem evaluate_of_conditionFails
    {table : MacroTable}
    {text : String}
    (h : library.conditionFails table text = true) :
    ∃ e, library.evaluate file table text = .error e := by
  cases hText : Condition.ofText? text with
  | none => simp [evaluate, hText]
  | some condition =>
      have hValue :
          library.constant? table condition.name = none := by
        simpa [conditionFails, hText] using h
      simp [evaluate, hText, hValue]

theorem evaluate_of_not_conditionFails
    {table : MacroTable}
    {text : String}
    (h : library.conditionFails table text = false) :
    library.evaluate file table text =
      .ok (library.conditionHolds table text) := by
  cases hText : Condition.ofText? text with
  | none => simp [conditionFails, hText] at h
  | some condition =>
      cases hValue :
          library.constant? table condition.name with
      | none => simp [conditionFails, hText, hValue] at h
      | some value =>
          simp [evaluate, conditionHolds, hText, hValue]

/- Selection goes over entries from left to right. -/
theorem selectEntries_append
    {unit next : SourceUnit}
    {left : List MacroDecl}
    (hLeft :
      library.selectEntries file unit left = (next, none))
    (right : List MacroDecl) :
    library.selectEntries file unit (left ++ right) =
      library.selectEntries file next right := by
  induction left generalizing unit with
  | nil =>
      cases hLeft
      rfl
  | cons entry rest ih =>
      simp only [List.cons_append, selectEntries] at hLeft ⊢
      split at hLeft
      · cases hLeft
      · exact ih hLeft

/- Selection ends at the first failure. -/
theorem selectEntries_append_of_error
    {unit next : SourceUnit}
    {e : MacroError}
    {left : List MacroDecl}
    (hLeft :
      library.selectEntries file unit left = (next, some e))
    (right : List MacroDecl) :
    library.selectEntries file unit (left ++ right) =
      (next, some e) := by
  induction left generalizing unit with
  | nil => cases hLeft
  | cons entry rest ih =>
      simp only [List.cons_append, selectEntries] at hLeft ⊢
      split at hLeft
      · exact hLeft
      · exact ih hLeft

/- The entry of a line that opens no region drops nothing. -/
theorem selectEntries_ofLine_of_not_opensRegion
    {line : Instruction}
    (hLine : line.opensRegion = false)
    (unit : SourceUnit)
    (offset : Nat)
    (rest : List Instruction) :
    library.selectEntries file unit
      (MacroTable.ofLine offset line rest) = (unit, none) := by
  unfold MacroTable.ofLine
  cases hMacro : line.macroLine? with
  | none => rfl
  | some content =>
      have hKind :
          line.macroKind? = some content.keyword := by
        simp [Instruction.macroKind?, hMacro]
      simp only [Option.bind_some]
      unfold MacroDecl.ofLine?
      cases hKeyword : content.keyword <;>
        simp only [Instruction.opensRegion, hKind, hKeyword,
          Bool.true_eq_false] at hLine ⊢
      case definition =>
        cases content.label <;> cases line.macroBody? <;> rfl
      case inclusion => cases content.parameters <;> rfl
      case application => rfl
      case constant => cases constantOf? content <;> rfl
      case otherwise => rfl
      case endIf => rfl

/- A region whose first line is dropped is not looked at. -/
theorem selectEntries_ofLine_of_isDropped
    {unit : SourceUnit}
    {offset : Nat}
    (hDropped : unit.isDropped offset = true)
    (line : Instruction)
    (rest : List Instruction) :
    library.selectEntries file unit
      (MacroTable.ofLine offset line rest) = (unit, none) := by
  cases hLine : line.opensRegion with
  | false =>
      exact selectEntries_ofLine_of_not_opensRegion hLine
        unit offset rest
  | true =>
      rw [MacroTable.ofLine_of_opensRegion hLine]
      rcases Instruction.exists_macroLine_of_opensRegion
        hLine with ⟨content, hMacro⟩
      rw [hMacro, Option.bind_some]
      unfold MacroDecl.ofRegion?
      split
      · simp [selectEntries, selectEntry, dropped?, hDropped]
      · simp [selectEntries, selectEntry, dropped?, hDropped]
      · split <;>
          simp [selectEntries, selectEntry, dropped?, hDropped]
      · rfl

/- Selection does nothing in lines that are all dropped. -/
theorem selectEntries_dropped
    (lines : List Instruction)
    (before after : List Slot)
    (table : MacroTable) :
    library.selectEntries file
        ⟨before ++ List.replicate lines.length .dropped
          ++ after, table⟩
        (MacroTable.ofLinesFrom before.length lines) =
      (⟨before ++ List.replicate lines.length .dropped
        ++ after, table⟩, none) := by
  induction lines generalizing before with
  | nil => rfl
  | cons line rest ih =>
      rw [MacroTable.ofLinesFrom_cons]
      rw [selectEntries_append
        (selectEntries_ofLine_of_isDropped (by
          rw [List.length_cons, List.replicate_succ,
            List.append_assoc, List.cons_append,
            SourceUnit.isDropped_middle]
          rfl) line rest)]
      have hRest := ih (before ++ [.dropped])
      simp only [List.length_append, List.length_cons,
        List.length_nil, List.replicate_succ,
        List.append_assoc, List.cons_append, List.nil_append]
        at hRest ⊢
      exact hRest

end Library

end MmixAsm

------------------------------------------------------------
-- Entries Of Openers
------------------------------------------------------------

namespace MmixAsm

namespace Library

variable {library : Library}
variable {file : String}
variable {unit : SourceUnit}
variable {content : Line MacroKind}
variable {offset : Nat}

/- An IF without an answer ends the selection. -/
theorem selectEntries_ofRegion?_of_isUndecided
    (hUndecided :
      library.isUndecided unit.table content = true)
    (hLive : unit.isDropped offset = false)
    (stop : Nat)
    (middle : Option Nat) :
    ∃ e,
      library.selectEntries file unit
        (MacroDecl.ofRegion? content offset stop
          middle).toList = (unit, some e) := by
  unfold isUndecided at hUndecided
  split at hUndecided
  · rename_i condition others hKeyword hParameters
    have hEvaluate :
        ∃ e, library.evaluate file unit.table condition =
          .error e :=
      evaluate_of_conditionFails hUndecided
    rcases hEvaluate with ⟨e, hError⟩
    refine ⟨e, ?_⟩
    cases middle <;>
      simp [MacroDecl.ofRegion?, hKeyword, hParameters,
        selectEntries, selectEntry, dropped?, hLive, hError]
  · cases hUndecided

/- A region without ELSE is kept or dropped as a whole. -/
theorem selectEntries_ofRegion?_region
    (hUndecided :
      library.isUndecided unit.table content = false)
    (hLive : unit.isDropped offset = false)
    (stop : Nat) :
    library.selectEntries file unit
        (MacroDecl.ofRegion? content offset stop
          none).toList =
      (if library.keepsPart unit.table ⟨content, false⟩ then
          unit
        else
          unit.dropRegion ⟨offset, stop⟩, none) := by
  rcases content with ⟨label, keyword, parameters⟩
  cases parameters with
  | nil =>
      cases keyword <;>
        simp [MacroDecl.ofRegion?, selectEntries, keepsPart]
  | cons name others =>
      cases keyword <;>
        simp only [MacroDecl.ofRegion?, selectEntries,
          selectEntry, dropped?, keepsPart, hLive,
          Option.toList_none, Option.toList_some, if_true,
          Bool.false_eq_true, if_false]
      case ifDefined =>
        by_cases hName : library.isDefined unit.table name <;>
          simp [hName]
      case ifUndefined =>
        by_cases hName : library.isDefined unit.table name <;>
          simp [hName]
      case ifCondition =>
        rw [evaluate_of_not_conditionFails hUndecided]
        by_cases hHolds :
            library.conditionHolds unit.table name <;>
          simp [hHolds]

/- Of a region with ELSE one part is dropped. -/
theorem selectEntries_ofRegion?_alternative
    (hKeyword : content.keyword = .ifCondition)
    (hUndecided :
      library.isUndecided unit.table content = false)
    (hLive : unit.isDropped offset = false)
    (middle stop : Nat) :
    library.selectEntries file unit
        (MacroDecl.ofRegion? content offset stop
          (some middle)).toList =
      (if library.keepsPart unit.table ⟨content, false⟩ then
          if library.keepsPart unit.table ⟨content, true⟩ then
            unit
          else
            unit.dropRegion ⟨middle, stop⟩
        else
          unit.dropRegion ⟨offset, middle⟩, none) := by
  rcases content with ⟨label, keyword, parameters⟩
  cases hKeyword
  cases parameters with
  | nil =>
      simp [MacroDecl.ofRegion?, selectEntries, keepsPart]
  | cons condition others =>
      simp only [MacroDecl.ofRegion?, selectEntries,
        selectEntry, dropped?, keepsPart, hLive,
        Option.toList_some, Bool.false_eq_true, if_false]
      rw [evaluate_of_not_conditionFails hUndecided]
      by_cases hHolds :
          library.conditionHolds unit.table condition <;>
        simp [hHolds]

/-
  The first part of an IF is dropped only if its other part
  is kept.
-/
theorem keepsPart_behindElse
    {table : MacroTable}
    (hKept :
      library.keepsPart table ⟨content, false⟩ = false)
    (hKeyword : content.keyword = .ifCondition) :
    library.keepsPart table ⟨content, true⟩ = true := by
  rcases content with ⟨label, keyword, parameters⟩
  cases hKeyword
  cases parameters with
  | nil => rfl
  | cons condition others =>
      simp only [keepsPart, bne_eq_false_iff_eq] at hKept ⊢
      simp [hKept]

end Library

end MmixAsm

------------------------------------------------------------
-- Balanced Lines
------------------------------------------------------------

namespace MmixAsm

namespace Library

/-
  The outcome of selecting some lines that stand between the
  given slots: slots that agree with the lines, or a failure
  that one of the lines is to blame for.
-/
inductive SelectionAgrees
    (library : Library)
    (table : MacroTable)
    (before after : List Slot)
    (enclosed : List EnclosedLine) :
    SourceUnit × Option MacroError → Prop where
  | done
      (slots : List Slot)
      (hSlots :
        List.Forall₂ (library.SlotAgrees table) enclosed slots)
      (hSound :
        ∀ e ∈ enclosed, library.isFaulty table e = false) :
      SelectionAgrees library table before after enclosed
        (⟨before ++ slots ++ after, table⟩, none)
  | failed
      (unit : SourceUnit)
      (error : MacroError)
      (hFaulty :
        ∃ e ∈ enclosed, library.isFaulty table e = true) :
      SelectionAgrees library table before after enclosed
        (unit, some error)

variable {library : Library}
variable {file : String}
variable {table : MacroTable}

/-
  Selection of lines that have the given slots at first and
  the given entries, wherever the lines stand in a file.
-/
def Selects
    (library : Library)
    (file : String)
    (table : MacroTable)
    (enclosed : List EnclosedLine)
    (slots : List Slot)
    (entries : Nat → List MacroDecl) : Prop :=
  ∀ before after : List Slot,
    library.SelectionAgrees table before after enclosed
      (library.selectEntries file
        ⟨before ++ slots ++ after, table⟩
        (entries before.length))

namespace Selects

/- Lines are selected behind the lines in front of them. -/
theorem append
    {left right : List EnclosedLine}
    {leftSlots rightSlots : List Slot}
    {leftEntries rightEntries : Nat → List MacroDecl}
    (hLeft :
      library.Selects file table left leftSlots leftEntries)
    (hRight :
      library.Selects file table right rightSlots
        rightEntries) :
    library.Selects file table (left ++ right)
      (leftSlots ++ rightSlots)
      (fun offset =>
        leftEntries offset
          ++ rightEntries (offset + left.length)) := by
  intro before after
  have hFirst := hLeft before (rightSlots ++ after)
  rw [← List.append_assoc,
    List.append_assoc (before ++ leftSlots)]
  generalize hResult :
    library.selectEntries file
      ⟨before ++ leftSlots ++ (rightSlots ++ after), table⟩
      (leftEntries before.length) = result at hFirst
  cases hFirst with
  | done slots hSlots hSound =>
      rw [selectEntries_append hResult]
      have hSecond := hRight (before ++ slots) after
      rw [List.length_append, ← hSlots.length_eq,
        List.append_assoc (before ++ slots)] at hSecond
      generalize
        library.selectEntries file
          ⟨before ++ slots ++ (rightSlots ++ after), table⟩
          (rightEntries (before.length + left.length)) = last
        at hSecond ⊢
      cases hSecond with
      | done others hOthers hRest =>
          rw [List.append_assoc before]
          refine .done (slots ++ others)
            (List.rel_append hSlots hOthers) ?_
          intro e he
          rcases List.mem_append.mp he with he | he
          · exact hSound e he
          · exact hRest e he
      | failed unit error hFaulty =>
          rcases hFaulty with ⟨e, he, hFault⟩
          exact .failed _ _
            ⟨e, List.mem_append_right _ he, hFault⟩
  | failed unit error hFaulty =>
      rw [selectEntries_append_of_error hResult]
      rcases hFaulty with ⟨e, he, hFault⟩
      exact .failed _ _ ⟨e, List.mem_append_left _ he, hFault⟩

/- A line without entry leaves its slot as it is. -/
theorem silent
    {enclosed : EnclosedLine}
    {slot : Slot}
    (hSlot : library.SlotAgrees table enclosed slot)
    (hSound : library.isFaulty table enclosed = false) :
    library.Selects file table [enclosed] [slot]
      (fun _ => []) := by
  intro before after
  refine .done [slot] (.cons hSlot .nil) ?_
  intro e he
  rw [List.mem_singleton.mp he]
  exact hSound

/- Lines in a part that is not kept stay dropped. -/
theorem dropped
    {lines : List Instruction}
    (hLines : Balanced lines)
    {part : Part}
    (hPart : library.keepsPart table part = false)
    (parts : List Part) :
    library.Selects file table
      (EnclosedLine.ofLines (part :: parts) lines)
      (List.replicate lines.length .dropped)
      (fun offset => MacroTable.ofLinesFrom offset lines) := by
  intro before after
  have hInactive :
      ∀ e ∈ EnclosedLine.ofLines (part :: parts) lines,
        library.isActive table e = false :=
    fun e he => isActive_eq_false_of_mem hLines hPart he
  rw [selectEntries_dropped]
  refine .done _ ?_ ?_
  · have hSlots := forall₂_dropped hInactive
    rwa [EnclosedLine.length_ofLines] at hSlots
  · intro e he
    exact isFaulty_eq_false_of_inactive (hInactive e he)

end Selects

/- A bracket that opens nothing has no part in selection. -/
theorem selects_closing
    {line : Instruction}
    (hBracket : line.isBracket = true)
    (hOpens : line.opensRegion = false)
    {slot : Slot}
    (hSlot : slot.instruction? = none)
    (parts : List Part) :
    library.Selects file table [⟨parts, line⟩] [slot]
      (fun _ => []) :=
  .silent (slotAgrees_bracket hBracket hSlot)
    (isFaulty_eq_false_of_not_opensRegion hOpens)

theorem selects_otherwise
    {divider : Instruction}
    (hDivider : divider.macroKind? = some .otherwise)
    {slot : Slot}
    (hSlot : slot.instruction? = none)
    (parts : List Part) :
    library.Selects file table [⟨parts, divider⟩] [slot]
      (fun _ => []) :=
  selects_closing
    (Instruction.isBracket_of_otherwise hDivider)
    (Instruction.opensRegion_of_otherwise hDivider) hSlot
    parts

theorem selects_endIf
    {closer : Instruction}
    (hCloser : closer.macroKind? = some .endIf)
    (parts : List Part) :
    library.Selects file table [⟨parts, closer⟩] [.vacant]
      (fun _ => []) :=
  selects_closing (Instruction.isBracket_of_endIf hCloser)
    (Instruction.opensRegion_of_endIf hCloser) rfl parts

/-
  A line that opens a region and was decided already has no
  further part in selection.
-/
theorem selects_decided
    {line : Instruction}
    {content : Line MacroKind}
    (hOpens : line.opensRegion = true)
    (hMacro : line.macroLine? = some content)
    (hDecided : library.isUndecided table content = false)
    {slot : Slot}
    (hSlot : slot.instruction? = none)
    (parts : List Part) :
    library.Selects file table [⟨parts, line⟩] [slot]
      (fun _ => []) := by
  refine .silent (slotAgrees_bracket
    (Instruction.isBracket_of_opensRegion hOpens) hSlot) ?_
  simp [isFaulty, hMacro, hDecided]

/- An active IF without an answer is the one to blame. -/
theorem isFaulty_of_isUndecided
    {line : Instruction}
    {content : Line MacroKind}
    {parts : List Part}
    (hActive : parts.all (library.keepsPart table) = true)
    (hMacro : line.macroLine? = some content)
    (hUndecided : library.isUndecided table content = true) :
    library.isFaulty table ⟨parts, line⟩ = true := by
  simp [isFaulty, isActive, hActive, hMacro, hUndecided]

/-
  The slots of a part once its region is decided, with the
  slot of the line that opens the part.
-/
def partSlots
    (library : Library)
    (table : MacroTable)
    (part : Part)
    (lines : List Instruction) : List Slot :=
  if library.keepsPart table part then
    .vacant :: lines.map Slot.ofInstruction
  else
    .dropped :: List.replicate lines.length .dropped

/- The decision about a part gives it its slots. -/
theorem dropRegion_part
    (library : Library)
    (table : MacroTable)
    (part : Part)
    (lines : List Instruction)
    (before after : List Slot)
    {start stop : Nat}
    (hStart : start = before.length)
    (hStop : stop = start + 1 + lines.length) :
    (if library.keepsPart table part then
        ⟨before ++ (.vacant :: lines.map Slot.ofInstruction
          ++ after), table⟩
      else
        SourceUnit.dropRegion
          ⟨before ++ (.vacant :: lines.map Slot.ofInstruction
            ++ after), table⟩ ⟨start, stop⟩) =
      (⟨before ++ (library.partSlots table part lines
        ++ after), table⟩ : SourceUnit) := by
  cases hPart : library.keepsPart table part with
  | true => simp [partSlots, hPart]
  | false =>
      have hDrop := SourceUnit.dropRegion_middle before
        (.vacant :: lines.map Slot.ofInstruction) after table
        start stop hStart (by
          simp only [List.length_cons, List.length_map]
          omega)
      simpa [partSlots, hPart, List.replicate_succ] using hDrop

/-
  The decision about an IF with ELSE gives both parts their
  slots, because at most one of them is not kept.
-/
theorem dropRegion_parts
    {content : Line MacroKind}
    (hKeyword : content.keyword = .ifCondition)
    {lines others : List Instruction}
    {before after : List Slot} :
    (if library.keepsPart table ⟨content, false⟩ then
        if library.keepsPart table ⟨content, true⟩ then
          ⟨before ++ (.vacant :: lines.map Slot.ofInstruction
            ++ (.vacant :: others.map Slot.ofInstruction
              ++ after)), table⟩
        else
          SourceUnit.dropRegion
            ⟨before ++ (.vacant
              :: lines.map Slot.ofInstruction
              ++ (.vacant :: others.map Slot.ofInstruction
                ++ after)), table⟩
            ⟨before.length + 1 + lines.length,
              before.length + 1 + lines.length + 1
                + others.length⟩
      else
        SourceUnit.dropRegion
          ⟨before ++ (.vacant :: lines.map Slot.ofInstruction
            ++ (.vacant :: others.map Slot.ofInstruction
              ++ after)), table⟩
          ⟨before.length, before.length + 1 + lines.length⟩) =
      (⟨before
        ++ (library.partSlots table ⟨content, false⟩ lines
          ++ (library.partSlots table ⟨content, true⟩ others
            ++ after)), table⟩ : SourceUnit) := by
  cases hKept : library.keepsPart table ⟨content, false⟩ with
  | true =>
      have hLength : before.length + 1 + lines.length =
          (before ++ .vacant
            :: lines.map Slot.ofInstruction).length := by
        simp only [List.length_append, List.length_cons,
          List.length_map]
        omega
      have hSecond := dropRegion_part library table
        ⟨content, true⟩ others
        (before ++ .vacant :: lines.map Slot.ofInstruction)
        after hLength rfl
      simpa [partSlots, hKept] using hSecond
  | false =>
      have hOther := keepsPart_behindElse hKept hKeyword
      have hFirst := dropRegion_part library table
        ⟨content, false⟩ lines before
        (.vacant :: others.map Slot.ofInstruction ++ after)
        rfl rfl
      simpa [partSlots, hKept, hOther] using hFirst

/-
  A part of an active region, from the outcome of its lines
  where the part is kept.  The line that opens the part takes
  no further part in the selection.
-/
theorem selects_part
    {lines : List Instruction}
    (hLines : Balanced lines)
    {parts : List Part}
    (hActive : parts.all (library.keepsPart table) = true)
    (ih : ∀ parts : List Part,
      parts.all (library.keepsPart table) = true →
        library.Selects file table
          (EnclosedLine.ofLines parts lines)
          (lines.map Slot.ofInstruction)
          (fun offset =>
            MacroTable.ofLinesFrom offset lines))
    (part : Part)
    {opener : EnclosedLine}
    (hOpener : ∀ slot : Slot, slot.instruction? = none →
      library.Selects file table [opener] [slot]
        (fun _ => [])) :
    library.Selects file table
      (opener :: EnclosedLine.ofLines (part :: parts) lines)
      (library.partSlots table part lines)
      (fun offset =>
        MacroTable.ofLinesFrom (offset + 1) lines) := by
  cases hPart : library.keepsPart table part with
  | true =>
      have hInner :
          (part :: parts).all (library.keepsPart table)
            = true := by
        simp [hPart, hActive]
      have hAll :=
        (hOpener .vacant rfl).append (ih _ hInner)
      simpa [partSlots, hPart] using hAll
  | false =>
      have hAll := (hOpener .dropped rfl).append
        (Selects.dropped hLines hPart parts)
      simpa [partSlots, hPart] using hAll

/-
  The outcome of a region without ELSE, from the outcome of
  its body where the body is kept.
-/
theorem selects_region
    {opener closer : Instruction}
    {body : List Instruction}
    {parts : List Part}
    (hOpener : opener.opensRegion = true)
    (hBody : Balanced body)
    (hCloser : closer.macroKind? = some .endIf)
    (hActive : parts.all (library.keepsPart table) = true)
    (ih : ∀ parts : List Part,
      parts.all (library.keepsPart table) = true →
        library.Selects file table
          (EnclosedLine.ofLines parts body)
          (body.map Slot.ofInstruction)
          (fun offset =>
            MacroTable.ofLinesFrom offset body)) :
    library.Selects file table
      (EnclosedLine.ofLines parts (opener :: body ++ [closer]))
      ((opener :: body ++ [closer]).map Slot.ofInstruction)
      (fun offset =>
        MacroTable.ofLinesFrom offset
          (opener :: body ++ [closer])) := by
  rcases Instruction.exists_macroLine_of_opensRegion
    hOpener with ⟨content, hMacro⟩
  have hSlots :
      (opener :: body ++ [closer]).map Slot.ofInstruction =
        .vacant :: body.map Slot.ofInstruction
          ++ [.vacant] := by
    simp [Slot.ofInstruction_of_macroLine hMacro,
      Slot.ofInstruction_of_isBracket
        (Instruction.isBracket_of_endIf hCloser)]
  intro before after
  simp only [hSlots, hBody.ofLines_region hOpener hMacro,
    hBody.ofLinesFrom_region hOpener hMacro hCloser]
  rw [List.append_assoc before, List.append_assoc (_ :: _)]
  have hLive :
      SourceUnit.isDropped
        ⟨before ++ (.vacant :: body.map Slot.ofInstruction
          ++ ([.vacant] ++ after)), table⟩
        before.length = false := by
    rw [List.cons_append, SourceUnit.isDropped_middle]
    rfl
  cases hUndecided : library.isUndecided table content with
  | true =>
      rcases selectEntries_ofRegion?_of_isUndecided
        hUndecided hLive (before.length + 1 + body.length)
        none with ⟨e, hError⟩
      rw [selectEntries_append_of_error hError]
      exact .failed _ _ ⟨⟨parts, opener⟩, List.mem_cons_self,
        isFaulty_of_isUndecided hActive hMacro hUndecided⟩
  | false =>
      have hPart := selects_part hBody hActive ih
        ⟨content, false⟩ (fun _ hSlot => selects_decided
          hOpener hMacro hUndecided hSlot parts)
      have hAll := hPart.append
        (selects_endIf hCloser (⟨content, false⟩ :: parts))
      rw [selectEntries_append
        (selectEntries_ofRegion?_region hUndecided hLive
          (before.length + 1 + body.length))]
      dsimp only
      rw [dropRegion_part library table ⟨content, false⟩ body
        before _ rfl rfl]
      simpa using hAll before after

/-
  The outcome of a region with both parts, from the outcomes
  of the parts where they are kept.
-/
theorem selects_alternative
    {opener divider closer : Instruction}
    {body other : List Instruction}
    {parts : List Part}
    (hOpener : opener.macroKind? = some .ifCondition)
    (hBody : Balanced body)
    (hDivider : divider.macroKind? = some .otherwise)
    (hOther : Balanced other)
    (hCloser : closer.macroKind? = some .endIf)
    (hActive : parts.all (library.keepsPart table) = true)
    (ihBody : ∀ parts : List Part,
      parts.all (library.keepsPart table) = true →
        library.Selects file table
          (EnclosedLine.ofLines parts body)
          (body.map Slot.ofInstruction)
          (fun offset => MacroTable.ofLinesFrom offset body))
    (ihOther : ∀ parts : List Part,
      parts.all (library.keepsPart table) = true →
        library.Selects file table
          (EnclosedLine.ofLines parts other)
          (other.map Slot.ofInstruction)
          (fun offset =>
            MacroTable.ofLinesFrom offset other)) :
    library.Selects file table
      (EnclosedLine.ofLines parts
        (opener :: body ++ divider :: other ++ [closer]))
      ((opener :: body ++ divider :: other ++ [closer]).map
        Slot.ofInstruction)
      (fun offset =>
        MacroTable.ofLinesFrom offset
          (opener :: body ++ divider :: other
            ++ [closer])) := by
  have hOpens :=
    Instruction.opensRegion_of_kind hOpener (by simp)
  rcases Option.map_eq_some_iff.mp hOpener with
    ⟨content, hMacro, hKeyword⟩
  have hSlots :
      (opener :: body ++ divider :: other ++ [closer]).map
          Slot.ofInstruction =
        .vacant :: body.map Slot.ofInstruction
          ++ (.vacant :: other.map Slot.ofInstruction
            ++ [.vacant]) := by
    simp [Slot.ofInstruction_of_macroLine hMacro,
      Slot.ofInstruction_of_isBracket
        (Instruction.isBracket_of_otherwise hDivider),
      Slot.ofInstruction_of_isBracket
        (Instruction.isBracket_of_endIf hCloser)]
  intro before after
  simp only [hSlots,
    hBody.ofLines_alternative hOpens hMacro hDivider hOther,
    hBody.ofLinesFrom_alternative hOpens hMacro hDivider
      hOther hCloser]
  rw [List.append_assoc before, List.append_assoc (_ :: _),
    List.append_assoc (_ :: _)]
  have hLive :
      SourceUnit.isDropped
        ⟨before ++ (.vacant :: body.map Slot.ofInstruction
          ++ (.vacant :: other.map Slot.ofInstruction
            ++ ([.vacant] ++ after))), table⟩
        before.length = false := by
    rw [List.cons_append, SourceUnit.isDropped_middle]
    rfl
  cases hUndecided : library.isUndecided table content with
  | true =>
      rcases selectEntries_ofRegion?_of_isUndecided
        hUndecided hLive
        (before.length + 1 + body.length + 1 + other.length)
        (some (before.length + 1 + body.length)) with
        ⟨e, hError⟩
      rw [selectEntries_append_of_error hError]
      exact .failed _ _ ⟨⟨parts, opener⟩, List.mem_cons_self,
        isFaulty_of_isUndecided hActive hMacro hUndecided⟩
  | false =>
      have hFirst := selects_part hBody hActive ihBody
        ⟨content, false⟩ (fun _ hSlot => selects_decided
          hOpens hMacro hUndecided hSlot parts)
      have hSecond := selects_part hOther hActive ihOther
        ⟨content, true⟩ (fun _ hSlot => selects_otherwise
          hDivider hSlot (⟨content, false⟩ :: parts))
      have hAll := hFirst.append (hSecond.append
        (selects_endIf hCloser (⟨content, true⟩ :: parts)))
      rw [selectEntries_append
        (selectEntries_ofRegion?_alternative hKeyword
          hUndecided hLive (before.length + 1 + body.length)
          (before.length + 1 + body.length + 1
            + other.length))]
      dsimp only
      rw [dropRegion_parts hKeyword]
      have hOffset : before.length + 1 + body.length + 1 =
          before.length + (body.length + 1) + 1 := by
        omega
      rw [hOffset]
      simpa [EnclosedLine.length_ofLines] using
        hAll before after

/- Selection of balanced lines in parts that are kept. -/
theorem selects_balanced
    {lines : List Instruction}
    (hLines : Balanced lines)
    (parts : List Part)
    (hActive : parts.all (library.keepsPart table) = true) :
    library.Selects file table
      (EnclosedLine.ofLines parts lines)
      (lines.map Slot.ofInstruction)
      (fun offset => MacroTable.ofLinesFrom offset lines) := by
  induction hLines generalizing parts with
  | nil =>
      intro before after
      exact .done [] .nil (by simp [EnclosedLine.ofLines])
  | @plain line hLine =>
      have hOpens :=
        (Instruction.isBracket_eq_false_iff.mp hLine).1
      have hSlot :
          library.SlotAgrees table ⟨parts, line⟩
            (Slot.ofInstruction line) := by
        simp [SlotAgrees, hLine, isActive, hActive]
      intro before after
      simp only [MacroTable.ofLinesFrom_cons,
        MacroTable.ofLinesFrom_nil, List.append_nil]
      rw [selectEntries_ofLine_of_not_opensRegion hOpens]
      refine .done [Slot.ofInstruction line]
        (.cons hSlot .nil) ?_
      intro e he
      rw [List.mem_singleton.mp he]
      exact isFaulty_eq_false_of_not_opensRegion hOpens
  | @append left right hLeft hRight ihLeft ihRight =>
      have hAll :=
        (ihLeft parts hActive).append (ihRight parts hActive)
      rw [EnclosedLine.length_ofLines] at hAll
      rw [EnclosedLine.ofLines_append, hLeft.foldl_pass,
        List.map_append]
      simpa only [hLeft.ofLinesFrom_append] using hAll
  | region hOpener hBody hCloser ih =>
      exact selects_region hOpener hBody hCloser hActive ih
  | alternative hOpener hBody hDivider hOther hCloser ihBody
      ihOther =>
      exact selects_alternative hOpener hBody hDivider hOther
        hCloser hActive ihBody ihOther

/- The outcome of selecting the unit of a file. -/
theorem selectUnit_agrees
    {lines : List Instruction}
    (hLines : Balanced lines)
    (library : Library)
    (file : String) :
    library.SelectionAgrees (MacroTable.ofLines lines) [] []
      (EnclosedLine.ofLines [] lines)
      (library.selectUnit file
        ⟨lines.map Slot.ofInstruction,
          MacroTable.ofLines lines⟩) := by
  have hAll :
      library.Selects file (MacroTable.ofLines lines)
        (EnclosedLine.ofLines [] lines)
        (lines.map Slot.ofInstruction)
        (fun offset => MacroTable.ofLinesFrom offset lines) :=
    selects_balanced hLines [] rfl
  simpa [selectUnit, MacroTable.ofLines] using hAll [] []

end Library

end MmixAsm
