import MmixAsm.Proofs.LibraryFiles
import MmixAsm.Proofs.SelectedLines

/-
  The instructions of a file are those that reading its lines
  gives.

  Expansion overwrites the slots of USEMACRO lines that are
  not dropped.  Behind selection these are the active ones,
  so every slot then holds what its line says.

  Key definitions include:
    * `MmixAsm.Library.FilledAgrees`

  Key theorems include:
    * `MmixAsm.Library.fillSlots_agrees`
    * `MmixAsm.Library.selected_fails_iff`
    * `MmixAsm.Library.reading?_of_expandUnit`
-/

------------------------------------------------------------
-- Sites
------------------------------------------------------------

namespace MmixAsm

/- The site that a line marks. -/
def Instruction.site?
    (offset : Nat)
    (instruction : Instruction) : Option Site :=
  match instruction.macroLine? with
  | none => none
  | some line =>
      if line.keyword = .application then
        some ⟨line.label, offset, line.parameters⟩
      else
        none

/- Only USEMACRO lines have a site among their entries. -/
theorem MacroTable.sites_ofLine
    (offset : Nat)
    (line : Instruction)
    (rest : List Instruction) :
    MacroTable.sites (MacroTable.ofLine offset line rest) =
      (line.site? offset).toList := by
  unfold MacroTable.ofLine Instruction.site?
  cases line.macroLine? with
  | none => rfl
  | some content =>
      simp only [Option.bind_some]
      unfold MacroDecl.ofLine?
      cases hKeyword : content.keyword <;>
        simp only [reduceCtorEq, if_false, if_true]
      case definition =>
        cases content.label <;> cases line.macroBody? <;> rfl
      case application => rfl
      case constant => cases constantOf? content <;> rfl
      case otherwise => rfl
      case endIf => rfl
      case inclusion => cases content.parameters <;> rfl
      case ifDefined => cases content.parameters <;> rfl
      case ifUndefined => cases content.parameters <;> rfl
      case ifCondition =>
        cases content.parameters with
        | nil => rfl
        | cons condition others =>
            simp only [conditionEntry]
            cases regionElse? 0 (offset + 1) rest <;> rfl

theorem MacroTable.sites_append
    (left right : MacroTable) :
    MacroTable.sites (left ++ right) =
      MacroTable.sites left ++ MacroTable.sites right :=
  List.filterMap_append

namespace Library

/- A site is expanded to the instance of its line. -/
theorem instance?_of_expandSite
    {library : Library}
    {file : String}
    {table : MacroTable}
    {line : Line MacroKind}
    {offset : Nat}
    {instruction : Instruction}
    (h :
      library.expandSite file table
        ⟨line.label, offset, line.parameters⟩ =
          .ok instruction) :
    library.instance? table line = some instruction := by
  unfold expandSite at h
  split at h
  · cases h
  · rename_i name actuals hActuals
    simp only at hActuals
    split at h
    · cases h
    · rename_i template hTemplate
      split at h
      · rename_i hLength
        cases h
        simp [instance?, hActuals, hTemplate, Option.filter,
          hLength]
      · cases h

end Library

end MmixAsm

------------------------------------------------------------
-- Filled Slots
------------------------------------------------------------

namespace MmixAsm

namespace Library

/- A slot that holds what its line says. -/
def FilledAgrees
    (library : Library)
    (table : MacroTable)
    (enclosed : EnclosedLine)
    (slot : Slot) : Prop :=
  if library.isActive table enclosed then
    library.meaning? table enclosed.line =
      some slot.instruction?.toList
  else
    slot.instruction? = none

variable {library : Library}
variable {table : MacroTable}

/- A line without site says what its slot holds already. -/
theorem filledAgrees_of_slotAgrees
    {enclosed : EnclosedLine}
    {slot : Slot}
    {offset : Nat}
    (hSite : enclosed.line.site? offset = none)
    (hSlot : library.SlotAgrees table enclosed slot) :
    library.FilledAgrees table enclosed slot := by
  unfold FilledAgrees
  unfold SlotAgrees at hSlot
  unfold Instruction.site? at hSite
  split at hSlot
  · rename_i hBracket
    -- A bracket is a macro line and says nothing.
    split
    · unfold meaning?
      cases hMacro : enclosed.line.macroLine? with
      | none =>
          rw [Instruction.isBracket_eq_false_of_macroLine?
            hMacro] at hBracket
          cases hBracket
      | some content =>
          simp only [hMacro] at hSite
          split at hSite
          · cases hSite
          · rename_i hKeyword
            simp [hKeyword, hSlot]
    · exact hSlot
  · split at hSlot
    · rename_i hActive
      simp only [hActive, if_true, hSlot]
      unfold meaning?
      cases hMacro : enclosed.line.macroLine? with
      | none =>
          have hMacro? : enclosed.line.isMacro = false := by
            cases hLine : enclosed.line <;>
              simp_all [Instruction.macroLine?,
                Instruction.isMacro]
          simp [Slot.ofInstruction, hMacro?,
            Slot.instruction?]
      | some content =>
          rw [Slot.ofInstruction_of_macroLine hMacro]
          simp only [hMacro] at hSite
          split at hSite
          · cases hSite
          · rename_i hKeyword
            simp [hKeyword, Slot.instruction?]
    · rename_i hActive
      simp [hActive, hSlot, Slot.instruction?]

/- What a line with a site is, and where its site is. -/
theorem exists_of_site?
    {line : Instruction}
    {offset : Nat}
    {site : Site}
    (h : line.site? offset = some site) :
    ∃ content : Line MacroKind,
      line.macroLine? = some content ∧
        content.keyword = .application ∧
        site = ⟨content.label, offset, content.parameters⟩ := by
  unfold Instruction.site? at h
  split at h
  · cases h
  · rename_i content hMacro
    split at h
    · rename_i hKeyword
      cases h
      exact ⟨content, hMacro, hKeyword, rfl⟩
    · cases h

/- A macro line that is no bracket is vacant where active. -/
theorem slot_of_macroLine?
    {enclosed : EnclosedLine}
    {slot : Slot}
    {content : Line MacroKind}
    (hMacro : enclosed.line.macroLine? = some content)
    (hBracket : enclosed.line.isBracket = false)
    (hSlot : library.SlotAgrees table enclosed slot) :
    slot =
      if library.isActive table enclosed then .vacant
      else .dropped := by
  simp only [SlotAgrees, hBracket, Bool.false_eq_true,
    if_false, Slot.ofInstruction_of_macroLine hMacro] at hSlot
  split at hSlot
  · rename_i hActive
    simp [hActive, hSlot]
  · rename_i hActive
    simp [hActive, hSlot]

theorem slot_of_site?
    {enclosed : EnclosedLine}
    {slot : Slot}
    {offset : Nat}
    {site : Site}
    (hSite : enclosed.line.site? offset = some site)
    (hSlot : library.SlotAgrees table enclosed slot) :
    slot =
      if library.isActive table enclosed then .vacant
      else .dropped := by
  rcases exists_of_site? hSite with
    ⟨content, hMacro, hKeyword, -⟩
  have hKind :
      enclosed.line.macroKind? = some .application := by
    simp [Instruction.macroKind?, hMacro, hKeyword]
  exact slot_of_macroLine? hMacro
    (Instruction.isBracket_eq_false_of_kind hKind (by simp))
    hSlot

/- An active site filled with its instance is as it says. -/
theorem filledAgrees_of_expandSite
    {enclosed : EnclosedLine}
    {file : String}
    {offset : Nat}
    {site : Site}
    {instruction : Instruction}
    (hActive : library.isActive table enclosed = true)
    (hSite : enclosed.line.site? offset = some site)
    (h :
      library.expandSite file table site =
        .ok instruction) :
    library.FilledAgrees table enclosed
      (.live instruction) := by
  rcases exists_of_site? hSite with
    ⟨content, hMacro, hKeyword, rfl⟩
  simp [FilledAgrees, hActive, meaning?, hMacro, hKeyword,
    instance?_of_expandSite h, Slot.instruction?]

/-
  The instructions for the live sites of lines whose slots
  stand behind the slots `before`.
-/
def expandLive
    (library : Library)
    (file : String)
    (table : MacroTable)
    (before slots : List Slot)
    (lines : List Instruction) :
    Except MacroError (List (Nat × Instruction)) :=
  ((MacroTable.sites
      (MacroTable.ofLinesFrom before.length lines)).filter
    (fun site =>
      !SourceUnit.isDropped ⟨before ++ slots, table⟩
        site.offset)).mapM
    (fun site =>
      (library.expandSite file table site).map
        (site.offset, ·))

/-
  What the first of some lines adds: nothing, or the instance
  for its site if the line is active.
-/
theorem expandLive_cons
    {file : String}
    {line : Instruction}
    {rest : List Instruction}
    {parts : List Part}
    {before slots : List Slot}
    {slot : Slot}
    (hSlot : library.SlotAgrees table ⟨parts, line⟩ slot)
    {instructions : List (Nat × Instruction)}
    (h :
      library.expandLive file table before (slot :: slots)
        (line :: rest) = .ok instructions) :
    ∃ (head : Option Instruction)
        (others : List (Nat × Instruction)),
      instructions = head.toList.map (before.length, ·)
          ++ others ∧
        library.FilledAgrees table ⟨parts, line⟩
          (head.elim slot .live) ∧
        library.expandLive file table (before ++ [slot]) slots
          rest = .ok others := by
  have hAll :
      before ++ slot :: slots =
        (before ++ [slot]) ++ slots := by
    simp
  have hRest :
      library.expandLive file table (before ++ [slot]) slots
          rest =
        ((MacroTable.sites
            (MacroTable.ofLinesFrom (before.length + 1)
              rest)).filter
          (fun site =>
            !SourceUnit.isDropped
              ⟨before ++ slot :: slots, table⟩
              site.offset)).mapM
          (fun site =>
            (library.expandSite file table site).map
              (site.offset, ·)) := by
    rw [hAll, expandLive, List.length_append]
    rfl
  rw [hRest]
  unfold expandLive at h
  rw [MacroTable.ofLinesFrom_cons, MacroTable.sites_append,
    MacroTable.sites_ofLine, List.filter_append] at h
  cases hSite : line.site? before.length with
  | none =>
      rw [hSite] at h
      exact ⟨none, instructions, rfl,
        filledAgrees_of_slotAgrees hSite hSlot, h⟩
  | some site =>
      have hVacant := slot_of_site? hSite hSlot
      rcases exists_of_site? hSite with ⟨_, _, _, hOffset⟩
      have hAt : site.offset = before.length := by
        rw [hOffset]
      have hDropped :
          SourceUnit.isDropped
            ⟨before ++ slot :: slots, table⟩
            site.offset = (slot == .dropped) := by
        rw [hAt, SourceUnit.isDropped_middle]
      rw [hSite, Option.toList_some] at h
      cases hActive :
          library.isActive table ⟨parts, line⟩ with
      | false =>
          simp only [hActive, Bool.false_eq_true, if_false]
            at hVacant
          subst hVacant
          rw [List.filter_cons_of_neg (by simp [hDropped])]
            at h
          refine ⟨none, instructions, rfl, ?_, h⟩
          simp [FilledAgrees, hActive, Slot.instruction?]
      | true =>
          simp only [hActive, if_true] at hVacant
          subst hVacant
          rw [List.filter_cons_of_pos (by
              rw [hDropped]
              rfl), List.filter_nil, List.singleton_append,
            List.mapM_cons] at h
          rcases exists_of_bind_eq_ok h with
            ⟨head, hHead, h⟩
          rcases exists_of_bind_eq_ok h with
            ⟨others, hOthers, h⟩
          cases h
          rcases exists_of_map_eq_ok hHead with
            ⟨instruction, hExpand, rfl⟩
          rw [hAt]
          exact ⟨some instruction, others, rfl,
            filledAgrees_of_expandSite hActive hSite hExpand,
            hOthers⟩

/-
  Filling the live sites of lines leaves slots that hold what
  the lines say.  Whether a site is live is read from the
  slots before any of them is filled, and `filled` are the
  slots in front that are filled already.
-/
theorem fillSlots_agrees
    {file : String}
    {lines : List Instruction}
    {parts : List Part}
    {before filled slots : List Slot}
    (hLength : filled.length = before.length)
    (hSlots :
      List.Forall₂ (library.SlotAgrees table)
        (EnclosedLine.ofLines parts lines) slots)
    {instructions : List (Nat × Instruction)}
    (h :
      library.expandLive file table before slots lines =
        .ok instructions) :
    ∃ result,
      fillSlots (filled ++ slots) instructions =
        filled ++ result ∧
      List.Forall₂ (library.FilledAgrees table)
        (EnclosedLine.ofLines parts lines) result := by
  induction lines generalizing parts before filled slots
      instructions with
  | nil =>
      cases hSlots
      cases h
      exact ⟨[], rfl, .nil⟩
  | cons line rest ih =>
      cases hSlots with
      | @cons _ slot _ slots hSlot hSlots =>
          rcases expandLive_cons hSlot h with
            ⟨head, others, rfl, hAgrees, hOthers⟩
          have hNext :
              (filled ++ [head.elim slot .live]).length =
                (before ++ [slot]).length := by
            simp [hLength]
          rcases ih hNext hSlots hOthers with
            ⟨result, hFill, hResult⟩
          refine ⟨head.elim slot .live :: result, ?_,
            .cons hAgrees hResult⟩
          simp only [List.append_assoc, List.singleton_append]
            at hFill
          rw [← hFill]
          cases head with
          | none => rfl
          | some instruction =>
              simp [fillSlots, ← hLength]

/- Filled slots hold together what reading the lines gives. -/
theorem mapM_meaning?_of_forall₂
    {enclosed : List EnclosedLine}
    {slots : List Slot}
    (h :
      List.Forall₂ (library.FilledAgrees table) enclosed
        slots) :
    (((enclosed.filter (library.isActive table)).mapM
        fun e => library.meaning? table e.line).map
      List.flatten) =
      some (slots.filterMap Slot.instruction?) := by
  induction h with
  | nil => rfl
  | @cons e slot enclosed slots hSlot _ ih =>
      unfold FilledAgrees at hSlot
      rcases Option.map_eq_some_iff.mp ih with
        ⟨parts, hParts, hFlat⟩
      split at hSlot
      · rename_i hActive
        rw [List.filter_cons_of_pos hActive, List.mapM_cons,
          hSlot, hParts, List.filterMap_cons]
        cases slot.instruction? <;> simp [hFlat]
      · rename_i hActive
        rw [List.filter_cons_of_neg hActive, hParts,
          List.filterMap_cons, hSlot]
        simp [hFlat]

end Library

end MmixAsm

------------------------------------------------------------
-- Whole Libraries
------------------------------------------------------------

namespace MmixAsm

namespace Library

/- Selection changes slots only. -/
theorem table_selectEntry
    {library : Library}
    {file : String}
    {unit next : SourceUnit}
    {entry : MacroDecl}
    (h : library.selectEntry file unit entry = .ok next) :
    next.table = unit.table := by
  unfold selectEntry at h
  split at h
  · cases h
  · cases h
    rfl
  · cases h
    rfl

theorem table_selectEntries
    (library : Library)
    (file : String)
    (unit : SourceUnit)
    (entries : List MacroDecl) :
    (library.selectEntries file unit entries).1.table =
      unit.table := by
  induction entries generalizing unit with
  | nil => rfl
  | cons entry rest ih =>
      unfold selectEntries
      split
      · rfl
      · rename_i next hNext
        rw [ih next, table_selectEntry hNext]

/- The units behind selection, whatever becomes of them. -/
def selectedUnits
    (library : Library)
    (units : List (String × SourceUnit)) :
    List (String × SourceUnit) :=
  units.map fun entry =>
    (entry.1, (library.selectUnit entry.1 entry.2).1)

/- Selection succeeds if it does so on every unit. -/
theorem selectUnits_of_none
    {library : Library}
    {units : List (String × SourceUnit)}
    (h : (library.selectUnits units).2 = none) :
    (library.selectUnits units).1 =
        library.selectedUnits units ∧
      ∀ entry ∈ units,
        (library.selectUnit entry.1 entry.2).2 = none := by
  induction units with
  | nil => exact ⟨rfl, by simp⟩
  | cons entry rest ih =>
      rcases entry with ⟨file, unit⟩
      rcases hUnit : library.selectUnit file unit with
        ⟨next, _ | e⟩
      · simp only [selectUnits, hUnit] at h ⊢
        rcases ih h with ⟨hUnits, hNone⟩
        refine ⟨?_, ?_⟩
        · simp [selectedUnits, hUnit, hUnits]
        · intro entry hEntry
          rcases List.mem_cons.mp hEntry with rfl | hEntry
          · simp [hUnit]
          · exact hNone entry hEntry
      · simp [selectUnits, hUnit] at h

/- A failure of selection comes from one of the units. -/
theorem exists_of_selectUnits
    {library : Library}
    {units : List (String × SourceUnit)}
    {e : MacroError}
    (h : (library.selectUnits units).2 = some e) :
    ∃ entry ∈ units,
      (library.selectUnit entry.1 entry.2).2 = some e := by
  induction units with
  | nil => cases h
  | cons entry rest ih =>
      rcases entry with ⟨file, unit⟩
      rcases hUnit : library.selectUnit file unit with
        ⟨next, _ | error⟩
      · simp only [selectUnits, hUnit] at h
        rcases ih h with ⟨entry, hEntry, hError⟩
        exact ⟨entry, List.mem_cons_of_mem _ hEntry, hError⟩
      · simp only [selectUnits, hUnit, Option.some.injEq] at h
        refine ⟨(file, unit), List.mem_cons_self, ?_⟩
        simp [hUnit, h]

/- What selection gives, and that every unit was selected. -/
theorem units_of_selected
    {library selected : Library}
    (h : library.selected = .ok selected) :
    selected.units = library.selectedUnits library.units ∧
      ∀ entry ∈ library.units,
        (library.selectUnit entry.1 entry.2).2 = none := by
  unfold Library.selected selectParts at h
  split at h
  · cases h
  · rename_i result hResult
    rcases Prod.mk.inj hResult with ⟨hUnits, hNone⟩
    cases h
    rcases selectUnits_of_none hNone with ⟨hEq, hAll⟩
    exact ⟨by rw [← hUnits, ← hEq], hAll⟩

theorem exists_of_selected_error
    {library : Library}
    {e : MacroError}
    (h : library.selected = .error e) :
    ∃ entry ∈ library.units,
      (library.selectUnit entry.1 entry.2).2 = some e := by
  unfold Library.selected selectParts at h
  split at h
  · rename_i unit error hResult
    rcases Prod.mk.inj hResult with ⟨-, hError⟩
    cases h
    exact exists_of_selectUnits hError
  · cases h

theorem names_of_selected
    {library selected : Library}
    (h : library.selected = .ok selected) :
    selected.names = library.names := by
  rw [names, (units_of_selected h).1, selectedUnits,
    List.map_map]
  rfl

theorem sameTables_of_selected
    {library selected : Library}
    (h : library.selected = .ok selected) :
    library.SameTables selected := by
  apply sameTables_of_map_eq
  rw [(units_of_selected h).1, selectedUnits, List.map_map]
  apply List.map_congr_left
  intro entry _
  simp [selectUnit, table_selectEntries]

/- Expansion looks templates up and nothing else. -/
theorem expandSite_congr
    {left right : Library}
    (h : left.SameTables right)
    (file : String)
    (table : MacroTable) :
    left.expandSite file table =
      right.expandSite file table := by
  funext site
  unfold expandSite
  simp only [template?_congr h]

/- Expansion keeps the names and changes each unit alone. -/
theorem forall₂_of_expanded
    {library expanded : Library}
    (h : library.expanded = .ok expanded) :
    List.Forall₂
      (fun entry result =>
        result.1 = entry.1 ∧
          library.expandUnit entry.1 entry.2 =
            .ok result.2)
      library.units expanded.units := by
  rcases exists_of_map_eq_ok h with ⟨units, hUnits, rfl⟩
  refine (forall₂_of_mapM_eq_ok hUnits).imp ?_
  intro entry result hResult
  rcases exists_of_map_eq_ok hResult with
    ⟨unit, hUnit, rfl⟩
  exact ⟨rfl, hUnit⟩

theorem names_of_expanded
    {library expanded : Library}
    (h : library.expanded = .ok expanded) :
    expanded.names = library.names := by
  have hUnits := forall₂_of_expanded h
  unfold names
  generalize library.units = units at hUnits
  generalize expanded.units = results at hUnits
  induction hUnits with
  | nil => rfl
  | cons hHead _ ih => simp [hHead.1, ih]

end Library

end MmixAsm

------------------------------------------------------------
-- Refinement
------------------------------------------------------------

namespace MmixAsm

namespace Library

variable {files : List SourceFile}
variable {library : Library}

/- The outcome of selecting the unit of a file. -/
theorem selectUnit_entry_agrees
    (hHolds : library.HoldsFiles files)
    {file : SourceFile}
    (hFile : file ∈ files) :
    library.SelectionAgrees
      (MacroTable.ofLines file.instructions) [] []
      (EnclosedLine.ofLines [] file.instructions)
      (library.selectUnit file.entry.1 file.entry.2) :=
  selectUnit_agrees (hHolds.balanced file hFile) library
    file.name

/- Selection fails exactly if an active IF has no answer. -/
theorem selected_fails_iff
    (hHolds : library.HoldsFiles files) :
    (∃ e, library.selected = .error e) ↔
      ∃ file ∈ files,
        ∃ enclosed ∈ EnclosedLine.ofLines [] file.instructions,
          library.isFaulty
            (MacroTable.ofLines file.instructions)
            enclosed = true := by
  constructor
  · rintro ⟨e, hError⟩
    rcases exists_of_selected_error hError with
      ⟨entry, hEntry, hUnit⟩
    rcases List.mem_map.mp (hHolds.units.mem_iff.mp hEntry)
      with ⟨file, hFile, rfl⟩
    have hAgrees := selectUnit_entry_agrees hHolds hFile
    generalize
      library.selectUnit file.entry.1 file.entry.2 = result
      at hAgrees hUnit
    cases hAgrees with
    | done slots hSlots hSound => cases hUnit
    | failed unit error hFaulty => exact ⟨file, hFile, hFaulty⟩
  · rintro ⟨file, hFile, enclosed, hEnclosed, hFaulty⟩
    cases hSelected : library.selected with
    | error e => exact ⟨e, rfl⟩
    | ok selected =>
        have hNone :=
          (units_of_selected hSelected).2 file.entry
            (hHolds.entry_mem hFile)
        have hAgrees := selectUnit_entry_agrees hHolds hFile
        generalize
          library.selectUnit file.entry.1 file.entry.2 =
            result at hAgrees hNone
        cases hAgrees with
        | done slots hSlots hSound =>
            rw [hSound enclosed hEnclosed] at hFaulty
            cases hFaulty
        | failed unit error hBlame => cases hNone

/- What selection leaves of the unit of a file. -/
theorem exists_selected_unit
    (hHolds : library.HoldsFiles files)
    {selected : Library}
    (hSelected : library.selected = .ok selected)
    {file : SourceFile}
    (hFile : file ∈ files) :
    ∃ slots : List Slot,
      (file.name,
        (⟨slots, MacroTable.ofLines file.instructions⟩ :
          SourceUnit)) ∈ selected.units ∧
      List.Forall₂
        (library.SlotAgrees
          (MacroTable.ofLines file.instructions))
        (EnclosedLine.ofLines [] file.instructions) slots := by
  rcases units_of_selected hSelected with ⟨hUnits, hAll⟩
  have hEntry := hHolds.entry_mem hFile
  have hNone := hAll file.entry hEntry
  have hMem :
      (file.name,
        (library.selectUnit file.entry.1 file.entry.2).1) ∈
          selected.units := by
    rw [hUnits]
    exact List.mem_map.mpr ⟨file.entry, hEntry, rfl⟩
  have hAgrees := selectUnit_entry_agrees hHolds hFile
  generalize
    library.selectUnit file.entry.1 file.entry.2 = result
    at hAgrees hNone hMem
  cases hAgrees with
  | done slots hSlots hSound =>
      exact ⟨slots, by simpa using hMem, hSlots⟩
  | failed unit error hFaulty => cases hNone

/- What expansion makes of the selected unit of a file. -/
theorem reading?_of_expandUnit
    {selected : Library}
    (hTables : library.SameTables selected)
    {file : String}
    {lines : List Instruction}
    {slots : List Slot}
    (hSlots :
      List.Forall₂
        (library.SlotAgrees (MacroTable.ofLines lines))
        (EnclosedLine.ofLines [] lines) slots)
    {unit : SourceUnit}
    (h :
      selected.expandUnit file
        ⟨slots, MacroTable.ofLines lines⟩ = .ok unit) :
    library.reading? (MacroTable.ofLines lines) lines =
      some unit.instructions := by
  rcases exists_of_map_eq_ok h with
    ⟨instructions, hInstructions, rfl⟩
  unfold expansions SourceUnit.liveSites at hInstructions
  rw [← expandSite_congr hTables] at hInstructions
  have hLength :
      ([] : List Slot).length = ([] : List Slot).length := rfl
  rcases fillSlots_agrees hLength hSlots hInstructions with
    ⟨result, hFill, hResult⟩
  rw [List.nil_append, List.nil_append] at hFill
  rw [SourceUnit.instructions, hFill]
  exact mapM_meaning?_of_forall₂ hResult

end Library

end MmixAsm
