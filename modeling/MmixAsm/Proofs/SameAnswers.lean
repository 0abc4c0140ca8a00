import MmixAsm.Proofs.ExpandedLines
import MmixAsm.Proofs.IncludeOrder
import MmixAsm.Proofs.TableQueries

/-
  Programs whose active lines get the same answers.

  What the openers of regions learn from the tables decides
  which lines are active, and what active lines learn decides
  what they say.  A program is therefore made of the active
  lines of its files and of the answers they get, whatever
  else stands in the files and in their tables.

  Key definitions include:
    * `MmixAsm.Library.AnswersAlike`
    * `MmixAsm.Library.activeLines`
    * `MmixAsm.Library.ExpandsTo`
    * `MmixAsm.Library.ActsAlike`

  Key theorems include:
    * `MmixAsm.Library.isActive_congr`
    * `MmixAsm.Library.reading?_congr`
    * `MmixAsm.Library.inclusions_of_slotAgrees`
    * `MmixAsm.Library.ExpandsTo.exists_unit`
    * `MmixAsm.expandProgram_congr`
-/

------------------------------------------------------------
-- Answers And Activity
------------------------------------------------------------

namespace MmixAsm

namespace Library

/- The active ones of some lines get the same answers. -/
def AnswersAlike
    (left right : Library)
    (leftTable rightTable : MacroTable)
    (lines : List EnclosedLine) : Prop :=
  ∀ enclosed ∈ lines,
    left.isActive leftTable enclosed = true →
      ∀ query ∈ enclosed.line.query?,
        left.answer leftTable query =
          right.answer rightTable query

variable {left right : Library}
variable {leftTable rightTable : MacroTable}

/- A part is kept or not by the answer its opener gets. -/
theorem keepsPart_congr
    {part : Part}
    (h : ∀ query ∈ part.opener.query?,
      left.answer leftTable query =
        right.answer rightTable query) :
    left.keepsPart leftTable part =
      right.keepsPart rightTable part := by
  unfold Line.query? at h
  unfold keepsPart
  split
  · rename_i name _ hKeyword hParameters
    rw [hKeyword, hParameters] at h
    exact Answer.defined.inj (h _ rfl)
  · rename_i name _ hKeyword hParameters
    rw [hKeyword, hParameters] at h
    rw [Answer.defined.inj (h _ rfl)]
  · rename_i text _ hKeyword hParameters
    rw [hKeyword, hParameters] at h
    unfold conditionHolds
    split
    · rfl
    · rename_i condition hCondition
      have hQuery := congrArg
        (Option.map (Query.constant ·.name)) hCondition
      rw [Answer.constant.inj (h _ hQuery)]
  · rfl

/- What an active line says depends on the answer it gets. -/
theorem meaning?_congr
    {line : Instruction}
    (h : ∀ query ∈ line.query?,
      left.answer leftTable query =
        right.answer rightTable query) :
    left.meaning? leftTable line =
      right.meaning? rightTable line := by
  unfold Instruction.query? at h
  unfold meaning?
  split
  · rfl
  · rename_i content hMacro
    rw [hMacro, Option.bind_some] at h
    split
    · rename_i hKeyword
      unfold instance?
      split
      · rfl
      · rename_i name actuals hParameters
        unfold Line.query? at h
        rw [hKeyword, hParameters] at h
        rw [Answer.template.inj (h _ rfl)]
    · rfl

/-
  Parts whose openers get the same answers, as far as they
  are active themselves.
-/
def PartsAgree
    (left right : Library)
    (leftTable rightTable : MacroTable) :
    List Part → Prop
| [] => True
| part :: rest =>
    PartsAgree left right leftTable rightTable rest ∧
      (rest.all (left.keepsPart leftTable) = true →
        ∀ query ∈ part.opener.query?,
          left.answer leftTable query =
            right.answer rightTable query)

theorem PartsAgree.nil :
    PartsAgree left right leftTable rightTable [] :=
  trivial

/- Such parts are all kept in both libraries or in none. -/
theorem PartsAgree.all_keepsPart
    {parts : List Part}
    (h : PartsAgree left right leftTable rightTable parts) :
    parts.all (left.keepsPart leftTable) =
      parts.all (right.keepsPart rightTable) := by
  induction parts with
  | nil => rfl
  | cons part rest ih =>
      rw [List.all_cons, List.all_cons, ← ih h.1]
      cases hRest : rest.all (left.keepsPart leftTable) with
      | false => rw [Bool.and_false, Bool.and_false]
      | true => rw [keepsPart_congr (h.2 hRest)]

/- Passing a line keeps the parts in agreement. -/
theorem PartsAgree.pass
    {parts : List Part}
    {line : Instruction}
    (h : PartsAgree left right leftTable rightTable parts)
    (hLine : parts.all (left.keepsPart leftTable) = true →
      ∀ query ∈ line.query?,
        left.answer leftTable query =
          right.answer rightTable query) :
    PartsAgree left right leftTable rightTable
      (Part.pass parts line) := by
  unfold Part.pass
  cases hMacro : line.macroLine? with
  | none => exact h
  | some content =>
      simp only
      have hOpened : PartsAgree left right leftTable
          rightTable (⟨content, false⟩ :: parts) := by
        refine ⟨h, fun hParts query hQuery => ?_⟩
        apply hLine hParts query
        rw [Instruction.query?, hMacro]
        exact hQuery
      cases content.keyword with
      | ifDefined => exact hOpened
      | ifUndefined => exact hOpened
      | ifCondition => exact hOpened
      | otherwise =>
          cases parts with
          | nil => exact h
          | cons part rest => exact h
      | endIf =>
          cases parts with
          | nil => exact h
          | cons part rest => exact h.1
      | _ => exact h

/- Lines whose active ones get the same answers. -/
theorem isActive_congr
    {parts : List Part}
    {lines : List Instruction}
    (hParts :
      PartsAgree left right leftTable rightTable parts)
    (h : left.AnswersAlike right leftTable rightTable
      (EnclosedLine.ofLines parts lines))
    {enclosed : EnclosedLine}
    (hMem : enclosed ∈ EnclosedLine.ofLines parts lines) :
    left.isActive leftTable enclosed =
      right.isActive rightTable enclosed := by
  induction lines generalizing parts with
  | nil => cases hMem
  | cons line rest ih =>
      rcases List.mem_cons.mp hMem with rfl | hMem
      · exact hParts.all_keepsPart
      · refine ih (hParts.pass ?_) ?_ hMem
        · exact h ⟨parts, line⟩ List.mem_cons_self
        · intro other hOther
          exact h other (List.mem_cons_of_mem _ hOther)

end Library

end MmixAsm

------------------------------------------------------------
-- Active Lines
------------------------------------------------------------

namespace MmixAsm

namespace Library

/- The active lines of a file. -/
def activeLines
    (library : Library)
    (table : MacroTable)
    (lines : List Instruction) : List EnclosedLine :=
  (EnclosedLine.ofLines [] lines).filter
    (library.isActive table)

variable {left right : Library}
variable {leftTable rightTable : MacroTable}

theorem activeLines_congr
    {lines : List Instruction}
    (h : left.AnswersAlike right leftTable rightTable
      (EnclosedLine.ofLines [] lines)) :
    left.activeLines leftTable lines =
      right.activeLines rightTable lines :=
  List.filter_congr fun _ => isActive_congr .nil h

/- The same active lines with the same answers read alike. -/
theorem reading?_congr
    {lines others : List Instruction}
    (hActive : left.activeLines leftTable lines =
      right.activeLines rightTable others)
    (h : left.AnswersAlike right leftTable rightTable
      (EnclosedLine.ofLines [] lines)) :
    left.reading? leftTable lines =
      right.reading? rightTable others := by
  have hMeanings :
      (left.activeLines leftTable lines).map
          (fun enclosed =>
            left.meaning? leftTable enclosed.line) =
        (right.activeLines rightTable others).map
          (fun enclosed =>
            right.meaning? rightTable enclosed.line) := by
    rw [← hActive]
    apply List.map_congr_left
    intro enclosed hMem
    rcases List.mem_filter.mp hMem with ⟨hMem, hActive⟩
    exact meaning?_congr (h enclosed hMem hActive)
  have hMapM := congrArg (List.mapM id) hMeanings
  rw [List.mapM_map, List.mapM_map] at hMapM
  exact congrArg (Option.map List.flatten) hMapM

end Library

end MmixAsm

------------------------------------------------------------
-- Live Inclusions
------------------------------------------------------------

namespace MmixAsm

/- Whether slots are dropped is not changed by filling. -/
theorem SourceUnit.isDropped_fillSlots
    {table : MacroTable}
    {slots : List Slot}
    {instructions : List (Nat × Instruction)}
    (h : ∀ entry ∈ instructions,
      isDropped ⟨slots, table⟩ entry.1 = false)
    (offset : Nat) :
    isDropped ⟨Library.fillSlots slots instructions, table⟩
        offset =
      isDropped ⟨slots, table⟩ offset := by
  induction instructions generalizing slots with
  | nil => rfl
  | cons entry rest ih =>
      rcases List.forall_mem_cons.mp h with ⟨hEntry, hRest⟩
      have hSet : ∀ index,
          isDropped ⟨slots.set entry.1 (.live entry.2), table⟩
              index =
            isDropped ⟨slots, table⟩ index := by
        intro index
        by_cases hIndex : entry.1 = index
        · subst hIndex
          rw [hEntry]
          unfold isDropped
          rw [List.getElem?_set_self']
          cases slots[entry.1]? <;> rfl
        · unfold isDropped
          rw [List.getElem?_set_ne hIndex]
      unfold Library.fillSlots at ih ⊢
      rw [List.foldl_cons, ih, hSet]
      intro other hOther
      rw [hSet]
      exact hRest other hOther

namespace Library

/- Expansion leaves the live inclusions as they are. -/
theorem liveInclusions_of_expandUnit
    {library : Library}
    {file : String}
    {unit result : SourceUnit}
    (h : library.expandUnit file unit = .ok result) :
    result.liveInclusions = unit.liveInclusions := by
  rcases exists_of_map_eq_ok h with
    ⟨instructions, hInstructions, rfl⟩
  have hLive : ∀ entry ∈ instructions,
      unit.isDropped entry.1 = false := by
    intro entry hEntry
    rcases exists_mem_of_forall₂
      (forall₂_of_mapM_eq_ok hInstructions).flip hEntry with
      ⟨site, hSite, hExpand⟩
    rcases exists_of_map_eq_ok hExpand with ⟨_, _, rfl⟩
    simpa using (List.mem_filter.mp hSite).2
  unfold SourceUnit.liveInclusions
  congr 1
  apply List.filter_congr
  intro entry _
  rw [SourceUnit.isDropped_fillSlots hLive]

variable {library : Library}
variable {table : MacroTable}

/-
  The live inclusions of lines are those of the active ones.
  The slots of the lines stand behind the slots `before`.
-/
theorem inclusions_of_slotAgrees
    {lines : List Instruction}
    {parts : List Part}
    (before : List Slot)
    {slots : List Slot}
    (hSlots :
      List.Forall₂ (library.SlotAgrees table)
        (EnclosedLine.ofLines parts lines) slots) :
    ((MacroTable.inclusions
        (MacroTable.ofLinesFrom before.length lines)).filter
      (fun entry =>
        !SourceUnit.isDropped ⟨before ++ slots, table⟩
          entry.2)).map (·.1) =
      ((EnclosedLine.ofLines parts lines).filter
        (library.isActive table)).filterMap
          (·.line.includedFile?) := by
  induction lines generalizing parts before slots with
  | nil => rfl
  | cons line rest ih =>
      cases hSlots with
      | @cons _ slot _ slots hSlot hSlots =>
          have hRest := ih (before ++ [slot]) hSlots
          rw [List.length_append, List.append_assoc] at hRest
          rw [MacroTable.ofLinesFrom_cons,
            MacroTable.inclusions_append,
            MacroTable.inclusions_ofLine, List.filter_append,
            List.map_append, EnclosedLine.ofLines,
            List.filter_cons]
          cases hFile : line.includedFile? with
          | none =>
              split
              · rw [List.filterMap_cons, hFile]
                exact hRest
              · exact hRest
          | some file =>
              rcases Instruction.exists_of_includedFile? hFile
                with ⟨⟨content, hMacro⟩, hBracket⟩
              have hVacant :=
                slot_of_macroLine? hMacro hBracket hSlot
              rw [Option.map_some, Option.toList_some,
                List.filter_cons, SourceUnit.isDropped_middle]
              cases hActive :
                  library.isActive table ⟨parts, line⟩ with
              | true =>
                  rw [hActive, if_pos rfl] at hVacant
                  subst hVacant
                  rw [if_pos rfl, List.filterMap_cons, hFile]
                  exact congrArg (file :: ·) hRest
              | false =>
                  rw [hActive, if_neg Bool.false_ne_true]
                    at hVacant
                  subst hVacant
                  exact hRest

end Library

end MmixAsm

------------------------------------------------------------
-- Files And Programs
------------------------------------------------------------

namespace MmixAsm

namespace SourceFile

/- What the macro lines of a file declare. -/
def table (file : SourceFile) : MacroTable :=
  MacroTable.ofLines file.instructions

/- The lines of a file with the parts around them. -/
def enclosed (file : SourceFile) : List EnclosedLine :=
  EnclosedLine.ofLines [] file.instructions

end SourceFile

namespace Library

/- How the expanded library of some files comes about. -/
structure ExpandsTo
    (files : List SourceFile)
    (library expanded : Library) : Prop where
  holds : library.HoldsFiles files
  passes :
    ∃ selected,
      library.selected = .ok selected ∧
        selected.expanded = .ok expanded

variable {files others : List SourceFile}
variable {library expanded : Library}

theorem ExpandsTo.names_eq
    (h : ExpandsTo files library expanded) :
    expanded.names = library.names := by
  rcases h.passes with ⟨selected, hSelected, hExpanded⟩
  rw [names_of_expanded hExpanded,
    names_of_selected hSelected]

/- What a file has in the expanded library. -/
theorem ExpandsTo.exists_unit
    (h : ExpandsTo files library expanded)
    {file : SourceFile}
    (hFile : file ∈ files) :
    ∃ unit : SourceUnit,
      expanded.unit? file.name = some unit ∧
        library.reading? file.table file.instructions =
          some unit.instructions ∧
        (library.activeLines file.table
          file.instructions).filterMap
            (·.line.includedFile?) = unit.liveInclusions := by
  rcases h.passes with ⟨selected, hSelected, hExpanded⟩
  rcases exists_selected_unit h.holds hSelected hFile with
    ⟨slots, hMem, hSlots⟩
  rcases exists_mem_of_forall₂ (forall₂_of_expanded hExpanded)
    hMem with ⟨⟨name, unit⟩, hResult, hName, hUnit⟩
  have hNames : expanded.names.Nodup := by
    rw [h.names_eq]
    exact h.holds.names
  cases hName
  refine ⟨unit, (unit?_eq_some_iff hNames).mpr hResult,
    reading?_of_expandUnit (sameTables_of_selected hSelected)
      hSlots hUnit, ?_⟩
  rw [liveInclusions_of_expandUnit hUnit]
  exact (inclusions_of_slotAgrees [] hSlots).symm

/- The expanded library has the files of the program only. -/
theorem ExpandsTo.exists_file
    (h : ExpandsTo files library expanded)
    (name : String)
    (hName : name ∈ expanded.names) :
    ∃ file ∈ files, file.name = name := by
  rw [h.names_eq] at hName
  exact h.holds.exists_file name hName

/-
  Files that have the same name, the same active lines and
  the same answers to them.
-/
structure ActsAlike
    (left right : Library)
    (file other : SourceFile) : Prop where
  name : file.name = other.name
  active :
    left.activeLines file.table file.instructions =
      right.activeLines other.table other.instructions
  answers :
    left.AnswersAlike right file.table other.table
      file.enclosed

variable {left leftExpanded right rightExpanded : Library}

/- Files that act alike have the same in both programs. -/
theorem ExpandsTo.unit?_of_actsAlike
    (hLeft : ExpandsTo files left leftExpanded)
    (hRight : ExpandsTo others right rightExpanded)
    {file other : SourceFile}
    (hFile : file ∈ files)
    (hOther : other ∈ others)
    (hAlike : left.ActsAlike right file other) :
    (leftExpanded.unit? file.name).map
        (fun unit => (unit.liveInclusions, unit.instructions)) =
      (rightExpanded.unit? file.name).map
        (fun unit =>
          (unit.liveInclusions, unit.instructions)) := by
  rcases hLeft.exists_unit hFile with
    ⟨unit, hUnit, hReading, hInclusions⟩
  rcases hRight.exists_unit hOther with
    ⟨unit', hUnit', hReading', hInclusions'⟩
  rw [reading?_congr hAlike.active hAlike.answers,
    hReading', Option.some.injEq] at hReading
  rw [← hAlike.name] at hUnit'
  rw [hUnit, hUnit', Option.map_some, Option.map_some,
    ← hInclusions, ← hInclusions', hAlike.active, hReading]

theorem ExpandsTo.unit?_congr
    (hLeft : ExpandsTo files left leftExpanded)
    (hRight : ExpandsTo others right rightExpanded)
    (h : List.Forall₂ (left.ActsAlike right) files others)
    (name : String) :
    (leftExpanded.unit? name).map
        (fun unit => (unit.liveInclusions, unit.instructions)) =
      (rightExpanded.unit? name).map
        (fun unit =>
          (unit.liveInclusions, unit.instructions)) := by
  rcases unit?_none_or_exists_pair (fun _ _ => ActsAlike.name)
    h hLeft.exists_file hRight.exists_file name with
    ⟨hLeftNone, hRightNone⟩ |
      ⟨file, hFile, other, hOther, hAlike, rfl, _⟩
  · rw [hLeftNone, hRightNone]
  · exact hLeft.unit?_of_actsAlike hRight hFile hOther hAlike

end Library

/- A program is put together in the expanded library. -/
theorem exists_of_expandProgram
    {files : List SourceFile}
    {library : Library}
    {program : List Instruction}
    (hLibrary : Library.ofFiles files = .ok library)
    (h : expandProgram files = .ok program) :
    ∃ entry expanded,
      entryFile files = .ok entry ∧
        Library.ExpandsTo files library expanded ∧
        expanded.flatten entry = .ok program := by
  unfold expandProgram at h
  rcases exists_of_bind_eq_ok h with ⟨entry, hEntry, h⟩
  rcases exists_of_bind_eq_ok h with ⟨_, hSame, h⟩
  cases hLibrary.symm.trans hSame
  rcases exists_of_bind_eq_ok h with ⟨selected, hSelected, h⟩
  rcases exists_of_bind_eq_ok h with ⟨expanded, hExpanded, h⟩
  exact ⟨entry, expanded, hEntry,
    ⟨Library.holdsFiles_of_ofFiles hLibrary,
      selected, hSelected, hExpanded⟩, h⟩

/- The entry is found by the names of the marked files. -/
theorem entryFile_congr
    {files others : List SourceFile}
    (h : (files.filter (·.isEntry)).map (·.name) =
      (others.filter (·.isEntry)).map (·.name)) :
    entryFile files = entryFile others := by
  unfold entryFile
  generalize files.filter (·.isEntry) = left at h ⊢
  generalize others.filter (·.isEntry) = right at h ⊢
  cases left with
  | nil => rw [List.map_eq_nil_iff.mp h.symm]
  | cons first rest =>
      cases right with
      | nil => cases h
      | cons first' rest' =>
          rw [List.map_cons, List.map_cons, List.cons.injEq]
            at h
          cases rest with
          | nil =>
              rw [List.map_eq_nil_iff.mp h.2.symm]
              exact congrArg Except.ok h.1
          | cons second _ =>
              cases rest' with
              | nil => cases h.2
              | cons second' _ =>
                  rw [List.map_cons, List.map_cons,
                    List.cons.injEq] at h
                  simp only [h.1, h.2.1]

/- Programs of files that act alike are the same. -/
theorem expandProgram_congr
    {files others : List SourceFile}
    {left right : Library}
    {program result : List Instruction}
    (hEntry : entryFile files = entryFile others)
    (hLeft : Library.ofFiles files = .ok left)
    (hRight : Library.ofFiles others = .ok right)
    (hProgram : expandProgram files = .ok program)
    (hResult : expandProgram others = .ok result)
    (h : List.Forall₂ (left.ActsAlike right) files others) :
    program = result := by
  rcases exists_of_expandProgram hLeft hProgram with
    ⟨entry, leftExpanded, hFile, hLeft, hProgram⟩
  rcases exists_of_expandProgram hRight hResult with
    ⟨entry', rightExpanded, hFile', hRight, hResult⟩
  rw [hEntry, hFile'] at hFile
  cases hFile
  have hFlatten : leftExpanded.flatten entry =
      rightExpanded.flatten entry :=
    Library.flatten_congr_within
      (fun name (_ : True) => hLeft.unit?_congr hRight h name)
      (fun _ _ _ _ _ _ => trivial) trivial
  rw [hFlatten, hResult] at hProgram
  exact (Except.ok.inj hProgram).symm

end MmixAsm
