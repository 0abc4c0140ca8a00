import MmixAsm.Proofs.SameAnswers

/-
  Dropped lines.

  A line that selection drops has no instruction, no instance
  and no inclusion in the program.  Its entry stays in the
  table of its file, though, so it can still be the answer to
  a query.  The answers that active lines get are all that a
  program takes from a dropped line.

  Key definitions include:
    * `MmixAsm.Gap`
    * `MmixAsm.Library.drops`

  Key theorems include:
    * `MmixAsm.Library.activeLines_exchange`
    * `MmixAsm.Library.isActive_eq_false_of_drops`
    * `MmixAsm.Gap.dropped_line_acts_by_answers`
-/

------------------------------------------------------------
-- Inactive Lines
------------------------------------------------------------

namespace MmixAsm

namespace Library

variable {left right : Library}
variable {leftTable rightTable : MacroTable}

/- An inactive line is none of the active lines. -/
theorem activeLines_of_inactive
    {library : Library}
    {table : MacroTable}
    {before : List Instruction}
    {line : Instruction}
    (hLine : line.isBracket = false)
    (hInactive : library.isActive table
      ⟨before.foldl Part.pass [], line⟩ = false)
    (behind : List Instruction) :
    library.activeLines table (before ++ line :: behind) =
      (EnclosedLine.ofLines [] before).filter
          (library.isActive table)
        ++ (EnclosedLine.ofLines (before.foldl Part.pass [])
          behind).filter (library.isActive table) := by
  unfold activeLines
  rw [EnclosedLine.ofLines_append, EnclosedLine.ofLines,
    Part.pass_of_not_isBracket hLine, List.filter_append,
    List.filter_cons_of_neg (by simp [hInactive])]

/- A line that is inactive can be exchanged. -/
theorem activeLines_exchange
    {before behind : List Instruction}
    {line other : Instruction}
    (hLine : line.isBracket = false)
    (hOther : other.isBracket = false)
    (hInactive : left.isActive leftTable
      ⟨before.foldl Part.pass [], line⟩ = false)
    (h : left.AnswersAlike right leftTable rightTable
      (EnclosedLine.ofLines [] (before ++ line :: behind))) :
    left.activeLines leftTable (before ++ line :: behind) =
      right.activeLines rightTable
        (before ++ other :: behind) := by
  -- Both lines lie in the same parts, so `other` is inactive.
  have hBoth : right.isActive rightTable
      ⟨before.foldl Part.pass [], other⟩ = false := by
    have hMem : ⟨before.foldl Part.pass [], line⟩ ∈
        EnclosedLine.ofLines [] (before ++ line :: behind) := by
      rw [EnclosedLine.ofLines_append]
      exact List.mem_append_right _ List.mem_cons_self
    exact (isActive_congr .nil h hMem).symm.trans hInactive
  calc
    left.activeLines leftTable (before ++ line :: behind)
      = right.activeLines rightTable
          (before ++ line :: behind) :=
        activeLines_congr h
    _ = right.activeLines rightTable
          (before ++ other :: behind) := by
        rw [activeLines_of_inactive hLine hBoth,
          activeLines_of_inactive hOther hBoth]

end Library

end MmixAsm

------------------------------------------------------------
-- Exchanged Lines
------------------------------------------------------------

namespace MmixAsm

/- The files of a program with one line left open. -/
structure Gap where
  front : List SourceFile
  name : String
  before : List Instruction
  behind : List Instruction
  isEntry : Bool
  back : List SourceFile

namespace Gap

/- The file with the line. -/
def file
    (gap : Gap)
    (line : Instruction) : SourceFile where
  name := gap.name
  instructions := gap.before ++ line :: gap.behind
  isEntry := gap.isEntry

/- All files with the line. -/
def files
    (gap : Gap)
    (line : Instruction) : List SourceFile :=
  gap.front ++ gap.file line :: gap.back

theorem file_mem_files
    (gap : Gap)
    (line : Instruction) :
    gap.file line ∈ gap.files line :=
  List.mem_append_right _ List.mem_cons_self

/- The line has no part in which file is the entry. -/
theorem entryFile_files
    (gap : Gap)
    (line other : Instruction) :
    entryFile (gap.files line) =
      entryFile (gap.files other) := by
  apply entryFile_congr
  unfold files
  rw [List.filter_append, List.filter_append,
    List.filter_cons, List.filter_cons, List.map_append,
    List.map_append]
  unfold file
  cases gap.isEntry <;> rfl

end Gap

/- Whether selection drops the line at an offset of a file. -/
def Library.drops
    (library : Library)
    (file : String)
    (offset : Nat) : Bool :=
  match library.selected with
  | .ok selected =>
      (selected.unit? file).any (·.isDropped offset)
  | .error _ => false

/- A line that is dropped was not active. -/
theorem Library.isActive_eq_false_of_drops
    {files : List SourceFile}
    {library : Library}
    (hHolds : library.HoldsFiles files)
    {file : SourceFile}
    (hFile : file ∈ files)
    {before behind : List Instruction}
    {line : Instruction}
    (hLines : file.instructions = before ++ line :: behind)
    (hLine : line.isBracket = false)
    (hDropped :
      library.drops file.name before.length = true) :
    library.isActive file.table
      ⟨before.foldl Part.pass [], line⟩ = false := by
  unfold drops at hDropped
  cases hSelected : library.selected with
  | error e => simp [hSelected] at hDropped
  | ok selected =>
      rcases exists_selected_unit hHolds hSelected hFile with
        ⟨slots, hMem, hSlots⟩
      have hNames : selected.names.Nodup := by
        rw [names_of_selected hSelected]
        exact hHolds.names
      rw [hSelected] at hDropped
      simp only [(unit?_eq_some_iff hNames).mpr hMem,
        Option.any_some, SourceUnit.isDropped, beq_iff_eq]
        at hDropped
      have hPlace : (EnclosedLine.ofLines []
          file.instructions)[before.length]? =
            some ⟨before.foldl Part.pass [], line⟩ := by
        rw [hLines, EnclosedLine.ofLines_append,
          List.getElem?_append_right (by simp)]
        simp [EnclosedLine.ofLines]
      rcases exists_getElem?_of_forall₂ hSlots hPlace with
        ⟨slot, hSlot, hAgrees⟩
      cases hSlot.symm.trans hDropped
      apply Bool.eq_false_iff.mpr
      intro hActive
      simp only [SlotAgrees, hLine, Bool.false_eq_true,
        if_false] at hAgrees
      rw [SourceFile.table] at hActive
      rw [if_pos hActive, Slot.ofInstruction] at hAgrees
      split at hAgrees <;> cases hAgrees

/- Files that agree on a name make libraries that do. -/
theorem Library.agreesOn_of_files
    {files others : List SourceFile}
    {left right : Library}
    {name : String}
    (hLeft : left.HoldsFiles files)
    (hRight : right.HoldsFiles others)
    (h : List.Forall₂
      (fun file other =>
        file.name = other.name ∧
          MacroTable.AgreesOn name file.table other.table)
      files others) :
    Library.AgreesOn name left right := by
  intro path
  rcases unit?_none_or_exists_pair (fun _ _ => And.left) h
    hLeft.exists_file hRight.exists_file path with
    ⟨hLeftNone, hRightNone⟩ |
      ⟨file, hFile, other, hOther, ⟨_, hTable⟩, rfl, hName⟩
  · rw [hLeftNone, hRightNone]
    exact .none
  · rw [hLeft.unit?_of_mem hFile, ← hName,
      hRight.unit?_of_mem hOther]
    exact .some hTable

namespace Gap

variable (gap : Gap)
variable {line other : Instruction}
variable {left right : Library}

/- Relations of files are those of the file with the gap. -/
theorem forall₂_files
    {r : SourceFile → SourceFile → Prop}
    (hFile : r (gap.file line) (gap.file other))
    (hOthers : ∀ file ∈ gap.front ++ gap.back, r file file) :
    List.Forall₂ r (gap.files line) (gap.files other) := by
  apply List.rel_append
  · apply List.forall₂_same.mpr
    intro file hMem
    exact hOthers file (List.mem_append_left _ hMem)
  · refine .cons hFile (List.forall₂_same.mpr ?_)
    intro file hMem
    exact hOthers file (List.mem_append_right _ hMem)

/-
  Where no active line asks about a name that one of the two
  lines defines, all active lines get the same answers.
-/
theorem answersAlike_of_names
    (hLeft : left.HoldsFiles (gap.files line))
    (hRight : right.HoldsFiles (gap.files other))
    (hLinks : line.includedFile? = other.includedFile?)
    {file file' : SourceFile}
    (hTables : ∀ name,
      line.definedName? ≠ some name →
        other.definedName? ≠ some name →
          MacroTable.AgreesOn name file.table file'.table)
    (h : ∀ enclosed ∈ file.enclosed,
      left.isActive file.table enclosed = true →
        ∀ query ∈ enclosed.line.query?,
          line.definedName? ≠ some query.name ∧
            other.definedName? ≠ some query.name) :
    left.AnswersAlike right file.table file'.table
      file.enclosed := by
  intro enclosed hEnclosed hActive query hQuery
  rcases h enclosed hEnclosed hActive query hQuery with
    ⟨hLine, hOther⟩
  have hFiles : Library.AgreesOn query.name left right := by
    apply Library.agreesOn_of_files hLeft hRight
    apply gap.forall₂_files
    · exact ⟨rfl, MacroTable.agreesOn_of_exchange hLinks hLine
        hOther gap.before gap.behind⟩
    · exact fun file _ => ⟨rfl, .refl _ _⟩
  exact Library.answer_of_agreesOn hFiles
    (hTables query.name hLine hOther)

/-
  A dropped line acts by answers only.  Let a line that opens,
  divides or closes no region be dropped, and exchange it for
  another such line.  If the active lines of all files get the
  same answers as before, then the program is the same.  This
  is so if both lines include the same file, or none, and no
  active line asks about a name that one of them defines.
-/
theorem dropped_line_acts_by_answers
    (hLine : line.isBracket = false)
    (hOther : other.isBracket = false)
    (hLeft : Library.ofFiles (gap.files line) = .ok left)
    (hRight : Library.ofFiles (gap.files other) = .ok right)
    (hDropped :
      left.drops gap.name gap.before.length = true)
    {program result : List Instruction}
    (hProgram : expandProgram (gap.files line) = .ok program)
    (hResult : expandProgram (gap.files other) = .ok result) :
    (left.AnswersAlike right (gap.file line).table
        (gap.file other).table (gap.file line).enclosed →
      (∀ file ∈ gap.front ++ gap.back,
        left.AnswersAlike right file.table file.table
          file.enclosed) →
      program = result) ∧
    (line.includedFile? = other.includedFile? →
      (∀ file ∈ gap.files line,
        ∀ enclosed ∈ file.enclosed,
          left.isActive file.table enclosed = true →
            ∀ query ∈ enclosed.line.query?,
              line.definedName? ≠ some query.name ∧
                other.definedName? ≠ some query.name) →
      program = result) := by
  have hHolds := Library.holdsFiles_of_ofFiles hLeft
  have hHolds' := Library.holdsFiles_of_ofFiles hRight
  have hInactive := Library.isActive_eq_false_of_drops hHolds
    (gap.file_mem_files line) rfl hLine hDropped
  have hAnswers :
      left.AnswersAlike right (gap.file line).table
          (gap.file other).table (gap.file line).enclosed →
        (∀ file ∈ gap.front ++ gap.back,
          left.AnswersAlike right file.table file.table
            file.enclosed) →
        program = result := by
    intro hFile hOthers
    refine expandProgram_congr (gap.entryFile_files line other)
      hLeft hRight hProgram hResult (gap.forall₂_files ?_ ?_)
    · exact ⟨rfl, Library.activeLines_exchange hLine hOther
        hInactive hFile, hFile⟩
    · intro file hMem
      have hAlike := hOthers file hMem
      exact ⟨rfl, Library.activeLines_congr hAlike, hAlike⟩
  refine ⟨hAnswers, ?_⟩
  intro hLinks hNames
  apply hAnswers
  · exact gap.answersAlike_of_names hHolds hHolds' hLinks
      (fun name hName hName' =>
        MacroTable.agreesOn_of_exchange hLinks hName hName'
          gap.before gap.behind)
      (hNames _ (gap.file_mem_files line))
  · intro file hMem
    refine gap.answersAlike_of_names hHolds hHolds' hLinks
      (fun name _ _ => .refl name _) (hNames file ?_)
    exact List.mem_append.mpr
      ((List.mem_append.mp hMem).imp_right
        (List.mem_cons_of_mem _))

/- A gap in a part that is left out, with a library file. -/
def leftOut : Gap where
  front := [⟨"lib", [.op ⟨none, "TRAP", ["0"]⟩], false⟩]
  name := "main"
  before := [
    .macroTemplate ⟨some "inc", .definition, ["r"]⟩
      (.op ⟨none, "ADD", ["&r", "&r", "1"]⟩),
    .macroLine ⟨none, .ifUndefined, ["inc"]⟩]
  behind := [
    .macroLine ⟨none, .endIf, []⟩,
    .macroLine ⟨none, .application, ["inc", "$1"]⟩,
    .macroLine ⟨none, .inclusion, ["lib"]⟩]
  isEntry := true
  back := []

/- A constant that no line asks about, and an operation. -/
theorem leftOut_is_inert :
    let line : Instruction :=
      .macroLine ⟨none, .constant, ["mode", "1"]⟩
    let other : Instruction := .op ⟨none, "SWYM", []⟩
    ∃ left right program result,
      Library.ofFiles (leftOut.files line) = .ok left ∧
        Library.ofFiles (leftOut.files other) = .ok right ∧
        left.drops "main" 2 = true ∧
        expandProgram (leftOut.files line) = .ok program ∧
        expandProgram (leftOut.files other) = .ok result ∧
        program = [
          .op ⟨none, "TRAP", ["0"]⟩,
          .op ⟨none, "ADD", ["$1", "$1", "1"]⟩] ∧
        program = result := by
  intro line other
  let left :=
    (Library.ofFiles (leftOut.files line)).toOption.getD .empty
  let right :=
    (Library.ofFiles (leftOut.files other)).toOption.getD .empty
  let leftExpanded := (Library.expansion
    (leftOut.files line)).toOption.getD .empty
  let rightExpanded := (Library.expansion
    (leftOut.files other)).toOption.getD .empty
  have hLeft : Library.ofFiles (leftOut.files line) =
      .ok left := by
    decide +kernel
  have hRight : Library.ofFiles (leftOut.files other) =
      .ok right := by
    decide +kernel
  have hDropped : left.drops "main" 2 = true := by
    decide +kernel
  have hEntry : ∀ line,
      entryFile (leftOut.files line) = .ok "main" :=
    fun _ => rfl
  have hProgram : expandProgram (leftOut.files line) =
      .ok (["lib", "main"].flatMap
        leftExpanded.instructionsOf) := by
    have hExpanded : Library.expansion (leftOut.files line) =
        .ok leftExpanded := by
      decide +kernel
    have hMain : (leftExpanded.unit? "main").map
        (·.liveInclusions) = some ["lib"] := by
      decide +kernel
    have hLib : (leftExpanded.unit? "lib").map
        (·.liveInclusions) = some [] := by
      decide +kernel
    apply expandProgram_of_fileOrder (hEntry _) hExpanded
    simp [Library.fileOrder, Library.orderFrom_cons, hMain,
      hLib, Except.bind]
  have hResult : expandProgram (leftOut.files other) =
      .ok (["lib", "main"].flatMap
        rightExpanded.instructionsOf) := by
    have hExpanded : Library.expansion (leftOut.files other) =
        .ok rightExpanded := by
      decide +kernel
    have hMain : (rightExpanded.unit? "main").map
        (·.liveInclusions) = some ["lib"] := by
      decide +kernel
    have hLib : (rightExpanded.unit? "lib").map
        (·.liveInclusions) = some [] := by
      decide +kernel
    apply expandProgram_of_fileOrder (hEntry _) hExpanded
    simp [Library.fileOrder, Library.orderFrom_cons, hMain,
      hLib, Except.bind]
  have hInert := (dropped_line_acts_by_answers leftOut
    (by decide) (by decide) hLeft hRight hDropped hProgram
    hResult).2 (by decide) (by decide +kernel)
  exact ⟨left, right, _, _, hLeft, hRight, hDropped, hProgram,
    hResult, by decide +kernel, hInert⟩

/- A gap in a part that is left out, and a later question. -/
def askedLater : Gap where
  front := []
  name := "main"
  before := [
    .macroLine ⟨none, .constant, ["here"]⟩,
    .macroLine ⟨none, .ifUndefined, ["here"]⟩]
  behind := [
    .macroLine ⟨none, .endIf, []⟩,
    .macroLine ⟨none, .ifCondition, ["mode==1"]⟩,
    .op ⟨none, "TRAP", ["0"]⟩,
    .macroLine ⟨none, .endIf, []⟩,
    .op ⟨none, "SWYM", []⟩]
  isEntry := true
  back := []

/- A constant answers although its line is dropped. -/
theorem askedLater_gets_answers :
    let line : Instruction :=
      .macroLine ⟨none, .constant, ["mode", "1"]⟩
    let other : Instruction :=
      .macroLine ⟨none, .constant, ["mode", "2"]⟩
    ∃ left right program result,
      line.isBracket = false ∧
        other.isBracket = false ∧
        Library.ofFiles (askedLater.files line) = .ok left ∧
        Library.ofFiles (askedLater.files other) = .ok right ∧
        left.drops "main" 2 = true ∧
        right.drops "main" 2 = true ∧
        expandProgram (askedLater.files line) = .ok program ∧
        expandProgram (askedLater.files other) = .ok result ∧
        program = [
          .op ⟨none, "TRAP", ["0"]⟩,
          .op ⟨none, "SWYM", []⟩] ∧
        result = [.op ⟨none, "SWYM", []⟩] := by
  intro line other
  let left := (Library.ofFiles
    (askedLater.files line)).toOption.getD .empty
  let right := (Library.ofFiles
    (askedLater.files other)).toOption.getD .empty
  let leftExpanded := (Library.expansion
    (askedLater.files line)).toOption.getD .empty
  let rightExpanded := (Library.expansion
    (askedLater.files other)).toOption.getD .empty
  have hEntry : ∀ line,
      entryFile (askedLater.files line) = .ok "main" :=
    fun _ => rfl
  have hProgram : expandProgram (askedLater.files line) =
      .ok (["main"].flatMap leftExpanded.instructionsOf) := by
    apply expandProgram_of_fileOrder (hEntry line)
    · decide +kernel
    · apply Library.fileOrder_of_alone
      decide +kernel
  have hResult : expandProgram (askedLater.files other) =
      .ok (["main"].flatMap rightExpanded.instructionsOf) := by
    apply expandProgram_of_fileOrder (hEntry other)
    · decide +kernel
    · apply Library.fileOrder_of_alone
      decide +kernel
  exact ⟨left, right, _, _, by decide, by decide,
    by decide +kernel, by decide +kernel, by decide +kernel,
    by decide +kernel, hProgram, hResult, by decide +kernel,
    by decide +kernel⟩

end Gap

end MmixAsm
