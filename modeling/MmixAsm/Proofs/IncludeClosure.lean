import MmixAsm.Proofs.SameAnswers

/-
  Files that a program does not include.

  All files of a program go through the macro passes together,
  but a file learns only from the files that it includes,
  directly or through others.  So the files that the entry
  does not include leave no trace in the program, also if
  INCLUDE lines on dropped lines run in circles.

  Key definitions include:
    * `MmixAsm.Library.SharesClosure`
    * `MmixAsm.fileNamed?`
    * `MmixAsm.IncludedFrom`

  Key theorems include:
    * `MmixAsm.Library.SharesClosure.answer_eq`
    * `MmixAsm.Library.ExpandsTo.unit?_congr_closure`
    * `MmixAsm.expandProgram_of_closure`
-/

------------------------------------------------------------
-- Answers Inside A Closure
------------------------------------------------------------

namespace MmixAsm

namespace Library

/-
  Libraries that have the same units under some names, which
  link to such names only.
-/
structure SharesClosure
    (left right : Library)
    (within : String → Prop) : Prop where
  units : ∀ name, within name →
    left.unit? name = right.unit? name
  closed : ∀ name unit, within name →
    left.unit? name = some unit →
      ∀ file ∈ unit.table.includedFiles, within file

variable {left right : Library}
variable {within : String → Prop}

/- Searches from the closure stay inside it. -/
theorem within_of_mem_reachable
    {library : Library}
    (hClosed : ∀ name unit, within name →
      library.unit? name = some unit →
        ∀ file ∈ unit.table.includedFiles, within file)
    {visited queue : List String}
    (hQueue : ∀ name ∈ queue, within name)
    {name : String}
    (hName : name ∈ library.reachable visited queue) :
    within name := by
  induction visited, queue using reachable.induct library with
  | case1 visited =>
      rw [reachable] at hName
      cases hName
  | case2 visited head rest hVisited ih =>
      rcases List.forall_mem_cons.mp hQueue with ⟨_, hRest⟩
      rw [reachable_cons, if_pos hVisited] at hName
      exact ih hRest hName
  | case3 visited head rest hVisited hUnit ih =>
      rcases List.forall_mem_cons.mp hQueue with ⟨_, hRest⟩
      simp only [reachable_cons, if_neg hVisited, hUnit,
        Option.map_none] at hName
      exact ih hRest hName
  | case4 visited head rest hVisited unit hUnit ih =>
      rcases List.forall_mem_cons.mp hQueue with ⟨hHead, hRest⟩
      simp only [reachable_cons, if_neg hVisited, hUnit,
        Option.map_some, List.mem_cons] at hName
      rcases hName with rfl | hName
      · exact hHead
      · refine ih (List.forall_mem_append.mpr ⟨hRest, ?_⟩) hName
        exact hClosed head unit hHead hUnit

theorem SharesClosure.tablesFrom_eq
    (h : left.SharesClosure right within)
    {table : MacroTable}
    (hTable : ∀ file ∈ table.includedFiles, within file) :
    left.tablesFrom table = right.tablesFrom table := by
  have hReachable :
      left.reachable [] table.includedFiles =
        right.reachable [] table.includedFiles := by
    apply reachable_congr_within _ h.closed [] hTable
    intro name hName
    rw [h.units name hName]
  unfold tablesFrom
  refine congrArg (table :: ·) ?_
  rw [← MacroTable.includedFiles, ← hReachable]
  apply List.filterMap_congr
  intro name hName
  rw [h.units name
    (within_of_mem_reachable h.closed hTable hName)]

/- A table that links into the closure gets the same answers. -/
theorem SharesClosure.answer_eq
    (h : left.SharesClosure right within)
    {table : MacroTable}
    (hTable : ∀ file ∈ table.includedFiles, within file)
    (query : Query) :
    left.answer table query = right.answer table query := by
  have hTables := h.tablesFrom_eq hTable
  cases query with
  | defined name =>
      simp only [answer, isDefined, hTables]
  | constant name =>
      simp only [answer, constant?, findFrom, hTables]
  | template name =>
      simp only [answer, template?, findFrom, hTables]

end Library

end MmixAsm

------------------------------------------------------------
-- Closures Of Source Files
------------------------------------------------------------

namespace MmixAsm

/- The file with a name. -/
def fileNamed?
    (files : List SourceFile)
    (name : String) : Option SourceFile :=
  files.find? (·.name == name)

/-
  The names that are met when INCLUDE lines are followed from
  an entry, whether or not the lines are dropped.
-/
inductive IncludedFrom
    (files : List SourceFile)
    (entry : String) : String → Prop
  | entry : IncludedFrom files entry entry
  | inclusion
      {name other : String}
      {file : SourceFile}
      {line : Instruction}
      (hName : IncludedFrom files entry name)
      (hFile : fileNamed? files name = some file)
      (hLine : line ∈ file.instructions)
      (hOther : line.includedFile? = some other) :
      IncludedFrom files entry other

theorem fileNamed?_eq_some
    {files : List SourceFile}
    {name : String}
    {file : SourceFile}
    (h : fileNamed? files name = some file) :
    file ∈ files ∧ file.name = name := by
  have hName := List.find?_some h
  exact ⟨List.mem_of_find?_eq_some h, eq_of_beq hName⟩

/- The links of a file are those of its INCLUDE lines. -/
theorem SourceFile.includedFiles_table (file : SourceFile) :
    file.table.includedFiles =
      file.instructions.filterMap Instruction.includedFile? :=
  MacroTable.includedFiles_ofLinesFrom 0 file.instructions

theorem IncludedFrom.of_mem_includedFiles
    {files : List SourceFile}
    {entry name other : String}
    {file : SourceFile}
    (hName : IncludedFrom files entry name)
    (hFile : fileNamed? files name = some file)
    (hOther : other ∈ file.table.includedFiles) :
    IncludedFrom files entry other := by
  rw [file.includedFiles_table] at hOther
  rcases List.mem_filterMap.mp hOther with
    ⟨line, hLine, hOther⟩
  exact .inclusion hName hFile hLine hOther

namespace Library

/- A library has the units of the files it was made of. -/
theorem HoldsFiles.unit?_eq
    {library : Library}
    {files : List SourceFile}
    (hHolds : library.HoldsFiles files)
    (name : String) :
    library.unit? name =
      (fileNamed? files name).map fun file =>
        .ofLines file.instructions := by
  cases hFile : fileNamed? files name with
  | some file =>
      rcases fileNamed?_eq_some hFile with ⟨hMem, rfl⟩
      exact hHolds.unit?_of_mem hMem
  | none =>
      apply Option.eq_none_iff_forall_ne_some.mpr
      intro unit hUnit
      rcases hHolds.exists_file name (mem_names_of_unit? hUnit)
        with ⟨file, hMem, hName⟩
      exact List.find?_eq_none.mp hFile file hMem
        (beq_iff_eq.mpr hName)

variable {files others : List SourceFile}
variable {left right : Library}
variable {entry : String}

theorem sharesClosure_of_files
    (hLeft : left.HoldsFiles files)
    (hRight : right.HoldsFiles others)
    (hSame : ∀ name, IncludedFrom files entry name →
      fileNamed? files name = fileNamed? others name) :
    left.SharesClosure right (IncludedFrom files entry) where
  units name hName := by
    rw [hLeft.unit?_eq, hRight.unit?_eq, hSame name hName]
  closed name unit hName hUnit other hOther := by
    rw [hLeft.unit?_eq] at hUnit
    rcases Option.map_eq_some_iff.mp hUnit with
      ⟨file, hFile, rfl⟩
    exact hName.of_mem_includedFiles hFile hOther

/- A file that links into the closure acts alike in both. -/
theorem SharesClosure.actsAlike
    {within : String → Prop}
    (h : left.SharesClosure right within)
    {file : SourceFile}
    (hFile : ∀ other ∈ file.table.includedFiles, within other) :
    left.ActsAlike right file file := by
  have hAnswers : left.AnswersAlike right file.table file.table
      file.enclosed :=
    fun _ _ _ query _ => h.answer_eq hFile query
  exact ⟨rfl, activeLines_congr hAnswers, hAnswers⟩

variable {leftExpanded rightExpanded : Library}

theorem ExpandsTo.unit?_eq_none
    (h : ExpandsTo files left leftExpanded)
    {name : String}
    (hName : fileNamed? files name = none) :
    leftExpanded.unit? name = none := by
  apply Option.eq_none_iff_forall_ne_some.mpr
  intro unit hUnit
  rcases h.exists_file name (mem_names_of_unit? hUnit) with
    ⟨file, hFile, hSame⟩
  exact List.find?_eq_none.mp hName file hFile
    (beq_iff_eq.mpr hSame)

/- The files of the closure have the same in both programs. -/
theorem ExpandsTo.unit?_congr_closure
    (hLeft : ExpandsTo files left leftExpanded)
    (hRight : ExpandsTo others right rightExpanded)
    (hSame : ∀ name, IncludedFrom files entry name →
      fileNamed? files name = fileNamed? others name)
    {name : String}
    (hName : IncludedFrom files entry name) :
    (leftExpanded.unit? name).map
        (fun unit => (unit.liveInclusions, unit.instructions)) =
      (rightExpanded.unit? name).map
        (fun unit =>
          (unit.liveInclusions, unit.instructions)) := by
  cases hFile : fileNamed? files name with
  | none =>
      have hOther := (hSame name hName).symm.trans hFile
      rw [hLeft.unit?_eq_none hFile, hRight.unit?_eq_none hOther]
  | some file =>
      have hOther := (hSame name hName).symm.trans hFile
      have hShares := sharesClosure_of_files hLeft.holds
        hRight.holds hSame
      rcases fileNamed?_eq_some hFile with ⟨hMem, rfl⟩
      exact hLeft.unit?_of_actsAlike hRight hMem
        (fileNamed?_eq_some hOther).1
        (hShares.actsAlike fun _ hLink =>
          hName.of_mem_includedFiles hFile hLink)

/- The live inclusions of the closure lead into it. -/
theorem ExpandsTo.includedFrom_of_liveInclusions
    (h : ExpandsTo files left leftExpanded)
    {name other : String}
    {unit : SourceUnit}
    (hName : IncludedFrom files entry name)
    (hUnit : leftExpanded.unit? name = some unit)
    (hOther : other ∈ unit.liveInclusions) :
    IncludedFrom files entry other := by
  cases hFile : fileNamed? files name with
  | none => cases (h.unit?_eq_none hFile).symm.trans hUnit
  | some file =>
      rcases fileNamed?_eq_some hFile with ⟨hMem, rfl⟩
      rcases h.exists_unit hMem with ⟨_, hSame, _, hInclusions⟩
      cases hUnit.symm.trans hSame
      rw [← hInclusions] at hOther
      rcases List.mem_filterMap.mp hOther with
        ⟨enclosed, hEnclosed, hOther⟩
      have hLine : enclosed.line ∈ file.instructions := by
        rw [← EnclosedLine.map_line_ofLines [] file.instructions]
        exact List.mem_map_of_mem (List.mem_filter.mp hEnclosed).1
      exact .inclusion hName hFile hLine hOther

end Library

/- A program is made of files that have a library. -/
theorem exists_ofFiles_of_expandProgram
    {files : List SourceFile}
    {program : List Instruction}
    (h : expandProgram files = .ok program) :
    ∃ library, Library.ofFiles files = .ok library := by
  unfold expandProgram at h
  rcases exists_of_bind_eq_ok h with ⟨_, _, h⟩
  rcases exists_of_bind_eq_ok h with ⟨library, hLibrary, _⟩
  exact ⟨library, hLibrary⟩

/-
  Two lists of files with the same entry, which have the same
  file or none under each name that INCLUDE lines lead to from
  the entry, make the same program, if they make one at all.
-/
theorem expandProgram_of_closure
    {files others : List SourceFile}
    {entry : String}
    {program result : List Instruction}
    (hFiles : entryFile files = .ok entry)
    (hOthers : entryFile others = .ok entry)
    (hProgram : expandProgram files = .ok program)
    (hResult : expandProgram others = .ok result)
    (hSame : ∀ name, IncludedFrom files entry name →
      fileNamed? files name = fileNamed? others name) :
    program = result := by
  rcases exists_ofFiles_of_expandProgram hProgram with
    ⟨left, hLibrary⟩
  rcases exists_ofFiles_of_expandProgram hResult with
    ⟨right, hLibrary'⟩
  rcases exists_of_expandProgram hLibrary hProgram with
    ⟨_, leftExpanded, hEntry, hLeft, hProgram⟩
  rcases exists_of_expandProgram hLibrary' hResult with
    ⟨_, rightExpanded, hEntry', hRight, hResult⟩
  cases hFiles.symm.trans hEntry
  cases hOthers.symm.trans hEntry'
  have hFlatten : leftExpanded.flatten entry =
      rightExpanded.flatten entry :=
    Library.flatten_congr_within
      (fun _ hName => hLeft.unit?_congr_closure hRight hSame hName)
      (fun _ _ hName hUnit _ hOther =>
        hLeft.includedFrom_of_liveInclusions hName hUnit hOther)
      .entry
  rw [hFlatten, hResult] at hProgram
  exact (Except.ok.inj hProgram).symm

/-
  The entry has a template and includes another file.  On
  dropped lines it includes itself and a missing file.
-/
def roundEntry : SourceFile where
  name := "main"
  instructions := [
    .macroTemplate ⟨some "load", .definition, ["r"]⟩
      (.op ⟨none, "SETL", ["&r", "1"]⟩),
    .macroLine ⟨none, .inclusion, ["lib"]⟩,
    .macroLine ⟨none, .ifUndefined, ["load"]⟩,
    .macroLine ⟨none, .inclusion, ["main"]⟩,
    .macroLine ⟨none, .inclusion, ["missing"]⟩,
    .macroLine ⟨none, .endIf, []⟩,
    .macroLine ⟨none, .application, ["load", "$1"]⟩]
  isEntry := true

def plainFile : SourceFile where
  name := "lib"
  instructions := [.op ⟨none, "SWYM", []⟩]
  isEntry := false

/- A file that no other file includes. -/
def strayFile
    (line : Instruction) : SourceFile where
  name := "stray"
  instructions := [line]
  isEntry := false

/- A stray template of the same name is not used. -/
theorem roundEntry_ignores_stray :
    let files := [roundEntry, plainFile,
      strayFile (.op ⟨none, "TRAP", ["0"]⟩)]
    let others := [
      strayFile (.macroTemplate ⟨some "load", .definition, []⟩
        (.op ⟨none, "TRAP", ["1"]⟩)),
      plainFile, roundEntry]
    ∃ program result,
      expandProgram files = .ok program ∧
        expandProgram others = .ok result ∧
        IncludedFrom files "main" "missing" ∧
        (∀ name, IncludedFrom files "main" name →
          fileNamed? files name = fileNamed? others name) ∧
        program = [
          .op ⟨none, "SWYM", []⟩,
          .op ⟨none, "SETL", ["$1", "1"]⟩] ∧
        program = result := by
  intro files others
  let left := (Library.expansion files).toOption.getD .empty
  let right := (Library.expansion others).toOption.getD .empty
  have hProgram : expandProgram files =
      .ok (["lib", "main"].flatMap left.instructionsOf) := by
    have hMain : (left.unit? "main").map (·.liveInclusions) =
        some ["lib"] := by
      decide +kernel
    have hLib : (left.unit? "lib").map (·.liveInclusions) =
        some [] := by
      decide +kernel
    have hOrder : left.fileOrder "main" =
        .ok ["lib", "main"] := by
      simp [Library.fileOrder, Library.orderFrom_cons, hMain,
        hLib, Except.bind]
    exact expandProgram_of_fileOrder rfl (by decide +kernel)
      hOrder
  have hResult : expandProgram others =
      .ok (["lib", "main"].flatMap right.instructionsOf) := by
    have hMain : (right.unit? "main").map (·.liveInclusions) =
        some ["lib"] := by
      decide +kernel
    have hLib : (right.unit? "lib").map (·.liveInclusions) =
        some [] := by
      decide +kernel
    have hOrder : right.fileOrder "main" =
        .ok ["lib", "main"] := by
      simp [Library.fileOrder, Library.orderFrom_cons, hMain,
        hLib, Except.bind]
    exact expandProgram_of_fileOrder rfl (by decide +kernel)
      hOrder
  have hMissing : IncludedFrom files "main" "missing" := by
    have hFile : fileNamed? files "main" = some roundEntry := rfl
    have hLine : .macroLine ⟨none, .inclusion, ["missing"]⟩ ∈
        roundEntry.instructions := by
      decide
    exact .inclusion .entry hFile hLine (by decide)
  -- INCLUDE lines lead nowhere else.
  let names := ["main", "lib", "missing"]
  have hClosed : ∀ name ∈ names,
      ∀ file ∈ fileNamed? files name,
        ∀ line ∈ file.instructions,
          ∀ other ∈ line.includedFile?, other ∈ names := by
    decide +kernel
  have hNames : ∀ name, IncludedFrom files "main" name →
      name ∈ names := by
    intro name hName
    induction hName with
    | entry => exact List.mem_cons_self
    | inclusion _ hFile hLine hOther ih =>
        exact hClosed _ ih _ hFile _ hLine _ hOther
  have hEqual : ∀ name ∈ names,
      fileNamed? files name = fileNamed? others name := by
    decide +kernel
  have hSame : ∀ name, IncludedFrom files "main" name →
      fileNamed? files name = fileNamed? others name :=
    fun name hName => hEqual name (hNames name hName)
  exact ⟨_, _, hProgram, hResult, hMissing, hSame,
    by decide +kernel,
    expandProgram_of_closure rfl rfl hProgram hResult hSame⟩

end MmixAsm
