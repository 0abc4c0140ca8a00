import Mathlib.Data.List.Nodup
import MmixAsm.Macro.Library
import MmixAsm.Proofs.Balance
import MmixAsm.Proofs.Outcome

/-
  What a library holds, and what its lookups depend on.

  A library that was made of some files holds exactly their
  units, each under its own name, and the lines of every file
  are balanced.  Lookups read tables only, so libraries with
  the same tables give the same answers.

  Key definitions include:
    * `MmixAsm.SourceUnit.ofLines`
    * `MmixAsm.Library.HoldsFiles`
    * `MmixAsm.Library.SameTables`
    * `MmixAsm.Library.SameLinks`

  Key theorems include:
    * `MmixAsm.Library.holdsFiles_of_ofFiles`
    * `MmixAsm.Library.unit?_eq_some_iff`
    * `MmixAsm.Library.reachable_congr_within`
    * `MmixAsm.Library.tablesFrom_congr`
-/

------------------------------------------------------------
-- Units Of Files
------------------------------------------------------------

namespace MmixAsm

/- The unit of the given lines before any of them is dropped. -/
def SourceUnit.ofLines (lines : List Instruction) : SourceUnit where
  slots := lines.map Slot.ofInstruction
  table := MacroTable.ofLines lines

theorem SourceUnit.eq_ofLines_of_ofFile
    {file : SourceFile}
    {unit : SourceUnit}
    (h : SourceUnit.ofFile file = .ok unit) :
    unit = .ofLines file.instructions ∧
      Balanced file.instructions := by
  rcases exists_of_map_eq_ok h with ⟨survey, hSurvey, hUnit⟩
  exact ⟨hUnit.symm, Survey.balanced_of_ofLines hSurvey⟩

/- A file as it stands in a library. -/
def SourceFile.entry (file : SourceFile) : String × SourceUnit :=
  (file.name, .ofLines file.instructions)

namespace Library

/-
  A library that holds exactly the given files, with names
  that differ and lines that are balanced.
-/
structure HoldsFiles
    (library : Library)
    (files : List SourceFile) : Prop where
  units : library.units.Perm (files.map SourceFile.entry)
  names : library.names.Nodup
  balanced : ∀ file ∈ files, Balanced file.instructions

theorem HoldsFiles.entry_mem
    {library : Library}
    {files : List SourceFile}
    (hHolds : library.HoldsFiles files)
    {file : SourceFile}
    (hFile : file ∈ files) :
    file.entry ∈ library.units :=
  hHolds.units.mem_iff.mpr (List.mem_map_of_mem hFile)

theorem insertUnit_perm
    (name : String)
    (unit : SourceUnit)
    (units : List (String × SourceUnit)) :
    (insertUnit name unit units).Perm
      ((name, unit) :: units) := by
  induction units with
  | nil => exact .refl _
  | cons entry rest ih =>
      unfold insertUnit
      split
      · exact .refl _
      · exact (ih.cons entry).trans (.swap _ _ _)

/- Adding a file adds its unit under a new name. -/
theorem holdsFiles_add
    {library next : Library}
    {files : List SourceFile}
    {file : SourceFile}
    (hHolds : library.HoldsFiles files)
    (h : library.add file = .ok next) :
    next.HoldsFiles (files ++ [file]) := by
  unfold add at h
  split at h
  · cases h
  · rename_i unit hUnit
    rcases SourceUnit.eq_ofLines_of_ofFile hUnit with
      ⟨rfl, hBalanced⟩
    split at h
    · cases h
    · rename_i hNew
      cases h
      have hInsert :=
        insertUnit_perm file.name (.ofLines file.instructions)
          library.units
      refine ⟨?_, ?_, ?_⟩
      · rw [List.map_append]
        refine hInsert.trans ?_
        refine (hHolds.units.cons file.entry).trans ?_
        exact (List.perm_append_singleton _ _).symm
      · refine (hInsert.map (·.1)).nodup_iff.mpr ?_
        refine List.nodup_cons.mpr ⟨?_, hHolds.names⟩
        simpa [names] using hNew
      · intro other hOther
        rcases List.mem_append.mp hOther with hOld | hLast
        · exact hHolds.balanced other hOld
        · rw [List.mem_singleton.mp hLast]
          exact hBalanced

theorem holdsFiles_of_foldlM
    {library result : Library}
    {files others : List SourceFile}
    (hHolds : library.HoldsFiles files)
    (h : others.foldlM add library = .ok result) :
    result.HoldsFiles (files ++ others) := by
  induction others generalizing library files with
  | nil =>
      cases h
      rwa [List.append_nil]
  | cons file rest ih =>
      rw [List.foldlM_cons] at h
      rcases exists_of_bind_eq_ok h with ⟨next, hAdd, hRest⟩
      have hNext := ih (holdsFiles_add hHolds hAdd) hRest
      rwa [List.append_assoc] at hNext

/- The library of some files holds exactly these files. -/
theorem holdsFiles_of_ofFiles
    {library : Library}
    {files : List SourceFile}
    (h : ofFiles files = .ok library) :
    library.HoldsFiles files := by
  have hEmpty : Library.empty.HoldsFiles [] :=
    ⟨.nil, .nil, by simp⟩
  exact holdsFiles_of_foldlM hEmpty h

/- Under names that differ every unit can be found. -/
theorem unit?_eq_some_iff
    {library : Library}
    (hNames : library.names.Nodup)
    {name : String}
    {unit : SourceUnit} :
    library.unit? name = some unit ↔
      (name, unit) ∈ library.units := by
  unfold unit?
  unfold names at hNames
  generalize library.units = units at hNames ⊢
  induction units with
  | nil => simp
  | cons entry rest ih =>
      rcases entry with ⟨other, first⟩
      rw [List.map_cons, List.nodup_cons] at hNames
      rw [List.lookup_cons, List.mem_cons, Prod.mk.injEq]
      by_cases hName : name = other
      · subst hName
        have hNotMem : (name, unit) ∉ rest := by
          intro hMem
          exact hNames.1 (List.mem_map.mpr ⟨_, hMem, rfl⟩)
        simp [hNotMem, eq_comm]
      · have hBeq : (name == other) = false := by
          simpa using hName
        rw [hBeq]
        simp [hName, ih hNames.2]

/- A file can be found under its name. -/
theorem HoldsFiles.unit?_of_mem
    {library : Library}
    {files : List SourceFile}
    (hHolds : library.HoldsFiles files)
    {file : SourceFile}
    (hFile : file ∈ files) :
    library.unit? file.name =
      some (.ofLines file.instructions) :=
  (unit?_eq_some_iff hHolds.names).mpr (hHolds.entry_mem hFile)

/- There is no name without a file. -/
theorem HoldsFiles.exists_file
    {library : Library}
    {files : List SourceFile}
    (hHolds : library.HoldsFiles files)
    (name : String)
    (hName : name ∈ library.names) :
    ∃ file ∈ files, file.name = name := by
  rcases List.mem_map.mp hName with ⟨entry, hEntry, rfl⟩
  rcases List.mem_map.mp (hHolds.units.mem_iff.mp hEntry)
    with ⟨file, hFile, rfl⟩
  exact ⟨file, hFile, rfl⟩

/-
  A name is missing in two libraries, or it belongs to files
  of both that are related.
-/
theorem unit?_none_or_exists_pair
    {left right : Library}
    {files others : List SourceFile}
    {r : SourceFile → SourceFile → Prop}
    (hNames : ∀ file other,
      r file other → file.name = other.name)
    (h : List.Forall₂ r files others)
    (hLeft : ∀ name ∈ left.names,
      ∃ file ∈ files, file.name = name)
    (hRight : ∀ name ∈ right.names,
      ∃ other ∈ others, other.name = name)
    (name : String) :
    (left.unit? name = none ∧ right.unit? name = none) ∨
      ∃ file ∈ files, ∃ other ∈ others,
        r file other ∧ file.name = name ∧
          other.name = name := by
  by_cases hName : ∃ file ∈ files, file.name = name
  · rcases hName with ⟨file, hFile, rfl⟩
    rcases exists_mem_of_forall₂ h hFile with
      ⟨other, hOther, hRelated⟩
    exact .inr ⟨file, hFile, other, hOther, hRelated, rfl,
      (hNames file other hRelated).symm⟩
  · refine .inl ⟨?_, ?_⟩
    · apply Option.eq_none_iff_forall_ne_some.mpr
      intro unit hUnit
      exact hName (hLeft name (mem_names_of_unit? hUnit))
    · apply Option.eq_none_iff_forall_ne_some.mpr
      intro unit hUnit
      rcases hRight name (mem_names_of_unit? hUnit) with
        ⟨other, hOther, rfl⟩
      rcases exists_mem_of_forall₂ h.flip hOther with
        ⟨file, hFile, hRelated⟩
      exact hName
        ⟨file, hFile, hNames file other hRelated⟩

end Library

end MmixAsm

------------------------------------------------------------
-- Lookups
------------------------------------------------------------

namespace MmixAsm

/- The files that a table includes, in order. -/
def MacroTable.includedFiles
    (table : MacroTable) : List String :=
  table.inclusions.map (·.1)

namespace Library

/- Libraries whose files have the same tables. -/
def SameTables (left right : Library) : Prop :=
  ∀ name : String,
    (left.unit? name).map (·.table) =
      (right.unit? name).map (·.table)

/- The tables of entries that differ in their slots only. -/
theorem sameTables_of_map_eq
    {left right : Library}
    (h :
      left.units.map (fun e => (e.1, e.2.table)) =
        right.units.map (fun e => (e.1, e.2.table))) :
    left.SameTables right := by
  intro name
  have hLookup : ∀ units : List (String × SourceUnit),
      (units.lookup name).map (·.table) =
        (units.map (fun e => (e.1, e.2.table))).lookup
          name := by
    intro units
    induction units with
    | nil => rfl
    | cons entry rest ih =>
        rw [List.lookup_cons, List.map_cons, List.lookup_cons]
        split
        · rfl
        · exact ih
  unfold unit?
  rw [hLookup, hLookup, h]

/- Libraries whose files name the same files in INCLUDE. -/
def SameLinks (left right : Library) : Prop :=
  ∀ name : String,
    (left.unit? name).map (·.table.includedFiles) =
      (right.unit? name).map (·.table.includedFiles)

theorem SameTables.sameLinks
    {left right : Library}
    (h : left.SameTables right) :
    left.SameLinks right := by
  intro name
  have hFiles := congrArg
    (Option.map MacroTable.includedFiles) (h name)
  rwa [Option.map_map, Option.map_map] at hFiles

/- One step of the search, by links. -/
theorem reachable_cons
    (library : Library)
    (visited : List String)
    (name : String)
    (rest : List String) :
    library.reachable visited (name :: rest) =
      if visited.contains name then
        library.reachable visited rest
      else
        match (library.unit? name).map
          (·.table.includedFiles) with
        | none => library.reachable visited rest
        | some files =>
            name :: library.reachable (name :: visited)
              (rest ++ files) := by
  rw [reachable]
  split
  · rfl
  · split
    · rename_i hUnit
      simp [hUnit]
    · rename_i unit hUnit
      simp [hUnit, MacroTable.includedFiles]

/-
  Breadth first search from some names reads nothing but the
  links of the names that it can meet.
-/
theorem reachable_congr_within
    {left right : Library}
    {within : String → Prop}
    (hLinks : ∀ name, within name →
      (left.unit? name).map (·.table.includedFiles) =
        (right.unit? name).map (·.table.includedFiles))
    (hClosed : ∀ name unit, within name →
      left.unit? name = some unit →
        ∀ file ∈ unit.table.includedFiles, within file)
    (visited : List String)
    {queue : List String}
    (hQueue : ∀ name ∈ queue, within name) :
    left.reachable visited queue =
      right.reachable visited queue := by
  induction visited, queue using reachable.induct left with
  | case1 visited => rw [reachable, reachable]
  | case2 visited name rest hVisited ih =>
      rcases List.forall_mem_cons.mp hQueue with ⟨_, hRest⟩
      rw [reachable_cons, reachable_cons]
      simp only [hVisited, if_true]
      exact ih hRest
  | case3 visited name rest hVisited hUnit ih =>
      rcases List.forall_mem_cons.mp hQueue with ⟨hName, hRest⟩
      rw [reachable_cons, reachable_cons, ← hLinks name hName,
        ih hRest]
      simp only [hUnit, Option.map_none]
  | case4 visited name rest hVisited unit hUnit ih =>
      rcases List.forall_mem_cons.mp hQueue with ⟨hName, hRest⟩
      rw [reachable_cons, reachable_cons, ← hLinks name hName]
      simp only [hUnit, Option.map_some, hVisited,
        Bool.false_eq_true, if_false]
      refine congrArg (name :: ·) (ih ?_)
      exact List.forall_mem_append.mpr
        ⟨hRest, hClosed name unit hName hUnit⟩

theorem reachable_congr
    {left right : Library}
    (h : left.SameLinks right)
    (visited queue : List String) :
    left.reachable visited queue =
      right.reachable visited queue :=
  reachable_congr_within (fun name (_ : True) => h name)
    (fun _ _ _ _ _ _ => trivial) visited (fun _ _ => trivial)

theorem tablesFrom_congr
    {left right : Library}
    (h : left.SameTables right)
    (table : MacroTable) :
    left.tablesFrom table = right.tablesFrom table := by
  unfold tablesFrom
  rw [reachable_congr h.sameLinks]
  congr 2
  funext name
  exact h name

/- A template is found in the same place by both. -/
theorem template?_congr
    {left right : Library}
    (h : left.SameTables right)
    (table : MacroTable)
    (name : String) :
    left.template? table name =
      right.template? table name := by
  unfold template? findFrom
  rw [tablesFrom_congr h]

end Library

end MmixAsm
