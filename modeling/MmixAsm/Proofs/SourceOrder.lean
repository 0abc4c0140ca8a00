import Mathlib.Data.List.Perm.Basic
import MmixAsm.Assembly
import MmixAsm.Proofs.IncludedFiles
import MmixAsm.Proofs.LibraryFiles

/-
  The order of the sources does not matter.

  Sources are read one by one, and a library keeps its files
  in the order of their names.  Files with distinct names
  therefore give one library in whatever order they come, and
  all later work starts from the library and the one entry.
  Only which fault is found first depends on the order.

  Key definitions include:
    * `MmixAsm.Library.IsSorted`

  Key theorems include:
    * `MmixAsm.Library.isSorted_of_ofFiles`
    * `MmixAsm.Library.exists_ofFiles_iff`
    * `MmixAsm.Library.ofFiles_perm`
    * `MmixAsm.expandProgram_perm`
    * `MmixAsm.assemble_source_order`
-/

------------------------------------------------------------
-- Sorted Libraries
------------------------------------------------------------

namespace MmixAsm

namespace Library

/- The files stand in the order of their names. -/
def IsSorted (library : Library) : Prop :=
  library.units.Pairwise fun left right => left.1 < right.1

/- A unit under a new name is put in its place. -/
theorem insertUnit_pairwise
    {name : String}
    {unit : SourceUnit}
    {units : List (String × SourceUnit)}
    (hSorted : units.Pairwise fun left right => left.1 < right.1)
    (hNew : name ∉ units.map (·.1)) :
    (insertUnit name unit units).Pairwise
      fun left right => left.1 < right.1 := by
  induction units with
  | nil => exact List.pairwise_singleton _ _
  | cons entry rest ih =>
      rcases List.pairwise_cons.mp hSorted with
        ⟨hEntry, hRest⟩
      rw [List.map_cons, List.mem_cons, not_or] at hNew
      unfold insertUnit
      split
      · rename_i hBefore
        refine List.pairwise_cons.mpr ⟨?_, hSorted⟩
        intro other hOther
        rcases List.mem_cons.mp hOther with rfl | hOther
        · exact hBefore
        · exact String.lt_trans hBefore (hEntry other hOther)
      · rename_i hBehind
        refine List.pairwise_cons.mpr ⟨?_, ih hRest hNew.2⟩
        intro other hOther
        rcases List.mem_cons.mp
          ((insertUnit_perm name unit rest).mem_iff.mp hOther)
          with rfl | hOther
        · apply Classical.byContradiction
          intro hNot
          exact hNew.1 (String.le_antisymm
            (String.not_lt.mp hNot) (String.not_lt.mp hBehind))
        · exact hEntry other hOther

theorem isSorted_of_ofFiles
    {library : Library}
    {files : List SourceFile}
    (h : ofFiles files = .ok library) :
    library.IsSorted := by
  refine invariant_of_foldlM_eq_ok
    (motive := IsSorted) List.Pairwise.nil ?_ h
  intro state file next _ hSorted hAdd
  unfold add at hAdd
  split at hAdd
  · cases hAdd
  · split at hAdd
    · cases hAdd
    · rename_i hNew
      cases hAdd
      exact insertUnit_pairwise hSorted
        (by simpa [names] using hNew)

/- Sorted libraries with the same files are the same. -/
theorem eq_of_isSorted
    {left right : Library}
    (hLeft : left.IsSorted)
    (hRight : right.IsSorted)
    (hUnits : left.units.Perm right.units) :
    left = right := by
  rcases left with ⟨leftUnits⟩
  rcases right with ⟨rightUnits⟩
  congr 1
  refine hUnits.eq_of_pairwise ?_ hLeft hRight
  intro a b _ _ hLess hGreater
  exact (String.lt_asymm hLess hGreater).elim

end Library

end MmixAsm

------------------------------------------------------------
-- Libraries Of Files In Any Order
------------------------------------------------------------

namespace MmixAsm

namespace Library

variable {library : Library}
variable {files others : List SourceFile}

/- Sound files under new names can all be added. -/
theorem exists_foldlM_add
    (hUnits : ∀ file ∈ files,
      ∃ unit, SourceUnit.ofFile file = .ok unit)
    (hNames : (library.names ++ files.map (·.name)).Nodup) :
    ∃ result, files.foldlM add library = .ok result := by
  induction files generalizing library with
  | nil => exact ⟨library, rfl⟩
  | cons file rest ih =>
      rcases List.forall_mem_cons.mp hUnits with
        ⟨⟨unit, hUnit⟩, hRest⟩
      rw [List.map_cons] at hNames
      have hNew : library.names.contains file.name = false := by
        apply Bool.eq_false_iff.mpr
        intro hOld
        exact (List.nodup_append.mp hNames).2.2 file.name
          (by simpa using hOld) file.name List.mem_cons_self rfl
      let next : Library :=
        ⟨insertUnit file.name unit library.units⟩
      have hAdd : library.add file = .ok next := by
        unfold add
        rw [hUnit]
        simp only [hNew, Bool.false_eq_true, if_false]
        rfl
      have hNext : (next.names ++ rest.map (·.name)).Perm
          (library.names ++ file.name :: rest.map (·.name)) :=
        (((insertUnit_perm file.name unit library.units).map
          (·.1)).append_right _).trans List.perm_middle.symm
      rcases ih hRest (hNext.nodup_iff.mpr hNames) with
        ⟨result, hResult⟩
      refine ⟨result, ?_⟩
      rw [List.foldlM_cons, hAdd]
      exact hResult

/- The names in a library are those of its files. -/
theorem HoldsFiles.nodup_names
    (hHolds : library.HoldsFiles files) :
    (files.map (·.name)).Nodup := by
  have hNames := hHolds.units.map (·.1)
  rw [List.map_map] at hNames
  exact hNames.nodup_iff.mp hHolds.names

/-
  Files have a library exactly if their macro lines are in
  order and no two files share a name.
-/
theorem exists_ofFiles_iff :
    (∃ library, ofFiles files = .ok library) ↔
      (∀ file ∈ files,
        ∃ unit, SourceUnit.ofFile file = .ok unit) ∧
        (files.map (·.name)).Nodup := by
  constructor
  · rintro ⟨library, h⟩
    refine ⟨?_, (holdsFiles_of_ofFiles h).nodup_names⟩
    intro file hFile
    rcases exists_step_of_foldlM_eq_ok h hFile with
      ⟨state, next, hAdd⟩
    unfold add at hAdd
    split at hAdd
    · cases hAdd
    · rename_i unit hUnit
      exact ⟨unit, hUnit⟩
  · rintro ⟨hUnits, hNames⟩
    exact exists_foldlM_add hUnits
      (by simpa [empty, names] using hNames)

/- Files in another order have the same library. -/
theorem ofFiles_perm
    (hPerm : files.Perm others)
    (h : ofFiles files = .ok library) :
    ofFiles others = .ok library := by
  rcases exists_ofFiles_iff.mp ⟨library, h⟩ with
    ⟨hUnits, hNames⟩
  have hOthers : ∃ result, ofFiles others = .ok result := by
    apply exists_ofFiles_iff.mpr
    refine ⟨?_, (hPerm.map _).nodup_iff.mp hNames⟩
    intro file hFile
    exact hUnits file (hPerm.mem_iff.mpr hFile)
  rcases hOthers with ⟨result, hResult⟩
  have hLeft := (holdsFiles_of_ofFiles h).units
  have hRight := (holdsFiles_of_ofFiles hResult).units
  have hEq : library = result :=
    eq_of_isSorted (isSorted_of_ofFiles h)
      (isSorted_of_ofFiles hResult)
      ((hLeft.trans (hPerm.map _)).trans hRight.symm)
  rw [hEq]
  exact hResult

end Library

end MmixAsm

------------------------------------------------------------
-- Programs Of Files In Any Order
------------------------------------------------------------

namespace MmixAsm

/- The one entry is found wherever it stands. -/
theorem entryFile_perm
    {files others : List SourceFile}
    {entry : String}
    (hPerm : files.Perm others)
    (h : entryFile files = .ok entry) :
    entryFile others = .ok entry := by
  unfold entryFile at h ⊢
  split at h
  · cases h
  · rename_i file hFile
    have hEntries := hPerm.filter (·.isEntry)
    rw [hFile] at hEntries
    rw [List.perm_singleton.mp hEntries.symm]
    exact h
  · cases h

theorem expandProgram_perm
    {files others : List SourceFile}
    {instructions : List Instruction}
    (hPerm : files.Perm others)
    (h : expandProgram files = .ok instructions) :
    expandProgram others = .ok instructions := by
  unfold expandProgram at h ⊢
  rcases exists_of_bind_eq_ok h with ⟨entry, hEntry, h⟩
  rcases exists_of_bind_eq_ok h with ⟨library, hLibrary, h⟩
  rw [entryFile_perm hPerm hEntry,
    Library.ofFiles_perm hPerm hLibrary]
  exact h

/- Sources in another order give the same files in it. -/
theorem exists_perm_of_parseSources
    {sources others : List Source}
    {files : List SourceFile}
    (hPerm : sources.Perm others)
    (h : parseSources sources = .ok files) :
    ∃ results, parseSources others = .ok results ∧
      files.Perm results := by
  rcases List.perm_comp_forall₂ hPerm.symm
    (forall₂_of_mapM_eq_ok h) with ⟨results, hResults, hFiles⟩
  exact ⟨results, mapM_eq_ok_of_forall₂ hResults, hFiles.symm⟩

theorem assemble_perm
    {limit : Nat}
    {stage : Stage}
    {sources others : List Source}
    {output : Output}
    (hStage : stage ≠ .parse)
    (hPerm : sources.Perm others)
    (h : assemble limit stage sources = .ok output) :
    assemble limit stage others = .ok output := by
  unfold assemble at h ⊢
  rcases exists_of_bind_eq_ok h with ⟨files, hFiles, h⟩
  rcases exists_perm_of_parseSources hPerm hFiles with
    ⟨results, hResults, hSame⟩
  rw [if_neg hStage] at h
  rcases exists_of_bind_eq_ok h with
    ⟨instructions, hInstructions, h⟩
  have hProgram := expandProgram_perm hSame
    (ok_of_mapError_eq_ok hInstructions)
  rw [hResults]
  change (if stage = .parse then _ else _) = _
  rw [if_neg hStage, hProgram]
  exact h

/-
  Behind parsing, the outcome does not depend on the order of
  the sources: they succeed in both orders with one output or
  fail in both.
-/
theorem assemble_source_order
    (limit : Nat)
    {stage : Stage}
    (hStage : stage ≠ .parse)
    {sources others : List Source}
    (hPerm : sources.Perm others)
    (output : Output) :
    assemble limit stage sources = .ok output ↔
      assemble limit stage others = .ok output :=
  ⟨assemble_perm hStage hPerm,
    assemble_perm hStage hPerm.symm⟩

/- An entry that includes the other source. -/
def entrySource : Source where
  name := "main"
  text := "Main SWYM\nINCLUDE lib"

def librarySource : Source where
  name := "lib"
  text := "here SETL $1,here"

def entryAndLibrary : List SourceFile := [
  ⟨"main", [.op ⟨none, "SWYM", []⟩,
    .macroLine ⟨none, .inclusion, ["lib"]⟩], true⟩,
  ⟨"lib", [.op ⟨some "here", "SETL", ["$1", "here"]⟩], false⟩]

/- The included file comes first in the other order too. -/
theorem entrySource_in_other_order :
    [entrySource, librarySource].Perm
        [librarySource, entrySource] ∧
      Stage.macros ≠ Stage.parse ∧
      assemble 0 .macros [librarySource, entrySource] =
        .ok (.expanded [
          .op ⟨some "here", "SETL", ["$1", "here"]⟩,
          .op ⟨none, "SWYM", []⟩]) := by
  let expanded :=
    (Library.expansion entryAndLibrary).toOption.getD .empty
  have hFiles :
      parseSources [entrySource, librarySource] =
        .ok entryAndLibrary := by
    decide +kernel
  have hEntry : entryFile entryAndLibrary = .ok "main" := by
    decide
  have hExpanded :
      Library.expansion entryAndLibrary = .ok expanded := by
    decide +kernel
  have hMain : (expanded.unit? "main").map
      (·.liveInclusions) = some ["lib"] := by
    decide +kernel
  have hLib : (expanded.unit? "lib").map
      (·.liveInclusions) = some [] := by
    decide +kernel
  have hOrder : expanded.fileOrder "main" =
      .ok ["lib", "main"] := by
    simp [Library.fileOrder, Library.orderFrom_cons, hMain,
      hLib, Except.bind]
  have hProgram : expandProgram entryAndLibrary =
      .ok (["lib", "main"].flatMap
        expanded.instructionsOf) :=
    expandProgram_of_fileOrder hEntry hExpanded hOrder
  have hPerm : [entrySource, librarySource].Perm
      [librarySource, entrySource] :=
    .swap _ _ _
  have hStage : Stage.macros ≠ Stage.parse := by
    decide
  refine ⟨hPerm, hStage,
    (assemble_source_order 0 hStage hPerm _).mp ?_⟩
  unfold assemble
  rw [hFiles]
  simp only [bind, Except.bind, hProgram, Except.mapError]
  decide +kernel

end MmixAsm
