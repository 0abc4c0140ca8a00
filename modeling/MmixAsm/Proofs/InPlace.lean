import MmixAsm.Proofs.SlotChanges
import MmixAsm.Proofs.SourceOrder

/-
  Selection and expansion as work in place.

  Selection takes each file out of the library, decides its
  regions and puts it back.  Expansion notes the instructions
  for all live sites of all files and then writes them slot
  by slot.  Both may fail on the way and leave the library as
  it is then.  They do what the functions do that give a new
  library, so a failure loses no file and no slot.

  Key definitions include:
    * `MmixAsm.InPlace`
    * `MmixAsm.Library.selectInPlace`
    * `MmixAsm.Library.expandInPlace`

  Key theorems include:
    * `MmixAsm.Library.restore_without`
    * `MmixAsm.Library.run_selectInPlace`
    * `MmixAsm.Library.run_expandInPlace`
    * `MmixAsm.Library.failed_passes_keep_files`
-/

------------------------------------------------------------
-- Work In Place
------------------------------------------------------------

namespace MmixAsm

/- Work on a library.  A failure keeps what was done. -/
abbrev InPlace : Type → Type :=
  EStateM MacroError Library

/- The end of work that left a library and maybe failed. -/
def InPlace.ended :
    Library × Option MacroError →
      EStateM.Result MacroError Library Unit
| (library, none) => .ok () library
| (library, some e) => .error e library

theorem InPlace.ended_eq_ok_iff
    {outcome : Library × Option MacroError}
    {next : Library} :
    ended outcome = .ok () next ↔ outcome = (next, none) := by
  rcases outcome with ⟨library, _ | e⟩ <;> simp [ended]

theorem InPlace.ended_eq_error_iff
    {outcome : Library × Option MacroError}
    {next : Library}
    {e : MacroError} :
    ended outcome = .error e next ↔
      outcome = (next, some e) := by
  rcases outcome with ⟨library, _ | cause⟩ <;>
    simp [ended, and_comm]

namespace Library

/- Put a unit back under a name that is missing. -/
def restore
    (library : Library)
    (file : String)
    (unit : SourceUnit) : Library where
  units := insertUnit file unit library.units

/-
  Take a file out, decide its regions and put it back.  A
  failure is raised when the file is back in its place.
-/
def selectFileInPlace (file : String) : InPlace Unit := do
  match (← get).unit? file with
  | none => pure ()
  | some unit =>
      modify (·.without file)
      let result := (← get).selectUnit file unit
      modify (·.restore file result.1)
      match result.2 with
      | none => pure ()
      | some e => throw e

/- Decide the regions of all files. -/
def selectInPlace : InPlace Unit := do
  (← get).names.forM selectFileInPlace

/- An instruction that is to be written into a slot. -/
structure Filling where
  file : String
  offset : Nat
  instruction : Instruction

/- Note the instruction for a site that is not dropped. -/
def noteSite
    (file : String)
    (unit : SourceUnit)
    (notes : List Filling)
    (site : Site) : InPlace (List Filling) := do
  if unit.isDropped site.offset then
    pure notes
  else
    match (← get).expandSite file unit.table site with
    | .error e => throw e
    | .ok instruction =>
        pure (notes ++ [⟨file, site.offset, instruction⟩])

/- Note the instructions for all sites of a file. -/
def noteFile
    (notes : List Filling)
    (entry : String × SourceUnit) : InPlace (List Filling) :=
  entry.2.table.sites.foldlM (noteSite entry.1 entry.2) notes

/- Write a noted instruction, if there is such a slot. -/
def writeFilling (filling : Filling) : InPlace Unit :=
  modify fun library =>
    library.update filling.file fun unit =>
      { unit with
        slots := unit.slots.set filling.offset
          (.live filling.instruction) }

/- Note all instructions first and write them then. -/
def expandInPlace : InPlace Unit := do
  let notes ← (← get).units.foldlM noteFile []
  notes.forM writeFilling

end Library

end MmixAsm

------------------------------------------------------------
-- Selection In Place
------------------------------------------------------------

namespace MmixAsm

namespace Library

variable {library : Library}

theorem IsSorted.nodup_names
    (hSorted : library.IsSorted) :
    library.names.Nodup := by
  unfold names
  rw [List.nodup_iff_pairwise_ne, List.pairwise_map]
  refine hSorted.imp ?_
  intro left right hLess hEq
  rw [hEq] at hLess
  exact String.lt_irrefl _ hLess

/- Changing a unit leaves the names as they are. -/
theorem IsSorted.update
    (hSorted : library.IsSorted)
    (file : String)
    (change : SourceUnit → SourceUnit) :
    (library.update file change).IsSorted := by
  have hName : ∀ entry : String × SourceUnit,
      (if entry.1 = file then (file, change entry.2)
        else entry).1 = entry.1 := by
    intro entry
    split
    · rename_i hFile
      exact hFile.symm
    · rfl
  refine List.pairwise_map.mpr (hSorted.imp ?_)
  intro left right hLess
  rwa [hName, hName]

/- Under names that differ one unit alone is taken out. -/
theorem without_middle
    {front back : List (String × SourceUnit)}
    {file : String}
    {unit : SourceUnit}
    (hNames :
      (names ⟨front ++ (file, unit) :: back⟩).Nodup) :
    without ⟨front ++ (file, unit) :: back⟩ file =
      ⟨front ++ back⟩ := by
  simp only [names, List.map_append, List.map_cons,
    List.nodup_append, List.nodup_cons] at hNames
  rcases hNames with ⟨_, ⟨hBack, _⟩, hFront⟩
  have hOthers : ∀ entries : List (String × SourceUnit),
      file ∉ entries.map (·.1) →
      entries.filter (·.1 ≠ file) = entries := by
    intro entries hEntries
    refine List.filter_eq_self.mpr fun entry hEntry => ?_
    rw [decide_eq_true_eq]
    rintro rfl
    exact hEntries (List.mem_map_of_mem hEntry)
  unfold without
  rw [List.filter_append, List.filter_cons_of_neg (by simp),
    hOthers front, hOthers back hBack]
  intro hMem
  exact hFront file hMem file List.mem_cons_self rfl

/- A file that is taken out comes back to its place. -/
theorem restore_without
    (hSorted : library.IsSorted)
    {file : String}
    {old : SourceUnit}
    (hUnit : library.unit? file = some old)
    (unit : SourceUnit) :
    (library.without file).restore file unit =
      library.update file fun _ => unit := by
  have hNew : file ∉ (library.without file).names := by
    intro hMem
    rcases List.mem_map.mp hMem with ⟨entry, hEntry, hName⟩
    have hOther := (List.mem_filter.mp hEntry).2
    simp [hName] at hOther
  have hRest : (library.without file).IsSorted :=
    hSorted.filter _
  refine eq_of_isSorted (insertUnit_pairwise hRest hNew)
    (hSorted.update file fun _ => unit) ?_
  rcases List.lookup_eq_some_iff.mp hUnit with
    ⟨front, back, hUnits, -⟩
  rcases library with ⟨units⟩
  subst hUnits
  rw [update_middle hSorted.nodup_names]
  refine (insertUnit_perm file unit _).trans ?_
  rw [without_middle hSorted.nodup_names]
  exact List.perm_middle.symm

theorem run_selectFileInPlace
    (hSorted : library.IsSorted)
    (file : String) :
    (selectFileInPlace file).run library =
      InPlace.ended (library.selectFileApart file) := by
  unfold selectFileInPlace selectFileApart
  rw [EStateM.run_bind, EStateM.run_get]
  cases hUnit : library.unit? file with
  | none => simp only [hUnit, EStateM.run_pure, InPlace.ended]
  | some unit =>
      simp only [hUnit, EStateM.run_bind, EStateM.run_modify,
        EStateM.run_get, restore_without hSorted hUnit]
      cases ((library.without file).selectUnit file unit).2 with
      | none => rfl
      | some e => rfl

theorem IsSorted.selectFileApart
    (hSorted : library.IsSorted)
    (file : String) :
    (library.selectFileApart file).1.IsSorted := by
  unfold Library.selectFileApart
  cases library.unit? file with
  | none => exact hSorted
  | some unit => exact hSorted.update file _

/- Taking files out one by one is deciding them apart. -/
theorem run_selectFilesInPlace
    (hSorted : library.IsSorted)
    (files : List String) :
    (files.forM selectFileInPlace).run library =
      InPlace.ended (library.selectFilesApart files) := by
  induction files generalizing library with
  | nil => rfl
  | cons file rest ih =>
      rw [List.forM_eq_forM, List.forM_cons, EStateM.run_bind,
        run_selectFileInPlace hSorted, selectFilesApart]
      have hNext := hSorted.selectFileApart file
      rcases hResult : library.selectFileApart file with
        ⟨next, _ | e⟩
      · rw [hResult] at hNext
        exact ih hNext
      · rfl

theorem run_selectInPlace
    (hSorted : library.IsSorted) :
    selectInPlace.run library =
      InPlace.ended library.selectParts := by
  unfold selectInPlace
  rw [EStateM.run_bind, EStateM.run_get]
  simp only
  rw [run_selectFilesInPlace hSorted]
  exact congrArg InPlace.ended
    (selectApart_eq hSorted.nodup_names)

end Library

end MmixAsm

------------------------------------------------------------
-- Expansion In Place
------------------------------------------------------------

namespace MmixAsm

namespace Library

variable {library : Library}

/- The notes of one file, made of what its sites become. -/
def fillingsOf
    (file : String)
    (instructions : List (Nat × Instruction)) : List Filling :=
  instructions.map fun entry => ⟨file, entry.1, entry.2⟩

/-
  Noting sites reads the library and leaves it alone.  It
  fails where the instructions for live sites cannot be had.
-/
theorem run_noteSites
    (file : String)
    (unit : SourceUnit)
    (notes : List Filling)
    (sites : List Site) :
    (sites.foldlM (noteSite file unit) notes).run library =
      match (sites.filter
          fun site => !unit.isDropped site.offset).mapM
          (fun site =>
            (library.expandSite file unit.table site).map
              (site.offset, ·)) with
      | .error e => .error e library
      | .ok instructions =>
          .ok (notes ++ fillingsOf file instructions)
            library := by
  induction sites generalizing notes with
  | nil =>
      rw [List.foldlM_nil, EStateM.run_pure, List.filter_nil,
        List.mapM_nil]
      simp only [pure, Except.pure, fillingsOf, List.map_nil,
        List.append_nil]
  | cons site rest ih =>
      rw [List.foldlM_cons, EStateM.run_bind, noteSite]
      cases hDropped : unit.isDropped site.offset with
      | true =>
          rw [List.filter_cons_of_neg (by simp [hDropped])]
          simp only [if_true, EStateM.run_pure, ih]
      | false =>
          rw [List.filter_cons_of_pos (by simp [hDropped]),
            List.mapM_cons]
          simp only [Bool.false_eq_true, if_false,
            EStateM.run_bind, EStateM.run_get]
          cases library.expandSite file unit.table site with
          | error e => rfl
          | ok instruction =>
              simp only [EStateM.run_pure, ih]
              cases (rest.filter fun site =>
                  !unit.isDropped site.offset).mapM
                (fun site =>
                  (library.expandSite file unit.table
                    site).map (site.offset, ·)) with
              | error e => rfl
              | ok others =>
                  simp [bind, Except.bind, Except.map, pure,
                    Except.pure, fillingsOf]

theorem run_noteFile
    (notes : List Filling)
    (entry : String × SourceUnit) :
    (noteFile notes entry).run library =
      match library.expansions entry.1 entry.2 with
      | .error e => .error e library
      | .ok instructions =>
          .ok (notes ++ fillingsOf entry.1 instructions)
            library :=
  run_noteSites entry.1 entry.2 notes entry.2.table.sites

/- The notes of one file fill its slots and no others. -/
theorem run_writeFillings
    {front back : List (String × SourceUnit)}
    {file : String}
    {unit : SourceUnit}
    (hNames :
      (names ⟨front ++ (file, unit) :: back⟩).Nodup)
    (instructions : List (Nat × Instruction)) :
    ((fillingsOf file instructions).forM writeFilling).run
        ⟨front ++ (file, unit) :: back⟩ =
      .ok () ⟨front ++ (file,
        { unit with
          slots := fillSlots unit.slots instructions }) ::
        back⟩ := by
  induction instructions generalizing unit with
  | nil => rfl
  | cons entry rest ih =>
      rw [fillingsOf, List.map_cons, List.forM_eq_forM,
        List.forM_cons, EStateM.run_bind, writeFilling,
        EStateM.run_modify, update_middle hNames]
      exact ih (by simpa [names] using hNames)

/-
  Noting all files and writing the notes.  The files in front
  have been dealt with; what is written into the others comes
  from the same library for all of them.
-/
theorem run_noteFiles
    (library : Library)
    (notes : List Filling)
    (todo : List (String × SourceUnit)) :
    match todo.mapM fun entry =>
        (library.expandUnit entry.1 entry.2).map
          (entry.1, ·) with
    | .error e =>
        (todo.foldlM noteFile notes).run library =
          .error e library
    | .ok results =>
        ∃ more : List Filling,
          (todo.foldlM noteFile notes).run library =
              .ok (notes ++ more) library ∧
            ∀ front : List (String × SourceUnit),
              (names ⟨front ++ todo⟩).Nodup →
              (more.forM writeFilling).run ⟨front ++ todo⟩ =
                .ok () ⟨front ++ results⟩ := by
  induction todo generalizing notes with
  | nil =>
      refine ⟨[], ?_, fun front _ => rfl⟩
      rw [List.foldlM_nil, EStateM.run_pure, List.append_nil]
  | cons entry rest ih =>
      rcases entry with ⟨file, unit⟩
      rw [List.mapM_cons, List.foldlM_cons, EStateM.run_bind,
        run_noteFile, expandUnit]
      cases hInstructions : library.expansions file unit with
      | error e => simp only [Except.map, bind, Except.bind]
      | ok instructions =>
          have hRest := ih (notes ++ fillingsOf file instructions)
          cases hResults : rest.mapM fun entry =>
              (library.expandUnit entry.1 entry.2).map
                (entry.1, ·) with
          | error e =>
              rw [hResults] at hRest
              exact hRest
          | ok results =>
              rw [hResults] at hRest
              rcases hRest with ⟨more, hMore, hWrite⟩
              refine ⟨fillingsOf file instructions ++ more, ?_, ?_⟩
              · rw [← List.append_assoc]
                exact hMore
              · intro front hNames
                rw [List.forM_eq_forM, List.forM_append,
                  EStateM.run_bind, ← List.forM_eq_forM,
                  run_writeFillings hNames]
                simp only
                rw [List.append_cons, hWrite]
                · rw [List.append_assoc]
                  rfl
                · simpa [names] using hNames

theorem run_expandInPlace
    (hNames : library.names.Nodup) :
    expandInPlace.run library =
      InPlace.ended library.expand := by
  have hNotes := run_noteFiles library [] library.units
  unfold expandInPlace expand expanded
  rw [EStateM.run_bind, EStateM.run_get]
  simp only [EStateM.run_bind]
  cases hUnits : library.units.mapM fun entry =>
      (library.expandUnit entry.1 entry.2).map
        (entry.1, ·) with
  | error e =>
      simp only [hUnits] at hNotes
      rw [hNotes]
      rfl
  | ok results =>
      simp only [hUnits] at hNotes
      rcases hNotes with ⟨more, hMore, hWrite⟩
      rw [hMore]
      exact hWrite [] hNames

end Library

end MmixAsm

------------------------------------------------------------
-- Failures
------------------------------------------------------------

namespace MmixAsm

namespace Library

variable {library : Library}

/-
  Selection stops at the first file that fails.  The files in
  front are decided and those behind are left alone.
-/
theorem exists_middle_of_selectUnits
    {units : List (String × SourceUnit)}
    {e : MacroError}
    (h : (library.selectUnits units).2 = some e) :
    ∃ front file unit back,
      units = front ++ (file, unit) :: back ∧
        (∀ entry ∈ front,
          (library.selectUnit entry.1 entry.2).2 = none) ∧
        (library.selectUnit file unit).2 = some e ∧
        (library.selectUnits units).1 =
          library.selectedUnits front ++
            (file, (library.selectUnit file unit).1) ::
              back := by
  induction units with
  | nil => cases h
  | cons entry rest ih =>
      rcases entry with ⟨file, unit⟩
      unfold selectUnits at h ⊢
      rcases hResult : library.selectUnit file unit with
        ⟨next, _ | cause⟩
      · simp only [hResult] at h ⊢
        rcases ih h with
          ⟨front, failing, other, back, rfl, hFront, hFails,
            hUnits⟩
        refine ⟨(file, unit) :: front, failing, other, back,
          rfl, ?_, hFails, ?_⟩
        · refine List.forall_mem_cons.mpr ⟨?_, hFront⟩
          rw [hResult]
        · have hHead :
              library.selectedUnits ((file, unit) :: front) =
                (file, next) :: library.selectedUnits front := by
            rw [selectedUnits, List.map_cons, hResult]
            rfl
          rw [hUnits, hHead, List.cons_append]
      · simp only [hResult] at h ⊢
        refine ⟨[], file, unit, rest, rfl, by simp, ?_, ?_⟩
        · rw [hResult, h]
        · rw [hResult]
          rfl

/- A later name is looked up behind the earlier ones. -/
theorem lookup_behind
    {front back : List (String × SourceUnit)}
    {file name : String}
    {unit : SourceUnit}
    (hFront : ∀ entry ∈ front, entry.1 < name)
    (hFile : file < name) :
    (front ++ (file, unit) :: back).lookup name =
      back.lookup name := by
  have hNone : front.lookup name = none := by
    rw [List.lookup_eq_none_iff]
    intro entry hEntry
    rw [bne_iff_ne]
    rintro rfl
    exact String.lt_irrefl _ (hFront entry hEntry)
  have hOther : (name == file) = false := by
    rw [beq_eq_false_iff_ne]
    rintro rfl
    exact String.lt_irrefl _ hFile
  rw [List.lookup_append, hNone, Option.none_or,
    List.lookup_cons, hOther]

/- The first failing file, seen by the names. -/
theorem exists_failing_file
    (hSorted : library.IsSorted)
    {e : MacroError}
    (h : library.selectParts.2 = some e) :
    ∃ file unit, library.unit? file = some unit ∧
      (library.selectUnit file unit).2 = some e ∧
      (∀ name other, name < file →
        library.unit? name = some other →
          (library.selectUnit name other).2 = none) ∧
      ∀ name, file < name →
        library.selectParts.1.unit? name =
          library.unit? name := by
  rcases exists_middle_of_selectUnits h with
    ⟨front, file, unit, back, hUnits, hFront, hFails, hResult⟩
  have hNames := hSorted.nodup_names
  have hOrder := hSorted
  unfold IsSorted at hOrder
  rw [hUnits, List.pairwise_append, List.pairwise_cons]
    at hOrder
  rcases hOrder with ⟨-, ⟨hBack, -⟩, hAcross⟩
  refine ⟨file, unit, ?_, hFails, ?_, ?_⟩
  · rw [unit?_eq_some_iff hNames, hUnits]
    exact List.mem_append_right _ List.mem_cons_self
  · intro name other hLess hOther
    rw [unit?_eq_some_iff hNames, hUnits] at hOther
    rcases List.mem_append.mp hOther with hOther | hOther
    · exact hFront _ hOther
    rcases List.mem_cons.mp hOther with hSame | hOther
    · cases hSame
      exact absurd hLess (String.lt_irrefl file)
    · exact (String.lt_asymm hLess (hBack _ hOther)).elim
  · intro name hLess
    have hBefore : ∀ entry ∈ front, entry.1 < name := by
      intro entry hEntry
      exact String.lt_trans
        (hAcross entry hEntry _ List.mem_cons_self) hLess
    have hSelected : ∀ entry ∈ library.selectedUnits front,
        entry.1 < name := by
      intro entry hEntry
      rcases List.mem_map.mp hEntry with ⟨old, hOld, rfl⟩
      exact hBefore old hOld
    change (library.selectUnits library.units).1.lookup name =
      library.units.lookup name
    rw [hResult, hUnits, lookup_behind hSelected hLess,
      lookup_behind hBefore hLess]

/-
  What the work in place leaves behind.  It does what the
  functions do that give a new library.  Where expansion
  fails nothing has changed, and where it succeeds only the
  slots of live sites have.  Selection drops slots and changes
  nothing else, wherever it ends: all files are there, with
  their tables and as many slots as before.  A failure comes
  from the first file that cannot be decided, and the files
  behind it are untouched.
-/
theorem failed_passes_keep_files
    {library : Library}
    (hSorted : library.IsSorted) :
    expandInPlace.run library =
        InPlace.ended library.expand ∧
    selectInPlace.run library =
        InPlace.ended library.selectParts ∧
    (∀ e next, expandInPlace.run library = .error e next →
      next = library) ∧
    (∀ next, expandInPlace.run library = .ok () next →
      ChangesBy SourceUnit.FillsTo library next) ∧
    (∀ e next, selectInPlace.run library = .error e next →
      ChangesBy SourceUnit.DropsTo library next ∧
        ∃ file unit, library.unit? file = some unit ∧
          (library.selectUnit file unit).2 = some e ∧
          (∀ name other, name < file →
            library.unit? name = some other →
              (library.selectUnit name other).2 = none) ∧
          ∀ name, file < name →
            next.unit? name = library.unit? name) ∧
    (∀ next, selectInPlace.run library = .ok () next →
      ChangesBy SourceUnit.DropsTo library next) := by
  have hExpand := run_expandInPlace hSorted.nodup_names
  have hSelect := run_selectInPlace hSorted
  have hDrops : ∀ next failure,
      library.selectParts = (next, failure) →
        ChangesBy SourceUnit.DropsTo library next := by
    intro next failure hParts
    have hChanges := library.changesBy_selectParts
    rwa [hParts] at hChanges
  refine ⟨hExpand, hSelect, ?_, ?_, ?_, ?_⟩
  · intro e next hRun
    rw [hExpand, InPlace.ended_eq_error_iff] at hRun
    exact (expand_eq_error_iff.mp hRun).1
  · intro next hRun
    rw [hExpand, InPlace.ended_eq_ok_iff] at hRun
    exact changesBy_of_expanded (expand_eq_ok_iff.mp hRun)
  · intro e next hRun
    rw [hSelect, InPlace.ended_eq_error_iff] at hRun
    refine ⟨hDrops next _ hRun, ?_⟩
    have hFailing := @exists_failing_file library hSorted e
    rw [hRun] at hFailing
    exact hFailing rfl
  · intro next hRun
    rw [hSelect, InPlace.ended_eq_ok_iff] at hRun
    exact hDrops next _ hRun

/-
  Two sites at one offset and one behind the last slot, and a
  region that is dropped.
-/
def crowdedUnit : SourceUnit where
  slots := [.vacant, .live (.op ⟨none, "SWYM", []⟩), .vacant,
    .vacant]
  table := [
    .template ⟨"nop", [], .op ⟨none, "SWYM", []⟩⟩,
    .template ⟨"stop", ["x"], .op ⟨none, "TRAP", ["&x"]⟩⟩,
    .ifDefined false "nop" ⟨0, 2⟩,
    .site ⟨none, 3, ["nop"]⟩,
    .site ⟨none, 3, ["stop", "0"]⟩,
    .site ⟨none, 9, ["nop"]⟩]

/-
  The second file drops a region before it fails, and the
  third one has a site that cannot be expanded.
-/
def faultyLibrary : Library where
  units := [
    ("a", crowdedUnit),
    ("b", ⟨[.vacant, .vacant, .vacant], [
      .constant "mode" "1",
      .ifDefined false "mode" ⟨0, 1⟩,
      .ifCondition "mode" ⟨1, 2⟩ none]⟩),
    ("c", ⟨[.vacant, .vacant], [
      .template ⟨"nop", [], .op ⟨none, "SWYM", []⟩⟩,
      .ifDefined false "nop" ⟨0, 1⟩,
      .site ⟨none, 1, ["nop", "1"]⟩]⟩)]

def soundLibrary : Library where
  units := [("a", crowdedUnit)]

theorem faultyLibrary_keeps_files :
    faultyLibrary.IsSorted ∧
    expandInPlace.run faultyLibrary =
      .error (.wrongArity "c" "nop" 0 1) faultyLibrary ∧
    (∃ next, selectInPlace.run faultyLibrary =
        .error (.malformedCondition "b" "mode") next ∧
      next ≠ faultyLibrary ∧
      ChangesBy SourceUnit.DropsTo faultyLibrary next ∧
      ∃ file ∈ faultyLibrary.names, ∀ name, file < name →
        next.unit? name = faultyLibrary.unit? name) ∧
    soundLibrary.IsSorted ∧
    (∃ next, expandInPlace.run soundLibrary = .ok () next ∧
      next ≠ soundLibrary ∧
      ChangesBy SourceUnit.FillsTo soundLibrary next) ∧
    ∃ next, selectInPlace.run soundLibrary = .ok () next ∧
      next ≠ soundLibrary ∧
      ChangesBy SourceUnit.DropsTo soundLibrary next := by
  have hFaulty : faultyLibrary.IsSorted := by
    unfold IsSorted
    decide +kernel
  have hSound : soundLibrary.IsSorted := by
    unfold IsSorted
    decide +kernel
  have hArity : faultyLibrary.expand.2 =
      some (.wrongArity "c" "nop" 0 1) := by
    decide +kernel
  have hMode : faultyLibrary.selectParts.2 =
      some (.malformedCondition "b" "mode") := by
    decide +kernel
  rcases failed_passes_keep_files hFaulty with
    ⟨hExpand, hSelect, hSame, -, hFails, -⟩
  rcases failed_passes_keep_files hSound with
    ⟨hExpandSound, hSelectSound, -, hFills, -, hDrops⟩
  have hExpandFails := hExpand.trans
    (InPlace.ended_eq_error_iff.mpr (Prod.ext rfl hArity))
  have hSelectFails := hSelect.trans
    (InPlace.ended_eq_error_iff.mpr (Prod.ext rfl hMode))
  have hExpanded := hExpandSound.trans
    (InPlace.ended_eq_ok_iff.mpr
      (Prod.ext rfl (by decide +kernel)))
  have hSelected := hSelectSound.trans
    (InPlace.ended_eq_ok_iff.mpr
      (Prod.ext rfl (by decide +kernel)))
  rcases hFails _ _ hSelectFails with
    ⟨hChanges, file, unit, hUnit, -, -, hBehind⟩
  have hKept := hSame _ _ hExpandFails
  rw [hKept] at hExpandFails
  exact ⟨hFaulty, hExpandFails,
    ⟨_, hSelectFails, by decide +kernel, hChanges, file,
      mem_names_of_unit? hUnit, hBehind⟩,
    hSound,
    ⟨_, hExpanded, by decide +kernel, hFills _ hExpanded⟩,
    ⟨_, hSelected, by decide +kernel, hDrops _ hSelected⟩⟩

end Library

end MmixAsm
