import MmixAsm.Proofs.BreadthFirst

/-
  Files that are taken out of their library.

  The regions of a file may be decided while the file itself
  is held apart from the others, and its macros be expanded
  while it stands among them.  Both look names up alike: a
  search from the table of a file reads this table first, so
  it learns nothing when it meets the table again.

  Key definitions include:
    * `MmixAsm.Library.without`
    * `MmixAsm.Library.selectFileApart`
    * `MmixAsm.Library.selectApart`

  Key theorems include:
    * `MmixAsm.Library.findFrom_without`
    * `MmixAsm.Library.answer_without`
    * `MmixAsm.Library.selectEntries_congr`
    * `MmixAsm.Library.selectFilesApart_eq`
    * `MmixAsm.Library.search_breadth_first`
-/

------------------------------------------------------------
-- Searching Without A File
------------------------------------------------------------

namespace MmixAsm

namespace Library

/- The library without one of its files. -/
def without
    (library : Library)
    (file : String) : Library where
  units := library.units.filter (·.1 ≠ file)

theorem unit?_without
    (library : Library)
    (file name : String) :
    (library.without file).unit? name =
      if name = file then none else library.unit? name := by
  unfold unit? without
  induction library.units with
  | nil => simp
  | cons entry rest ih =>
      rcases entry with ⟨other, unit⟩
      by_cases hOther : other = file
      · rw [List.filter_cons_of_neg (by simp [hOther]), ih]
        by_cases hName : name = file
        · rw [if_pos hName, if_pos hName]
        · have hBeq : (name == other) = false := by
            simpa [hOther] using hName
          rw [if_neg hName, if_neg hName, List.lookup_cons,
            hBeq]
      · rw [List.filter_cons_of_pos (by simp [hOther]),
          List.lookup_cons, List.lookup_cons, ih]
        by_cases hName : name = other
        · simp [hName, hOther]
        · have hBeq : (name == other) = false := by
            simpa using hName
          rw [hBeq]

variable {α : Type}
variable {library : Library}
variable {find : MacroTable → Option α}
variable {file : String}
variable {unit : SourceUnit}

/-
  As long as nothing is found from the table of the file, ways
  through the file find nothing either.
-/
theorem findAt_without
    (hUnit : library.unit? file = some unit)
    {distance : Nat}
    (hNear : ∀ nearer < distance,
      library.findAt find nearer unit.table = none)
    (table : MacroTable) :
    library.findAt find distance table =
      (library.without file).findAt find distance table := by
  induction distance generalizing table with
  | zero => rw [findAt_zero, findAt_zero]
  | succ distance ih =>
      have hFurther := ih fun nearer hNearer =>
        hNear nearer (by omega)
      have hSame : library.findAtFile find distance =
          (library.without file).findAtFile find distance := by
        funext name
        unfold findAtFile table?
        rw [unit?_without]
        by_cases hName : name = file
        · rw [hName, if_pos rfl, hUnit]
          exact hNear distance (Nat.lt_succ_self distance)
        · rw [if_neg hName]
          cases library.unit? name with
          | none => rfl
          | some other => exact hFurther other.table
      rw [findAt_succ, findAt_succ, hSame]

/- A file finds the same with itself in the library or not. -/
theorem findFrom_without
    (hUnit : library.unit? file = some unit)
    (find : MacroTable → Option α) :
    (library.without file).findFrom unit.table find =
      library.findFrom unit.table find :=
  (findFrom_congr_levels fun _ hNear =>
    findAt_without hUnit hNear unit.table).symm

/- Whether a name is defined is a search like the others. -/
theorem isDefined_eq_isSome
    (library : Library)
    (table : MacroTable)
    (name : String) :
    library.isDefined table name =
      (library.findFrom table fun other =>
        if other.defines name then some () else none
      ).isSome := by
  unfold isDefined findFrom
  induction library.tablesFrom table with
  | nil => rfl
  | cons other rest ih =>
      rw [List.any_cons, List.findSome?_cons, ih]
      cases other.defines name with
      | false => rfl
      | true => rfl

/- Every query of a file is answered alike. -/
theorem answer_without
    (hUnit : library.unit? file = some unit)
    (query : Query) :
    (library.without file).answer unit.table query =
      library.answer unit.table query := by
  cases query with
  | defined name =>
      simp only [answer, isDefined_eq_isSome,
        findFrom_without hUnit]
  | constant name =>
      simp only [answer, constant?, findFrom_without hUnit]
  | template name =>
      simp only [answer, template?, findFrom_without hUnit]

end Library

end MmixAsm

------------------------------------------------------------
-- Selection With One File Apart
------------------------------------------------------------

namespace MmixAsm

namespace Library

/-
  Decide the regions of a file that is taken out of the
  library meanwhile.  It is put back in any case.
-/
def selectFileApart
    (library : Library)
    (file : String) : Library × Option MacroError :=
  match library.unit? file with
  | none => (library, none)
  | some unit =>
      let result := (library.without file).selectUnit file unit
      (library.update file fun _ => result.1, result.2)

/- Decide the regions of some files, each of them apart. -/
def selectFilesApart
    (library : Library) :
    List String → Library × Option MacroError
| [] => (library, none)
| file :: rest =>
    match library.selectFileApart file with
    | (library, some e) => (library, some e)
    | (library, none) => library.selectFilesApart rest

/- Decide the regions of all files, each of them apart. -/
def selectApart
    (library : Library) : Library × Option MacroError :=
  library.selectFilesApart library.names

/- The same answers drop the same region. -/
theorem dropped?_congr
    {left right : Library}
    {unit : SourceUnit}
    (h : ∀ query, left.answer unit.table query =
      right.answer unit.table query)
    (file : String)
    (entry : MacroDecl) :
    left.dropped? file unit entry =
      right.dropped? file unit entry := by
  have hDefined : ∀ name, left.isDefined unit.table name =
      right.isDefined unit.table name :=
    fun name => Answer.defined.inj (h (.defined name))
  have hConstant : ∀ name, left.constant? unit.table name =
      right.constant? unit.table name :=
    fun name => Answer.constant.inj (h (.constant name))
  cases entry with
  | ifDefined wanted name region =>
      simp only [dropped?, hDefined]
  | ifCondition condition thenPart elsePart =>
      simp only [dropped?, evaluate, hConstant]
  | _ => rfl

/- The same answers select the same lines of a unit. -/
theorem selectEntries_congr
    {left right : Library}
    {unit : SourceUnit}
    (h : ∀ query, left.answer unit.table query =
      right.answer unit.table query)
    (file : String)
    (entries : List MacroDecl) :
    left.selectEntries file unit entries =
      right.selectEntries file unit entries := by
  induction entries generalizing unit with
  | nil => rfl
  | cons entry rest ih =>
      have hEntry : left.selectEntry file unit entry =
          right.selectEntry file unit entry := by
        unfold selectEntry
        rw [dropped?_congr h]
      rw [selectEntries, selectEntries, hEntry]
      cases hNext : right.selectEntry file unit entry with
      | error e => rfl
      | ok next =>
          refine ih fun query => ?_
          rw [table_selectEntry hNext]
          exact h query

theorem answer_congr
    {left right : Library}
    (h : left.SameTables right)
    (table : MacroTable)
    (query : Query) :
    left.answer table query = right.answer table query := by
  have hTables := tablesFrom_congr h table
  cases query with
  | defined name => simp only [answer, isDefined, hTables]
  | constant name =>
      simp only [answer, constant?, findFrom, hTables]
  | template name =>
      simp only [answer, template?, findFrom, hTables]

/- Under names that differ one unit alone is changed. -/
theorem update_middle
    {front back : List (String × SourceUnit)}
    {file : String}
    {unit : SourceUnit}
    (hNames :
      (names ⟨front ++ (file, unit) :: back⟩).Nodup)
    (change : SourceUnit → SourceUnit) :
    update ⟨front ++ (file, unit) :: back⟩ file change =
      ⟨front ++ (file, change unit) :: back⟩ := by
  simp only [names, List.map_append, List.map_cons,
    List.nodup_append, List.nodup_cons] at hNames
  rcases hNames with ⟨_, ⟨hBack, _⟩, hFront⟩
  have hOthers : ∀ entries : List (String × SourceUnit),
      file ∉ entries.map (·.1) →
      entries.map (fun entry =>
        if entry.1 = file then (file, change entry.2)
        else entry) = entries := by
    intro entries hEntries
    refine (List.map_congr_left fun entry hEntry => ?_).trans
      (List.map_id entries)
    rw [if_neg]
    · rfl
    · rintro rfl
      exact hEntries (List.mem_map_of_mem hEntry)
  unfold update
  rw [List.map_append, List.map_cons, if_pos rfl,
    hOthers front, hOthers back hBack]
  intro hMem
  exact hFront file hMem file List.mem_cons_self rfl

/-
  The files in front are decided already, which left their
  tables as they were.  The others are decided one by one.
-/
theorem selectFilesApart_eq
    {library : Library}
    {front todo : List (String × SourceUnit)}
    (hNames : (names ⟨front ++ todo⟩).Nodup)
    (hTables : SameTables ⟨front ++ todo⟩ library) :
    selectFilesApart ⟨front ++ todo⟩ (todo.map (·.1)) =
      (⟨front ++ (library.selectUnits todo).1⟩,
        (library.selectUnits todo).2) := by
  induction todo generalizing front with
  | nil => rfl
  | cons entry rest ih =>
      rcases entry with ⟨file, unit⟩
      have hUnit : unit? ⟨front ++ (file, unit) :: rest⟩ file =
          some unit :=
        (unit?_eq_some_iff hNames).mpr
          (List.mem_append_right _ List.mem_cons_self)
      have hSelect :
          (without ⟨front ++ (file, unit) :: rest⟩ file).selectUnit
            file unit = library.selectUnit file unit := by
        refine selectEntries_congr (fun query => ?_) file _
        rw [answer_without hUnit, answer_congr hTables]
      have hTable := library.table_selectEntries file unit
        unit.table
      rw [List.map_cons, selectFilesApart, selectFileApart, hUnit]
      simp only [hSelect, update_middle hNames, selectUnits]
      rcases hResult : library.selectUnit file unit with
        ⟨next, _ | e⟩
      · have hSame : next.table = unit.table := by
          rw [selectUnit] at hResult
          rw [hResult] at hTable
          exact hTable
        simp only
        rw [List.append_cons, ih]
        · simp only [List.append_assoc, List.cons_append,
            List.nil_append]
        · simpa [names] using hNames
        · rw [← List.append_cons]
          intro name
          rw [← hTables name]
          refine sameTables_of_map_eq ?_ name
          simp [hSame]
      · rfl

theorem selectApart_eq
    {library : Library}
    (hNames : library.names.Nodup) :
    library.selectApart = library.selectParts :=
  @selectFilesApart_eq library [] library.units hNames
    fun _ => rfl

/-
  What a lookup finds.  It ends after as many turns as there
  are files and two more, whatever the inclusions are.  It
  gives the first find of a reading level by level, and it
  gives nothing just if no table has anything that can be met.
  A file finds the same with itself in the library or not, so
  deciding the regions of each file with the file held apart
  is deciding them with all files in their places.
-/
theorem search_breadth_first
    {α : Type}
    (library : Library)
    (find : MacroTable → Option α)
    (table : MacroTable) :
    (∀ turns, library.names.length + 2 ≤ turns →
      Search.run library find turns (.start table) =
        some (library.findFrom table find)) ∧
    (∀ found, library.findFrom table find = some found ↔
      library.FirstFound find table found) ∧
    (library.findFrom table find = none ↔
      ∀ other, library.ReachesTable table other →
        find other = none) ∧
    (∀ file unit, library.unit? file = some unit →
      (library.without file).findFrom unit.table find =
          library.findFrom unit.table find ∧
        ∀ query,
          (library.without file).answer unit.table query =
            library.answer unit.table query) ∧
    (library.names.Nodup →
      library.selectApart = library.selectParts) := by
  refine ⟨?_, ?_, findFrom_eq_none_iff, ?_, selectApart_eq⟩
  · exact fun turns hTurns =>
      Search.run_eq_findFrom library find table hTurns
  · exact fun found => findFrom_eq_some_iff
  · intro file unit hUnit
    exact ⟨findFrom_without hUnit find, answer_without hUnit⟩

/-
  The first file includes itself, a missing file and the
  second one, which includes the first one again.  The first
  file asks for a constant that both others have.
-/
def circularLibrary : Library where
  units := [
    ("a", ⟨[.vacant, .vacant, .vacant, .vacant, .vacant], [
      .inclusion "a" 0,
      .inclusion "gone" 1,
      .inclusion "b" 2,
      .ifCondition "mode==2" ⟨3, 4⟩ none]⟩),
    ("b", ⟨[.vacant, .vacant, .vacant], [
      .inclusion "c" 0,
      .inclusion "a" 1,
      .constant "mode" "1"]⟩),
    ("c", ⟨[.vacant], [.constant "mode" "2"]⟩)]

theorem circularLibrary_search :
    ∃ unit, circularLibrary.unit? "a" = some unit ∧
      circularLibrary.constant? unit.table "mode" =
        some "1" ∧
      (circularLibrary.without "a").constant? unit.table
        "mode" = some "1" ∧
      circularLibrary.names.length + 2 ≤ 5 ∧
      Search.run circularLibrary (·.constant? "mode") 5
        (.start unit.table) = some (some "1") ∧
      circularLibrary.constant? unit.table "none" = none ∧
      circularLibrary.names.Nodup ∧
      circularLibrary.selectApart =
        circularLibrary.selectParts := by
  let unit := ((circularLibrary.unit? "a").getD ⟨[], []⟩)
  have hUnit : circularLibrary.unit? "a" = some unit := by
    decide +kernel
  have hNames : circularLibrary.names.Nodup := by
    decide +kernel
  have hTurns : circularLibrary.names.length + 2 ≤ 5 := by
    decide
  rcases search_breadth_first circularLibrary
    (·.constant? "mode") unit.table with
    ⟨hRun, hFound, _, hApart, hSelect⟩
  have hMode : circularLibrary.findFrom unit.table
      (·.constant? "mode") = some "1" := by
    rw [hFound]
    exact ⟨1, [unit.table],
      [.inclusion "c" 0, .inclusion "a" 1,
        .constant "mode" "1"], [], by decide +kernel,
      by decide +kernel, by decide +kernel, by decide +kernel⟩
  have hNone := (search_breadth_first circularLibrary
    (·.constant? "none") unit.table).1 5 hTurns
  have hEnd : Search.run circularLibrary (·.constant? "none") 5
      (.start unit.table) = some none := by
    decide +kernel
  refine ⟨unit, hUnit, hMode, ?_, hTurns, ?_, ?_, hNames,
    hSelect hNames⟩
  · exact ((hApart "a" unit hUnit).1).trans hMode
  · rw [hRun 5 hTurns, hMode]
  · exact Option.some.inj (hNone.symm.trans hEnd)

end Library

end MmixAsm
