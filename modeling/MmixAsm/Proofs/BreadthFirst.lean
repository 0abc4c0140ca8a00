import Mathlib.Data.Nat.Find
import Mathlib.Logic.Relation
import MmixAsm.Proofs.FirstMentions
import MmixAsm.Proofs.IncludeClosure

/-
  Where a search in a library ends.

  Inclusions may run in circles, name the file itself or name
  no file at all.  Unrolled they form a tree of tables, whose
  levels are the distances from the table where a search
  starts.  A search gives what a reading of the tree level by
  level finds first, and it never reads a file twice.

  Key definitions include:
    * `MmixAsm.Library.tablesAt`
    * `MmixAsm.Library.ReachesTable`
    * `MmixAsm.Library.FirstFound`
    * `MmixAsm.Library.fresh`
    * `MmixAsm.Search`
    * `MmixAsm.Search.run`

  Key theorems include:
    * `MmixAsm.Library.reachable_append`
    * `MmixAsm.Library.findFrom_eq_some_iff`
    * `MmixAsm.Library.findFrom_eq_none_iff`
    * `MmixAsm.Library.findFrom_congr_levels`
    * `MmixAsm.Search.run_eq_findFrom`
-/

------------------------------------------------------------
-- The Tree Of Inclusions
------------------------------------------------------------

namespace MmixAsm

namespace Library

/- The table of a file, if there is such a file. -/
def table?
    (library : Library)
    (file : String) : Option MacroTable :=
  (library.unit? file).map (·.table)

/- The tables of the files that a table includes. -/
def includedTables
    (library : Library)
    (table : MacroTable) : List MacroTable :=
  table.includedFiles.filterMap library.table?

/-
  The tables at a distance from a table, in the order in which
  the inclusions lead to them.  A table stands here once for
  every way to it.
-/
def tablesAt
    (library : Library) :
    Nat → MacroTable → List MacroTable
| 0, table => [table]
| distance + 1, table =>
    (library.includedTables table).flatMap
      (library.tablesAt distance)

/- A table can be met from another by inclusions. -/
def ReachesTable (library : Library) :
    MacroTable → MacroTable → Prop :=
  Relation.ReflTransGen fun table other =>
    other ∈ library.includedTables table

/- What can be met has a distance, and the other way round. -/
theorem exists_mem_tablesAt_iff
    {library : Library}
    {table other : MacroTable} :
    (∃ distance, other ∈ library.tablesAt distance table) ↔
      library.ReachesTable table other := by
  constructor
  · rintro ⟨distance, hOther⟩
    induction distance generalizing table with
    | zero =>
        rw [List.mem_singleton.mp hOther]
        exact .refl
    | succ distance ih =>
        rcases List.mem_flatMap.mp hOther with
          ⟨next, hNext, hOther⟩
        exact (ih hOther).head hNext
  · intro hReaches
    induction hReaches using
      Relation.ReflTransGen.head_induction_on with
    | refl => exact ⟨0, List.mem_singleton_self other⟩
    | head hNext _ ih =>
        rcases ih with ⟨distance, hOther⟩
        exact ⟨distance + 1,
          List.mem_flatMap.mpr ⟨_, hNext, hOther⟩⟩

variable {α : Type}

/- The first find among the tables at a distance. -/
def findAt
    (library : Library)
    (find : MacroTable → Option α)
    (distance : Nat)
    (table : MacroTable) : Option α :=
  (library.tablesAt distance table).findSome? find

/- The first find at a distance from a file. -/
def findAtFile
    (library : Library)
    (find : MacroTable → Option α)
    (distance : Nat)
    (file : String) : Option α :=
  (library.table? file).bind (library.findAt find distance)

/-
  The first find of a reading level by level: nothing is found
  nearer, and nothing in front of it at its own distance.
-/
def FirstFound
    (library : Library)
    (find : MacroTable → Option α)
    (table : MacroTable)
    (found : α) : Prop :=
  ∃ distance front other back,
    library.tablesAt distance table = front ++ other :: back ∧
      find other = some found ∧
      (∀ earlier ∈ front, find earlier = none) ∧
      ∀ nearer < distance,
        ∀ earlier ∈ library.tablesAt nearer table,
          find earlier = none

variable {library : Library}
variable {find : MacroTable → Option α}

theorem findAt_zero (table : MacroTable) :
    library.findAt find 0 table = find table := by
  simp [findAt, tablesAt]

/- The tables one step further on are those behind a file. -/
theorem findAt_succ
    (distance : Nat)
    (table : MacroTable) :
    library.findAt find (distance + 1) table =
      table.includedFiles.findSome?
        (library.findAtFile find distance) := by
  simp only [findAt, tablesAt, includedTables]
  induction table.includedFiles with
  | nil => rfl
  | cons file rest ih =>
      rw [List.findSome?_cons]
      cases hTable : library.table? file with
      | none =>
          simp only [findAtFile, hTable, Option.bind_none,
            List.filterMap_cons, ih]
      | some next =>
          simp only [findAtFile, hTable, Option.bind_some,
            List.filterMap_cons, List.flatMap_cons,
            List.findSome?_append, ih, findAt]
          cases List.findSome? find
              (library.tablesAt distance next) with
          | none => rfl
          | some found => rfl

theorem firstFound_iff
    {table : MacroTable}
    {found : α} :
    library.FirstFound find table found ↔
      ∃ distance,
        library.findAt find distance table = some found ∧
          ∀ nearer < distance,
            library.findAt find nearer table = none := by
  unfold FirstFound findAt
  refine exists_congr fun distance => ?_
  simp only [List.findSome?_eq_none_iff]
  constructor
  · rintro ⟨front, other, back, hSplit, hFound, hFront, hNear⟩
    refine ⟨?_, hNear⟩
    rw [hSplit, List.findSome?_append,
      List.findSome?_eq_none_iff.mpr hFront,
      List.findSome?_cons, hFound]
    rfl
  · rintro ⟨hFound, hNear⟩
    rcases List.findSome?_eq_some_iff.mp hFound with
      ⟨front, other, back, hSplit, hOther, hFront⟩
    exact ⟨front, other, back, hSplit, hOther, hFront, hNear⟩

end Library

end MmixAsm

------------------------------------------------------------
-- Levels Of A Search
------------------------------------------------------------

namespace MmixAsm

namespace Library

/-
  The files among some names that are not known yet, each at
  its first mention.
-/
def fresh
    (library : Library)
    (known names : List String) : List String :=
  (names.filter fun name =>
    (library.table? name).isSome && !known.contains name
  ).eraseDups

/- The files that a file includes. -/
def linksOf
    (library : Library)
    (file : String) : List String :=
  ((library.table? file).map (·.includedFiles)).getD []

variable {library : Library}
variable {known names : List String}

theorem mem_fresh
    {name : String} :
    name ∈ library.fresh known names ↔
      name ∈ names ∧ (library.table? name).isSome ∧
        name ∉ known := by
  simp [fresh, List.mem_eraseDups, List.mem_filter]

theorem fresh_nil :
    library.fresh known [] = [] :=
  rfl

/- A known or missing name is passed over. -/
theorem fresh_cons_of_stale
    {name : String}
    (h : name ∈ known ∨ library.table? name = none) :
    library.fresh known (name :: names) =
      library.fresh known names := by
  unfold fresh
  rw [List.filter_cons_of_neg]
  rcases h with hKnown | hNone
  · simp [hKnown]
  · simp [hNone]

/- A new file is known from then on. -/
theorem fresh_cons_of_new
    {name : String}
    {table : MacroTable}
    (hTable : library.table? name = some table)
    (hNew : name ∉ known) :
    library.fresh known (name :: names) =
      name :: library.fresh (name :: known) names := by
  unfold fresh
  rw [List.filter_cons_of_pos (by simp [hTable, hNew]),
    List.eraseDups_cons, List.filter_filter]
  congr 2
  apply List.filter_congr
  intro other _
  simp only [List.contains_cons, Bool.not_or]
  cases (library.table? other).isSome with
  | false => simp
  | true => rfl

/- One more name adds a file if it is new. -/
theorem fresh_concat
    (name : String) :
    library.fresh known (names ++ [name]) =
      library.fresh known names ++
        if (library.table? name).isSome ∧
            name ∉ known ∧ name ∉ names then
          [name]
        else
          [] := by
  unfold fresh
  rw [List.filter_append]
  by_cases hNew : (library.table? name).isSome ∧ name ∉ known
  · have hOne : [name].filter (fun other =>
        (library.table? other).isSome &&
          !known.contains other) = [name] := by
      simp [hNew]
    rw [hOne, eraseDups_concat]
    by_cases hMem : name ∈ names
    · rw [if_pos (by simp [hMem, hNew]), if_neg (by simp [hMem]),
        List.append_nil]
    · rw [if_neg (by simp [hMem]), if_pos (by simp [hMem, hNew])]
  · have hNone : [name].filter (fun other =>
        (library.table? other).isSome &&
          !known.contains other) = [] := by
      simpa using hNew
    rw [hNone, List.append_nil,
      if_neg (fun h => hNew ⟨h.1, h.2.1⟩), List.append_nil]

/-
  A search reads the new files of a level before all files
  that these include.
-/
theorem reachable_append
    (known names more : List String) :
    library.reachable known (names ++ more) =
      library.fresh known names ++
        library.reachable
          ((library.fresh known names).reverse ++ known)
          (more ++
            (library.fresh known names).flatMap
              library.linksOf) := by
  induction names generalizing known more with
  | nil => simp [fresh_nil]
  | cons name rest ih =>
      rw [List.cons_append, reachable_cons]
      by_cases hKnown : name ∈ known
      · rw [if_pos (List.contains_iff_mem.mpr hKnown), ih,
          fresh_cons_of_stale (.inl hKnown)]
      · rw [if_neg (by simpa using hKnown)]
        cases hUnit : library.unit? name with
        | none =>
            have hTable : library.table? name = none := by
              simp [table?, hUnit]
            rw [fresh_cons_of_stale (.inr hTable)]
            exact ih known more
        | some unit =>
            have hTable : library.table? name =
                some unit.table := by
              simp [table?, hUnit]
            have hLinks : library.linksOf name =
                unit.table.includedFiles := by
              simp [linksOf, hTable]
            rw [fresh_cons_of_new hTable hKnown]
            simp only [Option.map_some]
            rw [List.append_assoc, ih]
            simp only [List.cons_append, List.reverse_cons,
              List.append_assoc, List.nil_append,
              List.flatMap_cons, hLinks]

variable {α : Type}
variable {find : MacroTable → Option α}

/- Nothing is lost by passing over names where nothing is. -/
theorem findSome?_fresh
    {distance : Nat}
    (hKnown : ∀ name ∈ known,
      library.findAtFile find distance name = none) :
    (library.fresh known names).findSome?
        (library.findAtFile find distance) =
      names.findSome? (library.findAtFile find distance) := by
  induction names generalizing known with
  | nil => rfl
  | cons name rest ih =>
      rw [List.findSome?_cons]
      by_cases hStale :
          name ∈ known ∨ library.table? name = none
      · have hNone :
            library.findAtFile find distance name = none := by
          rcases hStale with hMem | hTable
          · exact hKnown name hMem
          · simp [findAtFile, hTable]
        rw [fresh_cons_of_stale hStale, hNone]
        exact ih hKnown
      · rcases not_or.mp hStale with ⟨hNew, hSome⟩
        rcases Option.ne_none_iff_exists'.mp hSome with
          ⟨table, hTable⟩
        rw [fresh_cons_of_new hTable hNew, List.findSome?_cons]
        cases hFound : library.findAtFile find distance name with
        | some found => rfl
        | none =>
            exact ih (List.forall_mem_cons.mpr ⟨hFound, hKnown⟩)

theorem findAtFile_succ
    (distance : Nat)
    (file : String) :
    library.findAtFile find (distance + 1) file =
      (library.linksOf file).findSome?
        (library.findAtFile find distance) := by
  unfold findAtFile linksOf
  cases library.table? file with
  | none => rfl
  | some table => exact findAt_succ distance table

/- What is found behind the files of a level. -/
theorem findSome?_flatMap_linksOf
    (distance : Nat)
    (files : List String) :
    (files.flatMap library.linksOf).findSome?
        (library.findAtFile find distance) =
      files.findSome?
        (library.findAtFile find (distance + 1)) := by
  induction files with
  | nil => rfl
  | cons file rest ih =>
      rw [List.flatMap_cons, List.findSome?_append, ih,
        ← findAtFile_succ, List.findSome?_cons]
      cases library.findAtFile find (distance + 1) file with
      | none => rfl
      | some found => rfl

/-
  The search gives the first find of the nearest level where
  there is one, if nothing was to be found that near behind
  the names known before.
-/
theorem findSome?_reachable_of_first
    {distance : Nat}
    {found : α}
    (hFound : names.findSome?
      (library.findAtFile find distance) = some found)
    (hNear : ∀ nearer < distance,
      names.findSome?
        (library.findAtFile find nearer) = none)
    (hKnown : ∀ nearer ≤ distance, ∀ name ∈ known,
      library.findAtFile find nearer name = none) :
    (library.reachable known names).findSome?
      (library.findAtFile find 0) = some found := by
  have hLevel := library.reachable_append known names []
  rw [List.append_nil, List.nil_append] at hLevel
  rw [hLevel, List.findSome?_append]
  induction distance generalizing known names with
  | zero =>
      rw [findSome?_fresh (hKnown 0 (Nat.le_refl 0)), hFound]
      rfl
  | succ distance ih =>
      have hFresh : ∀ name ∈ library.fresh known names,
          ∀ nearer < distance + 1,
            library.findAtFile find nearer name = none := by
        intro name hName nearer hNearer
        exact List.findSome?_eq_none_iff.mp
          (hNear nearer hNearer) name (mem_fresh.mp hName).1
      rw [List.findSome?_eq_none_iff.mpr
        fun name hName => hFresh name hName 0 (by omega)]
      -- The next level is searched like this one.
      have hNext := library.reachable_append
        ((library.fresh known names).reverse ++ known)
        ((library.fresh known names).flatMap library.linksOf) []
      rw [List.append_nil, List.nil_append] at hNext
      rw [Option.none_or, hNext, List.findSome?_append]
      refine ih ?_ ?_ ?_ hNext
      · rw [findSome?_flatMap_linksOf, findSome?_fresh, hFound]
        exact hKnown (distance + 1) (Nat.le_refl _)
      · intro nearer hNearer
        rw [findSome?_flatMap_linksOf, findSome?_fresh]
        · exact hNear (nearer + 1) (by omega)
        · exact hKnown (nearer + 1) (by omega)
      · intro nearer hNearer name hName
        rcases List.mem_append.mp hName with hNew | hOld
        · exact hFresh name (List.mem_reverse.mp hNew) nearer
            (by omega)
        · exact hKnown nearer (by omega) name hOld

end Library

end MmixAsm

------------------------------------------------------------
-- What A Search Finds
------------------------------------------------------------

namespace MmixAsm

namespace Library

variable {α : Type}
variable {library : Library}
variable {find : MacroTable → Option α}
variable {table : MacroTable}

theorem findAtFile_zero
    (file : String) :
    library.findAtFile find 0 file =
      (library.table? file).bind find := by
  unfold findAtFile
  cases library.table? file with
  | none => rfl
  | some next => exact findAt_zero next

/- Reading the tables of some files is reading the files. -/
theorem findSome?_tables
    (files : List String) :
    (files.filterMap library.table?).findSome? find =
      files.findSome? (library.findAtFile find 0) := by
  induction files with
  | nil => rfl
  | cons file rest ih =>
      rw [List.findSome?_cons, findAtFile_zero]
      cases hTable : library.table? file with
      | none =>
          rw [List.filterMap_cons_none hTable]
          exact ih
      | some next =>
          rw [List.filterMap_cons_some hTable,
            List.findSome?_cons, ih]
          rfl

/- The own table comes first, then the files in their order. -/
theorem findFrom_eq
    (library : Library)
    (find : MacroTable → Option α)
    (table : MacroTable) :
    library.findFrom table find =
      (find table).or
        ((library.reachable [] table.includedFiles).findSome?
          (library.findAtFile find 0)) := by
  rw [← findSome?_tables]
  change (table :: _).findSome? find = _
  rw [List.findSome?_cons]
  cases find table with
  | none => rfl
  | some found => rfl

/- The nearest find is what the search gives. -/
theorem findFrom_of_firstFound
    {found : α}
    (h : library.FirstFound find table found) :
    library.findFrom table find = some found := by
  rcases firstFound_iff.mp h with ⟨distance, hFound, hNear⟩
  rw [findFrom_eq]
  cases distance with
  | zero =>
      rw [findAt_zero] at hFound
      rw [hFound]
      rfl
  | succ distance =>
      have hOwn := hNear 0 (by omega)
      rw [findAt_zero] at hOwn
      rw [hOwn, Option.none_or]
      rw [findAt_succ] at hFound
      refine findSome?_reachable_of_first hFound ?_ ?_
      · intro nearer hNearer
        rw [← findAt_succ]
        exact hNear (nearer + 1) (by omega)
      · intro _ _ name hName
        cases hName

/- Where nothing is at any distance, nothing is found. -/
theorem findFrom_of_nowhere
    (h : ∀ distance,
      library.findAt find distance table = none) :
    library.findFrom table find = none := by
  have hOwn := h 0
  rw [findAt_zero] at hOwn
  rw [findFrom_eq, hOwn, Option.none_or,
    List.findSome?_eq_none_iff]
  have hClosed : ∀ file unit,
      (∀ distance,
        library.findAtFile find distance file = none) →
      library.unit? file = some unit →
      ∀ other ∈ unit.table.includedFiles, ∀ distance,
        library.findAtFile find distance other = none := by
    intro file unit hNone hUnit other hOther distance
    have hFurther := hNone (distance + 1)
    rw [findAtFile_succ, List.findSome?_eq_none_iff] at hFurther
    apply hFurther other
    simpa [linksOf, table?, hUnit] using hOther
  have hQueue : ∀ file ∈ table.includedFiles, ∀ distance,
      library.findAtFile find distance file = none := by
    intro file hFile distance
    have hFurther := h (distance + 1)
    rw [findAt_succ, List.findSome?_eq_none_iff] at hFurther
    exact hFurther file hFile
  intro name hName
  exact within_of_mem_reachable hClosed hQueue hName 0

/- Either there is a nearest find or there is none at all. -/
theorem firstFound_or_nowhere
    (library : Library)
    (find : MacroTable → Option α)
    (table : MacroTable) :
    (∃ found, library.FirstFound find table found) ∨
      ∀ distance,
        library.findAt find distance table = none := by
  by_cases hSome : ∃ distance,
      library.findAt find distance table ≠ none
  · left
    classical
    rcases Option.ne_none_iff_exists'.mp (Nat.find_spec hSome)
      with ⟨found, hFound⟩
    refine ⟨found, firstFound_iff.mpr
      ⟨Nat.find hSome, hFound, ?_⟩⟩
    intro nearer hNearer
    exact not_not.mp (Nat.find_min hSome hNearer)
  · right
    intro distance
    by_contra hFound
    exact hSome ⟨distance, hFound⟩

theorem findFrom_eq_some_iff
    {found : α} :
    library.findFrom table find = some found ↔
      library.FirstFound find table found := by
  refine ⟨fun h => ?_, findFrom_of_firstFound⟩
  rcases firstFound_or_nowhere library find table with
    ⟨other, hOther⟩ | hNowhere
  · cases (findFrom_of_firstFound hOther).symm.trans h
    exact hOther
  · cases (findFrom_of_nowhere hNowhere).symm.trans h

/- Nothing is found if no table has it that can be met. -/
theorem findFrom_eq_none_iff :
    library.findFrom table find = none ↔
      ∀ other, library.ReachesTable table other →
        find other = none := by
  constructor
  · intro h other hReaches
    rcases firstFound_or_nowhere library find table with
      ⟨found, hFound⟩ | hNowhere
    · cases (findFrom_of_firstFound hFound).symm.trans h
    · rcases exists_mem_tablesAt_iff.mpr hReaches with
        ⟨distance, hOther⟩
      exact List.findSome?_eq_none_iff.mp (hNowhere distance)
        other hOther
  · intro h
    refine findFrom_of_nowhere fun distance => ?_
    refine List.findSome?_eq_none_iff.mpr fun other hOther => ?_
    exact h other (exists_mem_tablesAt_iff.mp ⟨distance, hOther⟩)

/-
  Two libraries answer alike if their levels do, up to the
  first level where something is found.
-/
theorem findFrom_congr_levels
    {left right : Library}
    (h : ∀ distance,
      (∀ nearer < distance,
        left.findAt find nearer table = none) →
      left.findAt find distance table =
        right.findAt find distance table) :
    left.findFrom table find = right.findFrom table find := by
  rcases firstFound_or_nowhere left find table with
    ⟨found, hFirst⟩ | hNowhere
  · rw [findFrom_of_firstFound hFirst]
    rcases firstFound_iff.mp hFirst with
      ⟨distance, hFound, hNear⟩
    refine (findFrom_of_firstFound (firstFound_iff.mpr
      ⟨distance, ?_, ?_⟩)).symm
    · rw [← h distance hNear, hFound]
    · intro nearer hNearer
      rw [← h nearer fun other hOther =>
        hNear other (by omega)]
      exact hNear nearer hNearer
  · rw [findFrom_of_nowhere hNowhere]
    refine (findFrom_of_nowhere fun distance => ?_).symm
    rw [← h distance fun nearer _ => hNowhere nearer]
    exact hNowhere distance

end Library

end MmixAsm

------------------------------------------------------------
-- Searching With A Queue
------------------------------------------------------------

namespace MmixAsm

/-
  A search under way: the tables that wait to be read, and the
  names that were asked for.  A name is marked when its table
  joins the queue and not when it is read.
-/
structure Search where
  queue : List MacroTable
  asked : List String

namespace Search

/- A search that is about to read a table. -/
def start (table : MacroTable) : Search where
  queue := [table]
  asked := []

/- Ask for a file, whose table joins the queue if it is new. -/
def ask
    (library : Library)
    (search : Search)
    (file : String) : Search :=
  if search.asked.contains file then
    search
  else {
    queue := search.queue ++ (library.table? file).toList
    asked := file :: search.asked }

variable {α : Type}

/-
  Read tables from the queue until one of them has an answer
  or none is left, for a number of turns at most.
-/
def run
    (library : Library)
    (find : MacroTable → Option α) :
    Nat → Search → Option (Option α)
| 0, _ => none
| turns + 1, search =>
    match search.queue with
    | [] => some none
    | table :: rest =>
        match find table with
        | some found => some (some found)
        | none =>
            run library find turns
              (table.includedFiles.foldl (ask library)
                ⟨rest, search.asked⟩)

/-
  The queue holds the tables of the new files among some
  names, and of the files exactly these names and those known
  before were asked for.
-/
structure Awaits
    (library : Library)
    (known names : List String)
    (search : Search) : Prop where
  queue : search.queue =
    (library.fresh known names).filterMap library.table?
  asked : ∀ file, (library.table? file).isSome →
    (file ∈ search.asked ↔ file ∈ known ∨ file ∈ names)

variable {library : Library}
variable {known names : List String}
variable {search : Search}

/- Asking for a file is one more name. -/
theorem Awaits.ask
    (h : search.Awaits library known names)
    (file : String) :
    (search.ask library file).Awaits library known
      (names ++ [file]) := by
  unfold Search.ask
  by_cases hAsked : file ∈ search.asked
  · rw [if_pos (List.contains_iff_mem.mpr hAsked)]
    constructor
    · rw [h.queue, Library.fresh_concat, if_neg,
        List.append_nil]
      rintro ⟨hTable, hKnown, hNames⟩
      exact ((h.asked file hTable).mp hAsked).elim hKnown hNames
    · intro other hOther
      rw [h.asked other hOther, List.mem_append,
        List.mem_singleton]
      constructor
      · exact fun hMem => hMem.imp_right .inl
      · rintro (hKnown | hNames | rfl)
        · exact .inl hKnown
        · exact .inr hNames
        · exact (h.asked other hOther).mp hAsked
  · rw [if_neg (by simpa using hAsked)]
    constructor
    · rw [h.queue, Library.fresh_concat, List.filterMap_append]
      cases hTable : library.table? file with
      | none => simp
      | some table =>
          have hSome : (library.table? file).isSome := by
            simp [hTable]
          have hNew := mt (h.asked file hSome).mpr hAsked
          rw [not_or] at hNew
          rw [if_pos ⟨rfl, hNew⟩]
          simp [hTable]
    · intro other hOther
      simp only [List.mem_cons, h.asked other hOther,
        List.mem_append, List.not_mem_nil, or_false]
      tauto

theorem Awaits.foldl_ask
    (h : search.Awaits library known names)
    (files : List String) :
    (files.foldl (Search.ask library) search).Awaits library
      known (names ++ files) := by
  induction files generalizing search names with
  | nil => rwa [List.append_nil]
  | cons file rest ih =>
      rw [List.append_cons]
      exact ih (h.ask file)

/-
  A search with a queue reads the tables in the order of the
  files that can be met.
-/
theorem run_of_awaits
    {find : MacroTable → Option α}
    {turns : Nat}
    (h : search.Awaits library known names)
    (hTurns :
      (library.reachable known names).length < turns) :
    run library find turns search =
      some ((library.reachable known names).findSome?
        (library.findAtFile find 0)) := by
  induction known, names using Library.reachable.induct library
    generalizing search turns with
  | case1 known =>
      rw [Library.reachable] at hTurns ⊢
      cases turns with
      | zero => cases hTurns
      | succ turns =>
          rw [run, h.queue, Library.fresh_nil]
          rfl
  | case2 known name rest hKnown ih =>
      rw [Library.reachable_cons, if_pos hKnown] at hTurns ⊢
      have hMem := List.contains_iff_mem.mp hKnown
      refine ih ⟨?_, ?_⟩ hTurns
      · rw [h.queue, Library.fresh_cons_of_stale (.inl hMem)]
      · intro file hFile
        rw [h.asked file hFile, List.mem_cons]
        constructor
        · rintro (hOld | rfl | hRest)
          · exact .inl hOld
          · exact .inl hMem
          · exact .inr hRest
        · exact fun hMem => hMem.imp_right .inr
  | case3 known name rest hKnown hUnit ih =>
      have hTable : library.table? name = none := by
        simp [Library.table?, hUnit]
      simp only [Library.reachable_cons, if_neg hKnown, hUnit,
        Option.map_none] at hTurns ⊢
      refine ih ⟨?_, ?_⟩ hTurns
      · rw [h.queue, Library.fresh_cons_of_stale (.inr hTable)]
      · intro file hFile
        have hOther : file ≠ name := by
          rintro rfl
          rw [hTable] at hFile
          cases hFile
        rw [h.asked file hFile, List.mem_cons]
        simp [hOther]
  | case4 known name rest hKnown unit hUnit ih =>
      have hTable : library.table? name = some unit.table := by
        simp [Library.table?, hUnit]
      have hNew : name ∉ known := by simpa using hKnown
      simp only [Library.reachable_cons, if_neg hKnown, hUnit,
        Option.map_some, List.length_cons] at hTurns ⊢
      cases turns with
      | zero => cases hTurns
      | succ turns =>
          have hQueue := h.queue
          rw [Library.fresh_cons_of_new hTable hNew,
            List.filterMap_cons_some hTable] at hQueue
          rw [run, hQueue, List.findSome?_cons,
            Library.findAtFile_zero, hTable, Option.bind_some]
          cases hFound : find unit.table with
          | some found => simp only [hFound]
          | none =>
              simp only [hFound]
              refine ih ?_ (Nat.lt_of_succ_lt_succ hTurns)
              -- The file that is read now is known from here
              -- on, and its links are asked for.
              refine Awaits.foldl_ask ⟨rfl, ?_⟩ _
              intro file hFile
              rw [h.asked file hFile, List.mem_cons,
                List.mem_cons]
              tauto

end Search

namespace Library

/- No file is read twice. -/
theorem length_reachable_le
    (library : Library)
    (known names : List String) :
    (library.reachable known names).length ≤
      library.remaining known := by
  induction known, names using reachable.induct library with
  | case1 known =>
      rw [reachable]
      exact Nat.zero_le _
  | case2 known name rest hKnown ih =>
      rw [reachable_cons, if_pos hKnown]
      exact ih
  | case3 known name rest hKnown hUnit ih =>
      simp only [reachable_cons, if_neg hKnown, hUnit,
        Option.map_none]
      exact ih
  | case4 known name rest hKnown unit hUnit ih =>
      simp only [reachable_cons, if_neg hKnown, hUnit,
        Option.map_some, List.length_cons]
      have hFewer := remaining_cons_lt
        (mem_names_of_unit? hUnit) hKnown
      exact Nat.lt_of_le_of_lt ih hFewer

end Library

/-
  Every search ends, after two more turns than there are files
  at the latest.
-/
theorem Search.run_eq_findFrom
    {α : Type}
    (library : Library)
    (find : MacroTable → Option α)
    (table : MacroTable)
    {turns : Nat}
    (hTurns : library.names.length + 2 ≤ turns) :
    run library find turns (start table) =
      some (library.findFrom table find) := by
  have hAll : library.remaining [] ≤ library.names.length :=
    List.countP_le_length
  have hLength := library.length_reachable_le []
    table.includedFiles
  cases turns with
  | zero => cases hTurns
  | succ turns =>
      rw [run, start, Library.findFrom_eq]
      cases hFound : find table with
      | some found => simp only [hFound, Option.some_or]
      | none =>
          simp only [hFound, Option.none_or]
          have hNothing : Awaits library [] [] ⟨[], []⟩ :=
            ⟨rfl, by simp⟩
          exact run_of_awaits (hNothing.foldl_ask _) (by omega)

end MmixAsm
