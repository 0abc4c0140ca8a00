import MmixAsm.Macro.SourceUnit

/-
  Libraries: all files of a program by name.

  The files stand in the order of their names.  A name used
  in a file is looked up in that file and then in the files
  that it includes, directly or through others, breadth first.
  Inclusions count here whether or not their line is dropped.

  Key definitions include:
    * `MmixAsm.Library`
    * `MmixAsm.Library.ofFiles`
    * `MmixAsm.Library.reachable`
    * `MmixAsm.Library.findFrom`
-/

------------------------------------------------------------
-- Libraries
------------------------------------------------------------

namespace MmixAsm

/- The units of a program in the order of their names. -/
structure Library where
  units : List (String × SourceUnit)
deriving DecidableEq

namespace Library

/- The library without files. -/
def empty : Library where
  units := []

/- The names of all files. -/
def names (library : Library) : List String :=
  library.units.map (·.1)

/- The unit with the given name. -/
def unit?
    (library : Library)
    (name : String) : Option SourceUnit :=
  library.units.lookup name

/- Put a unit in front of the names that are greater. -/
def insertUnit
    (name : String)
    (unit : SourceUnit) :
    List (String × SourceUnit) → List (String × SourceUnit)
| [] => [(name, unit)]
| entry :: rest =>
    if name < entry.1 then
      (name, unit) :: entry :: rest
    else
      entry :: insertUnit name unit rest

/- Change the unit with the given name. -/
def update
    (library : Library)
    (name : String)
    (change : SourceUnit → SourceUnit) : Library where
  units := library.units.map fun entry =>
    if entry.1 = name then (name, change entry.2) else entry

/- Add a file under a name that is new. -/
def add
    (library : Library)
    (file : SourceFile) : Except MacroError Library :=
  match SourceUnit.ofFile file with
  | .error e => .error e
  | .ok unit =>
      if library.names.contains file.name then
        .error (.duplicateFile file.name)
      else
        .ok ⟨insertUnit file.name unit library.units⟩

/- The library of some files, read in the given order. -/
def ofFiles
    (files : List SourceFile) : Except MacroError Library :=
  files.foldlM add empty

/- A unit that is found is one of the named ones. -/
theorem mem_names_of_unit?
    {library : Library}
    {name : String}
    {unit : SourceUnit}
    (h : library.unit? name = some unit) :
    name ∈ library.names := by
  unfold unit? at h
  unfold names
  generalize library.units = units at h ⊢
  induction units with
  | nil => simp at h
  | cons entry rest ih =>
      rw [List.lookup_cons] at h
      split at h
      · rename_i hEq
        simp [eq_of_beq hEq]
      · simp [ih h]

end Library

end MmixAsm

------------------------------------------------------------
-- Search
------------------------------------------------------------

namespace MmixAsm

namespace Library

/- How many files are not among the given names. -/
def remaining
    (library : Library)
    (names : List String) : Nat :=
  library.names.countP (fun name => !names.contains name)

/- Naming one more file leaves fewer. -/
theorem remaining_cons_lt
    {library : Library}
    {name : String}
    {names : List String}
    (hMem : name ∈ library.names)
    (hNew : ¬ names.contains name) :
    library.remaining (name :: names) <
      library.remaining names := by
  unfold remaining
  generalize library.names = all at hMem ⊢
  induction all with
  | nil => simp at hMem
  | cons other rest ih =>
      have hLe :
          rest.countP (fun n => !(name :: names).contains n) ≤
            rest.countP (fun n => !names.contains n) := by
        apply List.countP_mono_left
        intro n _ hn
        simp only [List.contains_cons, Bool.not_or,
          Bool.and_eq_true] at hn
        exact hn.2
      rw [List.countP_cons, List.countP_cons]
      by_cases hEq : other = name
      · subst hEq
        simp only [hNew, List.contains_cons, beq_self_eq_true,
          Bool.true_or, Bool.not_true, Bool.not_false,
          Bool.false_eq_true, if_false, if_true] at hLe ⊢
        omega
      · have hRest : name ∈ rest := by
          rcases List.mem_cons.mp hMem with h | h
          · exact absurd h.symm hEq
          · exact h
        have hLt := ih hRest
        have hBeq : (other == name) = false := by
          simpa using hEq
        simp only [List.contains_cons, hBeq, Bool.false_or]
          at hLt ⊢
        omega

/-
  The files met when following inclusions breadth first from
  the queued names, without those already visited.  A name
  that no file has is passed over.
-/
def reachable
    (library : Library)
    (visited : List String)
    (queue : List String) : List String :=
  match queue with
  | [] => []
  | name :: rest =>
      if _hVisited : visited.contains name then
        reachable library visited rest
      else
        match _hUnit : library.unit? name with
        | none => reachable library visited rest
        | some unit =>
            name ::
              reachable library (name :: visited)
                (rest ++ unit.table.inclusions.map (·.1))
termination_by (library.remaining visited, queue.length)
decreasing_by
  · exact Prod.Lex.right _ (by simp)
  · exact Prod.Lex.right _ (by simp)
  · exact Prod.Lex.left _ _
      (remaining_cons_lt (mem_names_of_unit? _hUnit) _hVisited)

/- The tables to look a name up in, in their order. -/
def tablesFrom
    (library : Library)
    (table : MacroTable) : List MacroTable :=
  table ::
    (library.reachable [] (table.inclusions.map (·.1))).filterMap
      (fun name => (library.unit? name).map (·.table))

/- The first thing found in a table and those behind it. -/
def findFrom
    {α : Type}
    (library : Library)
    (table : MacroTable)
    (find : MacroTable → Option α) : Option α :=
  (library.tablesFrom table).findSome? find

/- Whether a name is defined as seen from a table. -/
def isDefined
    (library : Library)
    (table : MacroTable)
    (name : String) : Bool :=
  (library.tablesFrom table).any (fun t => t.defines name)

/- The template of a name as seen from a table. -/
def template?
    (library : Library)
    (table : MacroTable)
    (name : String) : Option Template :=
  library.findFrom table (fun t => t.template? name)

/- The constant of a name as seen from a table. -/
def constant?
    (library : Library)
    (table : MacroTable)
    (name : String) : Option String :=
  library.findFrom table (fun t => t.constant? name)

end Library

end MmixAsm
