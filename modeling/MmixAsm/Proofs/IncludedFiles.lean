import MmixAsm.Macro.Program

/-
  What the order of included files depends on.

  A file is finished behind the files that its live lines
  include.  The order reads nothing of a library but which
  files there are and what each of them includes.

  Key definitions include:
    * `MmixAsm.Library.expansion`

  Key theorems include:
    * `MmixAsm.Library.orderFrom_cons`
    * `MmixAsm.Library.fileOrder_of_alone`
    * `MmixAsm.Library.orderFrom_congr_within`
    * `MmixAsm.expandProgram_of_fileOrder`
-/

------------------------------------------------------------
-- Single Files
------------------------------------------------------------

namespace MmixAsm

namespace Library

@[simp] theorem orderFrom_nil
    (library : Library)
    (path done : List String) :
    library.orderFrom path [] done = .ok done := by
  rw [orderFrom]

/- One step of the order, by inclusions. -/
theorem orderFrom_cons
    (library : Library)
    (path : List String)
    (file : String)
    (rest done : List String) :
    library.orderFrom path (file :: rest) done =
      if path.contains file then
        .error (.includeCycle (path.reverse ++ [file]))
      else if done.contains file then
        library.orderFrom path rest done
      else
        match (library.unit? file).map (·.liveInclusions) with
        | none => .error (.fileNotFound file)
        | some inclusions =>
            (library.orderFrom (file :: path) inclusions
              done).bind fun inner =>
                library.orderFrom path rest
                  (inner ++ [file]) := by
  rw [orderFrom]
  split
  · rfl
  · split
    · rfl
    · split
      · rename_i hUnit
        simp only [hUnit, Option.map_none]
      · rename_i unit hUnit
        simp only [hUnit, Option.map_some]
        cases library.orderFrom (file :: path)
            unit.liveInclusions done with
        | error e => rfl
        | ok inner => rfl

/- A file that includes nothing stands alone. -/
theorem fileOrder_of_alone
    {library : Library}
    {entry : String}
    (hAlone : (library.unit? entry).map (·.liveInclusions) =
      some []) :
    library.fileOrder entry = .ok [entry] := by
  unfold fileOrder
  rw [orderFrom_cons]
  simp [hAlone, Except.bind]

theorem flatten_of_liveInclusions
    {library : Library}
    {entry : String}
    {unit : SourceUnit}
    (hUnit : library.unit? entry = some unit)
    (hAlone : unit.liveInclusions = []) :
    library.flatten entry = .ok unit.instructions := by
  have hOrder : library.fileOrder entry = .ok [entry] := by
    apply fileOrder_of_alone
    rw [hUnit, Option.map_some, hAlone]
  simp [flatten, hOrder, Except.map, instructionsOf, hUnit]

end Library

end MmixAsm

------------------------------------------------------------
-- What The Order Reads
------------------------------------------------------------

namespace MmixAsm

namespace Library

/-
  The order of some files reads nothing but the live
  inclusions of the files that it can meet.
-/
theorem orderFrom_congr_within
    {left right : Library}
    {within : String → Prop}
    (hInclusions : ∀ name, within name →
      (left.unit? name).map (·.liveInclusions) =
        (right.unit? name).map (·.liveInclusions))
    (hClosed : ∀ name unit, within name →
      left.unit? name = some unit →
        ∀ file ∈ unit.liveInclusions, within file)
    (path : List String)
    {files : List String}
    (done : List String)
    (hFiles : ∀ file ∈ files, within file) :
    left.orderFrom path files done =
      right.orderFrom path files done := by
  induction path, files, done using orderFrom.induct left with
  | case1 path done => rw [orderFrom_nil, orderFrom_nil]
  | case2 path done file rest hPath =>
      rw [orderFrom_cons, orderFrom_cons, if_pos hPath,
        if_pos hPath]
  | case3 path done file rest hPath hDone ih =>
      rcases List.forall_mem_cons.mp hFiles with ⟨_, hRest⟩
      rw [orderFrom_cons, orderFrom_cons, if_neg hPath,
        if_neg hPath, if_pos hDone, if_pos hDone, ih hRest]
  | case4 path done file rest hPath hDone hUnit =>
      rcases List.forall_mem_cons.mp hFiles with ⟨hFile, _⟩
      rw [orderFrom_cons, orderFrom_cons,
        ← hInclusions file hFile]
      simp only [if_neg hPath, if_neg hDone, hUnit,
        Option.map_none]
  | case5 path done file rest hPath hDone unit hUnit e hInner ih =>
      rcases List.forall_mem_cons.mp hFiles with ⟨hFile, _⟩
      rw [orderFrom_cons, orderFrom_cons,
        ← hInclusions file hFile]
      simp only [if_neg hPath, if_neg hDone, hUnit,
        Option.map_some,
        ← ih (hClosed file unit hFile hUnit), hInner]
      rfl
  | case6 path done file rest hPath hDone unit hUnit inner hInner
      ihInner ih =>
      rcases List.forall_mem_cons.mp hFiles with ⟨hFile, hRest⟩
      rw [orderFrom_cons, orderFrom_cons,
        ← hInclusions file hFile]
      simp only [if_neg hPath, if_neg hDone, hUnit,
        Option.map_some,
        ← ihInner (hClosed file unit hFile hUnit), hInner]
      exact ih hRest

theorem instructionsOf_eq
    (library : Library)
    (file : String) :
    library.instructionsOf file =
      ((library.unit? file).map (·.instructions)).getD [] := by
  unfold instructionsOf
  cases library.unit? file with
  | none => rfl
  | some unit => rfl

end Library

/- The library of some files behind all macro passes. -/
def Library.expansion
    (files : List SourceFile) : Except MacroError Library := do
  let library ← Library.ofFiles files
  let selected ← library.selected
  selected.expanded

/- A program is put together behind all macro passes. -/
theorem expandProgram_of_fileOrder
    {files : List SourceFile}
    {entry : String}
    {expanded : Library}
    {order : List String}
    (hEntry : entryFile files = .ok entry)
    (hExpanded : Library.expansion files = .ok expanded)
    (hOrder : expanded.fileOrder entry = .ok order) :
    expandProgram files =
      .ok (order.flatMap expanded.instructionsOf) := by
  have hPasses : expandProgram files =
      (do
        let entry ← entryFile files
        let expanded ← Library.expansion files
        expanded.flatten entry) := by
    unfold expandProgram Library.expansion
    simp only [bind_assoc]
  rw [hPasses, hEntry, hExpanded]
  exact congrArg
    (Except.map (List.flatMap expanded.instructionsOf)) hOrder

end MmixAsm
