import Mathlib.Data.List.Forall2

/-
  What follows from the outcome of a combined computation.

  If it succeeds, so do all its parts.  If it fails, one of
  its parts fails in the same way.

  Key theorems include:
    * `MmixAsm.exists_of_bind_eq_ok`
    * `MmixAsm.forall₂_of_mapM_eq_ok`
    * `MmixAsm.mapM_eq_ok_of_forall₂`
    * `MmixAsm.invariant_of_foldlM_eq_ok`
    * `MmixAsm.fails_of_bind_eq_error`
    * `MmixAsm.fails_of_mapM_eq_error`
    * `MmixAsm.mapM_eq_error_iff`
    * `MmixAsm.fails_of_foldlM_eq_error`
    * `MmixAsm.foldlM_eq_error_iff`
-/

------------------------------------------------------------
-- Success
------------------------------------------------------------

namespace MmixAsm

variable {α β ε : Type}

/- Both halves of a successful sequence succeed. -/
theorem exists_of_bind_eq_ok
    {first : Except ε α}
    {next : α → Except ε β}
    {result : β}
    (h : (first >>= next) = .ok result) :
    ∃ value, first = .ok value ∧ next value = .ok result := by
  cases first with
  | error e => cases h
  | ok value => exact ⟨value, rfl, h⟩

theorem exists_of_map_eq_ok
    {f : α → β}
    {first : Except ε α}
    {result : β}
    (h : first.map f = .ok result) :
    ∃ value, first = .ok value ∧ f value = result := by
  cases first with
  | error e => cases h
  | ok value =>
      cases h
      exact ⟨value, rfl, rfl⟩

/- A successful traversal succeeds at every element. -/
theorem forall₂_of_mapM_eq_ok
    {f : α → Except ε β}
    {xs : List α}
    {ys : List β}
    (h : xs.mapM f = .ok ys) :
    List.Forall₂ (fun x y => f x = .ok y) xs ys := by
  induction xs generalizing ys with
  | nil =>
      cases h
      exact .nil
  | cons x xs ih =>
      rw [List.mapM_cons] at h
      rcases exists_of_bind_eq_ok h with ⟨y, hHead, h⟩
      rcases exists_of_bind_eq_ok h with ⟨rest, hTail, h⟩
      cases h
      exact .cons hHead (ih hTail)

theorem mapM_eq_ok_of_forall₂
    {f : α → Except ε β}
    {xs : List α}
    {ys : List β}
    (h : List.Forall₂ (fun x y => f x = .ok y) xs ys) :
    xs.mapM f = .ok ys := by
  induction h with
  | nil => rfl
  | cons hHead _ ih =>
      rw [List.mapM_cons, hHead, ih]
      rfl

/- The partner of a member of the first list. -/
theorem exists_mem_of_forall₂
    {r : α → β → Prop}
    {xs : List α}
    {ys : List β}
    (h : List.Forall₂ r xs ys)
    {x : α}
    (hMem : x ∈ xs) :
    ∃ y ∈ ys, r x y := by
  induction h with
  | nil => cases hMem
  | @cons a b _ _ hHead _ ih =>
      rcases List.mem_cons.mp hMem with rfl | hMem
      · exact ⟨b, List.mem_cons_self, hHead⟩
      · rcases ih hMem with ⟨y, hy, hr⟩
        exact ⟨y, List.mem_cons_of_mem _ hy, hr⟩

/- The partner of the member at a place of the first list. -/
theorem exists_getElem?_of_forall₂
    {r : α → β → Prop}
    {xs : List α}
    {ys : List β}
    (h : List.Forall₂ r xs ys)
    {index : Nat}
    {x : α}
    (hIndex : xs[index]? = some x) :
    ∃ y, ys[index]? = some y ∧ r x y := by
  induction h generalizing index with
  | nil => cases hIndex
  | @cons a b _ _ hHead _ ih =>
      cases index with
      | zero =>
          cases hIndex
          exact ⟨b, rfl, hHead⟩
      | succ index => exact ih hIndex

/- What every step keeps holds behind a successful fold. -/
theorem invariant_of_foldlM_eq_ok
    {step : β → α → Except ε β}
    {motive : β → Prop}
    {xs : List α}
    {start result : β}
    (hStart : motive start)
    (hStep : ∀ state x next,
      x ∈ xs → motive state → step state x = .ok next →
        motive next)
    (h : xs.foldlM step start = .ok result) :
    motive result := by
  induction xs generalizing start with
  | nil =>
      cases h
      exact hStart
  | cons x xs ih =>
      rw [List.foldlM_cons] at h
      rcases exists_of_bind_eq_ok h with ⟨next, hHead, hTail⟩
      refine ih ?_ ?_ hTail
      · exact hStep start x next (by simp) hStart hHead
      · intro state y after hMem
        exact hStep state y after
          (List.mem_cons_of_mem _ hMem)

/- A successful fold succeeds in the step at each element. -/
theorem exists_step_of_foldlM_eq_ok
    {step : β → α → Except ε β}
    {xs : List α}
    {start result : β}
    (h : xs.foldlM step start = .ok result)
    {x : α}
    (hMem : x ∈ xs) :
    ∃ state next, step state x = .ok next := by
  induction xs generalizing start with
  | nil => cases hMem
  | cons y xs ih =>
      rw [List.foldlM_cons] at h
      rcases exists_of_bind_eq_ok h with ⟨next, hHead, hTail⟩
      rcases List.mem_cons.mp hMem with rfl | hMem
      · exact ⟨start, next, hHead⟩
      · exact ih hTail hMem

end MmixAsm

------------------------------------------------------------
-- Failure
------------------------------------------------------------

namespace MmixAsm

variable {α β ε δ : Type}

/- A sequence fails in its first half or in its second. -/
theorem fails_of_bind_eq_error
    {first : Except ε α}
    {next : α → Except ε β}
    {e : ε}
    (h : (first >>= next) = .error e) :
    first = .error e ∨
      ∃ value, first = .ok value ∧ next value = .error e := by
  cases first with
  | error cause =>
      cases h
      exact Or.inl rfl
  | ok value => exact Or.inr ⟨value, rfl, h⟩

theorem fails_of_map_eq_error
    {f : α → β}
    {first : Except ε α}
    {e : ε}
    (h : first.map f = .error e) :
    first = .error e := by
  cases first with
  | error cause =>
      cases h
      rfl
  | ok value => cases h

theorem fails_of_mapError_eq_error
    {f : ε → δ}
    {first : Except ε α}
    {e : δ}
    (h : first.mapError f = .error e) :
    ∃ cause, first = .error cause ∧ f cause = e := by
  cases first with
  | error cause =>
      cases h
      exact ⟨cause, rfl, rfl⟩
  | ok value => cases h

theorem ok_of_mapError_eq_ok
    {f : ε → δ}
    {first : Except ε α}
    {result : α}
    (h : first.mapError f = .ok result) :
    first = .ok result := by
  cases first with
  | error cause => cases h
  | ok value =>
      cases h
      rfl

/- A traversal fails at one of the elements. -/
theorem fails_of_mapM_eq_error
    {f : α → Except ε β}
    {xs : List α}
    {e : ε}
    (h : xs.mapM f = .error e) :
    ∃ x ∈ xs, f x = .error e := by
  induction xs with
  | nil => cases h
  | cons x xs ih =>
      rw [List.mapM_cons] at h
      rcases fails_of_bind_eq_error h with hHead | ⟨_, -, h⟩
      · exact ⟨x, List.mem_cons_self, hHead⟩
      · rcases fails_of_bind_eq_error h with hTail | ⟨_, -, h⟩
        · rcases ih hTail with ⟨y, hMem, hFail⟩
          exact ⟨y, List.mem_cons_of_mem x hMem, hFail⟩
        · cases h

/- A traversal fails exactly at the first bad element. -/
theorem mapM_eq_error_iff
    {f : α → Except ε β}
    {xs : List α}
    {e : ε} :
    xs.mapM f = .error e ↔
      ∃ front x back,
        xs = front ++ x :: back ∧
          (∀ y ∈ front, ∃ value, f y = .ok value) ∧
          f x = .error e := by
  constructor
  · intro h
    induction xs with
    | nil => cases h
    | cons x xs ih =>
        rw [List.mapM_cons] at h
        rcases fails_of_bind_eq_error h with
          hHead | ⟨value, hHead, h⟩
        · exact ⟨[], x, xs, rfl, by simp, hHead⟩
        · rcases fails_of_bind_eq_error h with
            hTail | ⟨_, -, h⟩
          · rcases ih hTail with
              ⟨front, y, back, rfl, hFront, hFail⟩
            refine ⟨x :: front, y, back, rfl, ?_, hFail⟩
            intro z hMem
            rcases List.mem_cons.mp hMem with rfl | hMem
            · exact ⟨value, hHead⟩
            · exact hFront z hMem
          · cases h
  · rintro ⟨front, x, back, rfl, hFront, hFail⟩
    induction front with
    | nil =>
        rw [List.nil_append, List.mapM_cons, hFail]
        rfl
    | cons y front ih =>
        rcases hFront y List.mem_cons_self with
          ⟨value, hHead⟩
        have hTail := ih fun z hMem =>
          hFront z (List.mem_cons_of_mem y hMem)
        rw [List.cons_append, List.mapM_cons, hHead]
        change ((front ++ x :: back).mapM f >>= _) = .error e
        rw [hTail]
        rfl

/- A fold fails in the step at one of the elements. -/
theorem fails_of_foldlM_eq_error
    {step : β → α → Except ε β}
    {xs : List α}
    {start : β}
    {e : ε}
    (h : xs.foldlM step start = .error e) :
    ∃ state, ∃ x ∈ xs, step state x = .error e := by
  induction xs generalizing start with
  | nil => cases h
  | cons x xs ih =>
      rw [List.foldlM_cons] at h
      rcases fails_of_bind_eq_error h with
        hHead | ⟨next, -, hTail⟩
      · exact ⟨start, x, List.mem_cons_self, hHead⟩
      · rcases ih hTail with ⟨state, y, hMem, hFail⟩
        exact ⟨state, y, List.mem_cons_of_mem x hMem, hFail⟩

/- A fold fails exactly where it gets and cannot go on. -/
theorem foldlM_eq_error_iff
    {step : β → α → Except ε β}
    {xs : List α}
    {start : β}
    {e : ε} :
    xs.foldlM step start = .error e ↔
      ∃ front x back state,
        xs = front ++ x :: back ∧
          front.foldlM step start = .ok state ∧
          step state x = .error e := by
  constructor
  · intro h
    induction xs generalizing start with
    | nil => cases h
    | cons x xs ih =>
        rw [List.foldlM_cons] at h
        rcases fails_of_bind_eq_error h with
          hHead | ⟨next, hHead, hTail⟩
        · exact ⟨[], x, xs, start, rfl, rfl, hHead⟩
        · rcases ih hTail with
            ⟨front, y, back, state, rfl, hFront, hFail⟩
          refine ⟨x :: front, y, back, state, rfl, ?_, hFail⟩
          rw [List.foldlM_cons, hHead]
          exact hFront
  · rintro ⟨front, x, back, state, rfl, hFront, hFail⟩
    rw [List.foldlM_append, hFront]
    change (x :: back).foldlM step state = .error e
    rw [List.foldlM_cons, hFail]
    rfl

/- Folds whose steps differ in how they name a failure. -/
theorem foldlM_mapError
    {f : ε → δ}
    {step : β → α → Except ε β}
    {other : β → α → Except δ β}
    {xs : List α}
    (hStep : ∀ state, ∀ x ∈ xs,
      other state x = (step state x).mapError f)
    (start : β) :
    xs.foldlM other start =
      (xs.foldlM step start).mapError f := by
  induction xs generalizing start with
  | nil => rfl
  | cons x xs ih =>
      rw [List.foldlM_cons, List.foldlM_cons,
        hStep start x List.mem_cons_self]
      cases step start x with
      | error e => rfl
      | ok next =>
          exact ih (fun state y hy =>
            hStep state y (List.mem_cons_of_mem x hy)) next

end MmixAsm
