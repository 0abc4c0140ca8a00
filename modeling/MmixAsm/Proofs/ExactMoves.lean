import Mathlib.Data.List.Nodup
import MmixAsm.Proofs.StreamMoves

/-
  One move, described without the way it is carried out.

  The statements of a range may be scattered over a stream
  that earlier moves have left in any order.  Behind a move
  they fill the places from the landing on, and no statement
  has overtaken another of its kind, be it moved or not.  As
  long as the identities are distinct, only one stream is
  like this, and it is the one that the move gives.

  Key definitions include:
    * `MmixAsm.Stream.population`
    * `MmixAsm.Stream.moveAll`
    * `MmixAsm.Stream.Relocated`

  Key theorems include:
    * `MmixAsm.Stream.landing_eq_min`
    * `MmixAsm.Stream.moveAll_perm`
    * `MmixAsm.Stream.relocated_move`
    * `MmixAsm.Stream.Relocated.filter_eq`
    * `MmixAsm.Stream.Relocated.eq_move`
    * `MmixAsm.Stream.move_relocates_exactly`
-/

------------------------------------------------------------
-- Landings And Runs
------------------------------------------------------------

namespace MmixAsm

namespace Stream

/- The number of statements with an identity in a range. -/
def population
    (stream : Stream)
    (first last : Nat) : Nat :=
  (stream.map (·.2)).countP
    (fun id => first ≤ id ∧ id ≤ last)

/-
  Carry out moves in order, each one given by the first and
  the last identity of its range and by its origin.
-/
def moveAll
    (stream : Stream)
    (moves : List (Nat × Nat × Nat)) : Stream :=
  moves.foldl
    (fun present (first, last, origin) =>
      present.move first last origin) stream

theorem population_eq_length
    (stream : Stream)
    (first last : Nat) :
    stream.population first last =
      (stream.inside first last).length := by
  unfold population inside
  rw [List.countP_map, List.countP_eq_length_filter]
  congr 2
  funext entry
  simp [inRange]

/- A range lands at its origin or behind all the others. -/
theorem landing_eq_min
    (stream : Stream)
    (first last origin : Nat) :
    stream.landing first last origin =
      min origin
        (stream.length - stream.population first last) := by
  have hParts := length_inside_add_outside stream first last
  rw [population_eq_length, landing, ← hParts,
    Nat.add_sub_cancel_left]

/- A range without identities is not moved. -/
theorem move_eq_self
    {first last : Nat}
    (hEmpty : last < first)
    (stream : Stream)
    (origin : Nat) :
    stream.move first last origin = stream := by
  have hNone : ∀ entry ∈ stream,
      inRange first last entry = false := by
    intro entry _
    rw [Bool.eq_false_iff, Ne, inRange_iff]
    omega
  rcases parts_of_none hNone with ⟨hInside, hOutside⟩
  rw [move, hInside, hOutside, List.append_nil,
    List.take_append_drop]

/- Moves neither add nor remove statements. -/
theorem moveAll_perm
    (stream : Stream)
    (moves : List (Nat × Nat × Nat)) :
    (stream.moveAll moves).Perm stream := by
  induction moves generalizing stream with
  | nil => exact .refl stream
  | cons step rest ih =>
      rcases step with ⟨first, last, origin⟩
      exact (ih (stream.move first last origin)).trans
        (move_perm stream first last origin)

end Stream

end MmixAsm

------------------------------------------------------------
-- Order Of Pairs
------------------------------------------------------------

namespace MmixAsm

/- Of distinct entries, one is in front of the other. -/
theorem eq_of_sublist_of_swap
    {α : Type}
    {list : List α}
    {x y : α}
    (hNodup : list.Nodup)
    (hForth : [x, y].Sublist list)
    (hBack : [y, x].Sublist list) :
    x = y := by
  induction list with
  | nil => cases hForth
  | cons head tail ih =>
      rcases List.nodup_cons.mp hNodup with ⟨hHead, hTail⟩
      cases hForth with
      | cons _ hForth =>
          cases hBack with
          | cons _ hBack => exact ih hTail hForth hBack
          | cons_cons _ hBack =>
              exact absurd (hForth.subset (by simp)) hHead
      | cons_cons _ hForth =>
          cases hBack with
          | cons _ hBack =>
              exact absurd (hBack.subset (by simp)) hHead
          | cons_cons _ hBack => rfl

/- Distinct entries are in the order that their pairs show. -/
theorem eq_of_perm_of_pairs
    {α : Type}
    {left right : List α}
    (hNodup : right.Nodup)
    (hPerm : left.Perm right)
    (hPairs : ∀ x y,
      [x, y].Sublist left → [x, y].Sublist right) :
    left = right :=
  List.Perm.eq_of_pairwise
    (fun _ _ _ _ => eq_of_sublist_of_swap hNodup)
    (List.pairwise_of_forall_sublist (hPairs _ _))
    (List.pairwise_of_forall_sublist id) hPerm

end MmixAsm

------------------------------------------------------------
-- Relocated Ranges
------------------------------------------------------------

namespace MmixAsm

namespace Stream

/-
  The stream `result` holds what `stream` holds, with the
  statements of a range at the places from `position` on.
  Two statements that are both of the range, or both not, are
  in the same order as before.
-/
structure Relocated
    (stream : Stream)
    (first last origin position : Nat)
    (result : Stream) : Prop where
  position_eq : position =
    min origin
      (stream.length - stream.population first last)
  perm : result.Perm stream
  inside_iff : ∀ place entry, result[place]? = some entry →
    ((first ≤ entry.2 ∧ entry.2 ≤ last) ↔
      (position ≤ place ∧
        place < position + stream.population first last))
  order_iff : ∀ entry other : Statement × Nat,
    ((first ≤ entry.2 ∧ entry.2 ≤ last) ↔
      (first ≤ other.2 ∧ other.2 ≤ last)) →
    ([entry, other].Sublist result ↔
      [entry, other].Sublist stream)

variable {stream result : Stream}
variable {first last origin position : Nat}

/- Where the range is in a moved stream. -/
theorem inRange_getElem?_move
    {place : Nat}
    {entry : Statement × Nat}
    (hEntry :
      (stream.move first last origin)[place]? = some entry) :
    inRange first last entry =
      decide (stream.landing first last origin ≤ place ∧
        place < stream.landing first last origin
          + stream.population first last) := by
  have hFront : ((stream.outside first last).take
      (stream.landing first last origin)).length =
        stream.landing first last origin := by
    rw [List.length_take]
    exact Nat.min_eq_left (Nat.min_le_right _ _)
  rw [move, List.append_assoc, List.getElem?_append,
    List.getElem?_append, hFront,
    ← population_eq_length] at hEntry
  split at hEntry
  · have hMem := List.mem_of_mem_take
      (List.mem_of_getElem? hEntry)
    rw [(mem_outside.mp hMem).2, eq_comm,
      decide_eq_false_iff_not]
    omega
  · split at hEntry
    · have hMem := List.mem_of_getElem? hEntry
      rw [(mem_inside.mp hMem).2, eq_comm, decide_eq_true_iff]
      omega
    · have hMem := List.mem_of_mem_drop
        (List.mem_of_getElem? hEntry)
      rw [(mem_outside.mp hMem).2, eq_comm,
        decide_eq_false_iff_not]
      omega

/- A move keeps the order of statements of one kind. -/
theorem sublist_move_iff
    {entry other : Statement × Nat}
    (hKind : inRange first last entry =
      inRange first last other) :
    [entry, other].Sublist (stream.move first last origin) ↔
      [entry, other].Sublist stream := by
  cases hOther : inRange first last other with
  | true =>
      apply sublist_iff_of_filter_eq
        (inside_move_self stream first last origin)
      simp [hKind, hOther]
  | false =>
      apply sublist_iff_of_filter_eq
        (outside_move_self stream first last origin)
      simp [hKind, hOther]

/- A move relocates its range to where it lands. -/
theorem relocated_move
    (stream : Stream)
    (first last origin : Nat) :
    Relocated stream first last origin
      (stream.landing first last origin)
      (stream.move first last origin) where
  position_eq := landing_eq_min stream first last origin
  perm := move_perm stream first last origin
  inside_iff := by
    intro place entry hEntry
    rw [← inRange_iff, inRange_getElem?_move hEntry,
      decide_eq_true_iff]
  order_iff := by
    intro entry other hKind
    apply sublist_move_iff
    rw [Bool.eq_iff_iff, inRange_iff, inRange_iff]
    exact hKind

namespace Relocated

/- Statements of one kind are in their previous order. -/
theorem filter_eq
    (h : Relocated stream first last origin position result)
    (hDistinct : (stream.map (·.2)).Nodup)
    {keep : Statement × Nat → Bool}
    (hKeep : ∀ entry other,
      keep entry = true → keep other = true →
        inRange first last entry =
          inRange first last other) :
    result.filter keep = stream.filter keep := by
  apply eq_of_perm_of_pairs
  · exact (hDistinct.of_map _).filter keep
  · exact h.perm.filter keep
  · intro entry other hPair
    have hKept : ∀ e ∈ [entry, other], keep e = true :=
      fun e hMem => (List.mem_filter.mp (hPair.subset hMem)).2
    have hKind := hKeep entry other
      (hKept entry (by simp)) (hKept other (by simp))
    rw [Bool.eq_iff_iff, inRange_iff, inRange_iff] at hKind
    have hBefore := (h.order_iff entry other hKind).mp
      (hPair.trans List.filter_sublist)
    have hFiltered := hBefore.filter keep
    rwa [List.filter_eq_self.mpr hKept] at hFiltered

/- What is in front of the range, in it and behind it. -/
theorem parts
    (h : Relocated stream first last origin position result) :
    result.inside first last =
        (result.drop position).take
          (stream.population first last) ∧
      result.outside first last =
        result.take position
          ++ (result.drop position).drop
            (stream.population first last) := by
  have hKind : ∀ place entry, result[place]? = some entry →
      inRange first last entry =
        decide (position ≤ place ∧
          place < position
            + stream.population first last) := by
    intro place entry hEntry
    rw [Bool.eq_iff_iff, inRange_iff, decide_eq_true_iff]
    exact h.inside_iff place entry hEntry
  have hFront : ∀ entry ∈ result.take position,
      inRange first last entry = false := by
    intro entry hEntry
    rcases List.mem_iff_getElem?.mp hEntry with ⟨i, hGet⟩
    rw [List.getElem?_take] at hGet
    split at hGet
    · rw [hKind i entry hGet, decide_eq_false_iff_not]
      omega
    · cases hGet
  have hMiddle : ∀ entry ∈ (result.drop position).take
      (stream.population first last),
      inRange first last entry = true := by
    intro entry hEntry
    rcases List.mem_iff_getElem?.mp hEntry with ⟨i, hGet⟩
    rw [List.getElem?_take, List.getElem?_drop] at hGet
    split at hGet
    · rw [hKind _ entry hGet, decide_eq_true_iff]
      omega
    · cases hGet
  have hBack : ∀ entry ∈ (result.drop position).drop
      (stream.population first last),
      inRange first last entry = false := by
    intro entry hEntry
    rcases List.mem_iff_getElem?.mp hEntry with ⟨i, hGet⟩
    rw [List.getElem?_drop, List.getElem?_drop] at hGet
    rw [hKind _ entry hGet, decide_eq_false_iff_not]
    omega
  have hCut : result =
      result.take position
        ++ ((result.drop position).take
            (stream.population first last)
          ++ (result.drop position).drop
            (stream.population first last)) := by
    rw [List.take_append_drop, List.take_append_drop]
  constructor
  · have hInside := congrArg (inside · first last) hCut
    simpa only [inside_append, (parts_of_none hFront).1,
      (parts_of_all hMiddle).1, (parts_of_none hBack).1,
      List.nil_append, List.append_nil] using hInside
  · have hOutside := congrArg (outside · first last) hCut
    simpa only [outside_append, (parts_of_none hFront).2,
      (parts_of_all hMiddle).2, (parts_of_none hBack).2,
      List.nil_append] using hOutside

/- Only one stream is like this. -/
theorem eq_move
    (h : Relocated stream first last origin position result)
    (hDistinct : (stream.map (·.2)).Nodup) :
    result = stream.move first last origin := by
  have hInside : result.inside first last =
      stream.inside first last :=
    h.filter_eq hDistinct (by simp +contextual)
  have hOutside : result.outside first last =
      stream.outside first last :=
    h.filter_eq hDistinct (by simp +contextual)
  rw [h.parts.1] at hInside
  rw [h.parts.2] at hOutside
  have hLanding : stream.landing first last origin =
      (result.take position).length := by
    have hPosition := h.position_eq
    rw [landing_eq_min, List.length_take, h.perm.length_eq]
    omega
  -- The others are cut where the range begins.
  rw [move, hLanding, ← hInside, ← hOutside, List.take_left,
    List.drop_left, List.append_assoc, List.take_append_drop,
    List.take_append_drop]

end Relocated

/-
  For distinct identities in any order, a move is the one way
  to relocate its range, and the landing the one place.  The
  identities stay distinct along all moves, so the same holds
  of every later one.  A range without identities changes
  nothing.
-/
theorem move_relocates_exactly
    {stream : Stream}
    (hDistinct : (stream.map (·.2)).Nodup)
    (first last origin : Nat) :
    (∀ position result,
      Relocated stream first last origin position result ↔
        position = stream.landing first last origin ∧
          result = stream.move first last origin) ∧
      (∀ moves,
        ((stream.moveAll moves).map (·.2)).Nodup) ∧
      (last < first →
        stream.move first last origin = stream) := by
  refine ⟨?_, ?_, ?_⟩
  · intro position result
    constructor
    · intro h
      have hLanding := landing_eq_min stream first last origin
      exact ⟨h.position_eq.trans hLanding.symm,
        h.eq_move hDistinct⟩
    · rintro ⟨rfl, rfl⟩
      exact relocated_move stream first last origin
  · intro moves
    have hPerm := (moveAll_perm stream moves).map (·.2)
    exact hPerm.nodup_iff.mpr hDistinct
  · intro hEmpty
    exact move_eq_self hEmpty stream origin

/-
  Two moves have scattered the statements 1 to 3, of which
  two are placeholders and alike.
-/
def scatteredStream : Stream :=
  moveAll
    (ofStatements [
      .op ⟨none, "SETL", ["$0", "0"]⟩,
      .padding,
      .op ⟨some "here", "SETL", ["$2", "0"]⟩,
      .padding,
      .alloc ⟨none, .byte, ["4"]⟩,
      .op ⟨none, "JMP", ["here"]⟩])
    [(0, 1, 2), (4, 4, 0)]

/- The origin 7 is too far, and the range lands at the end. -/
theorem scatteredStream_relocates :
    scatteredStream.map (·.2) = [4, 2, 3, 0, 1, 5] ∧
      (scatteredStream.map (·.2)).Nodup ∧
      scatteredStream.population 1 3 = 3 ∧
      (∀ position result,
        Relocated scatteredStream 1 3 7 position result ↔
          position = 3 ∧
            result = scatteredStream.move 1 3 7) ∧
      (scatteredStream.move 1 3 7).map (·.2) =
        [4, 0, 5, 2, 3, 1] ∧
      scatteredStream.move 3 1 7 = scatteredStream := by
  have hDistinct : (scatteredStream.map (·.2)).Nodup := by
    decide
  have hExact := (move_relocates_exactly hDistinct 1 3 7).1
  have hLanding : scatteredStream.landing 1 3 7 = 3 := by
    decide
  rw [hLanding] at hExact
  have hSame := (move_relocates_exactly hDistinct 3 1 7).2.2
  exact ⟨by decide, hDistinct, by decide, hExact, by decide,
    hSame (by decide)⟩

end Stream

end MmixAsm
