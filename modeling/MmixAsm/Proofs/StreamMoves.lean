import MmixAsm.Layout.Stream

/-
  What one move does to other ranges of a stream.

  A range is whole if its statements stand together.  A move
  makes its own range whole.  It keeps another range whole
  unless it lands strictly inside it, and then the statements
  that were moved stand between statements of the other range
  until one of the two ranges is moved again.

  Key definitions include:
    * `MmixAsm.Stream.Whole`
    * `MmixAsm.Stream.Splits`
    * `MmixAsm.Stream.KeepsTogether`

  Key theorems include:
    * `MmixAsm.Stream.inside_move_of_apart`
    * `MmixAsm.Stream.outside_move_self`
    * `MmixAsm.Stream.whole_move_self`
    * `MmixAsm.Stream.Whole.move`
    * `MmixAsm.Stream.sublist_move`
    * `MmixAsm.Stream.not_whole_of_sublist`
    * `MmixAsm.Stream.keepsTogether_iff_whole`
-/

------------------------------------------------------------
-- Ranges
------------------------------------------------------------

namespace MmixAsm

namespace Stream

/- Ranges that share no identity. -/
def Apart
    (first last first' last' : Nat) : Prop :=
  last < first' ∨ last' < first

theorem Apart.symm
    {first last first' last' : Nat}
    (h : Apart first last first' last') :
    Apart first' last' first last :=
  Or.symm h

theorem inRange_iff
    {first last : Nat}
    {entry : Statement × Nat} :
    inRange first last entry = true ↔
      first ≤ entry.2 ∧ entry.2 ≤ last := by
  simp [inRange]

/- No entry lies in two ranges that are apart. -/
theorem Apart.inRange_eq_false
    {first last first' last' : Nat}
    {entry : Statement × Nat}
    (h : Apart first last first' last')
    (hEntry : inRange first last entry = true) :
    inRange first' last' entry = false := by
  rw [inRange_iff] at hEntry
  rw [Bool.eq_false_iff, Ne, inRange_iff]
  unfold Apart at h
  omega

variable {stream : Stream}
variable {first last first' last' origin : Nat}

theorem mem_inside
    {entry : Statement × Nat} :
    entry ∈ stream.inside first last ↔
      entry ∈ stream ∧ inRange first last entry = true :=
  List.mem_filter

theorem mem_outside
    {entry : Statement × Nat} :
    entry ∈ stream.outside first last ↔
      entry ∈ stream ∧ inRange first last entry = false := by
  simp [outside, List.mem_filter]

/- Nothing of a stream is in the range. -/
theorem parts_of_none
    (hNone : ∀ entry ∈ stream,
      inRange first last entry = false) :
    stream.inside first last = [] ∧
      stream.outside first last = stream := by
  constructor
  · apply List.filter_eq_nil_iff.mpr
    intro entry hEntry
    simp [hNone entry hEntry]
  · apply List.filter_eq_self.mpr
    intro entry hEntry
    simp [hNone entry hEntry]

/- All of a stream is in the range. -/
theorem parts_of_all
    (hAll : ∀ entry ∈ stream,
      inRange first last entry = true) :
    stream.inside first last = stream ∧
      stream.outside first last = [] := by
  constructor
  · exact List.filter_eq_self.mpr hAll
  · apply List.filter_eq_nil_iff.mpr
    intro entry hEntry
    simp [hAll entry hEntry]

theorem inside_append
    (left right : Stream) :
    inside (left ++ right) first last =
      inside left first last ++ inside right first last :=
  List.filter_append left right

theorem inside_inside
    (stream : Stream)
    (first last : Nat) :
    inside (stream.inside first last) first last =
      stream.inside first last :=
  (parts_of_all fun _ hEntry => (mem_inside.mp hEntry).2).1

theorem inside_outside
    (stream : Stream)
    (first last : Nat) :
    inside (stream.outside first last) first last = [] :=
  (parts_of_none fun _ hEntry => (mem_outside.mp hEntry).2).1

theorem outside_append
    (left right : Stream) :
    outside (left ++ right) first last =
      outside left first last ++ outside right first last :=
  List.filter_append left right

theorem length_inside_add_outside
    (stream : Stream)
    (first last : Nat) :
    (stream.inside first last).length
        + (stream.outside first last).length =
      stream.length := by
  have hParts :=
    (List.filter_append_perm (inRange first last)
      stream).length_eq
  rwa [List.length_append] at hParts

/- Taking a range out leaves the others as they are. -/
theorem inside_outside_of_apart
    (h : Apart first last first' last') :
    inside (stream.outside first' last') first last =
      stream.inside first last := by
  unfold inside outside
  rw [List.filter_filter]
  apply List.filter_congr
  intro entry _
  cases hEntry : inRange first last entry with
  | false => rfl
  | true => simp [h.inRange_eq_false hEntry]

theorem inside_inside_of_apart
    (h : Apart first last first' last') :
    inside (stream.inside first' last') first last = [] := by
  apply List.filter_eq_nil_iff.mpr
  intro entry hEntry
  have hOther := (mem_inside.mp hEntry).2
  simp [h.symm.inRange_eq_false hOther]

/- A move keeps the order of the range that it moves. -/
theorem inside_move_self
    (stream : Stream)
    (first last origin : Nat) :
    inside (stream.move first last origin) first last =
      stream.inside first last := by
  have hOthers := inside_outside stream first last
  rw [← List.take_append_drop
    (stream.landing first last origin)
    (stream.outside first last), inside_append,
    List.append_eq_nil_iff] at hOthers
  unfold move
  rw [inside_append, inside_append, hOthers.1, hOthers.2,
    inside_inside, List.nil_append, List.append_nil]

/- A move keeps the order of all that it does not move. -/
theorem outside_move_self
    (stream : Stream)
    (first last origin : Nat) :
    outside (stream.move first last origin) first last =
      stream.outside first last := by
  have hInside :
      outside (stream.inside first last) first last = [] :=
    (parts_of_all fun _ hEntry => (mem_inside.mp hEntry).2).2
  have hOutside :
      outside (stream.outside first last) first last =
        stream.outside first last :=
    (parts_of_none
      fun _ hEntry => (mem_outside.mp hEntry).2).2
  unfold move
  rw [outside_append, outside_append, hInside,
    List.append_nil, ← outside_append, List.take_append_drop,
    hOutside]

/- A move keeps the order of the other ranges. -/
theorem inside_move_of_apart
    (h : Apart first last first' last') :
    inside (stream.move first' last' origin) first last =
      stream.inside first last := by
  unfold move
  rw [inside_append, inside_append, inside_inside_of_apart h,
    List.append_nil, ← inside_append, List.take_append_drop,
    inside_outside_of_apart h]

end Stream

end MmixAsm

------------------------------------------------------------
-- Whole Ranges
------------------------------------------------------------

namespace MmixAsm

namespace Stream

/- The statements of a range stand together. -/
def Whole
    (stream : Stream)
    (first last : Nat) : Prop :=
  ∃ before after,
    stream = before ++ stream.inside first last ++ after

/-
  A range lands strictly inside another one: some of the
  other's statements are in front of it and some behind.
-/
def Splits
    (stream : Stream)
    (first last origin first' last' : Nat) : Prop :=
  (∃ entry ∈ (stream.outside first last).take
      (stream.landing first last origin),
    inRange first' last' entry = true) ∧
  (∃ entry ∈ (stream.outside first last).drop
      (stream.landing first last origin),
    inRange first' last' entry = true)

variable {stream : Stream}
variable {first last first' last' origin : Nat}

/- A move makes its own range whole. -/
theorem whole_move_self
    (stream : Stream)
    (first last origin : Nat) :
    (stream.move first last origin).Whole first last := by
  unfold Whole
  rw [inside_move_self]
  exact ⟨_, _, rfl⟩

/- A whole range stays whole when another is taken out. -/
theorem outside_of_whole
    (hWhole : stream.Whole first last)
    (hApart : Apart first last first' last') :
    ∃ before after,
      stream.outside first' last' =
        before ++ (stream.inside first last ++ after) := by
  rcases hWhole with ⟨before, after, hStream⟩
  have hInside :
      outside (stream.inside first last) first' last' =
        stream.inside first last := by
    apply List.filter_eq_self.mpr
    intro entry hEntry
    simp [hApart.inRange_eq_false (mem_inside.mp hEntry).2]
  refine ⟨outside before first' last',
    outside after first' last', ?_⟩
  calc
    stream.outside first' last' =
        outside (before ++ stream.inside first last ++ after)
          first' last' := by
      rw [← hStream]
    _ = outside before first' last'
          ++ (outside (stream.inside first last) first' last'
            ++ outside after first' last') := by
      simp [outside, List.filter_append]
    _ = outside before first' last'
          ++ (stream.inside first last
            ++ outside after first' last') := by
      rw [hInside]

/- A cut through a list cuts its middle part in two. -/
theorem exists_cut
    (before middle after : Stream)
    (position : Nat) :
    ∃ front left rest front' right rest',
      (before ++ (middle ++ after)).take position =
          front ++ left ++ rest ∧
        (before ++ (middle ++ after)).drop position =
          front' ++ right ++ rest' ∧
        middle = left ++ right := by
  rw [List.take_append, List.take_append, List.drop_append,
    List.drop_append, ← List.append_assoc,
    ← List.append_assoc]
  exact ⟨_, _, _, _, _, _, rfl, rfl,
    (List.take_append_drop _ _).symm⟩

/- A move that does not split a range keeps it whole. -/
theorem Whole.move
    (hWhole : stream.Whole first last)
    (hApart : Apart first last first' last')
    (hSplits :
      ¬ stream.Splits first' last' origin first last) :
    (stream.move first' last' origin).Whole first last := by
  rcases outside_of_whole hWhole hApart with
    ⟨before, after, hOthers⟩
  -- The place of the landing cuts the range in two, and one
  -- of the two parts is empty.
  rcases exists_cut before (stream.inside first last) after
    (stream.landing first' last' origin) with
    ⟨front, left, rest, front', right, rest', hTake, hDrop,
      hCut⟩
  rw [← hOthers] at hTake hDrop
  have hMove : stream.move first' last' origin =
      front ++ left ++ rest ++ stream.inside first' last'
        ++ (front' ++ right ++ rest') := by
    rw [← hTake, ← hDrop]
    rfl
  have hRange : ∀ entry ∈ left ++ right,
      inRange first last entry = true := by
    rw [← hCut]
    exact fun entry hEntry => (mem_inside.mp hEntry).2
  unfold Whole
  rw [inside_move_of_apart hApart, hMove, hCut]
  by_cases hLeft : left = []
  · subst hLeft
    exact ⟨front ++ rest ++ stream.inside first' last'
      ++ front', rest', by simp⟩
  by_cases hRight : right = []
  · subst hRight
    exact ⟨front, rest ++ stream.inside first' last'
      ++ (front' ++ rest'), by simp⟩
  exfalso
  apply hSplits
  rcases List.exists_mem_of_ne_nil _ hLeft with ⟨x, hx⟩
  rcases List.exists_mem_of_ne_nil _ hRight with ⟨z, hz⟩
  constructor
  · exact ⟨x, by simp [hTake, hx],
      hRange x (List.mem_append_left _ hx)⟩
  · exact ⟨z, by simp [hDrop, hz],
      hRange z (List.mem_append_right _ hz)⟩

end Stream

end MmixAsm

------------------------------------------------------------
-- Split Ranges
------------------------------------------------------------

namespace MmixAsm

namespace Stream

variable {stream : Stream}
variable {first last first' last' origin : Nat}

/- A part that a filter keeps shows the same order. -/
theorem sublist_iff_of_filter_eq
    {keep : Statement × Nat → Bool}
    {other entries : Stream}
    (hFilter : other.filter keep = stream.filter keep)
    (hEntries : ∀ entry ∈ entries, keep entry = true) :
    entries.Sublist other ↔ entries.Sublist stream := by
  have hKept : ∀ list : Stream,
      entries.Sublist list ↔
        entries.Sublist (list.filter keep) := by
    intro list
    constructor
    · intro hSublist
      have hFiltered := hSublist.filter keep
      rwa [List.filter_eq_self.mpr hEntries] at hFiltered
    · intro hSublist
      exact hSublist.trans List.filter_sublist
  rw [hKept other, hKept stream, hFilter]

/- A move neither adds nor removes statements. -/
theorem move_perm
    (stream : Stream)
    (first last origin : Nat) :
    (stream.move first last origin).Perm stream := by
  unfold move
  calc
    _ = (stream.outside first last).take
            (stream.landing first last origin)
          ++ (stream.inside first last
            ++ (stream.outside first last).drop
              (stream.landing first last origin)) :=
      List.append_assoc _ _ _
    List.Perm _ (stream.inside first last
          ++ ((stream.outside first last).take
              (stream.landing first last origin)
            ++ (stream.outside first last).drop
              (stream.landing first last origin))) :=
      List.perm_append_comm_assoc _ _ _
    _ = stream.inside first last
          ++ stream.outside first last := by
      rw [List.take_append_drop]
    List.Perm _ stream :=
      List.filter_append_perm (inRange first last) stream

/- A move keeps the order of what it does not move. -/
theorem sublist_move
    {entries : Stream}
    (hEntries : ∀ entry ∈ entries,
      inRange first last entry = false)
    (hSublist : entries.Sublist stream) :
    entries.Sublist (stream.move first last origin) := by
  refine (sublist_iff_of_filter_eq
    (outside_move_self stream first last origin) ?_).mpr
    hSublist
  intro entry hEntry
  rw [hEntries entry hEntry]
  rfl

/- What lands inside a range stands between its statements. -/
theorem Splits.sublist_move
    (hSplits : stream.Splits first last origin first' last')
    {entry : Statement × Nat}
    (hEntry : entry ∈ stream.inside first last) :
    ∃ left right,
      inRange first' last' left = true ∧
        inRange first' last' right = true ∧
        [left, entry, right].Sublist
          (stream.move first last origin) := by
  rcases hSplits with
    ⟨⟨left, hLeft, hLeftIn⟩, ⟨right, hRight, hRightIn⟩⟩
  refine ⟨left, right, hLeftIn, hRightIn, ?_⟩
  have hFront := (List.singleton_sublist.mpr hLeft).append
    (List.singleton_sublist.mpr hEntry)
  exact hFront.append (List.singleton_sublist.mpr hRight)

/- A range does not land inside itself. -/
theorem not_splits_self :
    ¬ stream.Splits first last origin first last := by
  rintro ⟨⟨entry, hEntry, hIn⟩, _⟩
  have hMem := List.mem_of_mem_take hEntry
  have hOut := (List.mem_filter.mp hMem).2
  rw [hIn] at hOut
  cases hOut

/- Around a whole range there are no statements of it. -/
theorem inside_around
    {before after : Stream}
    (hStream :
      stream = before ++ stream.inside first last ++ after) :
    inside before first last = [] ∧
      inside after first last = [] := by
  have hInside := congrArg
    (fun s => (inside s first last).length) hStream
  simp only [inside_append, inside_inside, List.length_append]
    at hInside
  constructor
  · apply List.eq_nil_of_length_eq_zero
    omega
  · apply List.eq_nil_of_length_eq_zero
    omega

/- A range with something else in between is not whole. -/
theorem not_whole_of_sublist
    {left entry right : Statement × Nat}
    (hLeft : inRange first last left = true)
    (hEntry : inRange first last entry = false)
    (hRight : inRange first last right = true)
    (hSublist : [left, entry, right].Sublist stream) :
    ¬ stream.Whole first last := by
  rintro ⟨before, after, hStream⟩
  rcases inside_around hStream with ⟨hBefore, hAfter⟩
  rw [hStream, List.append_assoc] at hSublist
  rcases List.sublist_append_iff.mp hSublist with
    ⟨front, others, hEntries, hFront, hOthers⟩
  rcases List.sublist_append_iff.mp hOthers with
    ⟨middle, rest, rfl, hMiddle, hRest⟩
  -- The first entry is not in front of the range and the
  -- last one is not behind it, so all three are inside.
  have hFrontNil : front = [] := by
    cases front with
    | nil => rfl
    | cons head tail =>
        rw [List.cons_append] at hEntries
        cases (List.cons.inj hEntries).1
        have hMem := hFront.subset List.mem_cons_self
        have hIn := mem_inside.mpr ⟨hMem, hLeft⟩
        rw [hBefore] at hIn
        cases hIn
  have hRestNil : rest = [] := by
    rcases List.eq_nil_or_concat rest with
      hNil | ⟨others, final, rfl⟩
    · exact hNil
    · have hSplit : [left, entry] ++ [right] =
          (front ++ middle ++ others) ++ [final] := by
        simpa using hEntries
      cases List.append_inj_right' hSplit rfl
      have hLast : right ∈ others.concat right := by
        simp
      have hMem := hRest.subset hLast
      have hIn := mem_inside.mpr ⟨hMem, hRight⟩
      rw [hAfter] at hIn
      cases hIn
  subst hFrontNil hRestNil
  rw [List.nil_append, List.append_nil] at hEntries
  rw [← hEntries] at hMiddle
  have hMem := hMiddle.subset
    (List.mem_cons_of_mem left List.mem_cons_self)
  rw [(mem_inside.mp hMem).2] at hEntry
  cases hEntry

end Stream

end MmixAsm

------------------------------------------------------------
-- Identities That Stand Together
------------------------------------------------------------

namespace MmixAsm

namespace Stream

/-
  The identities of a range stand together in their original
  order.
-/
def KeepsTogether
    (stream : Stream)
    (first last : Nat) : Prop :=
  ∃ before after,
    stream.map (·.2) =
      before ++ List.range' first (last + 1 - first) ++ after

variable {stream : Stream}
variable {first last : Nat}

/- A range in its original order is whole or torn apart. -/
theorem keepsTogether_iff_whole
    (hOrder : (stream.inside first last).map (·.2) =
      List.range' first (last + 1 - first)) :
    stream.KeepsTogether first last ↔
      stream.Whole first last := by
  constructor
  · rintro ⟨before, after, hIds⟩
    rcases List.map_eq_append_iff.mp hIds with
      ⟨front, rest, rfl, hFront, hRest⟩
    rcases List.map_eq_append_iff.mp hFront with
      ⟨start, middle, rfl, hStart, hMiddle⟩
    have hRange : inside middle first last = middle := by
      apply List.filter_eq_self.mpr
      intro entry hEntry
      have hMem : entry.2 ∈ middle.map (·.2) :=
        List.mem_map_of_mem hEntry
      rw [hMiddle, List.mem_range'_1] at hMem
      rw [inRange_iff]
      omega
    -- The middle holds as many statements as the range, so
    -- there are none of the range around it.
    have hLength := congrArg List.length hOrder
    rw [← hMiddle, List.length_map, List.length_map,
      inside_append, inside_append, hRange,
      List.length_append, List.length_append] at hLength
    have hStartNil : inside start first last = [] := by
      apply List.eq_nil_of_length_eq_zero
      omega
    have hRestNil : inside rest first last = [] := by
      apply List.eq_nil_of_length_eq_zero
      omega
    refine ⟨start, rest, ?_⟩
    rw [inside_append, inside_append, hRange, hStartNil,
      hRestNil, List.nil_append, List.append_nil]
  · rintro ⟨before, after, hStream⟩
    refine ⟨before.map (·.2), after.map (·.2), ?_⟩
    rw [← hOrder, ← List.map_append, ← List.map_append,
      ← hStream]

/- At first the identities are the positions. -/
theorem ids_ofStatements
    {statements : List Statement}
    (hOrder : first ≤ last)
    (hLast : last < statements.length) :
    (ofStatements statements).map (·.2) =
      List.range' 0 first
        ++ List.range' first (last + 1 - first)
        ++ List.range' (last + 1)
          (statements.length - (last + 1)) := by
  have hFront :
      List.range' 0 first ++ List.range' first (last + 1 - first)
        = List.range' 0 (last + 1) := by
    have h := List.range'_append_1 (s := 0) (m := first)
      (n := last + 1 - first)
    rw [Nat.zero_add, Nat.add_sub_of_le (by omega)] at h
    exact h
  have hAll :
      List.range' 0 (last + 1) ++ List.range' (last + 1)
          (statements.length - (last + 1)) =
        List.range' 0 statements.length := by
    have h := List.range'_append_1 (s := 0) (m := last + 1)
      (n := statements.length - (last + 1))
    rw [Nat.zero_add, Nat.add_sub_of_le (by omega)] at h
    exact h
  rw [hFront, hAll]
  exact List.zipIdx_map_snd 0 statements

/- At first every range stands together. -/
theorem keepsTogether_ofStatements
    {statements : List Statement}
    (hOrder : first ≤ last)
    (hLast : last < statements.length) :
    (ofStatements statements).KeepsTogether first last :=
  ⟨_, _, ids_ofStatements hOrder hLast⟩

/- At first every range is in its order. -/
theorem inside_ofStatements
    {statements : List Statement}
    (hOrder : first ≤ last)
    (hLast : last < statements.length) :
    (inside (ofStatements statements) first last).map (·.2) =
      List.range' first (last + 1 - first) := by
  have hFilter :
      (inside (ofStatements statements) first last).map (·.2) =
        ((ofStatements statements).map (·.2)).filter
          (fun id => first ≤ id && id ≤ last) := by
    rw [List.filter_map]
    rfl
  have hBefore : (List.range' 0 first).filter
      (fun id => first ≤ id && id ≤ last) = [] := by
    apply List.filter_eq_nil_iff.mpr
    intro id hId
    rw [List.mem_range'_1] at hId
    simp only [Bool.and_eq_true, decide_eq_true_eq]
    omega
  have hMiddle :
      (List.range' first (last + 1 - first)).filter
          (fun id => first ≤ id && id ≤ last) =
        List.range' first (last + 1 - first) := by
    apply List.filter_eq_self.mpr
    intro id hId
    rw [List.mem_range'_1] at hId
    simp only [Bool.and_eq_true, decide_eq_true_eq]
    omega
  have hAfter : (List.range' (last + 1)
      (statements.length - (last + 1))).filter
      (fun id => first ≤ id && id ≤ last) = [] := by
    apply List.filter_eq_nil_iff.mpr
    intro id hId
    rw [List.mem_range'_1] at hId
    simp only [Bool.and_eq_true, decide_eq_true_eq]
    omega
  rw [hFilter, ids_ofStatements hOrder hLast,
    List.filter_append, List.filter_append, hBefore, hMiddle,
    hAfter, List.nil_append, List.append_nil]

/-
  In any order of the statements, a range lands at its origin
  or leaves all the others in front of it.
-/
theorem landing_of_perm
    {statements : List Statement}
    {stream : Stream}
    (hPerm : stream.Perm (ofStatements statements))
    (hOrder : first ≤ last)
    (hLast : last < statements.length)
    (origin : Nat) :
    stream.landing first last origin =
      min origin (statements.length - (last + 1 - first)) := by
  have hInside : (stream.inside first last).length =
      last + 1 - first := by
    have hIds := congrArg List.length
      (inside_ofStatements hOrder hLast)
    rw [List.length_map, List.length_range'] at hIds
    exact (hPerm.filter (inRange first last)).length_eq.trans
      hIds
  have hAll := length_inside_add_outside stream first last
  rw [hPerm.length_eq, ofStatements, List.length_zipIdx]
    at hAll
  unfold landing
  omega

/- At first every range holds a statement. -/
theorem exists_mem_inside
    {statements : List Statement}
    (hOrder : first ≤ last)
    (hLast : last < statements.length) :
    ∃ entry, entry ∈
      inside (ofStatements statements) first last := by
  apply List.exists_mem_of_length_pos
  rw [← List.length_map (·.2), inside_ofStatements hOrder hLast,
    List.length_range']
  omega

end Stream

end MmixAsm
