import Mathlib.Data.List.Pairwise
import MmixAsm.Layout.Program
import MmixAsm.Proofs.Outcome
import MmixAsm.Proofs.StreamMoves

/-
  Blocks that are placed as units.

  Blocks are placed one after another.  Statements of a block
  never change their order.  If all ranges are disjoint, a
  block is torn apart in exactly one way: another block lands
  strictly inside it, and the block itself is not moved
  afterwards.

  Key definitions include:
    * `MmixAsm.Block.Disjoint`
    * `MmixAsm.Placed.LandsInside`
    * `MmixAsm.Placed.MovesBehindLandings`

  Key theorems include:
    * `MmixAsm.Symbols.bounded_of_collect`
    * `MmixAsm.Placed.inside_of_places`
    * `MmixAsm.Placed.whole_of_places`
    * `MmixAsm.layOut_keeps_block_iff`
-/

------------------------------------------------------------
-- Ranges Of Declared Blocks
------------------------------------------------------------

namespace MmixAsm

namespace Block

/-
  A closed block is open too, holds a statement, and ends in
  front of the given position.
-/
def Bounded
    (position : Nat)
    (block : Block) : Prop :=
  ∀ last ∈ block.last,
    ∃ first ∈ block.start, first ≤ last ∧ last < position

theorem Bounded.mono
    {position later : Nat}
    {block : Block}
    (h : block.Bounded position)
    (hLater : position ≤ later) :
    block.Bounded later := by
  intro last hLast
  rcases h last hLast with ⟨first, hFirst, hOrder, hBound⟩
  exact ⟨first, hFirst, hOrder, by omega⟩

/- An update changes the block that is found by the name. -/
theorem mem_update
    {name : String}
    {change : Block → Block}
    {blocks : List Block}
    {block : Block}
    (h : block ∈ update name change blocks) :
    block ∈ blocks ∨
      block = change ((find? blocks name).getD (named name)) := by
  induction blocks with
  | nil =>
      right
      simpa [update, find?] using h
  | cons head rest ih =>
      by_cases hName : head.name = name
      · rw [update, if_pos hName] at h
        rcases List.mem_cons.mp h with rfl | hRest
        · right
          simp [find?, hName]
        · left
          exact List.mem_cons_of_mem _ hRest
      · rw [update, if_neg hName] at h
        rcases List.mem_cons.mp h with rfl | hRest
        · left
          exact List.mem_cons_self
        · have hFind :
              find? (head :: rest) name = find? rest name := by
            simp [find?, hName]
          rw [hFind]
          rcases ih hRest with hMem | hChange
          · left
            exact List.mem_cons_of_mem _ hMem
          · right
            exact hChange

/- A block found by its name is one of the blocks. -/
theorem bounded_find?
    {position : Nat}
    {blocks : List Block}
    (hBlocks : ∀ block ∈ blocks, block.Bounded position)
    (name : String) :
    ((find? blocks name).getD (named name)).Bounded
      position := by
  cases hFind : find? blocks name with
  | none =>
      intro last hLast
      cases hLast
  | some block => exact hBlocks block (List.mem_of_find?_eq_some hFind)

/- Closing a block gives it a range with a statement. -/
theorem bounded_of_close
    {position : Nat}
    {name : String}
    {blocks closed : List Block}
    (hBlocks : ∀ block ∈ blocks, block.Bounded position)
    (h : close blocks name position = .ok closed) :
    ∀ block ∈ closed, block.Bounded position := by
  unfold close at h
  split at h
  · cases h
  · rename_i start hStart
    split at h
    · rename_i hBefore
      cases h
      intro block hMem
      rcases mem_update hMem with hOld | rfl
      · exact hBlocks block hOld
      · rcases Option.bind_eq_some_iff.mp hStart with
          ⟨found, hFound, hFirst⟩
        rw [hFound]
        intro last hLast
        cases hLast
        exact ⟨start, hFirst, by omega, by omega⟩
    · cases h

end Block

namespace Symbols

/- Directives keep the ranges in front of the position. -/
theorem bounded_of_declareWith
    {symbols next : Symbols}
    {position : Nat}
    {label : Option String}
    {parameter : String}
    {directive : Directive}
    (hBlocks :
      ∀ block ∈ symbols.blocks, block.Bounded position)
    (h : symbols.declareWith position label parameter directive
      = .ok next) :
    ∀ block ∈ next.blocks, block.Bounded position := by
  cases directive with
  | block =>
      cases h
      intro block hMem
      rcases Block.mem_update hMem with hOld | rfl
      · exact hBlocks block hOld
      · intro last hLast
        cases hLast
  | endBlock =>
      rcases exists_of_map_eq_ok h with ⟨blocks, hClose, rfl⟩
      exact Block.bounded_of_close hBlocks hClose
  | place =>
      cases h
      intro block hMem
      rcases Block.mem_update hMem with hOld | rfl
      · exact hBlocks block hOld
      · exact Block.bounded_find? hBlocks parameter
  | equate =>
      cases label with
      | none => cases h
      | some name =>
          cases h
          exact hBlocks
  | loc =>
      cases h
      exact hBlocks
  | greg =>
      cases h
      exact hBlocks

theorem bounded_of_declare
    {symbols next : Symbols}
    {position : Nat}
    {line : Line Directive}
    (hBlocks :
      ∀ block ∈ symbols.blocks, block.Bounded position)
    (h : symbols.declare position line = .ok next) :
    ∀ block ∈ next.blocks, block.Bounded position := by
  unfold declare at h
  split at h
  · unfold takeRegister at h
    split at h
    · cases h
    · cases h
      exact hBlocks
  · split at h
    · cases h
    · exact bounded_of_declareWith hBlocks h

/- The position behind all items counts the statements. -/
theorem position_of_steps
    {items : List Item}
    {state final : Nat × Symbols}
    (h : items.foldlM step state = .ok final) :
    final.1 = state.1 + (statementsOf items).length := by
  induction items generalizing state with
  | nil =>
      cases h
      rfl
  | cons item rest ih =>
      rw [List.foldlM_cons] at h
      rcases exists_of_bind_eq_ok h with ⟨next, hStep, hRest⟩
      have hTail := ih hRest
      cases item with
      | statement line =>
          cases hStep
          have hCount :
              (statementsOf (.statement line :: rest)).length =
                (statementsOf rest).length + 1 := rfl
          rw [hTail, hCount]
          omega
      | control line =>
          rcases exists_of_map_eq_ok hStep with
            ⟨symbols, hDeclare, rfl⟩
          exact hTail

/- Every closed block ends in front of the last statement. -/
theorem bounded_of_collect
    {items : List Item}
    {symbols : Symbols}
    (h : collect items = .ok symbols) :
    ∀ block ∈ symbols.blocks,
      block.Bounded (statementsOf items).length := by
  rcases exists_of_map_eq_ok h with ⟨final, hSteps, rfl⟩
  have hPosition := position_of_steps hSteps
  rw [Nat.zero_add] at hPosition
  rw [← hPosition]
  refine invariant_of_foldlM_eq_ok
    (motive := fun state =>
      ∀ block ∈ state.2.blocks, block.Bounded state.1)
    ?_ ?_ hSteps
  · intro block hMem
    cases hMem
  · intro state item next _ hBlocks hStep
    cases item with
    | statement line =>
        cases hStep
        intro block hMem
        exact (hBlocks block hMem).mono (Nat.le_succ _)
    | control line =>
        rcases exists_of_map_eq_ok hStep with
          ⟨symbols, hDeclare, rfl⟩
        exact bounded_of_declare hBlocks hDeclare

end Symbols

end MmixAsm

------------------------------------------------------------
-- Placing Disjoint Blocks
------------------------------------------------------------

namespace MmixAsm

namespace Block

/- The block is complete and has the given range. -/
def Spans
    (block : Block)
    (first last : Nat) : Prop :=
  block.start = some first ∧ block.last = some last

theorem Spans.eq
    {block : Block}
    {first last first' last' : Nat}
    (h : block.Spans first last)
    (h' : block.Spans first' last') :
    first = first' ∧ last = last' := by
  have hFirst := h.1.symm.trans h'.1
  have hLast := h.2.symm.trans h'.2
  exact ⟨Option.some.inj hFirst, Option.some.inj hLast⟩

/- The range of the block is apart from a given range. -/
def ApartFrom
    (block : Block)
    (first last : Nat) : Prop :=
  ∀ first' ∈ block.start, ∀ last' ∈ block.last,
    Stream.Apart first last first' last'

/- Blocks whose ranges share no statement. -/
def Disjoint
    (block other : Block) : Prop :=
  ∀ first ∈ block.start, ∀ last ∈ block.last,
    other.ApartFrom first last

instance
    (block other : Block) :
    Decidable (block.Disjoint other) := by
  unfold Disjoint ApartFrom Stream.Apart
  infer_instance

instance : Std.Symm Disjoint where
  symm := by
    intro block other h first hFirst last hLast first' hFirst'
      last' hLast'
    exact (h first' hFirst' last' hLast' first hFirst last
      hLast).symm

/- The block goes to the place that wants it. -/
def IsMoved (block : Block) : Prop :=
  ∃ first last origin,
    block.plan = .ok (.move first last origin)

/- What is planned for a block depends on its range. -/
theorem plan_cases
    {block : Block}
    {plan : Plan}
    (h : block.plan = .ok plan) :
    ∃ first last,
      block.Spans first last ∧
        (plan = .unused ∨ plan = .insideItself ∨
          ∃ origin, plan = .move first last origin) := by
  unfold Block.plan at h
  split at h
  · cases h
  · cases h
  · rename_i first last hStart hLast
    refine ⟨first, last, ⟨hStart, hLast⟩, ?_⟩
    split at h
    · cases h
      exact .inl rfl
    · split at h
      · cases h
        exact .inr (.inl rfl)
      · cases h
        exact .inr (.inr ⟨_, rfl⟩)

/- A block that is moved is moved with its whole range. -/
theorem spans_of_plan
    {block : Block}
    {first last origin : Nat}
    (h : block.plan = .ok (.move first last origin)) :
    block.Spans first last := by
  rcases plan_cases h with
    ⟨first', last', hSpans, hPlan | hPlan | hPlan⟩
  · cases hPlan
  · cases hPlan
  · rcases hPlan with ⟨origin', hPlan⟩
    cases hPlan
    exact hSpans

end Block

namespace Placed

/- A placed block changes nothing, or moves and is labelled. -/
theorem eq_of_place
    {placed next : Placed}
    {block : Block}
    (h : placed.place block = .ok next) :
    (¬ block.IsMoved ∧ next = placed) ∨
      ∃ first last origin,
        block.plan = .ok (.move first last origin) ∧
          next = {
            stream := placed.stream.move first last origin
            labels := placed.labels.bindOptional block.label
              (toString
                (placed.stream.landing first last origin)) }
    := by
  rcases exists_of_map_eq_ok h with ⟨plan, hPlan, rfl⟩
  cases plan with
  | unused =>
      left
      refine ⟨?_, rfl⟩
      rintro ⟨first, last, origin, hMove⟩
      rw [hPlan] at hMove
      cases hMove
  | insideItself =>
      left
      refine ⟨?_, rfl⟩
      rintro ⟨first, last, origin, hMove⟩
      rw [hPlan] at hMove
      cases hMove
  | move first last origin =>
      right
      exact ⟨first, last, origin, hPlan, rfl⟩

/- A placed block is left where it is or moved. -/
theorem place_cases
    {placed next : Placed}
    {block : Block}
    (h : placed.place block = .ok next) :
    (¬ block.IsMoved ∧ next.stream = placed.stream) ∨
      ∃ first last origin,
        block.plan = .ok (.move first last origin) ∧
          next.stream =
            placed.stream.move first last origin := by
  rcases eq_of_place h with
    ⟨hNot, rfl⟩ | ⟨first, last, origin, hPlan, rfl⟩
  · left
    exact ⟨hNot, rfl⟩
  · right
    exact ⟨first, last, origin, hPlan, rfl⟩

/- A block that is to be moved is moved as a range. -/
theorem stream_of_place
    {placed next : Placed}
    {block : Block}
    {first last origin : Nat}
    (hPlan : block.plan = .ok (.move first last origin))
    (h : placed.place block = .ok next) :
    next.stream = placed.stream.move first last origin := by
  rw [place, hPlan] at h
  cases h
  rfl

variable {start final : Placed}
variable {blocks : List Block}
variable {first last : Nat}

/- Placing two lists of blocks one after the other. -/
theorem exists_of_places_append
    {front back : List Block}
    (h : (front ++ back).foldlM place start = .ok final) :
    ∃ state,
      front.foldlM place start = .ok state ∧
        back.foldlM place state = .ok final := by
  rw [List.foldlM_append] at h
  exact exists_of_bind_eq_ok h

/- Every block that is placed has a range. -/
theorem exists_spans_of_places
    {block : Block}
    (hMem : block ∈ blocks)
    (h : blocks.foldlM place start = .ok final) :
    ∃ first last, block.Spans first last := by
  rcases List.append_of_mem hMem with ⟨front, back, rfl⟩
  rcases exists_of_places_append h with ⟨state, _, hBack⟩
  rw [List.foldlM_cons] at hBack
  rcases exists_of_bind_eq_ok hBack with ⟨next, hPlace, _⟩
  rcases exists_of_map_eq_ok hPlace with ⟨plan, hPlan, _⟩
  rcases Block.plan_cases hPlan with
    ⟨first, last, hSpans, _⟩
  exact ⟨first, last, hSpans⟩

/- Placing disjoint blocks keeps a range in its order. -/
theorem inside_of_places
    (hBlocks : ∀ block ∈ blocks,
      block.Spans first last ∨ block.ApartFrom first last)
    (h : blocks.foldlM place start = .ok final) :
    final.stream.inside first last =
      start.stream.inside first last := by
  refine invariant_of_foldlM_eq_ok
    (motive := fun state => state.stream.inside first last =
      start.stream.inside first last) rfl ?_ h
  intro state block next hMem hInside hPlace
  rcases place_cases hPlace with
    ⟨_, hStream⟩ | ⟨first', last', origin, hPlan, hStream⟩
  · rw [hStream, hInside]
  · have hMoved := Block.spans_of_plan hPlan
    rw [hStream, ← hInside]
    rcases hBlocks block hMem with hSpans | hApart
    · rcases hSpans.eq hMoved with ⟨rfl, rfl⟩
      exact Stream.inside_move_self _ _ _ _
    · exact Stream.inside_move_of_apart
        (hApart first' hMoved.1 last' hMoved.2)

/- Moved blocks keep the order of what is outside them. -/
theorem sublist_of_places
    {entries : Stream}
    (hBlocks : ∀ block ∈ blocks, block.IsMoved →
      ∀ first last, block.Spans first last →
        ∀ entry ∈ entries,
          Stream.inRange first last entry = false)
    (hSublist : entries.Sublist start.stream)
    (h : blocks.foldlM place start = .ok final) :
    entries.Sublist final.stream := by
  refine invariant_of_foldlM_eq_ok
    (motive := fun state => entries.Sublist state.stream)
    hSublist ?_ h
  intro state block next hMem hSublist hPlace
  rcases place_cases hPlace with
    ⟨_, hStream⟩ | ⟨first, last, origin, hPlan, hStream⟩
  · rwa [hStream]
  · rw [hStream]
    exact Stream.sublist_move
      (hBlocks block hMem ⟨first, last, origin, hPlan⟩
        first last (Block.spans_of_plan hPlan))
      hSublist

/- The block lands strictly inside a range. -/
def LandsInside
    (placed : Placed)
    (block : Block)
    (first last : Nat) : Prop :=
  ∃ first' last' origin,
    block.plan = .ok (.move first' last' origin) ∧
      placed.stream.Splits first' last' origin first last

/- A range in which no block lands stays whole. -/
theorem whole_of_places
    (hBlocks : ∀ block ∈ blocks,
      block.IsMoved → block.ApartFrom first last)
    (hLandings : ∀ front block back state,
      blocks = front ++ block :: back →
        front.foldlM place start = .ok state →
          ¬ state.LandsInside block first last)
    (hWhole : start.stream.Whole first last)
    (h : blocks.foldlM place start = .ok final) :
    final.stream.Whole first last := by
  induction blocks generalizing start with
  | nil =>
      cases h
      exact hWhole
  | cons block rest ih =>
      rw [List.foldlM_cons] at h
      rcases exists_of_bind_eq_ok h with ⟨next, hPlace, hRest⟩
      apply ih _ _ _ hRest
      · intro other hMem
        exact hBlocks other (List.mem_cons_of_mem _ hMem)
      · intro front other back state hSplit hFront
        apply hLandings (block :: front) other back state
        · rw [hSplit, List.cons_append]
        · rw [List.foldlM_cons, hPlace]
          exact hFront
      · rcases place_cases hPlace with
          ⟨_, hStream⟩ |
            ⟨first', last', origin, hPlan, hStream⟩
        · rwa [hStream]
        · have hMoved := Block.spans_of_plan hPlan
          have hApart := hBlocks block List.mem_cons_self
            ⟨first', last', origin, hPlan⟩
          rw [hStream]
          apply hWhole.move
            (hApart first' hMoved.1 last' hMoved.2)
          intro hSplits
          exact hLandings [] block rest start rfl rfl
            ⟨first', last', origin, hPlan, hSplits⟩

end Placed

end MmixAsm

------------------------------------------------------------
-- Blocks That Stay Together
------------------------------------------------------------

namespace MmixAsm

namespace Block

/- Disjoint blocks, all in front of a position. -/
structure Separated
    (position : Nat)
    (blocks : List Block) : Prop where
  bounded : ∀ block ∈ blocks, block.Bounded position
  disjoint : blocks.Pairwise Disjoint

variable {position first last : Nat}
variable {blocks : List Block}
variable {block : Block}

/- A range holds a statement and ends before the position. -/
theorem Separated.le_of_spans
    (h : Separated position blocks)
    (hBlock : block ∈ blocks)
    (hSpans : block.Spans first last) :
    first ≤ last ∧ last < position := by
  rcases h.bounded block hBlock last hSpans.2 with
    ⟨start, hStart, hRange⟩
  cases hSpans.1.symm.trans hStart
  exact hRange

theorem Separated.apartFrom_of_ne
    (h : Separated position blocks)
    (hBlock : block ∈ blocks)
    (hSpans : block.Spans first last)
    {other : Block}
    (hOther : other ∈ blocks)
    (hNe : other ≠ block) :
    other.ApartFrom first last :=
  h.disjoint.forall hBlock hOther hNe.symm first hSpans.1
    last hSpans.2

/- No block with a range is listed twice. -/
theorem Separated.not_mem_later
    {front back : List Block}
    (h : Separated position (front ++ block :: back))
    (hSpans : block.Spans first last) :
    block ∉ back := by
  intro hMem
  have hBlock : block ∈ front ++ block :: back := by simp
  have hRange := h.le_of_spans hBlock hSpans
  have hPairs := (List.pairwise_append.mp h.disjoint).2.1
  have hSelf := (List.pairwise_cons.mp hPairs).1 block hMem
    first hSpans.1 last hSpans.2 first hSpans.1 last hSpans.2
  rcases hSelf with hSelf | hSelf
  · omega
  · omega

end Block

namespace Placed

/-
  Every block that lands strictly inside the range of the
  given block is placed before it, and the given block is
  moved afterwards.
-/
def MovesBehindLandings
    (statements : List Statement)
    (labels : LabelTable)
    (blocks : List Block)
    (block : Block)
    (first last : Nat) : Prop :=
  ∀ front other back state,
    blocks = front ++ other :: back →
      ofBlocks statements labels front = .ok state →
        state.LandsInside other first last →
          block ∈ back ∧ block.IsMoved

variable {statements : List Statement}
variable {labels : LabelTable}
variable {blocks : List Block}
variable {block : Block}
variable {placed : Placed}
variable {first last : Nat}

/- Some blocks of the table keep a range in its order. -/
theorem inside_of_ofBlocks
    (hTable : Block.Separated statements.length blocks)
    (hBlock : block ∈ blocks)
    (hSpans : block.Spans first last)
    {chosen : List Block}
    (hChosen : chosen ⊆ blocks)
    (h : ofBlocks statements labels chosen = .ok placed) :
    placed.stream.inside first last =
      Stream.inside (.ofStatements statements) first last := by
  apply inside_of_places _ h
  intro other hOther
  by_cases hEq : other = block
  · left
    rw [hEq]
    exact hSpans
  · right
    exact hTable.apartFrom_of_ne hBlock hSpans
      (hChosen hOther) hEq

/- A block that lands inside another one tears it apart. -/
theorem not_whole_of_landsInside
    (hTable : Block.Separated statements.length blocks)
    (hBlock : block ∈ blocks)
    (hSpans : block.Spans first last)
    {front back : List Block}
    {other : Block}
    {state : Placed}
    (hBlocks : blocks = front ++ other :: back)
    (hFront : ofBlocks statements labels front = .ok state)
    (hLands : state.LandsInside other first last)
    (hLater : ¬ (block ∈ back ∧ block.IsMoved))
    (h : (other :: back).foldlM place state = .ok placed) :
    ¬ placed.stream.Whole first last := by
  rcases hLands with ⟨first', last', origin, hPlan, hSplits⟩
  have hOther : other ∈ blocks := by simp [hBlocks]
  have hOtherSpans := Block.spans_of_plan hPlan
  have hNe : other ≠ block := by
    rintro rfl
    rcases hSpans.eq hOtherSpans with ⟨rfl, rfl⟩
    exact Stream.not_splits_self hSplits
  have hApart := hTable.apartFrom_of_ne hBlock hSpans hOther
    hNe first' hOtherSpans.1 last' hOtherSpans.2
  -- A statement of the other block comes between two
  -- statements of the block.
  rcases hTable.le_of_spans hOther hOtherSpans with
    ⟨hOrder, hBound⟩
  rcases Stream.exists_mem_inside hOrder hBound with
    ⟨entry, hEntry⟩
  rw [← inside_of_ofBlocks hTable hOther hOtherSpans
    (by simp [hBlocks]) hFront] at hEntry
  have hEntryIn := (Stream.mem_inside.mp hEntry).2
  rcases hSplits.sublist_move hEntry with
    ⟨left, right, hLeft, hRight, hSublist⟩
  rw [List.foldlM_cons] at h
  rcases exists_of_bind_eq_ok h with ⟨next, hPlace, hBack⟩
  rw [← stream_of_place hPlan hPlace] at hSublist
  apply Stream.not_whole_of_sublist hLeft
    (hApart.symm.inRange_eq_false hEntryIn) hRight
  -- No block that is moved later holds one of the three.
  apply sublist_of_places _ hSublist hBack
  intro later hMem hMoved first'' last'' hLaterSpans
  have hFromBlock : Stream.Apart first last first'' last'' := by
    have hLaterMem : later ∈ blocks := by
      simp [hBlocks, hMem]
    have hLaterNe : later ≠ block := by
      rintro rfl
      exact hLater ⟨hMem, hMoved⟩
    exact hTable.apartFrom_of_ne hBlock hSpans hLaterMem
      hLaterNe first'' hLaterSpans.1 last'' hLaterSpans.2
  have hFromOther :
      Stream.Apart first' last' first'' last'' := by
    have hPairs := hTable.disjoint
    rw [hBlocks] at hPairs
    have hBehind := (List.pairwise_append.mp hPairs).2.1
    exact (List.pairwise_cons.mp hBehind).1 later hMem
      first' hOtherSpans.1 last' hOtherSpans.2 first''
      hLaterSpans.1 last'' hLaterSpans.2
  simp only [List.forall_mem_cons]
  exact ⟨hFromBlock.inRange_eq_false hLeft,
    hFromOther.inRange_eq_false hEntryIn,
    hFromBlock.inRange_eq_false hRight, by simp⟩

/- A block that moves behind its landings stays together. -/
theorem whole_of_movesBehindLandings
    (hTable : Block.Separated statements.length blocks)
    (hBlock : block ∈ blocks)
    (hSpans : block.Spans first last)
    (hMoves : MovesBehindLandings statements labels blocks
      block first last)
    (h : ofBlocks statements labels blocks = .ok placed) :
    placed.stream.Whole first last := by
  by_cases hMoved : block.IsMoved
  · -- The move makes the block whole, and no block lands
    -- inside it later.
    rcases List.append_of_mem hBlock with
      ⟨earlier, later, rfl⟩
    have hNotLater := hTable.not_mem_later hSpans
    rcases exists_of_places_append h with
      ⟨state, hEarlier, hRest⟩
    rw [List.foldlM_cons] at hRest
    rcases exists_of_bind_eq_ok hRest with
      ⟨next, hPlace, hLater⟩
    rcases hMoved with ⟨first', last', origin, hPlan⟩
    rcases hSpans.eq (Block.spans_of_plan hPlan) with
      ⟨rfl, rfl⟩
    apply whole_of_places _ _ _ hLater
    · intro other hOther _
      apply hTable.apartFrom_of_ne hBlock hSpans
      · simp [hOther]
      · rintro rfl
        exact hNotLater hOther
    · intro front other back after hSplit hFront hLands
      have hFrom : (block :: front).foldlM place state =
          .ok after := by
        rw [List.foldlM_cons, hPlace]
        exact hFront
      have hMem := hMoves (earlier ++ block :: front) other
        back after (by simp [hSplit]) ?_ hLands
      · apply hNotLater
        simp [hSplit, hMem.1]
      · unfold ofBlocks
        rw [List.foldlM_append, hEarlier]
        exact hFrom
    · rw [stream_of_place hPlan hPlace]
      exact Stream.whole_move_self _ _ _ _
  · rcases hTable.le_of_spans hBlock hSpans with
      ⟨hOrder, hBound⟩
    apply whole_of_places _ _ _ h
    · intro other hOther hOtherMoved
      apply hTable.apartFrom_of_ne hBlock hSpans hOther
      rintro rfl
      exact hMoved hOtherMoved
    · intro front other back state hSplit hFront hLands
      exact hMoved
        (hMoves front other back state hSplit hFront hLands).2
    · exact (Stream.keepsTogether_iff_whole
        (Stream.inside_ofStatements hOrder hBound)).mp
          (Stream.keepsTogether_ofStatements hOrder hBound)

end Placed

/-
  In an accepted program with disjoint blocks, the statements
  of a block keep their order, and they stand together if and
  only if the block moves behind its landings.
-/
theorem layOut_keeps_block_iff
    {limit : Nat}
    {instructions : List Instruction}
    {program : List Statement}
    {items : List Item}
    {symbols : Symbols}
    {block : Block}
    (hProgram : layOut limit instructions = .ok program)
    (hItems : pad limit instructions = .ok items)
    (hSymbols : Symbols.collect items = .ok symbols)
    (hDisjoint : symbols.blocks.Pairwise Block.Disjoint)
    (hBlock : block ∈ symbols.blocks) :
    ∃ placed first last,
      Placed.ofBlocks (statementsOf items) symbols.labels
          symbols.blocks = .ok placed ∧
        program = placed.resolve ∧
        block.Spans first last ∧
        first ≤ last ∧
        last < (statementsOf items).length ∧
        placed.stream.inside first last =
          Stream.inside (.ofStatements (statementsOf items))
            first last ∧
        (placed.stream.KeepsTogether first last ↔
          Placed.MovesBehindLandings (statementsOf items)
            symbols.labels symbols.blocks block first last)
    := by
  rcases exists_of_bind_eq_ok hProgram with
    ⟨items', hItems', hProgram⟩
  cases hItems.symm.trans hItems'
  rcases exists_of_bind_eq_ok hProgram with
    ⟨symbols', hSymbols', hProgram⟩
  cases hSymbols.symm.trans hSymbols'
  rcases exists_of_bind_eq_ok hProgram with
    ⟨placed, hPlaced, hProgram⟩
  cases hProgram
  have hTable : Block.Separated (statementsOf items).length
      symbols.blocks :=
    ⟨Symbols.bounded_of_collect hSymbols, hDisjoint⟩
  rcases Placed.exists_spans_of_places hBlock hPlaced with
    ⟨first, last, hSpans⟩
  rcases hTable.le_of_spans hBlock hSpans with
    ⟨hOrder, hBound⟩
  have hInside := Placed.inside_of_ofBlocks hTable hBlock
    hSpans (List.Subset.refl _) hPlaced
  have hIds := Stream.inside_ofStatements hOrder hBound
  rw [← hInside] at hIds
  refine ⟨placed, first, last, hPlaced, rfl, hSpans, hOrder,
    hBound, hInside, ?_⟩
  rw [Stream.keepsTogether_iff_whole hIds]
  constructor
  · intro hWhole front other back state hBlocks hFront hLands
    rw [Placed.ofBlocks, hBlocks] at hPlaced
    rcases Placed.exists_of_places_append hPlaced with
      ⟨state', hState, hBack⟩
    cases hFront.symm.trans hState
    exact Classical.byContradiction fun hLater =>
      Placed.not_whole_of_landsInside hTable hBlock hSpans
        hBlocks hFront hLands hLater hBack hWhole
  · intro hMoves
    exact Placed.whole_of_movesBehindLandings hTable hBlock
      hSpans hMoves hPlaced

/-
  The block `b` lands inside the block `a`, which is moved
  afterwards.
-/
def regatheredProgram : List Instruction := [
  .control ⟨none, .block, ["b"]⟩,
  .op ⟨none, "SETL", ["$4", "0"]⟩,
  .control ⟨none, .endBlock, ["b"]⟩,
  .control ⟨none, .place, ["b"]⟩,
  .control ⟨none, .block, ["a"]⟩,
  .op ⟨none, "SETL", ["$1", "1"]⟩,
  .op ⟨none, "SETL", ["$1", "2"]⟩,
  .control ⟨none, .endBlock, ["a"]⟩,
  .op ⟨none, "SETL", ["$2", "0"]⟩,
  .control ⟨none, .place, ["a"]⟩]

theorem regatheredProgram_keeps_block :
    ∃ items symbols block placed first last,
      pad 0 regatheredProgram = .ok items ∧
        Symbols.collect items = .ok symbols ∧
        symbols.blocks.Pairwise Block.Disjoint ∧
        block ∈ symbols.blocks ∧
        block.Spans first last ∧
        Placed.ofBlocks (statementsOf items) symbols.labels
          symbols.blocks = .ok placed ∧
        layOut 0 regatheredProgram = .ok placed.resolve ∧
        (placed.stream.KeepsTogether first last ↔
          Placed.MovesBehindLandings (statementsOf items)
            symbols.labels symbols.blocks block first last)
    := by
  let items :=
    (pad 0 regatheredProgram).toOption.getD []
  let symbols :=
    (Symbols.collect items).toOption.getD .empty
  let block : Block := ⟨"a", none, some 4, some 1, some 2⟩
  let program :=
    (layOut 0 regatheredProgram).toOption.getD []
  have hItems : pad 0 regatheredProgram = .ok items := by
    decide +kernel
  have hSymbols : Symbols.collect items = .ok symbols := by
    decide +kernel
  have hProgram :
      layOut 0 regatheredProgram = .ok program := by
    decide +kernel
  have hDisjoint :
      symbols.blocks.Pairwise Block.Disjoint := by
    decide +kernel
  have hBlock : block ∈ symbols.blocks := by
    decide +kernel
  rcases layOut_keeps_block_iff hProgram hItems hSymbols
    hDisjoint hBlock with
    ⟨placed, first, last, hPlaced, hResolve, hSpans, _, _, _,
      hIff⟩
  rw [hResolve] at hProgram
  exact ⟨items, symbols, block, placed, first, last, hItems,
    hSymbols, hDisjoint, hBlock, hSpans, hPlaced, hProgram,
    hIff⟩

/-
  The block `a` is moved behind two statements, and then the
  block `b` lands inside it.
-/
def tornProgram : List Instruction := [
  .control ⟨none, .block, ["a"]⟩,
  .op ⟨none, "SETL", ["$1", "1"]⟩,
  .op ⟨none, "SETL", ["$1", "2"]⟩,
  .control ⟨none, .endBlock, ["a"]⟩,
  .control ⟨none, .place, ["a"]⟩,
  .op ⟨none, "SETL", ["$2", "0"]⟩,
  .control ⟨none, .place, ["b"]⟩,
  .op ⟨none, "SETL", ["$3", "0"]⟩,
  .control ⟨none, .block, ["b"]⟩,
  .op ⟨none, "SETL", ["$4", "0"]⟩,
  .control ⟨none, .endBlock, ["b"]⟩]

/- Blocks may be torn apart although they are disjoint. -/
theorem tornProgram_splits_block :
    ∃ items symbols block placed,
      pad 0 tornProgram = .ok items ∧
        Symbols.collect items = .ok symbols ∧
        symbols.blocks.Pairwise Block.Disjoint ∧
        block ∈ symbols.blocks ∧
        block.Spans 0 1 ∧
        Placed.ofBlocks (statementsOf items) symbols.labels
          symbols.blocks = .ok placed ∧
        layOut 0 tornProgram = .ok placed.resolve ∧
        ¬ placed.stream.KeepsTogether 0 1 := by
  let items := (pad 0 tornProgram).toOption.getD []
  let symbols :=
    (Symbols.collect items).toOption.getD .empty
  let block : Block := ⟨"a", none, some 2, some 0, some 1⟩
  let placed : Placed := ⟨[
    (.op ⟨none, "SETL", ["$2", "0"]⟩, 2),
    (.op ⟨none, "SETL", ["$3", "0"]⟩, 3),
    (.op ⟨none, "SETL", ["$1", "1"]⟩, 0),
    (.op ⟨none, "SETL", ["$4", "0"]⟩, 4),
    (.op ⟨none, "SETL", ["$1", "2"]⟩, 1)], .empty⟩
  refine ⟨items, symbols, block, placed, by decide +kernel,
    by decide +kernel, by decide +kernel, by decide +kernel,
    ⟨rfl, rfl⟩, by rfl, by decide +kernel, ?_⟩
  rintro ⟨before, after, hIds⟩
  have hTogether : [0, 1] <:+: [2, 3, 0, 4, 1] :=
    ⟨before, after, hIds.symm⟩
  revert hTogether
  decide

end MmixAsm
