import MmixAsm.Proofs.LabelBindings

/-
  Where the label of a USE line points.

  A moved block binds the label of its USE line when it is
  spliced in.  The blocks that are placed behind it may still
  take statements away from in front of it, or put statements
  there, and the label does not follow.  It names the final
  start of the block exactly when these balance.

  Key definitions include:
    * `MmixAsm.Stream.before`
    * `MmixAsm.Stream.position`
    * `MmixAsm.carriedBefore`

  Key theorems include:
    * `MmixAsm.Stream.filter_move`
    * `MmixAsm.Placed.filter_of_places`
    * `MmixAsm.Placed.position_of_places`
    * `MmixAsm.Placed.position_of_splice`
    * `MmixAsm.get?_bindings_of_use`
    * `MmixAsm.layOut_use_label_iff`
-/

------------------------------------------------------------
-- Positions In A Stream
------------------------------------------------------------

namespace MmixAsm

namespace Stream

/- What stands in front of the statement with an identity. -/
def before
    (stream : Stream)
    (id : Nat) : Stream :=
  stream.takeWhile (·.2 != id)

/- The position of the statement with an identity. -/
def position
    (stream : Stream)
    (id : Nat) : Nat :=
  (stream.before id).length

variable {stream : Stream}
variable {id : Nat}

/- A statement and what is known to be in front of it. -/
theorem before_append
    {front back : Stream}
    {entry : Statement × Nat}
    (hEntry : entry.2 = id)
    (hFront : ∀ other ∈ front, other.2 ≠ id) :
    before (front ++ entry :: back) id = front := by
  have hAll : ∀ other ∈ front, (other.2 != id) = true := by
    intro other hOther
    simpa using hFront other hOther
  unfold before
  rw [List.takeWhile_append_of_pos hAll]
  simp [hEntry]

/- The statement stands at its position. -/
theorem getElem?_position
    (hId : id ∈ stream.map (·.2)) :
    (stream[stream.position id]?).map (·.2) = some id := by
  induction stream with
  | nil => cases hId
  | cons entry rest ih =>
      by_cases hEntry : entry.2 = id
      · simp [position, before, hEntry]
      · have hRest : id ∈ rest.map (·.2) := by
          simpa [Ne.symm hEntry] using hId
        have hBefore :
            position (entry :: rest) id = position rest id + 1 := by
          simp [position, before, hEntry]
        rw [hBefore, List.getElem?_cons_succ]
        exact ih hRest

/-
  The position counts the statements of a kind that stand in
  front, and the others.
-/
theorem position_eq_add
    (stream : Stream)
    {kind : Statement × Nat → Bool}
    (hKind : ∀ entry, entry.2 = id → kind entry = false) :
    stream.position id =
      position (stream.filter (!kind ·)) id
        + (stream.before id).countP kind := by
  have hFilter : before (stream.filter (!kind ·)) id =
      (stream.before id).filter (!kind ·) := by
    induction stream with
    | nil => rfl
    | cons entry rest ih =>
        unfold before at ih ⊢
        by_cases hEntry : entry.2 = id
        · simp [hEntry, hKind entry hEntry]
        · by_cases hEntryKind : kind entry
          · simp [hEntry, hEntryKind, ih]
          · simp [hEntry, hEntryKind, ih]
  have hParts :=
    (List.filter_append_perm kind (stream.before id)).length_eq
  rw [List.length_append] at hParts
  unfold position
  rw [hFilter, List.countP_eq_length_filter]
  omega

/- A move keeps the order of any statements it does not move. -/
theorem filter_move
    {keep : Statement × Nat → Bool}
    {first last : Nat}
    (hKeep : ∀ entry, inRange first last entry = true →
      keep entry = false)
    (origin : Nat) :
    (stream.move first last origin).filter keep =
      stream.filter keep := by
  have hOutside : ∀ entries : Stream,
      entries.filter keep =
        (entries.outside first last).filter keep := by
    intro entries
    unfold outside
    rw [List.filter_filter]
    apply List.filter_congr
    intro entry _
    cases hEntry : inRange first last entry with
    | false => simp
    | true => simp [hKeep entry hEntry]
  rw [hOutside, outside_move_self, ← hOutside]

/- A range that is moved in its order begins where it lands. -/
theorem position_move
    {first last : Nat}
    (hOrder : first ≤ last)
    (hIds : (stream.inside first last).map (·.2) =
      List.range' first (last + 1 - first))
    (origin : Nat) :
    (stream.move first last origin).position first =
      stream.landing first last origin := by
  have hRange : List.range' first (last + 1 - first) =
      first :: List.range' (first + 1) (last - first) := by
    rw [← List.range'_succ]
    congr 1
    omega
  rw [hRange] at hIds
  rcases List.map_eq_cons_iff.mp hIds with
    ⟨entry, rest, hInside, hFirst, _⟩
  have hMove : stream.move first last origin =
      (stream.outside first last).take
          (stream.landing first last origin)
        ++ entry :: (rest
          ++ (stream.outside first last).drop
            (stream.landing first last origin)) := by
    unfold move
    rw [hInside, List.append_assoc, List.cons_append]
  have hFront : ∀ other ∈ (stream.outside first last).take
      (stream.landing first last origin),
      other.2 ≠ first := by
    intro other hOther hSame
    have hOutside :=
      (List.mem_filter.mp (List.mem_of_mem_take hOther)).2
    have hInRange : inRange first last other = true := by
      rw [inRange_iff, hSame]
      omega
    rw [hInRange] at hOutside
    cases hOutside
  unfold position
  rw [hMove, before_append hFirst hFront, List.length_take]
  apply Nat.min_eq_left
  exact Nat.min_le_right _ _

end Stream

end MmixAsm

------------------------------------------------------------
-- Blocks That Are Placed Later
------------------------------------------------------------

namespace MmixAsm

/- Whether a block is moved and the statement with it. -/
def Block.carries
    (block : Block)
    (id : Nat) : Bool :=
  match block.plan with
  | .ok (.move first last _) => first ≤ id && id ≤ last
  | _ => false

/-
  The number of statements in front of a given one that move
  with some of the given blocks.
-/
def carriedBefore
    (blocks : List Block)
    (stream : Stream)
    (id : Nat) : Nat :=
  (stream.before id).countP
    fun entry => blocks.any (·.carries entry.2)

namespace Placed

variable {blocks : List Block}
variable {start final : Placed}

/- Blocks keep the order of what they do not carry. -/
theorem filter_of_places
    (keep : Statement × Nat → Bool)
    (hKeep : ∀ entry, ∀ block ∈ blocks,
      block.carries entry.2 = true → keep entry = false)
    (h : blocks.foldlM place start = .ok final) :
    final.stream.filter keep = start.stream.filter keep := by
  refine invariant_of_foldlM_eq_ok
    (motive := fun state =>
      state.stream.filter keep = start.stream.filter keep)
    rfl ?_ h
  intro state block next hBlock hState hPlace
  rcases eq_of_place hPlace with
    ⟨_, rfl⟩ | ⟨first, last, origin, hPlan, rfl⟩
  · exact hState
  · rw [← hState]
    apply Stream.filter_move
    intro entry hEntry
    apply hKeep entry block hBlock
    rw [Block.carries, hPlan]
    exact hEntry

/-
  A statement that no block carries changes its position by
  what the blocks take away from in front of it and put there.
-/
theorem position_of_places
    {id : Nat}
    (hId : ∀ block ∈ blocks, block.carries id = false)
    (h : blocks.foldlM place start = .ok final) :
    final.stream.position id
        + carriedBefore blocks start.stream id =
      start.stream.position id
        + carriedBefore blocks final.stream id := by
  have hKind : ∀ entry : Statement × Nat, entry.2 = id →
      blocks.any (·.carries entry.2) = false := by
    rintro entry rfl
    apply List.any_eq_false.mpr
    intro block hBlock
    rw [hId block hBlock]
    exact Bool.false_ne_true
  have hKept := filter_of_places
    (fun entry => !blocks.any (·.carries entry.2))
    (by
      intro entry block hBlock hCarries
      have hAny : blocks.any (·.carries entry.2) = true :=
        List.any_eq_true.mpr ⟨block, hBlock, hCarries⟩
      rw [hAny]
      rfl) h
  have hStart := Stream.position_eq_add start.stream hKind
  have hFinal := Stream.position_eq_add final.stream hKind
  rw [hKept] at hFinal
  unfold carriedBefore
  omega

end Placed

end MmixAsm

------------------------------------------------------------
-- Labels Of Moved Blocks
------------------------------------------------------------

namespace MmixAsm

/- The first moved block with a label binds it. -/
theorem findSome?_spliceUnder?
    {earlier later : List Block}
    {block : Block}
    {label : String}
    {first last origin : Nat}
    (hPlan : block.plan = .ok (.move first last origin))
    (hLabel : block.label = some label)
    (hEarlier : ∀ other ∈ earlier, other.IsMoved →
      other.label ≠ some label)
    (count : Nat) :
    (earlier ++ block :: later).findSome?
        (Block.spliceUnder? count label) =
      some (min origin (count - (last + 1 - first))) := by
  have hNone : earlier.findSome?
      (Block.spliceUnder? count label) = none := by
    apply List.findSome?_eq_none_iff.mpr
    intro other hOther
    unfold Block.spliceUnder?
    by_cases hMoved : other.IsMoved
    · rw [if_neg (hEarlier other hOther hMoved)]
    · rw [Block.splice?_eq_none hMoved, ite_self]
  have hSome : block.spliceUnder? count label =
      some (min origin (count - (last + 1 - first))) := by
    rw [Block.spliceUnder?, if_pos hLabel, Block.splice?, hPlan]
  rw [List.findSome?_append, hNone, Option.none_or,
    List.findSome?_cons, hSome]

/- A USE line binds its label to where the block lands. -/
theorem get?_bindings_of_use
    {limit : Nat}
    {instructions : List Instruction}
    {items : List Item}
    {symbols : Symbols}
    {placed : Placed}
    {earlier later : List Block}
    {block : Block}
    {label : String}
    {first last origin : Nat}
    (hItems : pad limit instructions = .ok items)
    (hSymbols : Symbols.collect items = .ok symbols)
    (hPlaced : Placed.ofBlocks (statementsOf items)
      symbols.labels symbols.blocks = .ok placed)
    (hBlocks : symbols.blocks = earlier ++ block :: later)
    (hPlan : block.plan = .ok (.move first last origin))
    (hLabel : block.label = some label)
    (hDeclared : ∀ line, .control line ∈ instructions →
      line.declares label = false)
    (hEarlier : ∀ other ∈ earlier, other.IsMoved →
      other.label ≠ some label) :
    placed.bindings.get? label =
      some (toString (min origin ((statementsOf items).length
        - (last + 1 - first)))) := by
  rw [get?_bindings hItems hSymbols hPlaced, bindingOf,
    declaredFrom_eq_none hDeclared,
    ← Symbols.blocks_of_collect hSymbols, hBlocks,
    findSome?_spliceUnder? hPlan hLabel hEarlier]
  rfl

section Separated

variable {statements : List Statement}
variable {labels : LabelTable}
variable {earlier later : List Block}
variable {block : Block}
variable {spliced : Placed}
variable {first last origin : Nat}

/- A block begins at the place where it is spliced in. -/
theorem Placed.position_of_splice
    (hTable : Block.Separated statements.length
      (earlier ++ block :: later))
    (hPlan : block.plan = .ok (.move first last origin))
    (h : ofBlocks statements labels (earlier ++ [block]) =
      .ok spliced) :
    spliced.stream.position first =
      min origin (statements.length - (last + 1 - first)) := by
  have hSpans := Block.spans_of_plan hPlan
  have hBlock : block ∈ earlier ++ block :: later := by simp
  rcases hTable.le_of_spans hBlock hSpans with
    ⟨hOrder, hBound⟩
  rcases exists_of_places_append h with
    ⟨state, hEarlier, hLast⟩
  rw [List.foldlM_cons] at hLast
  rcases exists_of_bind_eq_ok hLast with ⟨next, hPlace, hNext⟩
  cases hNext
  have hIds := Stream.inside_ofStatements hOrder hBound
  rw [← inside_of_ofBlocks hTable hBlock hSpans (by simp)
    hEarlier] at hIds
  rw [stream_of_place hPlan hPlace,
    Stream.position_move hOrder hIds,
    Stream.landing_of_perm (perm_of_places hEarlier) hOrder
      hBound]

/- Blocks that are placed later do not carry this one. -/
theorem Block.Separated.not_carries_later
    (hTable : Separated statements.length
      (earlier ++ block :: later))
    (hPlan : block.plan = .ok (.move first last origin))
    {other : Block}
    (hOther : other ∈ later) :
    other.carries first = false := by
  have hSpans := spans_of_plan hPlan
  have hBlock : block ∈ earlier ++ block :: later := by simp
  have hOrder := (hTable.le_of_spans hBlock hSpans).1
  have hNe : other ≠ block := by
    rintro rfl
    exact hTable.not_mem_later hSpans hOther
  have hApart := hTable.apartFrom_of_ne hBlock hSpans
    (by simp [hOther]) hNe
  unfold carries
  split
  · next first' last' origin' hOtherPlan =>
      have hOtherSpans := spans_of_plan hOtherPlan
      have hRanges := hApart first' hOtherSpans.1 last'
        hOtherSpans.2
      unfold Stream.Apart at hRanges
      simp only [Bool.and_eq_false_iff, decide_eq_false_iff_not]
      omega
  · rfl

end Separated

/-
  The label of a USE line is bound to where the block begins
  when it is spliced in.  This is where the block begins in
  the program if and only if, of the statements that move
  later, as many stand in front of the block when it is
  spliced in as in the program.
-/
theorem layOut_use_label_iff
    {limit : Nat}
    {instructions : List Instruction}
    {program : List Statement}
    {items : List Item}
    {symbols : Symbols}
    {earlier later : List Block}
    {block : Block}
    {label : String}
    {first last origin : Nat}
    (hProgram : layOut limit instructions = .ok program)
    (hItems : pad limit instructions = .ok items)
    (hSymbols : Symbols.collect items = .ok symbols)
    (hDisjoint : symbols.blocks.Pairwise Block.Disjoint)
    (hBlocks : symbols.blocks = earlier ++ block :: later)
    (hPlan : block.plan = .ok (.move first last origin))
    (hLabel : block.label = some label)
    (hDeclared : ∀ line, .control line ∈ instructions →
      line.declares label = false)
    (hEarlier : ∀ other ∈ earlier, other.IsMoved →
      other.label ≠ some label) :
    ∃ spliced placed,
      Placed.ofBlocks (statementsOf items) symbols.labels
          (earlier ++ [block]) = .ok spliced ∧
        later.foldlM Placed.place spliced = .ok placed ∧
        program = placed.resolve ∧
        (placed.stream[placed.stream.position first]?).map
          (·.2) = some first ∧
        spliced.stream.position first =
          min origin ((statementsOf items).length
            - (last + 1 - first)) ∧
        placed.bindings.get? label =
          some (toString (spliced.stream.position first)) ∧
        placed.stream.position first
            + carriedBefore later spliced.stream first =
          spliced.stream.position first
            + carriedBefore later placed.stream first ∧
        (placed.bindings.get? label =
            some (toString (placed.stream.position first)) ↔
          carriedBefore later spliced.stream first =
            carriedBefore later placed.stream first) := by
  rcases layOut_cases hProgram with
    ⟨items', symbols', placed, hItems', hSymbols', hPlaced,
      hResolve⟩
  cases hItems.symm.trans hItems'
  cases hSymbols.symm.trans hSymbols'
  have hTable : Block.Separated (statementsOf items).length
      (earlier ++ block :: later) := by
    rw [← hBlocks]
    exact ⟨Symbols.bounded_of_collect hSymbols, hDisjoint⟩
  have hSpans := Block.spans_of_plan hPlan
  have hBlock : block ∈ earlier ++ block :: later := by simp
  rcases hTable.le_of_spans hBlock hSpans with
    ⟨hOrder, hBound⟩
  have hBinding := get?_bindings_of_use hItems hSymbols hPlaced
    hBlocks hPlan hLabel hDeclared hEarlier
  -- The rest of the blocks is placed afterwards.
  have hSplit : earlier ++ block :: later =
      (earlier ++ [block]) ++ later := by simp
  rw [hBlocks, hSplit] at hPlaced
  rcases Placed.exists_of_places_append hPlaced with
    ⟨spliced, hSpliced, hLater⟩
  have hPosition :=
    Placed.position_of_splice hTable hPlan hSpliced
  have hCarried := Placed.position_of_places
    (fun other hOther => hTable.not_carries_later hPlan hOther)
    hLater
  have hMem : first ∈ placed.stream.map (·.2) := by
    have hPerm :=
      (Placed.perm_of_places hPlaced).map (·.2)
    rw [hPerm.mem_iff, Stream.ofStatements,
      List.zipIdx_map_snd, List.mem_range'_1]
    omega
  refine ⟨spliced, placed, hSpliced, hLater, hResolve,
    Stream.getElem?_position hMem, hPosition, ?_, hCarried, ?_⟩
  · rw [hBinding, hPosition]
  · rw [hBinding, ← hPosition]
    constructor
    · intro hSame
      -- The digits of a number can be read back.
      have hDigits := congrArg (Nat.ofDigitChars 10 · 0)
        (String.ofList_injective (Option.some.inj hSame))
      simp only [Nat.ofDigitChars_ten_toDigits] at hDigits
      omega
    · intro hSame
      have hPositions : spliced.stream.position first =
          placed.stream.position first := by
        omega
      rw [hPositions]

/-
  The block `b` moves later than `a`, from one place in front
  of it to another.
-/
def balancedProgram : List Instruction := [
  .control ⟨none, .block, ["a"]⟩,
  .op ⟨none, "SETL", ["$1", "1"]⟩,
  .control ⟨none, .endBlock, ["a"]⟩,
  .op ⟨none, "JMP", ["here"]⟩,
  .control ⟨none, .place, ["b"]⟩,
  .op ⟨none, "SETL", ["$2", "0"]⟩,
  .op ⟨none, "SETL", ["$3", "0"]⟩,
  .control ⟨none, .block, ["b"]⟩,
  .op ⟨none, "SETL", ["$4", "0"]⟩,
  .control ⟨none, .endBlock, ["b"]⟩,
  .control ⟨some "here", .place, ["a"]⟩]

theorem balancedProgram_use_label :
    ∃ items symbols earlier block later spliced placed,
      pad 0 balancedProgram = .ok items ∧
        Symbols.collect items = .ok symbols ∧
        symbols.blocks.Pairwise Block.Disjoint ∧
        symbols.blocks = earlier ++ block :: later ∧
        block.plan = .ok (.move 0 0 5) ∧
        block.label = some "here" ∧
        Placed.ofBlocks (statementsOf items) symbols.labels
          (earlier ++ [block]) = .ok spliced ∧
        later.foldlM Placed.place spliced = .ok placed ∧
        layOut 0 balancedProgram = .ok placed.resolve ∧
        carriedBefore later spliced.stream 0 = 1 ∧
        carriedBefore later placed.stream 0 = 1 ∧
        placed.bindings.get? "here" =
          some (toString (placed.stream.position 0)) := by
  let items := (pad 0 balancedProgram).toOption.getD []
  let symbols :=
    (Symbols.collect items).toOption.getD .empty
  let program :=
    (layOut 0 balancedProgram).toOption.getD []
  let block : Block :=
    ⟨"a", some "here", some 5, some 0, some 0⟩
  let other : Block := ⟨"b", none, some 2, some 4, some 4⟩
  have hItems : pad 0 balancedProgram = .ok items := by
    decide +kernel
  have hSymbols : Symbols.collect items = .ok symbols := by
    decide +kernel
  have hProgram : layOut 0 balancedProgram = .ok program := by
    decide +kernel
  have hDisjoint :
      symbols.blocks.Pairwise Block.Disjoint := by
    decide +kernel
  have hBlocks : symbols.blocks = [] ++ block :: [other] := by
    decide +kernel
  have hSilent : ∀ instruction ∈ balancedProgram,
      ∀ line ∈ instruction.directive?,
        line.declares "here" = false := by
    decide +kernel
  let middle : Placed := ⟨[
    (.op ⟨none, "JMP", ["here"]⟩, 1),
    (.op ⟨none, "SETL", ["$2", "0"]⟩, 2),
    (.op ⟨none, "SETL", ["$3", "0"]⟩, 3),
    (.op ⟨none, "SETL", ["$4", "0"]⟩, 4),
    (.op ⟨none, "SETL", ["$1", "1"]⟩, 0)],
    ⟨[("here", toString 4)]⟩⟩
  let final : Placed := ⟨[
    (.op ⟨none, "JMP", ["here"]⟩, 1),
    (.op ⟨none, "SETL", ["$2", "0"]⟩, 2),
    (.op ⟨none, "SETL", ["$4", "0"]⟩, 4),
    (.op ⟨none, "SETL", ["$3", "0"]⟩, 3),
    (.op ⟨none, "SETL", ["$1", "1"]⟩, 0)],
    ⟨[("here", toString 4)]⟩⟩
  have hMiddle : Placed.ofBlocks (statementsOf items)
      symbols.labels ([] ++ [block]) = .ok middle := by
    rfl
  have hFinal : [other].foldlM Placed.place middle =
      .ok final := by
    rfl
  rcases layOut_use_label_iff hProgram hItems hSymbols
    hDisjoint hBlocks rfl rfl
    (fun line hLine => hSilent _ hLine line rfl)
    (fun other hOther => by cases hOther) with
    ⟨spliced, placed, hSpliced, hPlaced, hResolve, _, _, _, _,
      hIff⟩
  rw [hResolve] at hProgram
  obtain rfl : spliced = middle :=
    Except.ok.inj (hSpliced.symm.trans hMiddle)
  obtain rfl : placed = final :=
    Except.ok.inj (hPlaced.symm.trans hFinal)
  have hMiddleCount :
      carriedBefore [other] middle.stream 0 = 1 := by
    decide +kernel
  have hFinalCount :
      carriedBefore [other] final.stream 0 = 1 := by
    decide +kernel
  exact ⟨items, symbols, [], block, [other], middle, final,
    hItems, hSymbols, hDisjoint, hBlocks, rfl, rfl, hMiddle,
    hFinal, hProgram, hMiddleCount, hFinalCount,
    hIff.mpr (hMiddleCount.trans hFinalCount.symm)⟩

/-
  The block `a` is spliced in behind three statements, and
  then the block `b` lands in front of it.
-/
def shiftedProgram : List Instruction := [
  .control ⟨none, .block, ["a"]⟩,
  .op ⟨none, "SETL", ["$1", "1"]⟩,
  .control ⟨none, .endBlock, ["a"]⟩,
  .control ⟨none, .place, ["b"]⟩,
  .op ⟨none, "SETL", ["$2", "0"]⟩,
  .op ⟨none, "JMP", ["here"]⟩,
  .control ⟨some "here", .place, ["a"]⟩,
  .op ⟨none, "SETL", ["$3", "0"]⟩,
  .control ⟨none, .block, ["b"]⟩,
  .op ⟨none, "SETL", ["$4", "0"]⟩,
  .control ⟨none, .endBlock, ["b"]⟩]

/- The label of a USE line may name another statement. -/
theorem shiftedProgram_leaves_label :
    ∃ items symbols block placed,
      pad 0 shiftedProgram = .ok items ∧
        Symbols.collect items = .ok symbols ∧
        symbols.blocks.Pairwise Block.Disjoint ∧
        block ∈ symbols.blocks ∧
        block.plan = .ok (.move 0 0 3) ∧
        block.label = some "here" ∧
        (∀ instruction ∈ shiftedProgram,
          ∀ line ∈ instruction.directive?,
            line.declares "here" = false) ∧
        (∀ other ∈ symbols.blocks, other ≠ block →
          other.label ≠ some "here") ∧
        Placed.ofBlocks (statementsOf items) symbols.labels
          symbols.blocks = .ok placed ∧
        layOut 0 shiftedProgram = .ok placed.resolve ∧
        placed.stream.map (·.2) = [1, 4, 2, 3, 0] ∧
        placed.stream.position 0 = 4 ∧
        placed.bindings.get? "here" = some "3" := by
  let items := (pad 0 shiftedProgram).toOption.getD []
  let symbols :=
    (Symbols.collect items).toOption.getD .empty
  let block : Block :=
    ⟨"a", some "here", some 3, some 0, some 0⟩
  let placed : Placed := ⟨[
    (.op ⟨none, "SETL", ["$2", "0"]⟩, 1),
    (.op ⟨none, "SETL", ["$4", "0"]⟩, 4),
    (.op ⟨none, "JMP", ["here"]⟩, 2),
    (.op ⟨none, "SETL", ["$3", "0"]⟩, 3),
    (.op ⟨none, "SETL", ["$1", "1"]⟩, 0)],
    ⟨[("here", toString 3)]⟩⟩
  exact ⟨items, symbols, block, placed, by decide +kernel,
    by decide +kernel, by decide +kernel, by decide +kernel,
    rfl, rfl, by decide +kernel, by decide +kernel, by rfl,
    by decide +kernel, rfl, rfl, by decide +kernel⟩

end MmixAsm
