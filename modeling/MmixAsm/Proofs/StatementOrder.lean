import MmixAsm.Proofs.UseLabels

/-
  What becomes of the statements of a program.

  A layout neither loses nor duplicates a statement: it holds
  the operations and allocations of the program and the
  placeholders of its LOC lines.  A move exchanges only what
  it moves with what it does not move.  So two statements
  keep their order if they move with the same blocks, and
  blocks may overlap, be nested or be opened again.

  Key definitions include:
    * `MmixAsm.Instruction.statement?`
    * `MmixAsm.locPadding`
    * `MmixAsm.movesAlike`

  Key theorems include:
    * `MmixAsm.statementsOf_perm`
    * `MmixAsm.Stream.filter_move_inside`
    * `MmixAsm.Placed.filter_movesAlike_of_places`
    * `MmixAsm.layOut_permutes_statements`
-/

------------------------------------------------------------
-- Statements Of A Program
------------------------------------------------------------

namespace MmixAsm

/- The statement that an instruction is. -/
def Instruction.statement? :
    Instruction → Option Statement
| .op line => some (.op line)
| .alloc line => some (.alloc line)
| _ => none

/-
  The number of placeholders that the LOC lines of a program
  need: the positions that no other statement takes.
-/
def locPadding (instructions : List Instruction) : Nat :=
  instructions.foldl Instruction.positionBehind 0
    - (instructions.filterMap Instruction.statement?).length

variable {limit : Nat}
variable {instructions : List Instruction}
variable {items : List Item}

/- Without placeholders the statements are those given. -/
theorem filter_statementsOf
    (h : pad limit instructions = .ok items) :
    (statementsOf items).filter (· ≠ .padding) =
      instructions.filterMap Instruction.statement? := by
  have hItems := congrArg (List.filterMap Item.statement?)
    (items_of_padFrom h)
  rw [List.filterMap_filter, List.filterMap_filterMap]
    at hItems
  unfold statementsOf
  rw [List.filter_filterMap]
  refine Eq.trans ?_ (hItems.trans ?_)
  · apply List.filterMap_congr
    intro item _
    cases item with
    | statement content =>
        by_cases hContent : content = .padding
        · simp [Item.statement?, Option.filter, hContent]
        · simp [Item.statement?, Option.filter, hContent]
    | control line => simp [Item.statement?]
  · apply List.filterMap_congr
    intro instruction _
    cases instruction with
    | op line => rfl
    | alloc line => rfl
    | control line =>
        by_cases hLoc : line.keyword = .loc
        · simp [Instruction.item?, Instruction.statement?,
            hLoc]
        · simp [Instruction.item?, Instruction.statement?,
            Item.statement?, hLoc]
    | macroLine line => rfl
    | macroTemplate line body => rfl

/- All other statements are placeholders of LOC lines. -/
theorem count_padding_statementsOf
    (h : pad limit instructions = .ok items) :
    (statementsOf items).count .padding =
      locPadding instructions := by
  have hLength := position_of_padFrom h
  have hParts := (List.filter_append_perm
    (fun statement => decide (statement ≠ .padding))
    (statementsOf items)).length_eq
  rw [List.length_append, filter_statementsOf h] at hParts
  have hCount : (statementsOf items).count .padding =
      ((statementsOf items).filter fun statement =>
        !decide (statement ≠ .padding)).length := by
    rw [List.count_eq_length_filter]
    congr 2
    funext statement
    by_cases hPadding : statement = .padding
    · simp [hPadding]
    · simp [hPadding]
  unfold locPadding
  omega

/-
  The statements are the operations and allocations of the
  program and the placeholders of its LOC lines.
-/
theorem statementsOf_perm
    (h : pad limit instructions = .ok items) :
    (statementsOf items).Perm
      (instructions.filterMap Instruction.statement?
        ++ List.replicate (locPadding instructions)
          .padding) := by
  have hPlaceholders :
      ((statementsOf items).filter fun statement =>
          !decide (statement ≠ .padding)) =
        List.replicate (locPadding instructions) .padding := by
    rw [← count_padding_statementsOf h, ← List.filter_eq]
    congr 1
    funext statement
    simp
  rw [← filter_statementsOf h, ← hPlaceholders]
  exact (List.filter_append_perm _ _).symm

end MmixAsm

------------------------------------------------------------
-- Statements That Move Alike
------------------------------------------------------------

namespace MmixAsm

namespace Stream

/- A move keeps the order inside the range that it moves. -/
theorem filter_move_inside
    {stream : Stream}
    {keep : Statement × Nat → Bool}
    {first last : Nat}
    (hKeep : ∀ entry, keep entry = true →
      inRange first last entry = true)
    (origin : Nat) :
    (stream.move first last origin).filter keep =
      stream.filter keep := by
  have hInside : ∀ entries : Stream,
      entries.filter keep =
        (entries.inside first last).filter keep := by
    intro entries
    unfold inside
    rw [List.filter_filter]
    apply List.filter_congr
    intro entry _
    cases hEntry : keep entry with
    | false => rfl
    | true => simp [hKeep entry hEntry]
  rw [hInside, inside_move_self, ← hInside]

end Stream

/- Whether two statements move with the same blocks. -/
def movesAlike
    (blocks : List Block)
    (id other : Nat) : Bool :=
  blocks.all fun block => block.carries id == block.carries other

namespace Placed

variable {blocks : List Block}
variable {start final : Placed}

/- A move keeps the order of what it moves or leaves alike. -/
theorem filter_movesAlike_of_place
    {block : Block}
    {id : Nat}
    (hBlock : block ∈ blocks)
    (h : start.place block = .ok final) :
    final.stream.filter (fun e => movesAlike blocks e.2 id) =
      start.stream.filter (fun e => movesAlike blocks e.2 id) := by
  have hAlike : ∀ entry : Statement × Nat,
      movesAlike blocks entry.2 id = true →
        block.carries entry.2 = block.carries id := by
    intro entry hEntry
    exact eq_of_beq (List.all_eq_true.mp hEntry block hBlock)
  rcases eq_of_place h with
    ⟨_, rfl⟩ | ⟨first, last, origin, hPlan, rfl⟩
  · rfl
  · have hCarries : ∀ other : Statement × Nat,
        block.carries other.2 =
          Stream.inRange first last other := by
      intro other
      rw [Block.carries, hPlan]
      rfl
    -- The statements that move like the given one are all in
    -- the range or all outside it.
    cases hId : block.carries id with
    | true =>
        apply Stream.filter_move_inside
        intro entry hEntry
        rw [← hCarries, hAlike entry hEntry, hId]
    | false =>
        apply Stream.filter_move
        intro entry hEntry
        apply Bool.eq_false_iff.mpr
        intro hMoves
        rw [← hCarries, hAlike entry hMoves, hId] at hEntry
        cases hEntry

theorem filter_movesAlike_of_places
    (id : Nat)
    (h : blocks.foldlM place start = .ok final) :
    final.stream.filter (fun e => movesAlike blocks e.2 id) =
      start.stream.filter (fun e => movesAlike blocks e.2 id) :=
  invariant_of_foldlM_eq_ok
    (motive := fun state =>
      state.stream.filter (fun e => movesAlike blocks e.2 id) =
        start.stream.filter
          (fun e => movesAlike blocks e.2 id))
    rfl
    (fun _ _ _ hBlock hState hPlace =>
      (filter_movesAlike_of_place hBlock hPlace).trans hState)
    h

/- Statements that move alike keep their order. -/
theorem sublist_of_movesAlike
    {entry other : Statement × Nat}
    (hAlike : movesAlike blocks entry.2 other.2 = true)
    (hOrder : [entry, other].Sublist start.stream)
    (h : blocks.foldlM place start = .ok final) :
    [entry, other].Sublist final.stream := by
  have hSelf : movesAlike blocks other.2 other.2 = true := by
    simp [movesAlike]
  refine (Stream.sublist_iff_of_filter_eq
    (filter_movesAlike_of_places other.2 h) ?_).mpr hOrder
  simp [hAlike, hSelf]

end Placed

end MmixAsm

------------------------------------------------------------
-- Layouts
------------------------------------------------------------

namespace MmixAsm

/-
  An accepted program is laid out as its operations and
  allocations and the placeholders of its LOC lines, in a new
  order and with the bound labels replaced.  Two statements
  that move with the same blocks keep their order.
-/
theorem layOut_permutes_statements
    {limit : Nat}
    {instructions : List Instruction}
    {program : List Statement}
    (hProgram : layOut limit instructions = .ok program) :
    ∃ items symbols placed,
      pad limit instructions = .ok items ∧
        (statementsOf items).filter (· ≠ .padding) =
          instructions.filterMap Instruction.statement? ∧
        Symbols.collect items = .ok symbols ∧
        Placed.ofBlocks (statementsOf items) symbols.labels
          symbols.blocks = .ok placed ∧
        program = placed.stream.statements.map
          (Statement.mapParameters placed.bindings.resolve) ∧
        placed.stream.Perm
          (Stream.ofStatements (statementsOf items)) ∧
        program.Perm
          ((instructions.filterMap Instruction.statement?
              ++ List.replicate (locPadding instructions)
                Statement.padding).map
            (Statement.mapParameters
              placed.bindings.resolve)) ∧
        ∀ entry other : Statement × Nat,
          [entry, other].Sublist
              (Stream.ofStatements (statementsOf items)) →
            movesAlike symbols.blocks entry.2 other.2 = true →
              [entry, other].Sublist placed.stream := by
  rcases layOut_cases hProgram with
    ⟨items, symbols, placed, hItems, hSymbols, hPlaced, rfl⟩
  have hPerm := Placed.perm_of_places hPlaced
  have hStatements : placed.stream.statements.Perm
      (statementsOf items) := by
    have hFirst := hPerm.map (·.1)
    rwa [Stream.ofStatements, List.zipIdx_map_fst] at hFirst
  refine ⟨items, symbols, placed, hItems,
    filter_statementsOf hItems, hSymbols, hPlaced, rfl, hPerm,
    ?_, ?_⟩
  · exact (hStatements.trans (statementsOf_perm hItems)).map _
  · intro entry other hOrder hAlike
    exact Placed.sublist_of_movesAlike hAlike hOrder hPlaced

/-
  The blocks `a` and `b` share two statements, and `c` is
  opened twice.  A LOC asks for two placeholders.
-/
def tangledProgram : List Instruction := [
  .control ⟨none, .block, ["a"]⟩,
  .op ⟨none, "SETL", ["$0", "0"]⟩,
  .control ⟨none, .block, ["b"]⟩,
  .op ⟨some "here", "SETL", ["$1", "0"]⟩,
  .alloc ⟨none, .byte, ["here"]⟩,
  .control ⟨none, .endBlock, ["a"]⟩,
  .op ⟨none, "SETL", ["$3", "0"]⟩,
  .control ⟨none, .endBlock, ["b"]⟩,
  .control ⟨none, .loc, ["6"]⟩,
  .control ⟨none, .place, ["a"]⟩,
  .op ⟨none, "SETL", ["$6", "0"]⟩,
  .control ⟨none, .place, ["b"]⟩,
  .control ⟨none, .block, ["c"]⟩,
  .op ⟨none, "SETL", ["$7", "0"]⟩,
  .control ⟨none, .endBlock, ["c"]⟩,
  .control ⟨none, .block, ["c"]⟩,
  .op ⟨none, "SETL", ["$8", "0"]⟩,
  .control ⟨none, .endBlock, ["c"]⟩,
  .control ⟨none, .place, ["c"]⟩]

/-
  The shared statements `here` and BYTE keep their order.  The
  third statement of `b` is not shared and passes them.
-/
theorem tangledProgram_keeps_order :
    locPadding tangledProgram = 2 ∧
      ∃ items symbols placed,
        pad 2 tangledProgram = .ok items ∧
          Symbols.collect items = .ok symbols ∧
          Placed.ofBlocks (statementsOf items) symbols.labels
            symbols.blocks = .ok placed ∧
          layOut 2 tangledProgram = .ok placed.resolve ∧
          placed.stream.map (·.2) =
            [4, 5, 6, 7, 0, 3, 1, 2, 8] ∧
          movesAlike symbols.blocks 1 2 = true ∧
          [(.op ⟨some "here", "SETL", ["$1", "0"]⟩, 1),
              (.alloc ⟨none, .byte, ["here"]⟩, 2)].Sublist
            placed.stream := by
  let shown : List Item :=
    (pad 2 tangledProgram).toOption.getD []
  let declared : Symbols :=
    (Symbols.collect shown).toOption.getD .empty
  let program : List Statement :=
    (layOut 2 tangledProgram).toOption.getD []
  have hProgram : layOut 2 tangledProgram = .ok program := by
    decide +kernel
  have hShown : pad 2 tangledProgram = .ok shown := by
    decide +kernel
  have hDeclared : Symbols.collect shown = .ok declared := by
    decide +kernel
  rcases layOut_permutes_statements hProgram with
    ⟨items, symbols, placed, hItems, _, hSymbols, hPlaced,
      hResolve, _, _, hOrder⟩
  cases hShown.symm.trans hItems
  cases hDeclared.symm.trans hSymbols
  have hIds :
      (Placed.ofBlocks (statementsOf shown) declared.labels
          declared.blocks).toOption.map
        (·.stream.map (·.2)) =
          some [4, 5, 6, 7, 0, 3, 1, 2, 8] := by
    decide +kernel
  rw [hPlaced] at hIds
  have hAlike : movesAlike declared.blocks 1 2 = true := by
    decide +kernel
  refine ⟨by decide +kernel, shown, declared, placed, hShown,
    hDeclared, hPlaced, ?_, Option.some.inj hIds, hAlike, ?_⟩
  · rw [hProgram, hResolve]
    rfl
  · exact hOrder _ _ (by decide +kernel) hAlike

end MmixAsm
