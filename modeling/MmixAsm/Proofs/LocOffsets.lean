import MmixAsm.Proofs.StatementOrder
import MmixAsm.Proofs.UseLabels

/-
  Where the statement behind a LOC line stands.

  A LOC line is padded before blocks are moved, and in the
  padded program the next statement stands at the offset that
  LOC asks for.  Blocks that are moved afterwards may take
  statements away from in front of it, or put statements there,
  and the placeholders stay as they are.  The statement keeps
  the offset exactly when these balance.

  Key definitions include:
    * `MmixAsm.Instruction.isPlaceless`

  Key theorems include:
    * `MmixAsm.getElem?_statementsOf_pad`
    * `MmixAsm.foldl_positionBehind_of_loc`
    * `MmixAsm.Stream.position_ofStatements`
    * `MmixAsm.Placed.getElem?_resolve`
    * `MmixAsm.layOut_loc_offset_iff`
-/

------------------------------------------------------------
-- Offsets In A Padded Program
------------------------------------------------------------

namespace MmixAsm

/- The items of a statement begin with it. -/
theorem items_of_padFrom_statement
    {limit position : Nat}
    {instruction : Instruction}
    {statement : Statement}
    {rest : List Instruction}
    {items : List Item}
    (hStatement : instruction.statement? = some statement)
    (h : padFrom limit position (instruction :: rest) =
      .ok items) :
    ∃ others, items = .statement statement :: others := by
  cases instruction with
  | op line =>
      cases hStatement
      rcases exists_of_map_eq_ok h with ⟨others, _, rfl⟩
      exact ⟨others, rfl⟩
  | alloc line =>
      cases hStatement
      rcases exists_of_map_eq_ok h with ⟨others, _, rfl⟩
      exact ⟨others, rfl⟩
  | control line => cases hStatement
  | macroLine line => cases hStatement
  | macroTemplate line body => cases hStatement

/- In the padded program a statement is at its position. -/
theorem getElem?_statementsOf_pad
    {limit : Nat}
    {front back : List Instruction}
    {instruction : Instruction}
    {statement : Statement}
    {items : List Item}
    (hStatement : instruction.statement? = some statement)
    (h : pad limit (front ++ instruction :: back) =
      .ok items) :
    (statementsOf items)[
      front.foldl Instruction.positionBehind 0]? =
        some statement := by
  rcases exists_of_padFrom_append h with
    ⟨left, right, hLeft, hRight, rfl⟩
  rcases items_of_padFrom_statement hStatement hRight with
    ⟨others, rfl⟩
  have hPosition := position_of_padFrom hLeft
  rw [Nat.zero_add] at hPosition
  rw [← hPosition]
  unfold statementsOf
  rw [List.filterMap_append, List.getElem?_append_right
    (Nat.le_refl _), Nat.sub_self]
  rfl

/- Whether an instruction is neither a statement nor a LOC. -/
def Instruction.isPlaceless :
    Instruction → Bool
| .op _ => false
| .alloc _ => false
| .control line => line.keyword ≠ .loc
| _ => true

/- Such instructions leave the position alone. -/
theorem foldl_positionBehind_of_isPlaceless
    {middle : List Instruction}
    (hMiddle : ∀ other ∈ middle, other.isPlaceless = true)
    (position : Nat) :
    middle.foldl Instruction.positionBehind position =
      position := by
  induction middle with
  | nil => rfl
  | cons other rest ih =>
      rcases List.forall_mem_cons.mp hMiddle with
        ⟨hOther, hRest⟩
      have hPosition : other.positionBehind position =
          position := by
        cases other with
        | op line => cases hOther
        | alloc line => cases hOther
        | control line => exact if_neg (of_decide_eq_true hOther)
        | macroLine line => rfl
        | macroTemplate line body => rfl
      rw [List.foldl_cons, hPosition, ih hRest]

/- A LOC that is not reached yet sets the next position. -/
theorem foldl_positionBehind_of_loc
    {front middle : List Instruction}
    {line : Line Directive}
    (hLoc : line.keyword = .loc)
    (hOffset : front.foldl Instruction.positionBehind 0 <
      line.locOffset)
    (hMiddle : ∀ other ∈ middle, other.isPlaceless = true) :
    (front ++ .control line :: middle).foldl
        Instruction.positionBehind 0 =
      line.locOffset := by
  rw [List.foldl_append, List.foldl_cons,
    foldl_positionBehind_of_isPlaceless hMiddle,
    Instruction.positionBehind, if_pos hLoc]
  exact Nat.max_eq_right (Nat.le_of_lt hOffset)

end MmixAsm

------------------------------------------------------------
-- Statements By Identity
------------------------------------------------------------

namespace MmixAsm

/- At first a statement stands where its identity says. -/
theorem Stream.position_ofStatements
    {statements : List Statement}
    {statement : Statement}
    {id : Nat}
    (h : statements[id]? = some statement) :
    (ofStatements statements).position id = id := by
  rcases List.getElem?_eq_some_iff.mp h with ⟨hId, _⟩
  have hFront : (statements.take id).length = id := by
    rw [List.length_take]
    omega
  have hSplit : ofStatements statements =
      (statements.take id).zipIdx
        ++ (statements[id], id)
          :: (statements.drop (id + 1)).zipIdx (id + 1) := by
    conv_lhs =>
      rw [ofStatements, ← List.take_append_drop id statements,
        List.zipIdx_append, hFront, Nat.zero_add,
        List.drop_eq_getElem_cons hId, List.zipIdx_cons]
  unfold position
  rw [hSplit, before_append rfl]
  · rw [List.length_zipIdx, hFront]
  · intro other hOther hSame
    have hBound := List.snd_lt_of_mem_zipIdx hOther
    omega

/-
  Wherever blocks put a statement, the program has it there
  with its labels replaced.
-/
theorem Placed.getElem?_resolve
    {statements : List Statement}
    {statement : Statement}
    {labels : LabelTable}
    {blocks : List Block}
    {placed : Placed}
    {id : Nat}
    (hPlaced : ofBlocks statements labels blocks = .ok placed)
    (hStatement : statements[id]? = some statement) :
    placed.resolve[placed.stream.position id]? =
      some (statement.mapParameters
        placed.bindings.resolve) := by
  have hPerm := perm_of_places hPlaced
  have hEntry : (statement, id) ∈ placed.stream :=
    hPerm.mem_iff.mpr
      (List.mem_zipIdx_iff_getElem?.mpr hStatement)
  have hFound := Stream.getElem?_position
    (List.mem_map_of_mem (f := (·.2)) hEntry)
  rcases Option.map_eq_some_iff.mp hFound with
    ⟨⟨found, id'⟩, hGet, rfl⟩
  have hStart := hPerm.mem_iff.mp (List.mem_of_getElem? hGet)
  cases hStatement.symm.trans
    (List.mem_zipIdx_iff_getElem?.mp hStart)
  change (placed.stream.statements.map
    (Statement.mapParameters placed.bindings.resolve))[_]? = _
  rw [Stream.statements, List.getElem?_map, List.getElem?_map,
    hGet]
  rfl

end MmixAsm

------------------------------------------------------------
-- Offsets In The Program
------------------------------------------------------------

namespace MmixAsm

/-
  In the padded program the statement behind a LOC that is not
  reached yet stands at the offset of the LOC.  If no block
  carries it, it stands there in the program as well if and
  only if, of the statements that move, as many stand in front
  of it in the program as before any block is moved.
-/
theorem layOut_loc_offset_iff
    {limit : Nat}
    {front middle back : List Instruction}
    {line : Line Directive}
    {instruction : Instruction}
    {statement : Statement}
    {program : List Statement}
    {items : List Item}
    {symbols : Symbols}
    (hProgram : layOut limit
      (front ++ .control line :: middle
        ++ instruction :: back) = .ok program)
    (hItems : pad limit
      (front ++ .control line :: middle
        ++ instruction :: back) = .ok items)
    (hSymbols : Symbols.collect items = .ok symbols)
    (hLoc : line.keyword = .loc)
    (hOffset : front.foldl Instruction.positionBehind 0 <
      line.locOffset)
    (hMiddle : ∀ other ∈ middle, other.isPlaceless = true)
    (hStatement : instruction.statement? = some statement)
    (hOutside : ∀ block ∈ symbols.blocks,
      block.carries line.locOffset = false) :
    ∃ placed,
      Placed.ofBlocks (statementsOf items) symbols.labels
          symbols.blocks = .ok placed ∧
        program = placed.resolve ∧
        (statementsOf items)[line.locOffset]? =
          some statement ∧
        program[placed.stream.position line.locOffset]? =
          some (statement.mapParameters
            placed.bindings.resolve) ∧
        placed.stream.position line.locOffset
            + carriedBefore symbols.blocks
              (Stream.ofStatements (statementsOf items))
              line.locOffset =
          line.locOffset
            + carriedBefore symbols.blocks placed.stream
              line.locOffset ∧
        (placed.stream.position line.locOffset =
            line.locOffset ↔
          carriedBefore symbols.blocks
              (Stream.ofStatements (statementsOf items))
              line.locOffset =
            carriedBefore symbols.blocks placed.stream
              line.locOffset) := by
  rcases layOut_cases hProgram with
    ⟨items', symbols', placed, hItems', hSymbols', hPlaced,
      rfl⟩
  cases hItems.symm.trans hItems'
  cases hSymbols.symm.trans hSymbols'
  have hPadded := getElem?_statementsOf_pad hStatement hItems
  rw [foldl_positionBehind_of_loc hLoc hOffset hMiddle]
    at hPadded
  have hMoved := Placed.position_of_places hOutside hPlaced
  simp only [Stream.position_ofStatements hPadded] at hMoved
  refine ⟨placed, hPlaced, rfl, hPadded,
    Placed.getElem?_resolve hPlaced hPadded, hMoved, ?_⟩
  omega

/-
  The block `a` moves away from in front of the statement that
  LOC puts at 4, and the block `b` moves there.
-/
def balancedPadding : List Instruction := [
  .control ⟨none, .block, ["a"]⟩,
  .op ⟨none, "SETL", ["$1", "1"]⟩,
  .control ⟨none, .endBlock, ["a"]⟩,
  .control ⟨none, .place, ["b"]⟩,
  .control ⟨none, .loc, ["4"]⟩,
  .control ⟨some "there", .equate, ["4"]⟩,
  .op ⟨none, "JMP", ["there"]⟩,
  .control ⟨none, .place, ["a"]⟩,
  .control ⟨none, .block, ["b"]⟩,
  .alloc ⟨none, .byte, ["2"]⟩,
  .control ⟨none, .endBlock, ["b"]⟩]

theorem balancedPadding_keeps_offset :
    ∃ items symbols placed,
      (balancedPadding.take 4).foldl
          Instruction.positionBehind 0 = 1 ∧
        Line.locOffset ⟨none, .loc, ["4"]⟩ = 4 ∧
        pad 3 balancedPadding = .ok items ∧
        Symbols.collect items = .ok symbols ∧
        (∀ block ∈ symbols.blocks,
          block.carries 4 = false) ∧
        Placed.ofBlocks (statementsOf items) symbols.labels
          symbols.blocks = .ok placed ∧
        layOut 3 balancedPadding = .ok placed.resolve ∧
        placed.stream.map (·.2) = [1, 5, 2, 3, 4, 0] ∧
        placed.resolve[4]? =
          some (Statement.mapParameters placed.bindings.resolve
            (.op ⟨none, "JMP", ["there"]⟩)) := by
  let items := (pad 3 balancedPadding).toOption.getD []
  let symbols :=
    (Symbols.collect items).toOption.getD .empty
  let program :=
    (layOut 3 balancedPadding).toOption.getD []
  let line : Line Directive := ⟨none, .loc, ["4"]⟩
  have hItems : pad 3 balancedPadding = .ok items := by
    decide +kernel
  have hSymbols : Symbols.collect items = .ok symbols := by
    decide +kernel
  have hProgram : layOut 3 balancedPadding = .ok program := by
    decide +kernel
  have hOffset : (balancedPadding.take 4).foldl
      Instruction.positionBehind 0 < line.locOffset := by
    decide +kernel
  have hOutside : ∀ block ∈ symbols.blocks,
      block.carries line.locOffset = false := by
    decide +kernel
  have hMiddle : ∀ other ∈
      [Instruction.control ⟨some "there", .equate, ["4"]⟩],
      other.isPlaceless = true := by
    decide
  rcases layOut_loc_offset_iff hProgram hItems hSymbols rfl
    hOffset hMiddle rfl hOutside with
    ⟨placed, hPlaced, hResolve, _, hGet, _, hIff⟩
  have hStart : carriedBefore symbols.blocks
      (Stream.ofStatements (statementsOf items)) 4 = 1 := by
    decide +kernel
  have hFinal : (Placed.ofBlocks (statementsOf items)
      symbols.labels symbols.blocks).toOption.map
        (fun final => (final.stream.map (·.2),
          carriedBefore symbols.blocks final.stream 4)) =
      some ([1, 5, 2, 3, 4, 0], 1) := by
    decide +kernel
  rw [hPlaced] at hFinal
  rcases Prod.mk.inj (Option.some.inj hFinal) with
    ⟨hIds, hCount⟩
  have hKeeps := hIff.mpr (hStart.trans hCount.symm)
  rw [hKeeps, hResolve] at hGet
  rw [hResolve] at hProgram
  exact ⟨items, symbols, placed, by decide +kernel,
    by decide +kernel, hItems, hSymbols, hOutside, hPlaced,
    hProgram, hIds, hGet⟩

/-
  LOC puts SETL at 2, behind the block `b` and a placeholder.
  Then `b` moves away.
-/
def vacatedPadding : List Instruction := [
  .control ⟨none, .block, ["b"]⟩,
  .op ⟨none, "SWYM", []⟩,
  .control ⟨none, .endBlock, ["b"]⟩,
  .control ⟨none, .loc, ["2"]⟩,
  .op ⟨none, "SETL", ["$1", "1"]⟩,
  .control ⟨none, .place, ["b"]⟩]

/- The statement behind a LOC may stand before its offset. -/
theorem vacatedPadding_leaves_offset :
    ∃ items symbols placed,
      (vacatedPadding.take 3).foldl
          Instruction.positionBehind 0 = 1 ∧
        Line.locOffset ⟨none, .loc, ["2"]⟩ = 2 ∧
        pad 1 vacatedPadding = .ok items ∧
        (statementsOf items)[2]? =
          some (.op ⟨none, "SETL", ["$1", "1"]⟩) ∧
        Symbols.collect items = .ok symbols ∧
        (∀ block ∈ symbols.blocks,
          block.carries 2 = false) ∧
        Placed.ofBlocks (statementsOf items) symbols.labels
          symbols.blocks = .ok placed ∧
        layOut 1 vacatedPadding = .ok placed.resolve ∧
        placed.resolve = [.padding,
          .op ⟨none, "SETL", ["$1", "1"]⟩,
          .op ⟨none, "SWYM", []⟩] ∧
        placed.stream.position 2 = 1 := by
  let items := (pad 1 vacatedPadding).toOption.getD []
  let symbols :=
    (Symbols.collect items).toOption.getD .empty
  let placed : Placed := ⟨[
    (.padding, 1),
    (.op ⟨none, "SETL", ["$1", "1"]⟩, 2),
    (.op ⟨none, "SWYM", []⟩, 0)], ⟨[]⟩⟩
  exact ⟨items, symbols, placed, by decide +kernel,
    by decide +kernel, by decide +kernel, by decide +kernel,
    by decide +kernel, by decide +kernel, by rfl,
    by decide +kernel, by decide +kernel, rfl⟩

end MmixAsm
