import MmixAsm.Proofs.CountedPositions

/-
  What holds of every block table.

  Directives about blocks come in any order, and each of them
  fills in a part of an entry.  Whatever their order, the
  table lists every block once, in the order of first mention,
  and no entry points outside the statements.  Blocks that are
  not complete are found when blocks are placed, and the first
  of them is reported.

  Key definitions include:
    * `MmixAsm.Line.blockName?`
    * `MmixAsm.blockMentions`
    * `MmixAsm.Block.IsComplete`
    * `MmixAsm.Block.Lacks`

  Key theorems include:
    * `MmixAsm.Symbols.names_of_collect`
    * `MmixAsm.Symbols.origin_le_of_collect`
    * `MmixAsm.Placed.ofBlocks_eq_error_iff`
    * `MmixAsm.Symbols.blockTable_invariant`
-/

------------------------------------------------------------
-- Mentions
------------------------------------------------------------

namespace MmixAsm

/- The block that a BLOCK, ENDBLOCK or USE line is about. -/
def Line.blockName? (line : Line Directive) : Option String :=
  if line.keyword ∈ [.block, .endBlock, .place] then
    line.parameters.head?
  else
    none

/- All mentions of blocks, in the order of the lines. -/
def blockMentions (items : List Item) : List String :=
  (directivesOf items).filterMap Line.blockName?

theorem Marker.blockName?_eq (marker : Marker) :
    marker.blockName? = marker.line.blockName? := by
  unfold Marker.blockName? Line.blockName?
  cases marker.line.keyword with
  | block => rfl
  | endBlock => rfl
  | place => rfl
  | loc => rfl
  | greg => rfl
  | equate => rfl

/- Where a directive stands does not matter for its mention. -/
theorem filterMap_blockName?_ofItems
    (position : Nat)
    (items : List Item) :
    (Marker.ofItems position items).filterMap
        Marker.blockName? =
      blockMentions items := by
  induction items generalizing position with
  | nil => rfl
  | cons item rest ih =>
      cases item with
      | statement content => exact ih (position + 1)
      | control line =>
          have hLines : directivesOf (.control line :: rest) =
              line :: directivesOf rest := rfl
          rw [Marker.ofItems, blockMentions, hLines,
            List.filterMap_cons, List.filterMap_cons,
            Marker.blockName?_eq, ih]
          rfl

theorem mem_blockMentions
    {items : List Item}
    {line : Line Directive}
    {name : String}
    (hLine : .control line ∈ items)
    (hName : line.blockName? = some name) :
    name ∈ blockMentions items :=
  List.mem_filterMap.mpr
    ⟨line, List.mem_filterMap.mpr ⟨_, hLine, rfl⟩, hName⟩

namespace Symbols

variable {items : List Item}
variable {symbols : Symbols}

/- The table lists the first mentions. -/
theorem names_of_collect
    (h : collect items = .ok symbols) :
    symbols.blocks.map (·.name) =
      (blockMentions items).eraseDups := by
  rw [blocks_of_collect h, declaredBlocks, List.map_map,
    blockNames, filterMap_blockName?_ofItems]
  exact List.map_id _

/- No block is wanted behind the end of the statements. -/
theorem origin_le_of_collect
    (h : collect items = .ok symbols) :
    ∀ block ∈ symbols.blocks, ∀ origin ∈ block.origin,
      origin ≤ (statementsOf items).length := by
  intro block hBlock origin hOrigin
  rw [blocks_of_collect h, declaredBlocks] at hBlock
  rcases List.mem_map.mp hBlock with ⟨name, _, rfl⟩
  rcases Option.map_eq_some_iff.mp hOrigin with
    ⟨marker, hLast, rfl⟩
  rcases Marker.exists_split_of_mem
    (mem_of_lastMention? hLast).1 with
    ⟨left, right, rfl, hPosition⟩
  rw [hPosition, statementsOf_append, List.length_append]
  omega

end Symbols

end MmixAsm

------------------------------------------------------------
-- Incomplete Blocks
------------------------------------------------------------

namespace MmixAsm

namespace Block

/- A block with a beginning and an end. -/
def IsComplete (block : Block) : Prop :=
  ∃ first last, block.Spans first last

/- What is missing of a block, as it is reported. -/
inductive Lacks (block : Block) : LayoutError → Prop
  | start
      (h : block.start = none) :
      Lacks block (.undefinedBlock block.name)
  | last
      (hStart : block.start ≠ none)
      (h : block.last = none) :
      Lacks block (.unterminatedBlock block.name)

theorem not_isComplete_iff
    {block : Block} :
    ¬ block.IsComplete ↔
      block.start = none ∨ block.last = none := by
  unfold IsComplete Spans
  cases block.start with
  | none => simp
  | some first =>
      cases block.last with
      | none => simp
      | some last => simp

theorem not_isComplete_of_lacks
    {block : Block}
    {fault : LayoutError}
    (h : block.Lacks fault) :
    ¬ block.IsComplete := by
  rw [not_isComplete_iff]
  cases h with
  | start h => exact .inl h
  | last _ h => exact .inr h

/- Planning fails exactly for want of a part of the block. -/
theorem plan_eq_error_iff
    {block : Block}
    {fault : LayoutError} :
    block.plan = .error fault ↔ block.Lacks fault := by
  unfold plan
  constructor
  · intro h
    cases hStart : block.start with
    | none =>
        simp only [hStart] at h
        cases h
        exact .start hStart
    | some first =>
        cases hLast : block.last with
        | none =>
            simp only [hStart, hLast] at h
            cases h
            exact .last (by simp [hStart]) hLast
        | some last =>
            -- A complete block is placed or stays in place.
            simp only [hStart, hLast] at h
            cases hOrigin : block.origin with
            | none =>
                simp only [hOrigin] at h
                cases h
            | some origin =>
                simp only [hOrigin] at h
                split at h
                · cases h
                · cases h
  · intro h
    cases h with
    | start h => simp only [h]
    | last hStart h =>
        rcases Option.ne_none_iff_exists'.mp hStart with
          ⟨first, hFirst⟩
        simp only [hFirst, h]

end Block

namespace Placed

variable {start : Placed}
variable {blocks : List Block}

/- Blocks are placed if and only if all are complete. -/
theorem exists_places_iff :
    (∃ final, blocks.foldlM place start = .ok final) ↔
      ∀ block ∈ blocks, block.IsComplete := by
  constructor
  · rintro ⟨final, hFinal⟩ block hBlock
    exact exists_spans_of_places hBlock hFinal
  · intro hBlocks
    cases hFinal : blocks.foldlM place start with
    | ok final => exact ⟨final, rfl⟩
    | error fault =>
        rcases fails_of_foldlM_eq_error hFinal with
          ⟨state, block, hBlock, hFail⟩
        have hPlan := fails_of_map_eq_error hFail
        exact absurd (hBlocks block hBlock)
          (Block.not_isComplete_of_lacks
            (Block.plan_eq_error_iff.mp hPlan))

/- The first incomplete block is reported. -/
theorem ofBlocks_eq_error_iff
    {statements : List Statement}
    {labels : LabelTable}
    {fault : LayoutError} :
    ofBlocks statements labels blocks = .error fault ↔
      ∃ front block back,
        blocks = front ++ block :: back ∧
          (∀ other ∈ front, other.IsComplete) ∧
          block.Lacks fault := by
  unfold ofBlocks
  rw [foldlM_eq_error_iff]
  constructor
  · rintro ⟨front, block, back, state, hSplit, hFront, hFail⟩
    exact ⟨front, block, back, hSplit,
      exists_places_iff.mp ⟨state, hFront⟩,
      Block.plan_eq_error_iff.mp (fails_of_map_eq_error hFail)⟩
  · rintro ⟨front, block, back, hSplit, hFront, hLacks⟩
    rcases exists_places_iff.mpr hFront with ⟨state, hState⟩
    refine ⟨front, block, back, state, hSplit, hState, ?_⟩
    rw [place, Block.plan_eq_error_iff.mpr hLacks]
    rfl

theorem ofBlocks_fails_iff
    {statements : List Statement}
    {labels : LabelTable} :
    (∃ fault,
      ofBlocks statements labels blocks = .error fault) ↔
      ∃ block ∈ blocks,
        block.start = none ∨ block.last = none := by
  simp only [← Block.not_isComplete_iff]
  constructor
  · rintro ⟨fault, hFault⟩
    rcases ofBlocks_eq_error_iff.mp hFault with
      ⟨front, block, back, rfl, _, hLacks⟩
    exact ⟨block,
      List.mem_append_right _ List.mem_cons_self,
      Block.not_isComplete_of_lacks hLacks⟩
  · rintro ⟨block, hBlock, hNot⟩
    cases hFinal : ofBlocks statements labels blocks with
    | error fault => exact ⟨fault, rfl⟩
    | ok placed =>
        exact absurd
          (exists_places_iff.mp ⟨placed, hFinal⟩ block hBlock)
          hNot

end Placed

end MmixAsm

------------------------------------------------------------
-- Every Block Table
------------------------------------------------------------

namespace MmixAsm

namespace Symbols

/-
  The block table of any program.  Names are distinct and stand
  in the order of first mention.  A block with an end has a
  start that is not behind it, both are statements of the
  program, and no block is wanted behind the last statement.
  Placing the blocks fails if and only if one of them lacks its
  start or its end, and reports the first such block.  So if it
  succeeds, every block that a line mentions is complete.
-/
theorem blockTable_invariant
    {items : List Item}
    {symbols : Symbols}
    (h : collect items = .ok symbols) :
    (symbols.blocks.map (·.name)).Nodup ∧
    (∀ name,
      name ∈ symbols.blocks.map (·.name) ↔
        name ∈ blockMentions items) ∧
    (symbols.blocks.map (·.name)).Pairwise
      (fun name other =>
        (blockMentions items).idxOf name <
          (blockMentions items).idxOf other) ∧
    (∀ block ∈ symbols.blocks,
      (∀ last, block.last = some last →
        ∃ first, block.start = some first ∧
          first ≤ last ∧ last < (statementsOf items).length) ∧
      ∀ origin, block.origin = some origin →
        origin ≤ (statementsOf items).length) ∧
    ∀ statements labels,
      (∀ fault,
        Placed.ofBlocks statements labels symbols.blocks =
            .error fault ↔
          ∃ front block back,
            symbols.blocks = front ++ block :: back ∧
              (∀ other ∈ front, other.IsComplete) ∧
              block.Lacks fault) ∧
      ((∃ fault,
        Placed.ofBlocks statements labels symbols.blocks =
          .error fault) ↔
        ∃ block ∈ symbols.blocks,
          block.start = none ∨ block.last = none) ∧
      ∀ placed,
        Placed.ofBlocks statements labels symbols.blocks =
          .ok placed →
        ∀ line name,
          .control line ∈ items →
          line.blockName? = some name →
          ∃ block ∈ symbols.blocks, block.name = name ∧
            ∃ first last,
              block.Spans first last ∧ first ≤ last ∧
                last < (statementsOf items).length := by
  have hNames := names_of_collect h
  have hBounded := bounded_of_collect h
  rw [hNames]
  refine ⟨nodup_eraseDups _, fun name => List.mem_eraseDups,
    pairwise_idxOf_eraseDups _, ?_, ?_⟩
  · intro block hBlock
    exact ⟨hBounded block hBlock,
      origin_le_of_collect h block hBlock⟩
  · intro statements labels
    refine ⟨fun fault => Placed.ofBlocks_eq_error_iff,
      Placed.ofBlocks_fails_iff, ?_⟩
    intro placed hPlaced line name hLine hName
    have hMem : name ∈ symbols.blocks.map (·.name) := by
      rw [hNames, List.mem_eraseDups]
      exact mem_blockMentions hLine hName
    rcases List.mem_map.mp hMem with ⟨block, hBlock, rfl⟩
    rcases Placed.exists_spans_of_places hBlock hPlaced with
      ⟨first, last, hSpans⟩
    rcases hBounded block hBlock last hSpans.2 with
      ⟨first', hFirst, hOrder, hLast⟩
    cases hSpans.1.symm.trans hFirst
    exact ⟨block, hBlock, rfl, first, last, hSpans, hOrder,
      hLast⟩

/-
  The block `a` is wanted first, opened twice and closed
  behind `b`, which overlaps it and is closed twice.
-/
def overlappingItems : List Item := [
  .control ⟨some "here", .place, ["a"]⟩,
  .control ⟨none, .block, ["b"]⟩,
  .statement (.op ⟨none, "SWYM", []⟩),
  .control ⟨none, .block, ["a"]⟩,
  .statement .padding,
  .control ⟨none, .endBlock, ["b"]⟩,
  .control ⟨none, .block, ["a"]⟩,
  .statement (.alloc ⟨some "x", .byte, ["1"]⟩),
  .control ⟨none, .endBlock, ["b"]⟩,
  .control ⟨none, .endBlock, ["a"]⟩]

/- The same, but `a` is opened once more, and `c` is wanted. -/
def unfinishedItems : List Item :=
  overlappingItems ++ [
    .control ⟨none, .block, ["a"]⟩,
    .control ⟨none, .place, ["c"]⟩]

theorem overlappingItems_blockTable :
    (∃ symbols placed,
      collect overlappingItems = .ok symbols ∧
        (symbols.blocks.map (·.name)).Nodup ∧
        Placed.ofBlocks (statementsOf overlappingItems)
            symbols.labels symbols.blocks = .ok placed ∧
        ∃ block ∈ symbols.blocks, block.name = "a" ∧
          ∃ first last,
            block.Spans first last ∧ first ≤ last ∧
              last < 3) ∧
    ∃ symbols,
      collect unfinishedItems = .ok symbols ∧
        Placed.ofBlocks (statementsOf unfinishedItems)
            symbols.labels symbols.blocks =
          .error (.unterminatedBlock "a") := by
  constructor
  · let symbols :=
      (collect overlappingItems).toOption.getD .empty
    have hSymbols : collect overlappingItems = .ok symbols := by
      decide +kernel
    have hAll : ¬ ∃ block ∈ symbols.blocks,
        block.start = none ∨ block.last = none := by
      decide +kernel
    rcases blockTable_invariant hSymbols with
      ⟨hNodup, _, _, _, hPlacing⟩
    rcases hPlacing (statementsOf overlappingItems)
      symbols.labels with ⟨_, hFails, hDone⟩
    cases hPlaced : Placed.ofBlocks
        (statementsOf overlappingItems) symbols.labels
        symbols.blocks with
    | error fault =>
        exact absurd (hFails.mp ⟨fault, hPlaced⟩) hAll
    | ok placed =>
        exact ⟨symbols, placed, hSymbols, hNodup, hPlaced,
          hDone placed hPlaced ⟨none, .block, ["a"]⟩ "a"
            (by decide +kernel) rfl⟩
  · let symbols :=
      (collect unfinishedItems).toOption.getD .empty
    have hSymbols : collect unfinishedItems = .ok symbols := by
      decide +kernel
    rcases blockTable_invariant hSymbols with
      ⟨_, _, _, _, hPlacing⟩
    refine ⟨symbols, hSymbols,
      ((hPlacing _ _).1 (.unterminatedBlock "a")).mpr
        ⟨[], ⟨"a", some "here", some 0, some 3, none⟩,
          symbols.blocks.drop 1, by decide +kernel, ?_,
          .last (by simp) rfl⟩⟩
    intro other hOther
    cases hOther

end Symbols

end MmixAsm
