import MmixAsm.Proofs.StatementOrder

/-
  How the statements of a program are counted.

  Padding goes over a program line by line and knows how many
  statements it has made.  The directives are read afterwards
  from the padded program, and their positions are counted
  anew.  Both counts agree: whatever a line records is the
  number of statements that the lines in front of it make,
  placeholders included.

  Key definitions include:
    * `MmixAsm.Instruction.pad`
    * `MmixAsm.padStep`
    * `MmixAsm.Instruction.Makes`
    * `MmixAsm.Marker.StandsIn`
    * `MmixAsm.Marker.IsRecordedIn`
    * `MmixAsm.Block.Recorded`

  Key theorems include:
    * `MmixAsm.pad_eq_foldlM`
    * `MmixAsm.pad_eq_error_iff`
    * `MmixAsm.pad_of_le`
    * `MmixAsm.Symbols.exists_recorded_of_collect`
    * `MmixAsm.Block.recorded_of_collect`
    * `MmixAsm.pad_counts_positions`
-/

------------------------------------------------------------
-- Padding Line By Line
------------------------------------------------------------

namespace MmixAsm

/- The items of one instruction at a position. -/
def Instruction.pad
    (limit position : Nat) :
    Instruction → Except LayoutError (List Item)
| .op line => .ok [.statement (.op line)]
| .alloc line => .ok [.statement (.alloc line)]
| .control line =>
    if line.keyword = .loc then
      (paddingOf limit position line).map
        (List.replicate · (.statement .padding))
    else
      .ok [.control line]
| instruction => .error (.unexpectedMacro instruction.render)

/- Add the items of one instruction behind those made so far. -/
def padStep
    (limit : Nat)
    (items : List Item)
    (instruction : Instruction) :
    Except LayoutError (List Item) :=
  (instruction.pad limit (statementsOf items).length).map
    (items ++ ·)

theorem statementsOf_append
    (left right : List Item) :
    statementsOf (left ++ right) =
      statementsOf left ++ statementsOf right :=
  List.filterMap_append

theorem length_placeholders (count : Nat) :
    (statementsOf
        (List.replicate count (.statement .padding))).length =
      count := by
  have hMade := statementsOf_placeholders count []
  rw [List.append_nil] at hMade
  rw [hMade, List.length_append, List.length_replicate]
  rfl

/- The items of the first line stand in front of the others. -/
theorem padFrom_cons
    (limit position : Nat)
    (instruction : Instruction)
    (rest : List Instruction) :
    padFrom limit position (instruction :: rest) =
      (instruction.pad limit position).bind fun made =>
        (padFrom limit
            (position + (statementsOf made).length) rest).map
          (made ++ ·) := by
  cases instruction with
  | op line => rfl
  | alloc line => rfl
  | control line =>
      rw [padFrom, Instruction.pad]
      split
      · cases hPadding : paddingOf limit position line with
        | error e => rfl
        | ok padding =>
            simp only [Except.map, Except.bind,
              length_placeholders]
      · rfl
  | macroLine line => rfl
  | macroTemplate line body => rfl

/- Padding from a position is padding behind some items. -/
theorem map_padFrom
    (limit : Nat)
    (items : List Item)
    (instructions : List Instruction) :
    (padFrom limit (statementsOf items).length
        instructions).map (items ++ ·) =
      instructions.foldlM (padStep limit) items := by
  induction instructions generalizing items with
  | nil => simp [padFrom, Except.map, pure, Except.pure]
  | cons instruction rest ih =>
      rw [List.foldlM_cons, padFrom_cons, padStep]
      cases instruction.pad limit
          (statementsOf items).length with
      | error e => rfl
      | ok made =>
          refine Eq.trans ?_ (ih (items ++ made))
          rw [statementsOf_append, List.length_append]
          simp only [Except.bind]
          cases padFrom limit
              ((statementsOf items).length
                + (statementsOf made).length) rest with
          | error e => rfl
          | ok others =>
              simp only [Except.map, List.append_assoc]

/- A program is padded line by line. -/
theorem pad_eq_foldlM
    (limit : Nat)
    (instructions : List Instruction) :
    pad limit instructions =
      instructions.foldlM (padStep limit) [] := by
  rw [← map_padFrom]
  cases hItems : padFrom limit 0 instructions with
  | error e => simp [pad, statementsOf, hItems, Except.map]
  | ok items => simp [pad, statementsOf, hItems, Except.map]

end MmixAsm

------------------------------------------------------------
-- Parts Of A Padded Program
------------------------------------------------------------

namespace MmixAsm

variable {limit : Nat}
variable {front back instructions : List Instruction}
variable {instruction : Instruction}
variable {items : List Item}

/- Lines that follow leave the items made so far alone. -/
theorem prefix_of_padSteps
    {left : List Item}
    (h : instructions.foldlM (padStep limit) left =
      .ok items) :
    left <+: items := by
  refine invariant_of_foldlM_eq_ok (motive := (left <+: ·))
    (List.prefix_refl left) ?_ h
  intro made next result _ hMade hStep
  rcases exists_of_map_eq_ok hStep with ⟨more, _, rfl⟩
  exact hMade.trans (List.prefix_append made more)

/- Each line of a program makes a part of the items. -/
theorem exists_of_pad_split
    (h : pad limit (front ++ instruction :: back) =
      .ok items) :
    ∃ left made right,
      pad limit front = .ok left ∧
        instruction.pad limit (statementsOf left).length =
          .ok made ∧
        pad limit (front ++ [instruction]) =
          .ok (left ++ made) ∧
        items = left ++ made ++ right := by
  rw [pad_eq_foldlM, List.foldlM_append] at h
  rcases exists_of_bind_eq_ok h with ⟨left, hLeft, hRest⟩
  rw [List.foldlM_cons] at hRest
  rcases exists_of_bind_eq_ok hRest with ⟨next, hStep, hBack⟩
  have hBoth : pad limit (front ++ [instruction]) =
      .ok next := by
    rw [pad_eq_foldlM, List.foldlM_append, hLeft]
    change List.foldlM (padStep limit) left [instruction] = _
    rw [List.foldlM_cons, hStep]
    rfl
  rcases exists_of_map_eq_ok hStep with ⟨made, hMade, rfl⟩
  rcases prefix_of_padSteps hBack with ⟨right, hRight⟩
  exact ⟨left, made, right, (pad_eq_foldlM _ _).trans hLeft,
    hMade, hBoth, hRight.symm⟩

/- Padding fails at the first line that cannot be padded. -/
theorem pad_eq_error_iff
    {e : LayoutError} :
    pad limit instructions = .error e ↔
      ∃ front instruction back left,
        instructions = front ++ instruction :: back ∧
          pad limit front = .ok left ∧
          instruction.pad limit (statementsOf left).length =
            .error e := by
  simp only [pad_eq_foldlM, foldlM_eq_error_iff, padStep]
  constructor
  · rintro ⟨front, instruction, back, left, hSplit, hLeft, hFail⟩
    exact ⟨front, instruction, back, left, hSplit, hLeft,
      fails_of_map_eq_error hFail⟩
  · rintro ⟨front, instruction, back, left, hSplit, hLeft, hFail⟩
    refine ⟨front, instruction, back, left, hSplit, hLeft, ?_⟩
    rw [hFail]
    rfl

end MmixAsm

------------------------------------------------------------
-- What A Line Makes
------------------------------------------------------------

namespace MmixAsm

/- The offset of an address is what its low bits say. -/
theorem Segment.toNat_offset
    (address : UInt64) :
    (Segment.offset address).toNat =
      address.toNat % 0x2000000000000000 := by
  unfold Segment.offset
  rw [UInt64.toNat_and]
  exact Nat.and_two_pow_sub_one_eq_mod address.toNat 61

variable {limit position : Nat}
variable {line : Line Directive}

/-
  A LOC line is padded up to the offset of its target, unless
  that takes more placeholders than the limit allows.
-/
theorem paddingOf_of_target
    {parameter : String}
    {target : UInt64}
    (limit position : Nat)
    (hParameter : line.parameters.head? = some parameter)
    (hTarget : Segment.address parameter = .ok target) :
    paddingOf limit position line =
      if limit <
          target.toNat % 0x2000000000000000 - position then
        .error (.locOutOfRange target
          (target.toNat % 0x2000000000000000 - position) limit)
      else
        .ok (target.toNat % 0x2000000000000000 - position) := by
  rcases List.head?_eq_some_iff.mp hParameter with
    ⟨others, hParameters⟩
  simp only [paddingOf, hParameters, hTarget,
    Segment.toNat_offset]

/- Without a target a LOC line fails, whatever the limit is. -/
theorem paddingOf_cases
    (line : Line Directive) :
    (∃ parameter target,
      line.parameters.head? = some parameter ∧
        Segment.address parameter = .ok target) ∨
      ∃ e,
        (∀ target padding bound,
          e ≠ .locOutOfRange target padding bound) ∧
        ∀ limit position,
          paddingOf limit position line = .error e := by
  cases hParameters : line.parameters with
  | nil =>
      refine .inr ⟨.missingParameter .loc, ?_, ?_⟩
      · exact fun _ _ _ => LayoutError.noConfusion
      · intro limit position
        rw [paddingOf, hParameters]
  | cons parameter others =>
      cases hTarget : Segment.address parameter with
      | error number =>
          refine .inr ⟨.invalidLoc number, ?_, ?_⟩
          · exact fun _ _ _ => LayoutError.noConfusion
          · intro limit position
            simp only [paddingOf, hParameters, hTarget]
      | ok target =>
          exact .inl ⟨parameter, target, rfl, hTarget⟩

namespace Instruction

/-
  What an instruction becomes behind a number of statements.
  LOC becomes placeholders up to the offset of its target and
  never more than the limit.
-/
inductive Makes
    (limit position : Nat) :
    Instruction → List Item → Prop
  | op (line : Line String) :
      Makes limit position (.op line) [.statement (.op line)]
  | alloc (line : Line DataSize) :
      Makes limit position (.alloc line)
        [.statement (.alloc line)]
  | directive
      {line : Line Directive}
      (hOther : line.keyword ≠ .loc) :
      Makes limit position (.control line) [.control line]
  | loc
      {line : Line Directive}
      {parameter : String}
      {target : UInt64}
      {count : Nat}
      (hLoc : line.keyword = .loc)
      (hParameter : line.parameters.head? = some parameter)
      (hTarget : Segment.address parameter = .ok target)
      (hLimit : count ≤ limit)
      (hCount : position + count =
        max position (target.toNat % 0x2000000000000000)) :
      Makes limit position (.control line)
        (List.replicate count (.statement .padding))

theorem makes_of_pad
    {instruction : Instruction}
    {made : List Item}
    (h : instruction.pad limit position = .ok made) :
    instruction.Makes limit position made := by
  cases instruction with
  | op line =>
      cases h
      exact .op line
  | alloc line =>
      cases h
      exact .alloc line
  | control line =>
      rw [pad] at h
      split at h
      · next hLoc =>
          rcases exists_of_map_eq_ok h with
            ⟨count, hPadding, rfl⟩
          rcases paddingOf_cases line with
            ⟨parameter, target, hParameter, hTarget⟩ |
              ⟨e, _, hFail⟩
          · rw [paddingOf_of_target _ _ hParameter hTarget]
              at hPadding
            split at hPadding
            · cases hPadding
            · cases hPadding
              exact .loc hLoc hParameter hTarget (by omega)
                (by omega)
          · rw [hFail] at hPadding
            cases hPadding
      · next hOther =>
          cases h
          exact .directive hOther
  | macroLine line => cases h
  | macroTemplate line body => cases h

/- What is made within a limit is made within a larger one. -/
theorem pad_of_le
    {instruction : Instruction}
    {made : List Item}
    {larger : Nat}
    (hLarger : limit ≤ larger)
    (h : instruction.pad limit position = .ok made) :
    instruction.pad larger position = .ok made := by
  cases instruction with
  | op line => exact h
  | alloc line => exact h
  | control line =>
      rw [pad] at h ⊢
      split at h
      · next hLoc =>
          rw [if_pos hLoc]
          rcases exists_of_map_eq_ok h with
            ⟨count, hPadding, rfl⟩
          rcases paddingOf_cases line with
            ⟨parameter, target, hParameter, hTarget⟩ |
              ⟨e, _, hFail⟩
          · rw [paddingOf_of_target _ _ hParameter hTarget]
              at hPadding ⊢
            split at hPadding
            · cases hPadding
            · cases hPadding
              rw [if_neg (by omega)]
              rfl
          · rw [hFail] at hPadding
            cases hPadding
      · next hOther =>
          rw [if_neg hOther]
          exact h
  | macroLine line => cases h
  | macroTemplate line body => cases h

/- Only LOC lines that need too much are out of range. -/
theorem pad_eq_locOutOfRange_iff
    {instruction : Instruction}
    {target : UInt64}
    {padding bound : Nat} :
    instruction.pad limit position =
        .error (.locOutOfRange target padding bound) ↔
      ∃ line parameter,
        instruction = .control line ∧
          line.keyword = .loc ∧
          line.parameters.head? = some parameter ∧
          Segment.address parameter = .ok target ∧
          padding =
            target.toNat % 0x2000000000000000 - position ∧
          limit < padding ∧
          bound = limit := by
  constructor
  · intro h
    cases instruction with
    | op line => cases h
    | alloc line => cases h
    | control line =>
        rw [pad] at h
        split at h
        · next hLoc =>
            have hFail := fails_of_map_eq_error h
            rcases paddingOf_cases line with
              ⟨parameter, address, hParameter, hTarget⟩ |
                ⟨e, hOther, hError⟩
            · rw [paddingOf_of_target _ _ hParameter hTarget]
                at hFail
              split at hFail
              · next hMore =>
                  cases hFail
                  exact ⟨line, parameter, rfl, hLoc, hParameter,
                    hTarget, rfl, hMore, rfl⟩
              · cases hFail
            · rw [hError] at hFail
              cases hFail
              exact absurd rfl (hOther target padding bound)
        · cases h
    | macroLine line => cases h
    | macroTemplate line body => cases h
  · rintro ⟨line, parameter, rfl, hLoc, hParameter, hTarget, rfl,
      hMore, rfl⟩
    rw [pad, if_pos hLoc,
      paddingOf_of_target _ _ hParameter hTarget, if_pos hMore]
    rfl

end Instruction

/- A larger limit gives the same items. -/
theorem pad_of_le
    {instructions : List Instruction}
    {items : List Item}
    {larger : Nat}
    (hLarger : limit ≤ larger)
    (h : pad limit instructions = .ok items) :
    pad larger instructions = .ok items := by
  rw [pad_eq_foldlM] at h ⊢
  generalize ([] : List Item) = left at h ⊢
  induction instructions generalizing left with
  | nil => exact h
  | cons instruction rest ih =>
      rw [List.foldlM_cons] at h ⊢
      rcases exists_of_bind_eq_ok h with ⟨next, hStep, hRest⟩
      have hSame : padStep larger left instruction =
          .ok next := by
        rcases exists_of_map_eq_ok hStep with ⟨made, hMade, rfl⟩
        rw [padStep, Instruction.pad_of_le hLarger hMade]
        rfl
      rw [hSame]
      exact ih next hRest

end MmixAsm

------------------------------------------------------------
-- Directives And Their Positions
------------------------------------------------------------

namespace MmixAsm

namespace Marker

theorem ofItems_append
    (position : Nat)
    (left right : List Item) :
    ofItems position (left ++ right) =
      ofItems position left
        ++ ofItems (position + (statementsOf left).length)
          right := by
  induction left generalizing position with
  | nil => rfl
  | cons item rest ih =>
      cases item with
      | statement content =>
          rw [List.cons_append, ofItems, ofItems, ih,
            statementsOf_statement, List.length_cons,
            Nat.add_assoc, Nat.add_comm 1]
      | control line =>
          rw [List.cons_append, ofItems, ofItems, ih,
            statementsOf_control, List.cons_append]

/- The only directive that an instruction makes is itself. -/
theorem eq_of_mem_ofItems_made
    {limit position : Nat}
    {instruction : Instruction}
    {made : List Item}
    (hMade : instruction.Makes limit position made)
    {marker : Marker}
    (hMarker : marker ∈ ofItems position made) :
    instruction = .control marker.line ∧
      marker.position = position := by
  cases hMade with
  | op line => cases hMarker
  | alloc line => cases hMarker
  | directive hOther =>
      rw [List.mem_singleton.mp hMarker]
      exact ⟨rfl, rfl⟩
  | @loc line parameter target count =>
      have hNone : ∀ count other,
          ofItems other
            (List.replicate count (.statement .padding)) =
              [] := by
        intro count
        induction count with
        | zero => exact fun _ => rfl
        | succ count ih => exact fun other => ih (other + 1)
      rw [hNone] at hMarker
      cases hMarker

/- The position of a directive counts the items in front. -/
theorem exists_split_of_mem
    {marker : Marker}
    {items : List Item}
    {position : Nat}
    (hMarker : marker ∈ ofItems position items) :
    ∃ left right,
      items = left ++ .control marker.line :: right ∧
        marker.position =
          position + (statementsOf left).length := by
  induction items generalizing position with
  | nil => cases hMarker
  | cons item rest ih =>
      cases item with
      | statement content =>
          rcases ih hMarker with ⟨left, right, rfl, hPosition⟩
          refine ⟨.statement content :: left, right, rfl, ?_⟩
          rw [hPosition, statementsOf_statement,
            List.length_cons]
          omega
      | control line =>
          rcases List.mem_cons.mp hMarker with rfl | hRest
          · exact ⟨[], rest, rfl, rfl⟩
          · rcases ih hRest with ⟨left, right, rfl, hPosition⟩
            exact ⟨.control line :: left, right, rfl, hPosition⟩

/-
  The directive stands in a program behind as many statements
  as its position says, placeholders included.
-/
def StandsIn
    (limit : Nat)
    (instructions : List Instruction)
    (marker : Marker) : Prop :=
  ∃ front left back,
    instructions = front ++ .control marker.line :: back ∧
      pad limit front = .ok left ∧
      marker.position = (statementsOf left).length

/- The directives of the padded program stand in the program. -/
theorem standsIn_of_mem
    {limit : Nat}
    {instructions : List Instruction}
    {items : List Item}
    {marker : Marker}
    (hItems : pad limit instructions = .ok items)
    (hMarker : marker ∈ ofItems 0 items) :
    marker.StandsIn limit instructions := by
  induction instructions using List.reverseRecOn
    generalizing items with
  | nil =>
      cases hItems
      cases hMarker
  | append_singleton front instruction ih =>
      rcases exists_of_pad_split hItems with
        ⟨left, made, right, hLeft, hMade, hBoth, _⟩
      cases hItems.symm.trans hBoth
      rw [ofItems_append, List.mem_append, Nat.zero_add]
        at hMarker
      rcases hMarker with hMarker | hMarker
      · rcases ih hLeft hMarker with
          ⟨before, items, back, hSplit, hBefore, hPosition⟩
        refine ⟨before, items, back ++ [instruction], ?_,
          hBefore, hPosition⟩
        rw [hSplit, List.append_assoc, List.cons_append]
      · rcases eq_of_mem_ofItems_made
          (Instruction.makes_of_pad hMade) hMarker with
          ⟨rfl, hPosition⟩
        exact ⟨front, left, [], rfl, hLeft, hPosition⟩

/-
  What a directive leaves in the block that it is about: BLOCK
  the start, USE the place where it is wanted and the label
  there, and ENDBLOCK the last statement.
-/
def IsRecordedIn
    (marker : Marker)
    (block : Block) : Prop :=
  match marker.line.keyword with
  | .block => block.start = some marker.position
  | .place =>
      block.origin = some marker.position ∧
        block.label = marker.line.label
  | .endBlock =>
      ∃ last,
        block.last = some last ∧ last + 1 = marker.position
  | _ => True

end Marker

namespace Block

/- A block of the table is found by its name. -/
theorem find?_ofMarkers
    {markers : List Marker}
    {name : String}
    (hName : name ∈ blockNames markers) :
    find? ((blockNames markers).map (ofMarkers markers)) name =
      some (ofMarkers markers name) := by
  generalize blockNames markers = names at hName
  unfold find?
  induction names with
  | nil => cases hName
  | cons other rest ih =>
      by_cases hOther : other = name
      · simp [ofMarkers, hOther]
      · have hRest : name ∈ rest := by
          rcases List.mem_cons.mp hName with hEq | hRest
          · exact absurd hEq.symm hOther
          · exact hRest
        rw [List.map_cons, List.find?_cons_of_neg]
        · exact ih hRest
        · simpa [ofMarkers] using hOther

end Block

namespace Symbols

variable {left right : List Item}
variable {symbols : Symbols}

/- Directives are read from the front. -/
theorem exists_collect_of_append
    (h : collect (left ++ right) = .ok symbols) :
    ∃ now, collect left = .ok now := by
  rcases exists_of_map_eq_ok h with ⟨final, hSteps, _⟩
  rw [List.foldlM_append] at hSteps
  rcases exists_of_bind_eq_ok hSteps with ⟨state, hLeft, _⟩
  refine ⟨state.2, ?_⟩
  rw [collect, hLeft]
  rfl

/- A directive about a block is recorded in the block. -/
theorem exists_recorded_of_collect
    {line : Line Directive}
    {name : String}
    (h : collect (left ++ [.control line]) = .ok symbols)
    (hName : Marker.blockName?
      ⟨(statementsOf left).length, line⟩ = some name) :
    ∃ block,
      Block.find? symbols.blocks name = some block ∧
        Marker.IsRecordedIn
          ⟨(statementsOf left).length, line⟩ block := by
  let marker : Marker := ⟨(statementsOf left).length, line⟩
  have hBlocks := blocks_of_collect h
  have hMarkers : Marker.ofItems 0 (left ++ [.control line]) =
      Marker.ofItems 0 left ++ [marker] := by
    rw [Marker.ofItems_append, Nat.zero_add]
    rfl
  rw [declaredBlocks, hMarkers] at hBlocks
  have hMem : name ∈
      blockNames (Marker.ofItems 0 left ++ [marker]) := by
    rw [blockNames, List.mem_eraseDups]
    exact List.mem_filterMap.mpr
      ⟨marker, List.mem_append_right _ List.mem_cons_self,
        hName⟩
  have hFound := Block.find?_ofMarkers hMem
  rw [← hBlocks, Block.ofMarkers_concat, if_pos hName] at hFound
  have hBounded := bounded_of_collect h _
    (List.mem_of_find?_eq_some hFound)
  refine ⟨_, hFound, ?_⟩
  unfold Marker.IsRecordedIn
  cases hKeyword : line.keyword with
  | block => simp [marker, Marker.change, hKeyword, Block.openAt]
  | place =>
      simp [marker, Marker.change, hKeyword, Block.wantAt]
  | endBlock =>
      -- The block holds a statement, so the position is not
      -- zero.
      have hLast : (statementsOf left).length - 1 <
          (statementsOf (left ++ [.control line])).length := by
        rcases hBounded ((statementsOf left).length - 1)
          (by simp [marker, Marker.change, hKeyword]) with
          ⟨_, _, _, hLast⟩
        exact hLast
      rw [statementsOf_append, List.length_append,
        statementsOf_control] at hLast
      change _ < (statementsOf left).length + 0 at hLast
      refine ⟨(statementsOf left).length - 1, ?_, ?_⟩
      · simp [marker, Marker.change, hKeyword]
      · change _ = (statementsOf left).length
        omega
  | loc => trivial
  | greg => trivial
  | equate => trivial

/- Something stands in front of an ENDBLOCK line. -/
theorem pos_of_endBlock
    {items : List Item}
    {marker : Marker}
    {name : String}
    (h : collect items = .ok symbols)
    (hMarker : marker ∈ Marker.ofItems 0 items)
    (hEnds : marker.mentions .endBlock name) :
    0 < marker.position := by
  rcases Marker.exists_split_of_mem hMarker with
    ⟨left, right, rfl, hPosition⟩
  rw [Nat.zero_add] at hPosition
  rw [List.append_cons] at h
  rcases exists_collect_of_append h with ⟨now, hNow⟩
  rcases marker with ⟨position, line⟩
  cases hPosition
  have hKeyword : line.keyword = .endBlock :=
    of_decide_eq_true (Bool.and_eq_true_iff.mp hEnds).1
  have hName : Marker.blockName?
      ⟨(statementsOf left).length, line⟩ = some name :=
    of_decide_eq_true (Bool.and_eq_true_iff.mp hEnds).2
  rcases exists_recorded_of_collect hNow hName with
    ⟨block, _, hRecorded⟩
  simp only [Marker.IsRecordedIn, hKeyword] at hRecorded
  rcases hRecorded with ⟨last, _, hLast⟩
  change 0 < (statementsOf left).length
  omega

end Symbols

end MmixAsm

------------------------------------------------------------
-- Recorded Positions
------------------------------------------------------------

namespace MmixAsm

namespace Block

/-
  Whatever is recorded of a block is the position of a line:
  its start that of a BLOCK line, the place where it is wanted
  that of a USE line, and its last statement stands in front
  of an ENDBLOCK line.
-/
structure Recorded
    (limit : Nat)
    (instructions : List Instruction)
    (block : Block) : Prop where
  start : ∀ position, block.start = some position →
    ∃ line : Line Directive,
      Marker.StandsIn limit instructions ⟨position, line⟩ ∧
        Marker.mentions ⟨position, line⟩ .block block.name
  origin : ∀ position, block.origin = some position →
    ∃ line : Line Directive,
      Marker.StandsIn limit instructions ⟨position, line⟩ ∧
        Marker.mentions ⟨position, line⟩ .place block.name ∧
        block.label = line.label
  last : ∀ position, block.last = some position →
    ∃ line : Line Directive,
      Marker.StandsIn limit instructions
          ⟨position + 1, line⟩ ∧
        Marker.mentions ⟨position + 1, line⟩ .endBlock
          block.name

end Block

/- The last mention is one of the directives. -/
theorem mem_of_lastMention?
    {markers : List Marker}
    {keywords : List Directive}
    {name : String}
    {marker : Marker}
    (h : lastMention? markers keywords name = some marker) :
    marker ∈ markers ∧
      ∃ keyword ∈ keywords, marker.mentions keyword name := by
  refine ⟨List.mem_reverse.mp (List.mem_of_find?_eq_some h), ?_⟩
  have hAny : keywords.any (marker.mentions · name) = true :=
    List.find?_some (p := fun other : Marker =>
      keywords.any (other.mentions · name)) h
  exact List.any_eq_true.mp hAny

variable {limit : Nat}
variable {instructions : List Instruction}
variable {items : List Item}
variable {symbols : Symbols}

/- Every position in the table is that of a line. -/
theorem Block.recorded_of_collect
    (hItems : pad limit instructions = .ok items)
    (hSymbols : Symbols.collect items = .ok symbols) :
    ∀ block ∈ symbols.blocks,
      block.Recorded limit instructions := by
  intro block hBlock
  rw [Symbols.blocks_of_collect hSymbols, declaredBlocks]
    at hBlock
  rcases List.mem_map.mp hBlock with ⟨name, _, rfl⟩
  constructor
  · intro position hStart
    rcases Option.map_eq_some_iff.mp hStart with
      ⟨marker, hLast, rfl⟩
    rcases mem_of_lastMention? hLast with
      ⟨hMarker, keyword, hKeyword, hMentions⟩
    cases List.mem_singleton.mp hKeyword
    exact ⟨marker.line, Marker.standsIn_of_mem hItems hMarker,
      hMentions⟩
  · intro position hOrigin
    rcases Option.map_eq_some_iff.mp hOrigin with
      ⟨marker, hLast, rfl⟩
    rcases mem_of_lastMention? hLast with
      ⟨hMarker, keyword, hKeyword, hMentions⟩
    cases List.mem_singleton.mp hKeyword
    refine ⟨marker.line, Marker.standsIn_of_mem hItems hMarker,
      hMentions, ?_⟩
    simp only [Block.ofMarkers, hLast, Option.bind_some]
  · intro position hEnd
    rcases Option.bind_eq_some_iff.mp hEnd with
      ⟨marker, hLast, hPosition⟩
    rcases mem_of_lastMention? hLast with
      ⟨hMarker, keyword, _, hMentions⟩
    rw [Option.ite_none_right_eq_some] at hPosition
    rcases hPosition with ⟨hKeyword, hPosition⟩
    have hEnds : marker.mentions .endBlock name := by
      rw [Marker.mentions, hKeyword]
      simpa using (Bool.and_eq_true_iff.mp hMentions).2
    have hBehind : marker.position = position + 1 := by
      have hPos := Symbols.pos_of_endBlock hSymbols hMarker hEnds
      have hEq := Option.some.inj hPosition
      omega
    rw [← hBehind]
    exact ⟨marker.line, Marker.standsIn_of_mem hItems hMarker,
      hEnds⟩

/-
  Padding and reading the directives count statements alike.
  If both succeed, the statements are the operations and
  allocations of the program in their order, and each line
  makes what it has to make behind the statements of the lines
  in front, placeholders at LOC alone.  What a directive
  records of its block is that number of statements, when the
  line is read and in the final table.  Padding runs out of
  range exactly at the first LOC line that needs more than the
  limit, if no line in front of it fails, and under a larger
  limit the result is the same.
-/
theorem pad_counts_positions
    (limit : Nat)
    (instructions : List Instruction) :
    (∀ items symbols,
      pad limit instructions = .ok items →
      Symbols.collect items = .ok symbols →
      (statementsOf items).filter (· ≠ .padding) =
          instructions.filterMap Instruction.statement? ∧
        (∀ front instruction back,
          instructions = front ++ instruction :: back →
          ∃ left made right now,
            pad limit front = .ok left ∧
              pad limit (front ++ [instruction]) =
                .ok (left ++ made) ∧
              items = left ++ made ++ right ∧
              instruction.Makes limit
                (statementsOf left).length made ∧
              Symbols.collect (left ++ made) = .ok now ∧
              ∀ line name,
                instruction = .control line →
                Marker.blockName?
                    ⟨(statementsOf left).length, line⟩ =
                  some name →
                ∃ block,
                  Block.find? now.blocks name = some block ∧
                    Marker.IsRecordedIn
                      ⟨(statementsOf left).length, line⟩
                      block) ∧
        ∀ block ∈ symbols.blocks,
          block.Recorded limit instructions) ∧
    (∀ target padding bound,
      pad limit instructions =
          .error (.locOutOfRange target padding bound) ↔
        ∃ front line back left parameter,
          instructions = front ++ .control line :: back ∧
            pad limit front = .ok left ∧
            line.keyword = .loc ∧
            line.parameters.head? = some parameter ∧
            Segment.address parameter = .ok target ∧
            padding = target.toNat % 0x2000000000000000
              - (statementsOf left).length ∧
            limit < padding ∧
            bound = limit) ∧
    ∀ items larger,
      pad limit instructions = .ok items →
      limit ≤ larger →
      pad larger instructions = .ok items := by
  refine ⟨?_, ?_, ?_⟩
  · intro items symbols hItems hSymbols
    refine ⟨filter_statementsOf hItems, ?_,
      Block.recorded_of_collect hItems hSymbols⟩
    rintro front instruction back rfl
    rcases exists_of_pad_split hItems with
      ⟨left, made, right, hLeft, hMade, hBoth, rfl⟩
    rcases Symbols.exists_collect_of_append hSymbols with
      ⟨now, hNow⟩
    have hMakes := Instruction.makes_of_pad hMade
    refine ⟨left, made, right, now, hLeft, hBoth, rfl, hMakes,
      hNow, ?_⟩
    rintro line name rfl hName
    cases hMakes with
    | directive hOther =>
        exact Symbols.exists_recorded_of_collect hNow hName
    | loc hLoc =>
        simp [Marker.blockName?, hLoc] at hName
  · intro target padding bound
    rw [pad_eq_error_iff]
    constructor
    · rintro ⟨front, instruction, back, left, hSplit, hLeft,
        hFail⟩
      rcases Instruction.pad_eq_locOutOfRange_iff.mp hFail with
        ⟨line, parameter, rfl, hRest⟩
      exact ⟨front, line, back, left, parameter, hSplit, hLeft,
        hRest⟩
    · rintro ⟨front, line, back, left, parameter, hSplit, hLeft,
        hRest⟩
      exact ⟨front, .control line, back, left, hSplit, hLeft,
        Instruction.pad_eq_locOutOfRange_iff.mpr
          ⟨line, parameter, rfl, hRest⟩⟩
  · intro items larger hItems hLarger
    exact pad_of_le hLarger hItems

/-
  The block `a` is opened twice and closed around two LOC
  lines, the second of which asks for an offset that is
  reached already.
-/
def segmentedProgram : List Instruction := [
  .control ⟨none, .block, ["a"]⟩,
  .op ⟨none, "SWYM", []⟩,
  .control ⟨none, .loc, ["#2000000000000003"]⟩,
  .control ⟨none, .block, ["a"]⟩,
  .alloc ⟨some "x", .byte, ["1"]⟩,
  .control ⟨none, .loc, ["Pool_Segment"]⟩,
  .control ⟨none, .endBlock, ["a"]⟩,
  .op ⟨none, "TRAP", ["0"]⟩,
  .control ⟨some "here", .place, ["a"]⟩]

theorem segmentedProgram_counts_positions :
    ∃ items symbols left made,
      pad 2 segmentedProgram = .ok items ∧
        Symbols.collect items = .ok symbols ∧
        (statementsOf items).filter (· ≠ .padding) = [
          .op ⟨none, "SWYM", []⟩,
          .alloc ⟨some "x", .byte, ["1"]⟩,
          .op ⟨none, "TRAP", ["0"]⟩] ∧
        pad 2 (segmentedProgram.take 2) = .ok left ∧
        pad 2 (segmentedProgram.take 3) = .ok (left ++ made) ∧
        Instruction.Makes 2 (statementsOf left).length
          (.control ⟨none, .loc, ["#2000000000000003"]⟩) made ∧
        symbols.blocks =
          [⟨"a", some "here", some 5, some 3, some 3⟩] ∧
        (∀ block ∈ symbols.blocks,
          block.Recorded 2 segmentedProgram) ∧
        pad 1 segmentedProgram =
          .error (.locOutOfRange 0x2000000000000003 2 1) ∧
        pad 9 segmentedProgram = .ok items := by
  let items := (pad 2 segmentedProgram).toOption.getD []
  let symbols :=
    (Symbols.collect items).toOption.getD .empty
  have hItems : pad 2 segmentedProgram = .ok items := by
    decide +kernel
  have hSymbols : Symbols.collect items = .ok symbols := by
    decide +kernel
  rcases pad_counts_positions 2 segmentedProgram with
    ⟨hCounts, _, hLarger⟩
  rcases hCounts items symbols hItems hSymbols with
    ⟨hStatements, hLines, hBlocks⟩
  rcases hLines (segmentedProgram.take 2)
    (.control ⟨none, .loc, ["#2000000000000003"]⟩)
    (segmentedProgram.drop 3) rfl with
    ⟨left, made, right, now, hLeft, hBoth, _, hMakes, _⟩
  have hRange := (pad_counts_positions 1 segmentedProgram).2.1
    0x2000000000000003 2 1
  refine ⟨items, symbols, left, made, hItems, hSymbols,
    hStatements, hLeft, hBoth, hMakes, by decide +kernel,
    hBlocks, hRange.mpr ?_, hLarger items 9 hItems (by decide)⟩
  exact ⟨segmentedProgram.take 2,
    ⟨none, .loc, ["#2000000000000003"]⟩,
    segmentedProgram.drop 3,
    [.control ⟨none, .block, ["a"]⟩,
      .statement (.op ⟨none, "SWYM", []⟩)],
    "#2000000000000003", rfl, rfl, rfl, rfl, by decide +kernel,
    by decide +kernel, by decide, rfl⟩

end MmixAsm
