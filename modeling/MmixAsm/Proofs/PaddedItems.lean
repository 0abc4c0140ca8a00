import MmixAsm.Layout.Padding
import MmixAsm.Layout.Symbols
import MmixAsm.Proofs.Outcome

/-
  What padding makes of a program.

  Padding puts placeholders where a LOC stands and changes
  nothing else.  Leaving the placeholders out gives back the
  program without its LOC lines, in the same order.  A LOC
  that is not reached yet sets the position, and placeholders
  fill the gap.  Padding needs no registers.

  Key definitions include:
    * `MmixAsm.Instruction.item?`
    * `MmixAsm.Instruction.positionBehind`

  Key theorems include:
    * `MmixAsm.items_of_padFrom`
    * `MmixAsm.exists_instruction_of_mem`
    * `MmixAsm.position_of_padFrom`
    * `MmixAsm.exists_of_padFrom_append`
    * `MmixAsm.padFrom_ne_registersExhausted`
-/

------------------------------------------------------------
-- Items And Instructions
------------------------------------------------------------

namespace MmixAsm

/- The item that an instruction becomes, unless it is LOC. -/
def Instruction.item? :
    Instruction → Option Item
| .op line => some (.statement (.op line))
| .alloc line => some (.statement (.alloc line))
| .control line =>
    if line.keyword = .loc then none else some (.control line)
| _ => none

/- Apart from placeholders, padding keeps all but LOC. -/
theorem items_of_padFrom
    {limit position : Nat}
    {instructions : List Instruction}
    {items : List Item}
    (h : padFrom limit position instructions = .ok items) :
    items.filter (· ≠ .statement .padding) =
      instructions.filterMap Instruction.item? := by
  fun_induction padFrom limit position instructions
    generalizing items with
  | case1 =>
      cases h
      rfl
  | case2 position line rest ih =>
      rcases exists_of_map_eq_ok h with ⟨others, hOthers, rfl⟩
      simp [Instruction.item?, ← ih hOthers]
  | case3 position line rest ih =>
      rcases exists_of_map_eq_ok h with ⟨others, hOthers, rfl⟩
      simp [Instruction.item?, ← ih hOthers]
  | case4 => cases h
  | case5 position line rest hLoc padding hPadding ih =>
      rcases exists_of_map_eq_ok h with ⟨others, hOthers, rfl⟩
      simp [Instruction.item?, hLoc, ← ih hOthers]
  | case6 position line rest hLoc ih =>
      rcases exists_of_map_eq_ok h with ⟨others, hOthers, rfl⟩
      simp [Instruction.item?, hLoc, ← ih hOthers]
  | case7 => cases h

/- Every item but a placeholder comes from an instruction. -/
theorem exists_instruction_of_mem
    {limit : Nat}
    {instructions : List Instruction}
    {items : List Item}
    (h : pad limit instructions = .ok items)
    {item : Item}
    (hItem : item ∈ items)
    (hPadding : item ≠ .statement .padding) :
    ∃ instruction ∈ instructions,
      instruction.item? = some item := by
  apply List.mem_filterMap.mp
  rw [← items_of_padFrom h]
  exact List.mem_filter.mpr ⟨hItem, decide_eq_true hPadding⟩

end MmixAsm

------------------------------------------------------------
-- Positions
------------------------------------------------------------

namespace MmixAsm

/- The offset that a LOC line asks for. -/
def Line.locOffset (line : Line Directive) : Nat :=
  match line.parameters with
  | [] => 0
  | parameter :: _ =>
      match Segment.address parameter with
      | .error _ => 0
      | .ok target => (Segment.offset target).toNat

/- The position behind an instruction, given the one before. -/
def Instruction.positionBehind
    (position : Nat) :
    Instruction → Nat
| .op _ => position + 1
| .alloc _ => position + 1
| .control line =>
    if line.keyword = .loc then
      max position line.locOffset
    else
      position
| _ => position

/- The placeholders of one LOC lead to its offset. -/
theorem add_of_paddingOf
    {limit position padding : Nat}
    {line : Line Directive}
    (h : paddingOf limit position line = .ok padding) :
    position + padding = max position line.locOffset := by
  unfold paddingOf at h
  unfold Line.locOffset
  cases hParameters : line.parameters with
  | nil =>
      rw [hParameters] at h
      cases h
  | cons parameter others =>
      cases hTarget : Segment.address parameter with
      | error number =>
          simp only [hParameters, hTarget] at h
          cases h
      | ok target =>
          simp only [hParameters, hTarget] at h ⊢
          split at h
          · cases h
          · cases h
            omega

@[simp] theorem statementsOf_statement
    (content : Statement)
    (items : List Item) :
    statementsOf (.statement content :: items) =
      content :: statementsOf items :=
  rfl

@[simp] theorem statementsOf_control
    (line : Line Directive)
    (items : List Item) :
    statementsOf (.control line :: items) =
      statementsOf items :=
  rfl

@[simp] theorem statementsOf_placeholders
    (count : Nat)
    (items : List Item) :
    statementsOf
        (List.replicate count (.statement .padding) ++ items) =
      List.replicate count .padding ++ statementsOf items := by
  induction count with
  | zero => rfl
  | succ count ih => simp [List.replicate_succ, ih]

/- The statements take all positions up to the last one. -/
theorem position_of_padFrom
    {limit position : Nat}
    {instructions : List Instruction}
    {items : List Item}
    (h : padFrom limit position instructions = .ok items) :
    position + (statementsOf items).length =
      instructions.foldl Instruction.positionBehind
        position := by
  fun_induction padFrom limit position instructions
    generalizing items with
  | case1 =>
      cases h
      rfl
  | case2 position line rest ih =>
      rcases exists_of_map_eq_ok h with ⟨others, hOthers, rfl⟩
      rw [List.foldl_cons, Instruction.positionBehind,
        ← ih hOthers, statementsOf_statement, List.length_cons]
      omega
  | case3 position line rest ih =>
      rcases exists_of_map_eq_ok h with ⟨others, hOthers, rfl⟩
      rw [List.foldl_cons, Instruction.positionBehind,
        ← ih hOthers, statementsOf_statement, List.length_cons]
      omega
  | case4 => cases h
  | case5 position line rest hLoc padding hPadding ih =>
      rcases exists_of_map_eq_ok h with ⟨others, hOthers, rfl⟩
      rw [List.foldl_cons, Instruction.positionBehind,
        if_pos hLoc, ← add_of_paddingOf hPadding,
        ← ih hOthers, statementsOf_placeholders,
        List.length_append, List.length_replicate,
        Nat.add_assoc]
  | case6 position line rest hLoc ih =>
      rcases exists_of_map_eq_ok h with ⟨others, hOthers, rfl⟩
      rw [List.foldl_cons, Instruction.positionBehind,
        if_neg hLoc, ← ih hOthers, statementsOf_control]
  | case7 => cases h

/- A program is padded part by part. -/
theorem exists_of_padFrom_append
    {limit position : Nat}
    {front back : List Instruction}
    {items : List Item}
    (h : padFrom limit position (front ++ back) = .ok items) :
    ∃ left right,
      padFrom limit position front = .ok left ∧
        padFrom limit
          (front.foldl Instruction.positionBehind position)
          back = .ok right ∧
        items = left ++ right := by
  fun_induction padFrom limit position front
    generalizing items with
  | case1 position => exact ⟨[], items, rfl, h, rfl⟩
  | case2 position line rest ih =>
      rcases exists_of_map_eq_ok h with ⟨others, hOthers, rfl⟩
      rcases ih hOthers with ⟨left, right, hLeft, hRight, rfl⟩
      rw [hLeft]
      exact ⟨_, right, rfl, hRight, rfl⟩
  | case3 position line rest ih =>
      rcases exists_of_map_eq_ok h with ⟨others, hOthers, rfl⟩
      rcases ih hOthers with ⟨left, right, hLeft, hRight, rfl⟩
      rw [hLeft]
      exact ⟨_, right, rfl, hRight, rfl⟩
  | case4 position line rest hLoc fault hPadding =>
      rw [List.cons_append, padFrom, if_pos hLoc, hPadding] at h
      cases h
  | case5 position line rest hLoc padding hPadding ih =>
      rw [List.cons_append, padFrom, if_pos hLoc, hPadding] at h
      rcases exists_of_map_eq_ok h with ⟨others, hOthers, rfl⟩
      rcases ih hOthers with ⟨left, right, hLeft, hRight, rfl⟩
      rw [List.foldl_cons, Instruction.positionBehind,
        if_pos hLoc, ← add_of_paddingOf hPadding, hLeft]
      exact ⟨_, right, rfl, hRight,
        (List.append_assoc _ left right).symm⟩
  | case6 position line rest hLoc ih =>
      rw [List.cons_append, padFrom, if_neg hLoc] at h
      rcases exists_of_map_eq_ok h with ⟨others, hOthers, rfl⟩
      rcases ih hOthers with ⟨left, right, hLeft, hRight, rfl⟩
      rw [List.foldl_cons, Instruction.positionBehind,
        if_neg hLoc, hLeft]
      exact ⟨_, right, rfl, hRight, rfl⟩
  | case7 position instruction rest hOp hAlloc hControl =>
      rw [List.cons_append, padFrom] at h
      · cases h
      · exact hOp
      · exact hAlloc
      · exact hControl

end MmixAsm

------------------------------------------------------------
-- Failures Of Padding
------------------------------------------------------------

namespace MmixAsm

theorem paddingOf_ne_registersExhausted
    (limit position : Nat)
    (line : Line Directive) :
    paddingOf limit position line ≠
      .error .registersExhausted := by
  intro h
  unfold paddingOf at h
  split at h
  · cases h
  · split at h
    · cases h
    · simp only at h
      split at h
      · cases h
      · cases h

theorem padFrom_ne_registersExhausted
    (limit position : Nat)
    (instructions : List Instruction) :
    padFrom limit position instructions ≠
      .error .registersExhausted := by
  intro h
  fun_induction padFrom limit position instructions with
  | case1 => cases h
  | case2 position line rest ih =>
      exact ih (fails_of_map_eq_error h)
  | case3 position line rest ih =>
      exact ih (fails_of_map_eq_error h)
  | case4 position line rest hLoc fault hPadding =>
      cases h
      exact paddingOf_ne_registersExhausted _ _ _ hPadding
  | case5 position line rest hLoc padding hPadding ih =>
      exact ih (fails_of_map_eq_error h)
  | case6 position line rest hLoc ih =>
      exact ih (fails_of_map_eq_error h)
  | case7 => cases h

end MmixAsm
