import Mathlib.Algebra.BigOperators.Ring.Finset
import Mathlib.Data.List.GetD
import MmixAsm.Proofs.LiteralGrammar
import MmixAsm.Proofs.OperationWords

/-
  The word of an operation in closed form.

  Packing the operands adds up their low bytes, each weighted
  by its place, as far as the sum fits into a word.  The
  opcode is put on top of that sum.  There is a word if and
  only if the mnemonic is known and all parameters are
  operands.

  Key definitions include:
    * `MmixAsm.operandSum`

  Key theorems include:
    * `MmixAsm.operandSum_concat`
    * `MmixAsm.toNat_packOperands`
    * `MmixAsm.opWord_eq_error_iff`
    * `MmixAsm.opWord_closed_form`
-/

------------------------------------------------------------
-- Packed Sums
------------------------------------------------------------

namespace MmixAsm

/-
  The sum of the operands' low bytes, weighted by their
  places.  The last of them has the weight of one byte.
-/
def operandSum (values : List UInt64) : Nat :=
  ∑ index ∈ Finset.range values.length,
    (values.getD index 0).toNat % 256
      * 256 ^ (values.length - index)

/- One more operand moves all others up by a byte. -/
theorem operandSum_concat
    (front : List UInt64)
    (value : UInt64) :
    operandSum (front ++ [value]) =
      (operandSum front + value.toNat % 256) * 256 := by
  have hFront : ∀ index ∈ Finset.range front.length,
      ((front ++ [value]).getD index 0).toNat % 256
          * 256 ^ (front.length + 1 - index) =
        (front.getD index 0).toNat % 256
          * 256 ^ (front.length - index) * 256 := by
    intro index hIndex
    have hLess := Finset.mem_range.mp hIndex
    rw [List.getD_append _ _ _ _ hLess,
      Nat.succ_sub (Nat.le_of_lt hLess), pow_succ,
      Nat.mul_assoc]
  unfold operandSum
  rw [List.length_append, List.length_singleton,
    Finset.sum_range_succ, Finset.sum_congr rfl hFront,
    ← Finset.sum_mul, Nat.add_mul]
  simp

/- An operand goes into the free byte of what is packed. -/
theorem toNat_pack_step
    {code : UInt64}
    (hFree : code.toNat % 256 = 0)
    (value : UInt64) :
    ((code ||| (value &&& 0xFF)) <<< 8).toNat =
      ((code.toNat + value.toNat % 256) * 256)
        % UInt64.size := by
  have hMask : (value &&& 0xFF).toNat = value.toNat % 256 := by
    rw [UInt64.toNat_and]
    exact Nat.and_two_pow_sub_one_eq_mod value.toNat 8
  have hCode : code.toNat = 2 ^ 8 * (code.toNat / 256) := by
    omega
  have hByte : value.toNat % 256 < 2 ^ 8 :=
    Nat.mod_lt _ (by decide)
  have hOr : code.toNat ||| value.toNat % 256 =
      code.toNat + value.toNat % 256 := by
    rw [hCode, ← Nat.two_pow_add_eq_or_of_lt hByte]
  rw [UInt64.toNat_shiftLeft, UInt64.toNat_or, hMask, hOr,
    Nat.shiftLeft_eq]
  rfl

/- Packed operands are their weighted sum. -/
theorem toNat_packOperands (values : List UInt64) :
    (packOperands values).toNat =
      operandSum values % UInt64.size := by
  -- The last operand is packed last, as in the sum.
  induction values using List.reverseRecOn with
  | nil => rfl
  | append_singleton front value ih =>
      have hPack : packOperands (front ++ [value]) =
          (packOperands front ||| (value &&& 0xFF)) <<< 8 := by
        simp [packOperands]
      have hFree : (packOperands front).toNat % 256 = 0 :=
        byteAt_packOperands front (by decide : 0 < 8)
      have hSize : UInt64.size = 18446744073709551616 := rfl
      rw [hPack, toNat_pack_step hFree, ih, operandSum_concat,
        hSize]
      omega

end MmixAsm

------------------------------------------------------------
-- Words In Closed Form
------------------------------------------------------------

namespace MmixAsm

/- The opcode counts as the highest byte. -/
theorem toNat_shifted_opcode (opcode : UInt8) :
    (opcode.toUInt64 <<< 56).toNat = opcode.toNat * 2 ^ 56 := by
  have hByte := opcode.toNat_lt
  rw [UInt64.toNat_shiftLeft, UInt8.toNat_toUInt64,
    Nat.shiftLeft_eq]
  apply Nat.mod_eq_of_lt
  change opcode.toNat * 2 ^ 56 < 2 ^ 64
  omega

theorem toNat_opWord
    (opcode : UInt8)
    (values : List UInt64) :
    (packOperands values ||| (opcode.toUInt64 <<< 56)).toNat =
      opcode.toNat * 2 ^ 56 ||| operandSum values % 2 ^ 64 := by
  rw [UInt64.toNat_or, toNat_packOperands, toNat_shifted_opcode,
    Nat.or_comm]
  rfl

/- Operands are texts that denote their values. -/
theorem operands_eq_ok_iff
    {texts : List String}
    {values : List UInt64} :
    texts.mapM operand = .ok values ↔
      List.Forall₂ Denotes texts values := by
  constructor
  · intro h
    exact (forall₂_of_mapM_eq_ok h).imp
      fun _ _ => operand_eq_ok_iff.mp
  · intro h
    exact mapM_eq_ok_of_forall₂
      (h.imp fun _ _ => operand_eq_ok_iff.mpr)

/- The first text that is no operand is named. -/
theorem operands_eq_error_iff
    {texts : List String}
    {fault : CodeError} :
    texts.mapM operand = .error fault ↔
      ∃ front text back,
        texts = front ++ text :: back ∧
          (∀ other ∈ front, IsOperand other) ∧
          ¬ IsOperand text ∧
          fault = .malformedNumber ⟨text⟩ := by
  simp only [mapM_eq_error_iff, operand_eq_ok_iff,
    operand_eq_error_iff, IsOperand, and_comm]

/- A known mnemonic and operands have a word. -/
theorem opWord_of_denotes
    {line : Line String}
    {opcode : UInt8}
    {values : List UInt64}
    (hOpcode : Mnemonic.opcode? line.keyword = some opcode)
    (hValues : List.Forall₂ Denotes line.parameters values) :
    opWord line =
      .ok (packOperands values
        ||| (opcode.toUInt64 <<< 56)) := by
  unfold opWord
  simp only [hOpcode, operands_eq_ok_iff.mpr hValues]

/- An operation without a word names what is wrong with it. -/
theorem opWord_eq_error_iff
    {line : Line String}
    {fault : CodeError} :
    opWord line = .error fault ↔
      (Mnemonic.opcode? line.keyword = none ∧
        fault = .unknownMnemonic line.keyword) ∨
      ((Mnemonic.opcode? line.keyword).isSome ∧
        ∃ front text back,
          line.parameters = front ++ text :: back ∧
            (∀ other ∈ front, IsOperand other) ∧
            ¬ IsOperand text ∧
            fault = .malformedNumber ⟨text⟩) := by
  rw [← operands_eq_error_iff]
  unfold opWord
  cases Mnemonic.opcode? line.keyword with
  | none => simp [eq_comm]
  | some opcode =>
      cases line.parameters.mapM operand with
      | error cause => simp
      | ok values => simp

/-
  The word of an operation is its opcode in the highest byte,
  put on top of the weighted sum of the operands' low bytes as
  far as that fits into the word.  So the lowest byte is free,
  and up to six operands are read back from the word together
  with the opcode.  There is no word if and only if the
  mnemonic is unknown or some parameter is no operand, and the
  first such parameter is named.
-/
theorem opWord_closed_form (line : Line String) :
    (∀ opcode values,
      Mnemonic.opcode? line.keyword = some opcode →
      List.Forall₂ Denotes line.parameters values →
      ∃ word,
        opWord line = .ok word ∧
          word.toNat = opcode.toNat * 2 ^ 56
            ||| operandSum values % 2 ^ 64 ∧
          byteAt word 0 = 0 ∧
          (line.parameters.length ≤ 6 →
            byteAt word 7 = opcode.toNat ∧
              ∀ index value,
                values[index]? = some value →
                byteAt word (values.length - index) =
                  value.toNat % 256)) ∧
    (∀ fault,
      opWord line = .error fault ↔
        (Mnemonic.opcode? line.keyword = none ∧
          fault = .unknownMnemonic line.keyword) ∨
        ((Mnemonic.opcode? line.keyword).isSome ∧
          ∃ front text back,
            line.parameters = front ++ text :: back ∧
              (∀ other ∈ front, IsOperand other) ∧
              ¬ IsOperand text ∧
              fault = .malformedNumber ⟨text⟩)) ∧
    ((∃ fault, opWord line = .error fault) ↔
      Mnemonic.opcode? line.keyword = none ∨
        ∃ text ∈ line.parameters, ¬ IsOperand text) := by
  refine ⟨?_, fun fault => opWord_eq_error_iff, ?_⟩
  · intro opcode values hOpcode hValues
    have hLength := hValues.length_eq
    refine ⟨_, opWord_of_denotes hOpcode hValues,
      toNat_opWord opcode values, ?_, ?_⟩
    · rw [byteAt_opWord opcode values (by decide)]
      rfl
    · intro hFew
      rw [hLength] at hFew
      constructor
      · rw [byteAt_opWord opcode values (by decide), if_pos rfl,
          operandByte_of_length_lt (by omega), Nat.zero_or]
      · intro index value hValue
        rw [byteAt_opWord opcode values (by omega),
          if_neg (by omega), operandByte_of_getElem? hValue]
  · constructor
    · rintro ⟨fault, hFault⟩
      rcases opWord_eq_error_iff.mp hFault with
        ⟨hNone, _⟩ |
          ⟨_, front, text, back, hSplit, _, hText, _⟩
      · exact .inl hNone
      · refine .inr ⟨text, ?_, hText⟩
        rw [hSplit]
        exact List.mem_append_right _ List.mem_cons_self
    · intro hBad
      cases hWord : opWord line with
      | error fault => exact ⟨fault, rfl⟩
      | ok word =>
          rcases opWord_cases hWord with
            ⟨opcode, values, hOpcode, hValues, _⟩
          rcases hBad with hNone | ⟨text, hMem, hText⟩
          · cases hNone.symm.trans hOpcode
          · rcases exists_mem_of_forall₂
              (operands_eq_ok_iff.mp hValues) hMem with
              ⟨value, _, hDenotes⟩
            exact absurd ⟨value, hDenotes⟩ hText

/- Two parameters of this line are no operands. -/
def nowhereLine : Line String where
  label := none
  keyword := "PUSHJ"
  parameters := ["$1", "nowhere", "$x"]

theorem filledLine_closed_form :
    (∃ word,
      opWord (filledLine "SETL") = .ok word ∧
        word.toNat = 0xE3 * 2 ^ 56
          ||| operandSum [255, 511, 4, 3, 2, 0xFFFFFFFFFFFFFFFF]
            % 2 ^ 64 ∧
        byteAt word 0 = 0 ∧
        byteAt word 7 = 0xE3 ∧
        byteAt word 5 = 255) ∧
    (∃ word,
      opWord crowdedLine = .ok word ∧
        word.toNat = 0xE3 * 2 ^ 56
          ||| operandSum
            [9, 8, 263, 6, 5, 4, 3, 2, 0xFFFFFFFFFFFFFFFF]
            % 2 ^ 64) ∧
    opWord nowhereLine =
      .error (.malformedNumber ⟨"nowhere"⟩) := by
  refine ⟨?_, ?_, ?_⟩
  · have hValues : List.Forall₂ Denotes
        (filledLine "SETL").parameters
        [255, 511, 4, 3, 2, 0xFFFFFFFFFFFFFFFF] :=
      operands_eq_ok_iff.mp (by decide +kernel)
    rcases (opWord_closed_form (filledLine "SETL")).1 0xE3 _
      (by decide +kernel) hValues with
      ⟨word, hWord, hSum, hLow, hFew⟩
    rcases hFew (by decide) with ⟨hTop, hBytes⟩
    exact ⟨word, hWord, hSum, hLow, hTop, hBytes 1 511 rfl⟩
  · have hValues : List.Forall₂ Denotes crowdedLine.parameters
        [9, 8, 263, 6, 5, 4, 3, 2, 0xFFFFFFFFFFFFFFFF] :=
      operands_eq_ok_iff.mp (by decide +kernel)
    rcases (opWord_closed_form crowdedLine).1 0xE3 _
      (by decide +kernel) hValues with ⟨word, hWord, hSum, _⟩
    exact ⟨word, hWord, hSum⟩
  · have hFirst : IsOperand "$1" :=
      ⟨1, operand_eq_ok_iff.mp (by decide +kernel)⟩
    have hNowhere : operand "nowhere" =
        .error (.malformedNumber ⟨"nowhere"⟩) := by
      decide +kernel
    refine ((opWord_closed_form nowhereLine).2.1 _).mpr
      (.inr ⟨by decide +kernel, ["$1"], "nowhere", ["$x"], rfl,
        ?_, (operand_eq_error_iff.mp hNowhere).2, rfl⟩)
    intro other hOther
    rwa [List.mem_singleton.mp hOther]

end MmixAsm
