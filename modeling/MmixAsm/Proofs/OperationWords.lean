import Mathlib.Data.List.Induction
import MmixAsm.Code.Words
import MmixAsm.Proofs.Outcome
import MmixAsm.SourceFile

/-
  What the bytes of an operation's word hold.

  The operands fill the bytes above the lowest one from the
  right, and the opcode is put on top of whatever has come
  into the highest byte by then.  Up to six operands do not
  reach it.  From seven operands on, the seventh one from the
  end is mixed with the opcode, and those in front of it are
  lost.

  Key definitions include:
    * `MmixAsm.byteAt`
    * `MmixAsm.operandByte`

  Key theorems include:
    * `MmixAsm.byteAt_packOperands`
    * `MmixAsm.opWord_cases`
    * `MmixAsm.byteAt_opWord`
    * `MmixAsm.exists_operand_byte`
    * `MmixAsm.opWord_top_byte`
-/

------------------------------------------------------------
-- Bytes Of A Word
------------------------------------------------------------

namespace MmixAsm

/- The byte of a word at a place; the lowest is at zero. -/
def byteAt
    (word : UInt64)
    (place : Nat) : Nat :=
  (word.toNat >>> (8 * place)) % 256

theorem testBit_byteAt
    (word : UInt64)
    (place bit : Nat) :
    (byteAt word place).testBit bit =
      (decide (bit < 8) &&
        word.toNat.testBit (8 * place + bit)) := by
  have hMod := Nat.testBit_mod_two_pow
    (word.toNat >>> (8 * place)) 8 bit
  rw [Nat.testBit_shiftRight] at hMod
  exact hMod

theorem byteAt_or
    (left right : UInt64)
    (place : Nat) :
    byteAt (left ||| right) place =
      byteAt left place ||| byteAt right place := by
  apply Nat.eq_of_testBit_eq
  intro bit
  rw [Nat.testBit_or, testBit_byteAt, testBit_byteAt,
    testBit_byteAt, UInt64.toNat_or, Nat.testBit_or]
  cases decide (bit < 8) with
  | false => rfl
  | true => rfl

/- Shifting by a byte frees the lowest place. -/
theorem byteAt_shift_zero (word : UInt64) :
    byteAt (word <<< 8) 0 = 0 := by
  apply Nat.eq_of_testBit_eq
  intro bit
  rw [testBit_byteAt, UInt64.toNat_shiftLeft,
    Nat.testBit_mod_two_pow, Nat.testBit_shiftLeft,
    Nat.zero_testBit]
  by_cases hBit : bit < 8
  · have hAmount : (8 : UInt64).toNat % 64 = 8 := rfl
    have hNot : ¬ 8 * 0 + bit ≥ 8 := by omega
    rw [hAmount, decide_eq_false hNot]
    simp
  · simp [hBit]

/- Shifting by a byte moves every other byte up. -/
theorem byteAt_shift_succ
    (word : UInt64)
    {place : Nat}
    (hPlace : place + 1 < 8) :
    byteAt (word <<< 8) (place + 1) = byteAt word place := by
  apply Nat.eq_of_testBit_eq
  intro bit
  rw [testBit_byteAt, testBit_byteAt, UInt64.toNat_shiftLeft,
    Nat.testBit_mod_two_pow, Nat.testBit_shiftLeft]
  by_cases hBit : bit < 8
  · have hAmount : (8 : UInt64).toNat % 64 = 8 := rfl
    have hInside : 8 * (place + 1) + bit < 64 := by omega
    have hReached : 8 * (place + 1) + bit ≥ 8 := by omega
    have hSource :
        8 * (place + 1) + bit - 8 = 8 * place + bit := by
      omega
    rw [hAmount, hSource]
    simp [hInside, hReached]
  · simp [hBit]

/- The mask of one byte keeps the lowest byte only. -/
theorem byteAt_mask
    (value : UInt64)
    (place : Nat) :
    byteAt (value &&& 0xFF) place =
      if place = 0 then value.toNat % 256 else 0 := by
  have hMask :
      (value &&& 0xFF).toNat = value.toNat % 256 := by
    rw [UInt64.toNat_and]
    exact Nat.and_two_pow_sub_one_eq_mod value.toNat 8
  unfold byteAt
  rw [hMask]
  by_cases hPlace : place = 0
  · subst hPlace
    simp
  · have hByte : value.toNat % 256 < 256 := by omega
    have hPower : 2 ^ 8 ≤ 2 ^ (8 * place) :=
      Nat.pow_le_pow_right (by omega) (by omega)
    rw [if_neg hPlace, Nat.shiftRight_eq_div_pow,
      Nat.div_eq_of_lt (Nat.lt_of_lt_of_le hByte hPower)]

/- A byte that is shifted to the highest place. -/
theorem byteAt_top
    (byte : UInt8)
    {place : Nat}
    (hPlace : place < 8) :
    byteAt (byte.toUInt64 <<< 56) place =
      if place = 7 then byte.toNat else 0 := by
  have hByte := byte.toNat_lt
  have hWord : (byte.toUInt64 <<< 56).toNat =
      byte.toNat <<< 56 := by
    rw [UInt64.toNat_shiftLeft, UInt8.toNat_toUInt64,
      Nat.mod_eq_of_lt]
    · rfl
    · rw [Nat.shiftLeft_eq]
      have hAmount : (56 : UInt64).toNat % 64 = 56 := rfl
      rw [hAmount]
      omega
  apply Nat.eq_of_testBit_eq
  intro bit
  rw [testBit_byteAt, hWord, Nat.testBit_shiftLeft]
  by_cases hTop : place = 7
  · subst hTop
    have hSource : 8 * 7 + bit - 56 = bit := by omega
    rw [if_pos rfl, hSource]
    by_cases hBit : bit < 8
    · simp [hBit]
    · have hHigh : byte.toNat.testBit bit = false :=
        Nat.testBit_lt_two_pow (Nat.lt_of_lt_of_le hByte
          (Nat.pow_le_pow_right (by omega) (by omega)))
      simp [hHigh]
  · rw [if_neg hTop, Nat.zero_testBit]
    by_cases hBit : bit < 8
    · have hNot : ¬ 8 * place + bit ≥ 56 := by omega
      simp [hNot]
    · simp [hBit]

end MmixAsm

------------------------------------------------------------
-- Packed Operands
------------------------------------------------------------

namespace MmixAsm

/-
  The low byte of an operand, counted from the end.  The last
  operand is at place one, and there is none at place zero or
  in front of the first operand.
-/
def operandByte
    (values : List UInt64) :
    Nat → Nat
| 0 => 0
| place + 1 =>
    (values.reverse[place]?).elim 0 (·.toNat % 256)

theorem operandByte_of_length_lt
    {values : List UInt64}
    {place : Nat}
    (hLength : values.length < place) :
    operandByte values place = 0 := by
  cases place with
  | zero => rfl
  | succ place =>
      have hNone : values.reverse[place]? = none := by
        apply List.getElem?_eq_none
        rw [List.length_reverse]
        omega
      simp [operandByte, hNone]

/- An operand and how many operands it has behind itself. -/
theorem operandByte_of_getElem?
    {values : List UInt64}
    {index : Nat}
    {value : UInt64}
    (hValue : values[index]? = some value) :
    operandByte values (values.length - index) =
      value.toNat % 256 := by
  have hIndex : index < values.length := by
    exact (List.getElem?_eq_some_iff.mp hValue).1
  have hPlace : values.length - index =
      (values.length - 1 - index) + 1 := by
    omega
  have hBack : values.length - 1 - (values.length - 1 - index) =
      index := by
    omega
  rw [hPlace, operandByte, List.getElem?_reverse (by omega),
    hBack, hValue]
  rfl

/- The bytes of packed operands are the operands' bytes. -/
theorem byteAt_packOperands
    (values : List UInt64)
    {place : Nat}
    (hPlace : place < 8) :
    byteAt (packOperands values) place =
      operandByte values place := by
  -- The last operand is packed last, so the induction takes
  -- operands from the end.
  induction values using List.reverseRecOn
    generalizing place with
  | nil =>
      have hEmpty : operandByte [] place = 0 := by
        cases place with
        | zero => rfl
        | succ place => rfl
      rw [hEmpty]
      simp [packOperands, byteAt]
  | append_singleton front value ih =>
      have hPack : packOperands (front ++ [value]) =
          (packOperands front ||| (value &&& 0xFF)) <<< 8 := by
        simp [packOperands]
      rw [hPack]
      cases place with
      | zero => exact byteAt_shift_zero _
      | succ place =>
          rw [byteAt_shift_succ _ hPlace, byteAt_or,
            byteAt_mask, ih (by omega)]
          cases place with
          | zero => simp [operandByte]
          | succ place => simp [operandByte]

end MmixAsm

------------------------------------------------------------
-- Words Of Operations
------------------------------------------------------------

namespace MmixAsm

/- An opcode has one mnemonic. -/
theorem Mnemonic.opcode?_inj
    {word word' : String}
    {opcode : UInt8}
    (h : opcode? word = some opcode)
    (h' : opcode? word' = some opcode) :
    word = word' := by
  rcases Option.map_eq_some_iff.mp h with
    ⟨place, hPlace, hOpcode⟩
  rcases Option.map_eq_some_iff.mp h' with
    ⟨place', hPlace', hOpcode'⟩
  rcases List.idxOf?_eq_some_iff.mp hPlace with
    ⟨hLength, hWord, _⟩
  rcases List.idxOf?_eq_some_iff.mp hPlace' with
    ⟨hLength', hWord', _⟩
  have hTable : table.length = UInt8.size := by
    decide +kernel
  -- All places of the table fit into a byte.
  have hSame : place = place' := by
    have hBytes := congrArg UInt8.toNat
      (hOpcode.trans hOpcode'.symm)
    rw [UInt8.toNat_ofNat_of_lt', UInt8.toNat_ofNat_of_lt']
      at hBytes
    · exact hBytes
    · rwa [hTable] at hLength'
    · rwa [hTable] at hLength
  subst hSame
  rw [← hWord, ← hWord']

/- An operation with a word has an opcode and operands. -/
theorem opWord_cases
    {line : Line String}
    {word : UInt64}
    (hWord : opWord line = .ok word) :
    ∃ opcode values,
      Mnemonic.opcode? line.keyword = some opcode ∧
        line.parameters.mapM operand = .ok values ∧
        word =
          packOperands values ||| (opcode.toUInt64 <<< 56) := by
  unfold opWord at hWord
  split at hWord
  · cases hWord
  · next opcode hOpcode =>
      split at hWord
      · cases hWord
      · next values hValues =>
          cases hWord
          exact ⟨opcode, values, hOpcode, hValues, rfl⟩

/- The bytes of an operation's word. -/
theorem byteAt_opWord
    (opcode : UInt8)
    (values : List UInt64)
    {place : Nat}
    (hPlace : place < 8) :
    byteAt (packOperands values ||| (opcode.toUInt64 <<< 56))
        place =
      if place = 7 then operandByte values 7 ||| opcode.toNat
      else operandByte values place := by
  rw [byteAt_or, byteAt_packOperands values hPlace,
    byteAt_top opcode hPlace]
  by_cases hTop : place = 7
  · rw [if_pos hTop, if_pos hTop, hTop]
  · rw [if_neg hTop, if_neg hTop, Nat.or_zero]

/- Every operand has a value. -/
theorem length_of_operands
    {texts : List String}
    {values : List UInt64}
    (h : texts.mapM operand = .ok values) :
    values.length = texts.length :=
  (forall₂_of_mapM_eq_ok h).length_eq.symm

/- The last six operands have a byte of the word each. -/
theorem exists_operand_byte
    {line : Line String}
    {word : UInt64}
    (hWord : opWord line = .ok word)
    {index : Nat}
    {text : String}
    (hText : line.parameters[index]? = some text) :
    ∃ value, operand text = .ok value ∧
      (line.parameters.length - index ≤ 6 →
        byteAt word (line.parameters.length - index) =
          value.toNat % 256) := by
  rcases opWord_cases hWord with
    ⟨opcode, values, _, hValues, rfl⟩
  rcases exists_getElem?_of_forall₂
    (forall₂_of_mapM_eq_ok hValues) hText with
    ⟨value, hValue, hOperand⟩
  refine ⟨value, hOperand, ?_⟩
  intro hPlace
  rw [← length_of_operands hValues] at hPlace ⊢
  rw [byteAt_opWord opcode values (by omega),
    if_neg (by omega), operandByte_of_getElem? hValue]

/- Few operands leave the highest byte to the opcode. -/
theorem top_byte_of_length_le
    {line : Line String}
    {word : UInt64}
    (hWord : opWord line = .ok word)
    (hLength : line.parameters.length ≤ 6) :
    ∃ opcode, Mnemonic.opcode? line.keyword = some opcode ∧
      byteAt word 7 = opcode.toNat := by
  rcases opWord_cases hWord with
    ⟨opcode, values, hOpcode, hValues, rfl⟩
  refine ⟨opcode, hOpcode, ?_⟩
  have hFew : values.length < 7 := by
    rw [length_of_operands hValues]
    omega
  rw [byteAt_opWord opcode values (by omega), if_pos rfl,
    operandByte_of_length_lt hFew, Nat.zero_or]

/-
  The highest byte of an operation's word is its opcode mixed
  with the seventh operand from the end.  It is the opcode
  itself if there are at most six operands, and then the word
  differs from that of any other mnemonic with at most six.
-/
theorem opWord_top_byte
    {line : Line String}
    {word : UInt64}
    (hWord : opWord line = .ok word) :
    ∃ opcode values,
      Mnemonic.opcode? line.keyword = some opcode ∧
        line.parameters.mapM operand = .ok values ∧
        byteAt word 7 =
          operandByte values 7 ||| opcode.toNat ∧
        (line.parameters.length ≤ 6 →
          byteAt word 7 = opcode.toNat ∧
            ∀ other otherWord,
              opWord other = .ok otherWord →
              other.parameters.length ≤ 6 →
              other.keyword ≠ line.keyword →
              otherWord ≠ word) := by
  rcases opWord_cases hWord with
    ⟨opcode, values, hOpcode, hValues, hBytes⟩
  refine ⟨opcode, values, hOpcode, hValues, ?_, ?_⟩
  · rw [hBytes, byteAt_opWord opcode values (by omega),
      if_pos rfl]
  · intro hLength
    rcases top_byte_of_length_le hWord hLength with
      ⟨opcode', hOpcode', hTop⟩
    cases hOpcode.symm.trans hOpcode'
    refine ⟨hTop, ?_⟩
    rintro other otherWord hOther hOtherLength hKeyword rfl
    rcases top_byte_of_length_le hOther hOtherLength with
      ⟨opcode', hOpcode', hTop'⟩
    have hSame : opcode' = opcode :=
      UInt8.toNat_inj.mp (hTop'.symm.trans hTop)
    rw [hSame] at hOpcode'
    exact hKeyword (Mnemonic.opcode?_inj hOpcode' hOpcode)

/- Nine operands, of which the first two are lost. -/
def crowdedLine : Line String where
  label := none
  keyword := "SETL"
  parameters :=
    ["$9", "8", "#107", "6", "5", "4", "3", "2", "-1"]

/- Six operands, which fill all bytes below the highest. -/
def filledLine (mnemonic : String) : Line String where
  label := none
  keyword := mnemonic
  parameters := ["$255", "#1FF", "4", "3", "2", "-1"]

theorem crowdedLine_top_byte :
    (∃ word opcode values,
      opWord crowdedLine = .ok word ∧
        Mnemonic.opcode? "SETL" = some opcode ∧
        crowdedLine.parameters.mapM operand = .ok values ∧
        byteAt word 7 =
          operandByte values 7 ||| opcode.toNat) ∧
    ∃ word other opcode,
      opWord (filledLine "SETL") = .ok word ∧
        opWord (filledLine "SETH") = .ok other ∧
        Mnemonic.opcode? "SETL" = some opcode ∧
        byteAt word 7 = opcode.toNat ∧
        other ≠ word := by
  constructor
  · have hWord : opWord crowdedLine =
        .ok 0xE70605040302FF00 := by
      decide +kernel
    rcases opWord_top_byte hWord with
      ⟨opcode, values, hOpcode, hValues, hTop, _⟩
    exact ⟨_, opcode, values, hWord, hOpcode, hValues, hTop⟩
  · have hWord : opWord (filledLine "SETL") =
        .ok 0xE3FFFF040302FF00 := by
      decide +kernel
    have hOther : opWord (filledLine "SETH") =
        .ok 0xE0FFFF040302FF00 := by
      decide +kernel
    rcases opWord_top_byte hWord with
      ⟨opcode, _, hOpcode, _, _, hFew⟩
    rcases hFew (by decide) with ⟨hTop, hApart⟩
    exact ⟨_, _, opcode, hWord, hOther, hOpcode, hTop,
      hApart _ _ hOther (by decide) (by decide)⟩

/- Two operations that are read from text. -/
def mixedUpFile : SourceFile where
  name := "main"
  instructions := [
    .op ⟨none, "TRAP", ["1", "0", "0", "0", "0", "0", "0"]⟩,
    .op ⟨none, "FCMP", ["0", "0", "0", "0", "0", "0", "0"]⟩]
  isEntry := false

/-
  With seven operands the highest byte need not be the opcode,
  and different mnemonics may give the same word.
-/
theorem mixedUpFile_hides_opcode :
    SourceFile.parse "main"
        "TRAP 1,0,0,0,0,0,0\nFCMP 0,0,0,0,0,0,0" =
      .ok mixedUpFile ∧
    ∃ trap fcmp word,
      mixedUpFile.instructions = [.op trap, .op fcmp] ∧
        trap.keyword ≠ fcmp.keyword ∧
        opWord trap = .ok word ∧
        opWord fcmp = .ok word ∧
        Mnemonic.opcode? trap.keyword = some 0 ∧
        byteAt word 7 = 1 := by
  refine ⟨by decide +kernel, _, _, 0x0100000000000000, rfl,
    by decide, by decide +kernel, by decide +kernel,
    by decide +kernel, by decide +kernel⟩

end MmixAsm
