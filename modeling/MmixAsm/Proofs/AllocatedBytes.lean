import MmixAsm.Proofs.LiteralGrammar
import MmixAsm.Proofs.WordPositions

/-
  What the words of an allocation hold.

  A value is written byte by byte, the most significant byte
  first, and reading the bytes as digits gives back as much of
  the value as the size holds.  A quoted text is written as
  its UTF-8 bytes, from which it is decoded again.  There is
  nothing else that can be allocated.

  Key definitions include:
    * `MmixAsm.bigEndian`
    * `MmixAsm.quoted`

  Key theorems include:
    * `MmixAsm.bigEndian_valueBytes`
    * `MmixAsm.Literal.content?_eq_some_iff`
    * `MmixAsm.fromUTF8?_textBytes`
    * `MmixAsm.allocWords_eq_error_iff`
    * `MmixAsm.allocWords_round_trip`
-/

------------------------------------------------------------
-- Bytes Of A Value
------------------------------------------------------------

namespace MmixAsm

/- The number whose bytes are given, the highest first. -/
def bigEndian (words : List UInt64) : Nat :=
  Nat.ofDigits 256 (words.reverse.map UInt64.toNat)

theorem bigEndian_cons
    (word : UInt64)
    (rest : List UInt64) :
    bigEndian (word :: rest) =
      bigEndian rest + 256 ^ rest.length * word.toNat := by
  unfold bigEndian
  rw [List.reverse_cons, List.map_append, List.map_singleton,
    Nat.ofDigits_append, Nat.ofDigits_singleton,
    List.length_map, List.length_reverse]

/- One byte of a value. -/
theorem toNat_shifted_byte
    (value : UInt64)
    {place : Nat}
    (hPlace : place < 8) :
    ((value >>> (8 * UInt64.ofNat place)) &&& 0xFF).toNat =
      value.toNat / 256 ^ place % 256 := by
  have hAmount : (8 * UInt64.ofNat place).toNat % 64 =
      8 * place := by
    rw [UInt64.toNat_mul, UInt64.toNat_ofNat']
    change 8 * (place % 2 ^ 64) % 2 ^ 64 % 64 = 8 * place
    omega
  have hPower : 2 ^ (8 * place) = 256 ^ place := by
    rw [pow_mul]
    rfl
  rw [UInt64.toNat_and, UInt64.toNat_shiftRight, hAmount,
    Nat.shiftRight_eq_div_pow, hPower]
  exact Nat.and_two_pow_sub_one_eq_mod _ 8

/- Every word of a value is a byte. -/
theorem lt_of_mem_valueBytes
    {value : UInt64}
    {width : Nat}
    {word : UInt64}
    (hMem : word ∈ valueBytes value width) :
    word.toNat < 256 := by
  induction width with
  | zero => cases hMem
  | succ width ih =>
      rcases List.mem_cons.mp hMem with rfl | hRest
      · rw [UInt64.toNat_and]
        exact Nat.lt_succ_of_le Nat.and_le_right
      · exact ih hRest

/- The bytes of a value are its last digits. -/
theorem bigEndian_valueBytes
    (value : UInt64)
    {width : Nat}
    (hWidth : width ≤ 8) :
    bigEndian (valueBytes value width) =
      value.toNat % 256 ^ width := by
  induction width with
  | zero => simp [valueBytes, bigEndian, Nat.mod_one]
  | succ width ih =>
      rw [valueBytes, bigEndian_cons, ih (by omega),
        length_valueBytes, toNat_shifted_byte value hWidth,
        Nat.mod_pow_succ]

end MmixAsm

------------------------------------------------------------
-- Sizes
------------------------------------------------------------

namespace MmixAsm

namespace DataSize

theorem width_le (size : DataSize) : size.width ≤ 8 := by
  cases size <;> decide

/- The largest size holds every word. -/
theorem mod_octa (value : UInt64) :
    value.toNat % 256 ^ octa.width = value.toNat :=
  Nat.mod_eq_of_lt value.toNat_lt

/- What a size holds of a negated number. -/
theorem negated_mod
    (size : DataSize)
    {n : Nat}
    (hLess : n < UInt64.size) :
    (UInt64.ofNat (UInt64.size - n)).toNat % 256 ^ size.width =
      (256 ^ size.width - n % 256 ^ size.width)
        % 256 ^ size.width := by
  have hWord : (UInt64.ofNat (UInt64.size - n)).toNat =
      (UInt64.size - n) % UInt64.size :=
    UInt64.toNat_ofNat'
  have hSize : UInt64.size = 18446744073709551616 := rfl
  rw [hSize] at hLess
  rw [hWord, hSize]
  cases size <;> simp only [width] <;> omega

end DataSize

end MmixAsm

------------------------------------------------------------
-- Quoted Texts
------------------------------------------------------------

namespace MmixAsm

/- A text between double quotes. -/
def quoted (content : String) : String :=
  "\"" ++ content ++ "\""

namespace Literal

theorem dropClosingQuote?_eq_some_iff
    {cs inner : List Char} :
    dropClosingQuote? cs = some inner ↔
      cs = inner ++ ['"'] := by
  fun_induction dropClosingQuote? cs generalizing inner with
  | case1 => simp
  | case2 => simp [eq_comm]
  | case3 c cs hOther ih =>
      rw [Option.map_eq_some_iff]
      constructor
      · rintro ⟨rest, hRest, rfl⟩
        rw [ih.mp hRest, List.cons_append]
      · intro hText
        cases inner with
        | nil =>
            cases hText
            exact absurd rfl (hOther rfl)
        | cons head rest =>
            cases hText
            exact ⟨rest, ih.mpr rfl, rfl⟩

theorem toList_quoted (content : String) :
    (quoted content).toList =
      '"' :: (content.toList ++ ['"']) := by
  rw [quoted, String.toList_append, String.toList_append]
  rfl

/- The content is what stands between the outer quotes. -/
theorem content?_eq_some_iff
    {text content : String} :
    content? text = some content ↔ text = quoted content := by
  unfold content?
  constructor
  · intro h
    split at h
    · next cs hText =>
        rcases Option.map_eq_some_iff.mp h with
          ⟨inner, hInner, rfl⟩
        apply String.toList_inj.mp
        rw [hText, toList_quoted, String.toList_ofList,
          dropClosingQuote?_eq_some_iff.mp hInner]
    · cases h
  · rintro rfl
    rw [toList_quoted]
    simp [dropClosingQuote?_eq_some_iff.mpr rfl]

/- What is quoted is not an operand. -/
theorem content?_of_denotes
    {text : String}
    {value : UInt64}
    (h : Denotes text value) :
    content? text = none := by
  unfold content?
  split
  · next cs hText =>
      cases h with
      | register hRegister _ _ =>
          cases hText.symm.trans hRegister
      | number hNumeral =>
          rw [hText] at hNumeral
          exact absurd hNumeral.opens (by decide)
  · rfl

end Literal

/- The words of a text are its bytes. -/
theorem textBytes_eq (text : String) :
    textBytes text =
      text.toUTF8.data.toList.map UInt8.toUInt64 := by
  unfold textBytes
  rw [String.toUTF8_eq_toByteArray, ← String.utf8Encode_toList,
    List.utf8Encode, List.toList_data_toByteArray]

/- A text is decoded from its words. -/
theorem fromUTF8?_textBytes (text : String) :
    String.fromUTF8?
        ((textBytes text).map UInt64.toUInt8).toByteArray =
      some text := by
  have hBytes : ((textBytes text).map
      UInt64.toUInt8).toByteArray = text.toByteArray := by
    have hByte : UInt64.toUInt8 ∘ UInt8.toUInt64 = id :=
      funext UInt8.toUInt8_toUInt64
    unfold textBytes
    rw [List.map_map, hByte, List.map_id,
      ← String.utf8Encode_toList, List.utf8Encode]
  rw [hBytes]
  exact dif_pos text.isValidUTF8

end MmixAsm

------------------------------------------------------------
-- Words Of An Allocation
------------------------------------------------------------

namespace MmixAsm

section Allocation

variable {line : Line DataSize}
variable {text : String}
variable {others : List String}
variable (hLine : line.parameters = text :: others)

include hLine

/- A value is written in as many bytes as the size says. -/
theorem allocWords_of_denotes
    {value : UInt64}
    (h : Denotes text value) :
    allocWords line =
      .ok (valueBytes value line.keyword.width) := by
  unfold allocWords
  simp only [hLine, Literal.content?_of_denotes h,
    operand_eq_ok_iff.mpr h]
  rfl

/- A quoted text is written in its own bytes. -/
theorem allocWords_of_quoted
    {content : String}
    (h : text = quoted content) :
    allocWords line = .ok (textBytes content) := by
  unfold allocWords
  simp only [hLine, Literal.content?_eq_some_iff.mpr h]

end Allocation

/- Nothing else is allocated. -/
theorem allocWords_eq_error_iff
    {line : Line DataSize}
    {fault : CodeError} :
    allocWords line = .error fault ↔
      (line.parameters = [] ∧
        fault = .missingParameter line.keyword) ∨
      ∃ text others,
        line.parameters = text :: others ∧
          ¬ IsOperand text ∧
          (∀ content, text ≠ quoted content) ∧
          fault = .malformedNumber ⟨text⟩ := by
  constructor
  · intro h
    unfold allocWords at h
    cases hLine : line.parameters with
    | nil =>
        simp only [hLine] at h
        cases h
        exact .inl ⟨rfl, rfl⟩
    | cons text others =>
        right
        simp only [hLine] at h
        cases hContent : Literal.content? text with
        | some content =>
            simp only [hContent] at h
            cases h
        | none =>
            simp only [hContent] at h
            rcases operand_eq_error_iff.mp
              (fails_of_map_eq_error h) with ⟨rfl, hNot⟩
            refine ⟨text, others, rfl, hNot, ?_, rfl⟩
            intro content hQuoted
            rw [Literal.content?_eq_some_iff.mpr hQuoted]
              at hContent
            cases hContent
  · rintro (⟨hLine, rfl⟩ |
      ⟨text, others, hLine, hNot, hPlain, rfl⟩)
    · unfold allocWords
      simp only [hLine]
    · have hContent : Literal.content? text = none := by
        apply Option.eq_none_iff_forall_ne_some.mpr
        intro content hContent
        exact hPlain content
          (Literal.content?_eq_some_iff.mp hContent)
      have hOperand : operand text =
          .error (.malformedNumber ⟨text⟩) :=
        operand_eq_error_iff.mpr ⟨rfl, hNot⟩
      unfold allocWords
      simp only [hLine, hContent, hOperand]
      rfl

/-
  A register or a number is allocated in as many words as the
  size says, all of them bytes, which read as digits give the
  value modulo the range of the size.  The largest size gives
  back every word, and a negative number gives back its two's
  complement.  A quoted text is allocated in its UTF-8 bytes,
  whatever the size, and is decoded from them.  It fails if
  and only if there is no parameter or the first one is
  neither.
-/
theorem allocWords_round_trip (line : Line DataSize) :
    (∀ text others value,
      line.parameters = text :: others →
      Denotes text value →
      ∃ words,
        allocWords line = .ok words ∧
          words.length = line.keyword.width ∧
          (∀ word ∈ words, word.toNat < 256) ∧
          bigEndian words =
            value.toNat % 256 ^ line.keyword.width ∧
          (line.keyword = .octa →
            bigEndian words = value.toNat)) ∧
    (∀ text others cs n,
      line.parameters = text :: others →
      text.toList = '-' :: cs →
      Literal.Unsigned 10 cs n →
      n < UInt64.size →
      ∃ words,
        allocWords line = .ok words ∧
          bigEndian words =
            (256 ^ line.keyword.width
              - n % 256 ^ line.keyword.width)
                % 256 ^ line.keyword.width) ∧
    (∀ content others,
      line.parameters = quoted content :: others →
      ∃ words,
        allocWords line = .ok words ∧
          words =
            content.toUTF8.data.toList.map UInt8.toUInt64 ∧
          String.fromUTF8?
              (words.map UInt64.toUInt8).toByteArray =
            some content) ∧
    ∀ fault,
      allocWords line = .error fault ↔
        (line.parameters = [] ∧
          fault = .missingParameter line.keyword) ∨
        ∃ text others,
          line.parameters = text :: others ∧
            ¬ IsOperand text ∧
            (∀ content, text ≠ quoted content) ∧
            fault = .malformedNumber ⟨text⟩ := by
  have hWidth := line.keyword.width_le
  refine ⟨?_, ?_, ?_, fun fault => allocWords_eq_error_iff⟩
  · intro text others value hLine hDenotes
    have hReading := bigEndian_valueBytes value hWidth
    refine ⟨_, allocWords_of_denotes hLine hDenotes,
      length_valueBytes value _,
      fun word => lt_of_mem_valueBytes, hReading, ?_⟩
    intro hOcta
    rw [hReading, hOcta, DataSize.mod_octa]
  · intro text others cs n hLine hText hUnsigned hSize
    have hDenotes : Denotes text
        (UInt64.ofNat (UInt64.size - n)) := by
      apply Denotes.number
      rw [hText]
      exact .negative hUnsigned hSize
    refine ⟨_, allocWords_of_denotes hLine hDenotes, ?_⟩
    rw [bigEndian_valueBytes _ hWidth,
      DataSize.negated_mod line.keyword hSize]
  · intro content others hLine
    exact ⟨_, allocWords_of_quoted hLine rfl,
      textBytes_eq content, fromUTF8?_textBytes content⟩

/- An allocation of one size with one parameter. -/
def singleAlloc
    (size : DataSize)
    (parameter : String) : Line DataSize where
  label := none
  keyword := size
  parameters := [parameter]

theorem singleAlloc_round_trip :
    (∃ words,
      allocWords (singleAlloc .octa "#FEDCBA9876543210") =
          .ok words ∧
        words.length = 8 ∧
        bigEndian words = 0xFEDCBA9876543210) ∧
    (∃ words,
      allocWords (singleAlloc .wyde "-65537") = .ok words ∧
        bigEndian words = 0xFFFF) ∧
    (∃ words,
      allocWords (singleAlloc .byte "\"é$1\"\"") = .ok words ∧
        String.fromUTF8?
            (words.map UInt64.toUInt8).toByteArray =
          some "é$1\"") ∧
    allocWords (singleAlloc .tetra "\"") =
      .error (.malformedNumber ⟨"\""⟩) := by
  refine ⟨?_, ?_, ?_, ?_⟩
  · have hDenotes : Denotes "#FEDCBA9876543210"
        0xFEDCBA9876543210 :=
      operand_eq_ok_iff.mp (by decide +kernel)
    rcases (allocWords_round_trip
      (singleAlloc .octa "#FEDCBA9876543210")).1 _ [] _ rfl
      hDenotes with ⟨words, hWords, hLength, _, _, hOcta⟩
    exact ⟨words, hWords, hLength, hOcta rfl⟩
  · have hUnsigned : Literal.Unsigned 10
        ['6', '5', '5', '3', '7'] 65537 :=
      Literal.unsigned_toString 65537
    rcases (allocWords_round_trip
      (singleAlloc .wyde "-65537")).2.1 _ [] _ _ rfl
      (by decide) hUnsigned (by decide) with
      ⟨words, hWords, hReading⟩
    exact ⟨words, hWords, hReading⟩
  · rcases (allocWords_round_trip
      (singleAlloc .byte "\"é$1\"\"")).2.2.1 "é$1\"" []
      (by decide +kernel) with ⟨words, hWords, _, hDecoded⟩
    exact ⟨words, hWords, hDecoded⟩
  · have hNot : operand "\"" =
        .error (.malformedNumber ⟨"\""⟩) := by
      decide +kernel
    have hPlain : ∀ content, "\"" ≠ quoted content := by
      intro content hQuoted
      have hContent :=
        Literal.content?_eq_some_iff.mpr hQuoted
      cases hContent
    exact ((allocWords_round_trip
      (singleAlloc .tetra "\"")).2.2.2 _).mpr
      (.inr ⟨"\"", [], rfl, (operand_eq_error_iff.mp hNot).2,
        hPlain, rfl⟩)

end MmixAsm
