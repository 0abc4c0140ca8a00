import Mathlib.Data.List.Forall2
import Mathlib.Data.Nat.Digits.Defs
import MmixAsm.Code.Words
import MmixAsm.Layout.LabelTable
import MmixAsm.Proofs.Outcome

/-
  The grammar of numeric literals and operands.

  A numeral is one or more digits behind an optional plus
  sign.  In front of it stands the mark of the hexadecimal
  base, or a minus sign, or nothing.  Its digits have a
  positional value, which has to fit into a word.  What is
  read is that value, or its negation behind a minus sign, and
  no other text is read.

  Key definitions include:
    * `MmixAsm.Literal.IsDigit`
    * `MmixAsm.Literal.Spells`
    * `MmixAsm.Literal.Unsigned`
    * `MmixAsm.Literal.Numeral`
    * `MmixAsm.Denotes`

  Key theorems include:
    * `MmixAsm.Literal.unsigned?_eq_some_iff`
    * `MmixAsm.Literal.number_eq_ok_iff`
    * `MmixAsm.operand_eq_ok_iff`
    * `MmixAsm.Literal.numerals_read_exactly`
-/

------------------------------------------------------------
-- Digits
------------------------------------------------------------

namespace MmixAsm

namespace Literal

/- The same character, in lower or in upper case. -/
def InEitherCase
    (c lower : Char) : Prop :=
  c = lower ∨ c = lower.toUpper

instance
    (c lower : Char) :
    Decidable (InEitherCase c lower) := by
  unfold InEitherCase
  infer_instance

/- A character is the digit of a value below the base. -/
def IsDigit
    (base : Nat)
    (c : Char)
    (d : Nat) : Prop :=
  d < base ∧ InEitherCase c (Nat.digitChar d)

instance
    (base : Nat)
    (c : Char)
    (d : Nat) :
    Decidable (IsDigit base c d) := by
  unfold IsDigit
  infer_instance

/- What holds of all ASCII codes holds of ASCII characters. -/
theorem ascii_induction
    {motive : Char → Prop}
    (h : ∀ code < 128, motive (Char.ofNat code))
    {c : Char}
    (hAscii : c.toNat < 128) :
    motive c := by
  rw [← Char.ofNat_toNat c]
  exact h c.toNat hAscii

/- Only ASCII characters have a value. -/
theorem digitValue?_eq_none
    {c : Char}
    (hAscii : ¬ c.toNat < 128) :
    digitValue? c = none := by
  have hOver : ∀ limit : Char, limit.toNat < 128 →
      ¬ c ≤ limit := by
    intro limit hLimit hLe
    exact hAscii (Nat.lt_of_le_of_lt hLe hLimit)
  simp [digitValue?, hOver '9' (by decide),
    hOver 'f' (by decide), hOver 'F' (by decide)]

/- The digits are sixteen characters in either case. -/
theorem digitValue?_eq_some_iff
    {c : Char}
    {d : Nat} :
    digitValue? c = some d ↔ IsDigit 16 c d := by
  constructor
  · intro h
    have hAscii : c.toNat < 128 := by
      by_contra hOver
      rw [digitValue?_eq_none hOver] at h
      cases h
    have hValue : ∀ code < 128,
        ∀ d ∈ digitValue? (Char.ofNat code),
          IsDigit 16 (Char.ofNat code) d := by
      decide +kernel
    exact ascii_induction (motive := fun c =>
      ∀ d ∈ digitValue? c, IsDigit 16 c d) hValue hAscii d h
  · have hRead : ∀ d < 16,
        digitValue? (Nat.digitChar d) = some d ∧
          digitValue? (Nat.digitChar d).toUpper = some d := by
      decide +kernel
    rintro ⟨hSmall, rfl | rfl⟩
    · exact (hRead d hSmall).1
    · exact (hRead d hSmall).2

theorem digit?_eq_some_iff
    {base : Nat}
    (hBase : base ≤ 16)
    {c : Char}
    {d : Nat} :
    digit? base c = some d ↔ IsDigit base c d := by
  unfold digit?
  rw [Option.filter_eq_some_iff, digitValue?_eq_some_iff,
    decide_eq_true_iff]
  constructor
  · rintro ⟨⟨_, hCase⟩, hSmall⟩
    exact ⟨hSmall, hCase⟩
  · rintro ⟨hSmall, hCase⟩
    exact ⟨⟨by omega, hCase⟩, hSmall⟩

/- A character without a value is no digit of any base. -/
theorem not_isDigit
    {c : Char}
    (h : digitValue? c = none)
    {base : Nat}
    (hBase : base ≤ 16)
    (d : Nat) :
    ¬ IsDigit base c d := by
  rw [← digit?_eq_some_iff hBase, digit?, h]
  intro hSome
  cases hSome

/- A digit in the other case is the same digit. -/
theorem IsDigit.of_inEitherCase
    {base : Nat}
    (hBase : base ≤ 16)
    {c lower : Char}
    {d : Nat}
    (h : IsDigit base lower d)
    (hCase : InEitherCase c lower) :
    IsDigit base c d := by
  have hUpper : ∀ d < 16, (Nat.digitChar d).toUpper.toUpper =
      (Nat.digitChar d).toUpper := by
    decide +kernel
  refine ⟨h.1, ?_⟩
  rcases hCase with rfl | rfl
  · exact h.2
  · right
    rcases h.2 with rfl | rfl
    · rfl
    · exact hUpper d (Nat.lt_of_lt_of_le h.1 hBase)

end Literal

end MmixAsm

------------------------------------------------------------
-- Positional Values
------------------------------------------------------------

namespace MmixAsm

namespace Literal

/-
  One or more digits and the number that they denote by their
  places.  The last digit counts once.
-/
def Spells
    (base : Nat)
    (cs : List Char)
    (n : Nat) : Prop :=
  cs ≠ [] ∧
    ∃ digits, List.Forall₂ (IsDigit base) cs digits ∧
      n = Nat.ofDigits base digits.reverse

/- Digits are added up from the front as from the back. -/
theorem ofDigits_eq
    (base : Nat)
    (digits : List Nat) :
    ofDigits base digits = Nat.ofDigits base digits.reverse := by
  rw [Nat.ofDigits_eq_foldr, List.foldr_reverse]
  unfold ofDigits
  congr 1
  funext value d
  rw [Nat.add_comm, Nat.mul_comm]
  rfl

/- A traversal succeeds if it succeeds at every element. -/
theorem mapM_eq_some_iff
    {α β : Type}
    {f : α → Option β}
    {xs : List α}
    {ys : List β} :
    xs.mapM f = some ys ↔
      List.Forall₂ (fun x y => f x = some y) xs ys := by
  induction xs generalizing ys with
  | nil => simp [eq_comm]
  | cons x xs ih =>
      rw [List.mapM_cons, List.forall₂_cons_left_iff]
      simp only [Option.bind_eq_bind, Option.bind_eq_some_iff,
        ih, Option.pure_def, Option.some.injEq]
      constructor
      · rintro ⟨y, hHead, rest, hTail, rfl⟩
        exact ⟨y, rest, hHead, hTail, rfl⟩
      · rintro ⟨y, rest, hHead, hTail, rfl⟩
        exact ⟨y, hHead, rest, hTail, rfl⟩

theorem natural?_eq_some_iff
    {base : Nat}
    (hBase : base ≤ 16)
    {cs : List Char}
    {n : Nat} :
    natural? base cs = some n ↔ Spells base cs n := by
  cases cs with
  | nil => simp [natural?, Spells]
  | cons c cs =>
      unfold natural? Spells
      simp only [Option.map_eq_some_iff, mapM_eq_some_iff,
        digit?_eq_some_iff hBase, ofDigits_eq]
      constructor
      · rintro ⟨digits, hDigits, rfl⟩
        exact ⟨List.cons_ne_nil c cs, digits, hDigits, rfl⟩
      · rintro ⟨_, digits, hDigits, rfl⟩
        exact ⟨digits, hDigits, rfl⟩

/- Every character of a spelling is a digit. -/
theorem Spells.exists_digit
    {base : Nat}
    {cs : List Char}
    {n : Nat}
    (h : Spells base cs n)
    {c : Char}
    (hMem : c ∈ cs) :
    ∃ d, IsDigit base c d := by
  rcases h with ⟨_, digits, hDigits, _⟩
  rcases exists_mem_of_forall₂ hDigits hMem with ⟨d, _, hDigit⟩
  exact ⟨d, hDigit⟩

/- One more digit in front that is zero does not count. -/
theorem Spells.zero_cons
    {base : Nat}
    (hBase : 0 < base)
    {cs : List Char}
    {n : Nat}
    (h : Spells base cs n) :
    Spells base ('0' :: cs) n := by
  rcases h with ⟨_, digits, hDigits, rfl⟩
  refine ⟨List.cons_ne_nil _ _, 0 :: digits, ?_, ?_⟩
  · exact .cons ⟨hBase, Or.inl rfl⟩ hDigits
  · rw [List.reverse_cons, Nat.ofDigits_append,
      Nat.ofDigits_singleton, Nat.mul_zero, Nat.add_zero]

/- One more digit at the end. -/
theorem Spells.concat
    {base : Nat}
    {cs : List Char}
    {n : Nat}
    (h : Spells base cs n)
    {d : Nat}
    (hSmall : d < base) :
    Spells base (cs ++ [Nat.digitChar d]) (base * n + d) := by
  rcases h with ⟨hSome, digits, hDigits, rfl⟩
  refine ⟨by simp, digits ++ [d], ?_, ?_⟩
  · exact List.rel_append hDigits
      (.cons ⟨hSmall, Or.inl rfl⟩ .nil)
  · rw [List.reverse_append, List.reverse_singleton,
      List.singleton_append, Nat.ofDigits_cons, Nat.add_comm]

/- A number is spelled by the digits it is written in. -/
theorem spells_toDigits
    {base : Nat}
    (hBase : 1 < base)
    (n : Nat) :
    Spells base (Nat.toDigits base n) n := by
  induction n using Nat.strongRecOn with
  | ind n ih =>
      rw [Nat.toDigits_eq_if hBase]
      by_cases hSmall : n < base
      · rw [if_pos hSmall]
        refine ⟨List.cons_ne_nil _ _, [n], ?_, ?_⟩
        · exact .cons ⟨hSmall, Or.inl rfl⟩ .nil
        · exact Nat.ofDigits_singleton.symm
      · rw [if_neg hSmall]
        have hFront := ih (n / base)
          (Nat.div_lt_self (by omega) hBase)
        have hAll := hFront.concat (Nat.mod_lt n (by omega))
        rwa [Nat.div_add_mod n base] at hAll

theorem spells_zeros_toDigits
    {base : Nat}
    (hBase : 1 < base)
    (zeros n : Nat) :
    Spells base (List.replicate zeros '0' ++ Nat.toDigits base n)
      n := by
  induction zeros with
  | zero => exact spells_toDigits hBase n
  | succ zeros ih => exact ih.zero_cons (by omega)

/- The case of the digits does not matter. -/
theorem Spells.of_inEitherCase
    {base : Nat}
    (hBase : base ≤ 16)
    {cs lower : List Char}
    {n : Nat}
    (h : Spells base lower n)
    (hCase : List.Forall₂ InEitherCase cs lower) :
    Spells base cs n := by
  rcases h with ⟨hSome, digits, hDigits, rfl⟩
  refine ⟨?_, digits, ?_, rfl⟩
  · rintro rfl
    cases hCase
    exact hSome rfl
  · clear hSome
    induction hCase generalizing digits with
    | nil =>
        cases hDigits
        exact .nil
    | cons hHead _ ih =>
        rcases List.forall₂_cons_left_iff.mp hDigits with
          ⟨d, rest, hDigit, hRest, rfl⟩
        exact .cons (hDigit.of_inEitherCase hBase hHead)
          (ih rest hRest)

end Literal

end MmixAsm

------------------------------------------------------------
-- Numerals
------------------------------------------------------------

namespace MmixAsm

namespace Literal

/- Digits behind an optional plus sign. -/
inductive Unsigned (base : Nat) : List Char → Nat → Prop
  | plain
      {cs : List Char}
      {n : Nat}
      (h : Spells base cs n) :
      Unsigned base cs n
  | plus
      {cs : List Char}
      {n : Nat}
      (h : Spells base cs n) :
      Unsigned base ('+' :: cs) n

/- What stands in front of hexadecimal digits. -/
def hexMarks : List (List Char) :=
  [['#'], ['0', 'x'], ['0', 'X']]

/-
  A numeric literal and its value.  A mark says that the
  digits are hexadecimal, and a minus sign negates the value
  modulo the size of a word.
-/
inductive Numeral : List Char → UInt64 → Prop
  | hexadecimal
      {mark cs : List Char}
      {n : Nat}
      (hMark : mark ∈ hexMarks)
      (h : Unsigned 16 cs n)
      (hSize : n < UInt64.size) :
      Numeral (mark ++ cs) (UInt64.ofNat n)
  | decimal
      {cs : List Char}
      {n : Nat}
      (h : Unsigned 10 cs n)
      (hSize : n < UInt64.size) :
      Numeral cs (UInt64.ofNat n)
  | negative
      {cs : List Char}
      {n : Nat}
      (h : Unsigned 10 cs n)
      (hSize : n < UInt64.size) :
      Numeral ('-' :: cs) (UInt64.ofNat (UInt64.size - n))

section Reading

variable {base : Nat}
variable {cs : List Char}
variable {n : Nat}

/- A spelling has no sign of its own. -/
theorem Spells.dropPlus
    (hBase : base ≤ 16)
    (h : Spells base cs n) :
    dropPlus cs = cs := by
  unfold MmixAsm.dropPlus
  split
  · next rest =>
      rcases h.exists_digit List.mem_cons_self with ⟨d, hDigit⟩
      exact absurd hDigit (not_isDigit rfl hBase d)
  · rfl

/- The plus sign is dropped before digits are read. -/
theorem unsigned_iff
    (hBase : base ≤ 16) :
    Unsigned base cs n ↔ Spells base (dropPlus cs) n := by
  constructor
  · rintro (h | h)
    · rwa [h.dropPlus hBase]
    · exact h
  · intro h
    unfold dropPlus at h
    split at h
    · exact .plus h
    · exact .plain h

theorem unsigned?_eq_some_iff
    (hBase : base ≤ 16)
    {value : UInt64} :
    unsigned? base cs = some value ↔
      ∃ n, Unsigned base cs n ∧ n < UInt64.size ∧
        UInt64.ofNat n = value := by
  simp only [unsigned_iff hBase, ← natural?_eq_some_iff hBase]
  unfold unsigned?
  cases natural? base (dropPlus cs) with
  | none => simp
  | some n => simp

theorem Unsigned.read
    (hBase : base ≤ 16)
    (h : Unsigned base cs n)
    (hSize : n < UInt64.size) :
    unsigned? base cs = some (UInt64.ofNat n) :=
  (unsigned?_eq_some_iff hBase).mpr ⟨n, h, hSize, rfl⟩

/- Unsigned numerals consist of digits and a plus sign. -/
theorem Unsigned.eq_plus_or_digit
    (h : Unsigned base cs n)
    {c : Char}
    (hMem : c ∈ cs) :
    c = '+' ∨ ∃ d, IsDigit base c d := by
  cases h with
  | plain h => exact .inr (h.exists_digit hMem)
  | plus h =>
      rcases List.mem_cons.mp hMem with rfl | hRest
      · exact .inl rfl
      · exact .inr (h.exists_digit hRest)

/- A decimal numeral is read as one, whatever it begins with. -/
theorem number?_of_unsigned
    (h : Unsigned 10 cs n) :
    number? cs = unsigned? 10 cs := by
  have hNot : ∀ c, digit? 10 c = none → c ≠ '+' → c ∉ cs := by
    intro c hNone hPlus hMem
    rcases h.eq_plus_or_digit hMem with rfl | ⟨d, hDigit⟩
    · exact hPlus rfl
    · rw [(digit?_eq_some_iff (by decide)).mpr hDigit] at hNone
      cases hNone
  unfold number?
  split
  · exact absurd List.mem_cons_self
      (hNot '#' (by decide) (by decide))
  · exact absurd (by simp) (hNot 'x' (by decide) (by decide))
  · exact absurd (by simp) (hNot 'X' (by decide) (by decide))
  · exact absurd List.mem_cons_self
      (hNot '-' (by decide) (by decide))
  · rfl

/- Negation modulo the size of a word. -/
theorem zero_sub_ofNat
    (hSize : n < UInt64.size) :
    0 - UInt64.ofNat n = UInt64.ofNat (UInt64.size - n) := by
  apply UInt64.toNat_inj.mp
  rw [UInt64.toNat_sub, UInt64.toNat_ofNat_of_lt' hSize,
    UInt64.toNat_ofNat']
  rfl

/- Behind a mark the digits are hexadecimal. -/
theorem number?_of_mark
    {mark : List Char}
    (hMark : mark ∈ hexMarks)
    (cs : List Char) :
    number? (mark ++ cs) = unsigned? 16 cs := by
  simp only [hexMarks, List.mem_cons, List.not_mem_nil,
    or_false] at hMark
  rcases hMark with rfl | rfl | rfl
  · rfl
  · rfl
  · rfl

theorem numeral_of_mark
    {mark : List Char}
    (hMark : mark ∈ hexMarks)
    {value : UInt64}
    (h : unsigned? 16 cs = some value) :
    Numeral (mark ++ cs) value := by
  rcases (unsigned?_eq_some_iff (by decide)).mp h with
    ⟨n, hUnsigned, hSize, rfl⟩
  exact .hexadecimal hMark hUnsigned hSize

/- Exactly the numerals are read, each as its value. -/
theorem number?_eq_some_iff
    {value : UInt64} :
    number? cs = some value ↔ Numeral cs value := by
  constructor
  · intro h
    unfold number? at h
    split at h
    · exact @numeral_of_mark _ ['#'] (by decide) _ h
    · exact @numeral_of_mark _ ['0', 'x'] (by decide) _ h
    · exact @numeral_of_mark _ ['0', 'X'] (by decide) _ h
    · rcases Option.map_eq_some_iff.mp h with ⟨word, hWord, rfl⟩
      rcases (unsigned?_eq_some_iff (by decide)).mp hWord with
        ⟨n, hUnsigned, hSize, rfl⟩
      rw [zero_sub_ofNat hSize]
      exact .negative hUnsigned hSize
    · rcases (unsigned?_eq_some_iff (by decide)).mp h with
        ⟨n, hUnsigned, hSize, rfl⟩
      exact .decimal hUnsigned hSize
  · intro h
    cases h with
    | hexadecimal hMark h hSize =>
        rw [number?_of_mark hMark, h.read (by decide) hSize]
    | decimal h hSize =>
        rw [number?_of_unsigned h, h.read (by decide) hSize]
    | negative h hSize =>
        rw [number?, h.read (by decide) hSize, Option.map_some,
          zero_sub_ofNat hSize]

end Reading

/- What a number may begin with. -/
def opensNumeral (c : Char) : Bool :=
  c == '#' || c == '-' || c == '+' || c.isDigit

theorem Numeral.opens
    {c : Char}
    {cs : List Char}
    {value : UInt64}
    (h : Numeral (c :: cs) value) :
    opensNumeral c := by
  generalize hText : c :: cs = text at h
  cases h with
  | hexadecimal hMark _ _ =>
      simp only [hexMarks, List.mem_cons, List.not_mem_nil,
        or_false] at hMark
      rcases hMark with rfl | rfl | rfl
      · cases hText
        rfl
      · cases hText
        rfl
      · cases hText
        rfl
  | @decimal rest n h _ =>
      rcases h.eq_plus_or_digit (hText ▸ List.mem_cons_self) with
        rfl | ⟨d, hSmall, hCase⟩
      · rfl
      · have hDigit : ∀ d < 10,
            opensNumeral (Nat.digitChar d) ∧
              opensNumeral (Nat.digitChar d).toUpper := by
          decide
        rcases hCase with rfl | rfl
        · exact (hDigit d hSmall).1
        · exact (hDigit d hSmall).2
  | negative h _ =>
      cases hText
      rfl

/- A failed reading names the text. -/
theorem orInvalid_eq_ok_iff
    {text : String}
    {found : Option UInt64}
    {value : UInt64} :
    orInvalid text found = .ok value ↔ found = some value := by
  cases found with
  | none => simp [orInvalid]
  | some word => simp [orInvalid]

theorem orInvalid_eq_error_iff
    {text : String}
    {found : Option UInt64}
    {fault : NumberFault} :
    orInvalid text found = .error fault ↔
      fault = ⟨text⟩ ∧ found = none := by
  cases found with
  | none => simp [orInvalid, eq_comm]
  | some word => simp [orInvalid]

theorem number_eq_ok_iff
    {text : String}
    {value : UInt64} :
    number text = .ok value ↔ Numeral text.toList value := by
  rw [number, orInvalid_eq_ok_iff, number?_eq_some_iff]

theorem number_eq_error_iff
    {text : String}
    {fault : NumberFault} :
    number text = .error fault ↔
      fault = ⟨text⟩ ∧
        ∀ value, ¬ Numeral text.toList value := by
  rw [number, orInvalid_eq_error_iff,
    Option.eq_none_iff_forall_not_mem]
  simp only [Option.mem_def, number?_eq_some_iff]

end Literal

end MmixAsm

------------------------------------------------------------
-- Operands
------------------------------------------------------------

namespace MmixAsm

/-
  The text of an operand and its value: a register, which is a
  dollar sign and an unsigned decimal numeral, or a number.
-/
inductive Denotes : String → UInt64 → Prop
  | register
      {text : String}
      {cs : List Char}
      {n : Nat}
      (hText : text.toList = '$' :: cs)
      (h : Literal.Unsigned 10 cs n)
      (hSize : n < UInt64.size) :
      Denotes text (UInt64.ofNat n)
  | number
      {text : String}
      {value : UInt64}
      (h : Literal.Numeral text.toList value) :
      Denotes text value

/- A text that is an operand. -/
def IsOperand (text : String) : Prop :=
  ∃ value, Denotes text value

/- A register is not a number. -/
theorem register?_of_numeral
    {text : String}
    {value : UInt64}
    (h : Literal.Numeral text.toList value) :
    Literal.register? text = none := by
  unfold Literal.register?
  split
  · next cs hText =>
      rw [hText] at h
      exact absurd h.opens (by decide)
  · rfl

/- Exactly the registers and numbers are operands. -/
theorem operand_eq_ok_iff
    {text : String}
    {value : UInt64} :
    operand text = .ok value ↔ Denotes text value := by
  constructor
  · intro h
    have hRead := ok_of_mapError_eq_ok h
    unfold Literal.register? at hRead
    split at hRead
    · next cs hText =>
        rcases (Literal.unsigned?_eq_some_iff (by decide)).mp
          (Literal.orInvalid_eq_ok_iff.mp hRead) with
          ⟨n, hUnsigned, hSize, rfl⟩
        exact .register hText hUnsigned hSize
    · exact .number (Literal.number_eq_ok_iff.mp hRead)
  · intro h
    unfold operand
    cases h with
    | @register cs n hText h hSize =>
        have hRead : Literal.register? text =
            some (.ok (UInt64.ofNat n)) := by
          unfold Literal.register?
          simp only [hText, h.read (by decide) hSize]
          rfl
        rw [hRead]
        rfl
    | number h =>
        rw [register?_of_numeral h, Option.getD_none,
          Literal.number_eq_ok_iff.mpr h]
        rfl

/- Any other text is an error that names the text. -/
theorem operand_eq_error_iff
    {text : String}
    {fault : CodeError} :
    operand text = .error fault ↔
      fault = .malformedNumber ⟨text⟩ ∧ ¬ IsOperand text := by
  have hFault : ∀ fault, operand text = .error fault →
      fault = .malformedNumber ⟨text⟩ := by
    intro fault h
    rcases fails_of_mapError_eq_error h with
      ⟨cause, hRead, rfl⟩
    unfold Literal.register? at hRead
    split at hRead
    · rw [(Literal.orInvalid_eq_error_iff.mp hRead).1]
    · rw [(Literal.number_eq_error_iff.mp hRead).1]
  unfold IsOperand
  simp only [← operand_eq_ok_iff]
  cases hRead : operand text with
  | ok value => simp
  | error cause => simp [hFault cause hRead, eq_comm]

end MmixAsm

------------------------------------------------------------
-- Written Numbers
------------------------------------------------------------

namespace MmixAsm

namespace Literal

theorem toList_toString (n : Nat) :
    (toString n).toList = Nat.toDigits 10 n := by
  rw [Nat.toString_eq_ofList_toDigits, String.toList_ofList]

/- The decimal text of a number is an unsigned numeral. -/
theorem unsigned_toString (n : Nat) :
    Unsigned 10 (toString n).toList n := by
  rw [toList_toString]
  exact .plain (spells_toDigits (by decide) n)

/- A number is read back from its decimal text. -/
theorem number_toString
    {n : Nat}
    (hSize : n < UInt64.size) :
    number (toString n) = .ok (UInt64.ofNat n) :=
  number_eq_ok_iff.mpr (.decimal (unsigned_toString n) hSize)

/- A register is read back from its decimal number. -/
theorem operand_register
    {n : Nat}
    (hSize : n < UInt64.size) :
    operand ("$" ++ toString n) = .ok (UInt64.ofNat n) := by
  refine operand_eq_ok_iff.mpr
    (.register ?_ (unsigned_toString n) hSize)
  rw [String.toList_append]
  rfl

/-
  A number is read back from its hexadecimal text behind any
  mark, in either case and with leading zeros.
-/
theorem number_hexadecimal
    {n : Nat}
    (hSize : n < UInt64.size)
    {mark : List Char}
    (hMark : mark ∈ hexMarks)
    {zeros : Nat}
    {cs : List Char}
    (hCase : List.Forall₂ InEitherCase cs
      (List.replicate zeros '0' ++ Nat.toDigits 16 n)) :
    number (String.ofList (mark ++ cs)) =
      .ok (UInt64.ofNat n) := by
  have hSpells : Spells 16 cs n :=
    (spells_zeros_toDigits (by decide) zeros n).of_inEitherCase
      (by decide) hCase
  rw [number_eq_ok_iff, String.toList_ofList]
  exact .hexadecimal hMark (.plain hSpells) hSize

/-
  Exactly the numerals are read as numbers, each as its value,
  and any other text is an error that names the text.  So a
  word is read back from its decimal text, also as a register
  and where an address or a position is put in for a label,
  and from its hexadecimal text in either case and with any
  leading zeros.
-/
theorem numerals_read_exactly :
    (∀ text value,
      number text = .ok value ↔ Numeral text.toList value) ∧
    (∀ text fault,
      number text = .error fault ↔
        fault = ⟨text⟩ ∧
          ∀ value, ¬ Numeral text.toList value) ∧
    (∀ value : UInt64,
      number (toString value.toNat) = .ok value ∧
        operand ("$" ++ toString value.toNat) = .ok value ∧
        ∀ mark ∈ hexMarks, ∀ zeros cs,
          List.Forall₂ InEitherCase cs
            (List.replicate zeros '0'
              ++ Nat.toDigits 16 value.toNat) →
          number (String.ofList (mark ++ cs)) = .ok value) ∧
    (∀ (table : AddressTable) label address,
      table.address? label = some address →
      address < UInt64.size →
      number (table.resolve label) =
        .ok (UInt64.ofNat address)) ∧
    ∀ (table : LabelTable) label position,
      table.get? label = some (toString position) →
      position < UInt64.size →
      number (table.resolve label) =
        .ok (UInt64.ofNat position) := by
  refine ⟨fun text value => number_eq_ok_iff,
    fun text fault => number_eq_error_iff, ?_, ?_, ?_⟩
  · intro value
    have hSize : value.toNat < UInt64.size := value.toNat_lt
    have hWord : UInt64.ofNat value.toNat = value :=
      UInt64.ofNat_toNat
    rw [number_toString hSize, operand_register hSize, hWord]
    refine ⟨rfl, rfl, ?_⟩
    intro mark hMark zeros cs hCase
    rw [number_hexadecimal hSize hMark hCase, hWord]
  · intro table label address hAddress hSize
    rw [AddressTable.resolve, hAddress]
    exact number_toString hSize
  · intro table label position hPosition hSize
    rw [LabelTable.resolve, hPosition, Option.getD_some]
    exact number_toString hSize

theorem boundaryNumerals_read :
    number "-+07" = .ok 0xFFFFFFFFFFFFFFF9 ∧
      (∀ value,
        ¬ Numeral "18446744073709551616".toList value) ∧
      number "18446744073709551615" =
        .ok 0xFFFFFFFFFFFFFFFF ∧
      number "0X00fF" = .ok 255 ∧
      number ((AddressTable.mk [("x", 12)]).resolve "x") =
        .ok 12 ∧
      number ((LabelTable.mk [("y", "3")]).resolve "y") =
        .ok 3 := by
  rcases numerals_read_exactly with
    ⟨hRead, hFail, hWords, hAddresses, hPositions⟩
  refine ⟨?_, ?_, ?_, ?_, ?_, ?_⟩
  · have hSpells : Spells 10 ['0', '7'] 7 :=
      spells_zeros_toDigits (by decide) 1 7
    exact (hRead "-+07" _).mpr
      (.negative (.plus hSpells) (by decide))
  · have hFault : number "18446744073709551616" =
        .error ⟨"18446744073709551616"⟩ := by
      decide +kernel
    exact ((hFail _ _).mp hFault).2
  · exact (hWords 0xFFFFFFFFFFFFFFFF).1
  · have hCase : List.Forall₂ InEitherCase ['0', '0', 'f', 'F']
        (List.replicate 2 '0' ++ Nat.toDigits 16 255) :=
      .cons (.inl rfl) (.cons (.inl rfl)
        (.cons (.inl rfl) (.cons (.inr rfl) .nil)))
    exact (hWords 255).2.2 ['0', 'X'] (by decide) 2 _ hCase
  · exact hAddresses _ "x" 12 rfl (by decide)
  · exact hPositions _ "y" 3 (by decide) (by decide)

end Literal

end MmixAsm
