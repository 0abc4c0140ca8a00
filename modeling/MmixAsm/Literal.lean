/-
  Literals: numbers, register names and quoted strings.

  A number is a 64-bit word.  It is written in decimal, with
  an optional minus sign that negates it modulo `2 ^ 64`, or
  in hexadecimal behind `#`, `0x` or `0X`.  A register is a
  dollar sign and a decimal number.

  Key definitions include:
    * `MmixAsm.digit?`
    * `MmixAsm.unsigned?`
    * `MmixAsm.Literal.number`
    * `MmixAsm.Literal.register?`
    * `MmixAsm.Literal.content?`
-/

------------------------------------------------------------
-- Digits
------------------------------------------------------------

namespace MmixAsm

/- The value of a hexadecimal digit in either case. -/
def digitValue? (c : Char) : Option Nat :=
  if '0' ≤ c ∧ c ≤ '9' then
    some (c.toNat - '0'.toNat)
  else if 'a' ≤ c ∧ c ≤ 'f' then
    some (c.toNat - 'a'.toNat + 10)
  else if 'A' ≤ c ∧ c ≤ 'F' then
    some (c.toNat - 'A'.toNat + 10)
  else
    none

/-
  The value of a digit of the given base, for bases up to
  sixteen.  Only ASCII characters are digits.
-/
def digit?
    (base : Nat)
    (c : Char) : Option Nat :=
  (digitValue? c).filter (· < base)

/- The number a list of digit values denotes. -/
def ofDigits
    (base : Nat)
    (digits : List Nat) : Nat :=
  digits.foldl (fun value d => value * base + d) 0

/-
  Read one or more digits.  Leading zeros are allowed in any
  number.
-/
def natural?
    (base : Nat) :
    List Char → Option Nat
| [] => none
| cs => (cs.mapM (digit? base)).map (ofDigits base)

/- Remove one plus sign, if the text starts with one. -/
def dropPlus :
    List Char → List Char
| '+' :: cs => cs
| cs => cs

/-
  Read an unsigned word: one optional plus sign and one or
  more digits, whose value has to fit into 64 bits.
-/
def unsigned?
    (base : Nat)
    (cs : List Char) : Option UInt64 :=
  match natural? base (dropPlus cs) with
  | some n =>
      if n < UInt64.size then some (UInt64.ofNat n) else none
  | none => none

end MmixAsm

------------------------------------------------------------
-- Literals
------------------------------------------------------------

namespace MmixAsm

/- A text that should be a number and is not. -/
structure NumberFault where
  literal : String
deriving DecidableEq

/- The message of an invalid number quotes the text. -/
def NumberFault.message (e : NumberFault) : String :=
  "\"" ++ e.literal ++ "\" is not a numeric literal"

namespace Literal

/-
  Read a number from its characters.  The hexadecimal marks
  are tried before the decimal forms, so `0x` is never read
  as the digit zero.
-/
def number? :
    List Char → Option UInt64
| '#' :: cs => unsigned? 16 cs
| '0' :: 'x' :: cs => unsigned? 16 cs
| '0' :: 'X' :: cs => unsigned? 16 cs
| '-' :: cs => (unsigned? 10 cs).map (0 - ·)
| cs => unsigned? 10 cs

/- Attach the offending text to a failed reading. -/
def orInvalid
    (literal : String) :
    Option UInt64 → Except NumberFault UInt64
| some value => .ok value
| none => .error ⟨literal⟩

/- Read a numeric literal. -/
def number (literal : String) : Except NumberFault UInt64 :=
  orInvalid literal (number? literal.toList)

/-
  Read a register reference.  The outer option says whether
  the text is one at all, which its dollar sign decides; the
  number behind the sign may still be invalid.
-/
def register?
    (literal : String) :
    Option (Except NumberFault UInt64) :=
  match literal.toList with
  | '$' :: cs => some (orInvalid literal (unsigned? 10 cs))
  | _ => none

/- Drop the final character if it is a double quote. -/
def dropClosingQuote? :
    List Char → Option (List Char)
| [] => none
| ['"'] => some []
| c :: cs => (dropClosingQuote? cs).map (c :: ·)

/-
  The content of a double quoted text, without its two
  quotes.  A single quote character is not quoted text,
  because one character cannot be both quotes.
-/
def content? (literal : String) : Option String :=
  match literal.toList with
  | '"' :: cs => (dropClosingQuote? cs).map String.ofList
  | _ => none

end Literal

end MmixAsm
