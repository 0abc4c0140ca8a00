/-
  Hexadecimal text of numbers, in lowercase digits.

  Key definitions include:
    * `MmixAsm.Text.hex`
    * `MmixAsm.Text.hexWord`
-/

------------------------------------------------------------
-- Hexadecimal
------------------------------------------------------------

namespace MmixAsm

namespace Text

/- The digits of a number, without leading zeros. -/
def hex (n : Nat) : String :=
  String.ofList (Nat.toDigits 16 n)

/- The lowercase digit of a value below sixteen. -/
def hexDigit (n : Nat) : Char :=
  (Nat.digitChar (n % 16))

/- The last digits of a number, as many as asked for. -/
def hexDigits :
    Nat → Nat → List Char
| 0, _ => []
| count + 1, n => hexDigits count (n / 16) ++ [hexDigit n]

/- A word in sixteen digits. -/
def hexWord (word : UInt64) : String :=
  String.ofList (hexDigits 16 word.toNat)

end Text

end MmixAsm
