import MmixAsm.Text.WhiteSpace

/-
  Conditions: a constant compared with a text.

  A condition is written `NAME==VALUE` or `NAME!=VALUE`, with
  any white space around its two parts.

  Key definitions include:
    * `MmixAsm.Condition`
    * `MmixAsm.Condition.ofText?`
    * `MmixAsm.Condition.holds`
-/

------------------------------------------------------------
-- Conditions
------------------------------------------------------------

namespace MmixAsm

/-
  Divide a text at the first place where the two characters
  stand beside each other.
-/
def splitAtPair
    (a b : Char) :
    List Char → Option (List Char × List Char)
| [] => none
| [_] => none
| c :: d :: rest =>
    if c = a ∧ d = b then
      some ([], rest)
    else
      (splitAtPair a b (d :: rest)).map
        fun parts => (c :: parts.1, parts.2)

/- A comparison of a constant with a text. -/
structure Condition where
  name : String
  value : String
  equal : Bool
deriving DecidableEq

namespace Condition

/- The comparison of two texts without their outer blanks. -/
def ofParts
    (equal : Bool)
    (parts : List Char × List Char) : Condition where
  name := String.ofList (Text.trim parts.1)
  value := String.ofList (Text.trim parts.2)
  equal := equal

/-
  Read a condition.  A text with both signs is divided at the
  sign of equality.
-/
def ofText? (text : String) : Option Condition :=
  ((splitAtPair '=' '=' text.toList).map (ofParts true))
    <|> ((splitAtPair '!' '=' text.toList).map (ofParts false))

/- Whether a condition holds of the constant's value. -/
def holds
    (condition : Condition)
    (value : String) : Bool :=
  (value == condition.value) == condition.equal

end Condition

end MmixAsm
