import MmixAsm.ErrorClass
import MmixAsm.Keyword
import MmixAsm.Literal
import MmixAsm.Text.Hex

/-
  What can be wrong with the layout of a program.

  Key definitions include:
    * `MmixAsm.LayoutError`
    * `MmixAsm.LayoutError.message`
-/

------------------------------------------------------------
-- Layout Errors
------------------------------------------------------------

namespace MmixAsm

/- Why a program has no layout. -/
inductive LayoutError where
  | unexpectedMacro (text : String)
  | missingParameter (directive : Directive)
  | missingLabel (directive : Directive)
  | invalidLoc (number : NumberFault)
  | locOutOfRange (target : UInt64) (padding limit : Nat)
  | undefinedBlock (name : String)
  | badBlock (name : String)
  | unterminatedBlock (name : String)
  | registersExhausted
deriving DecidableEq

namespace LayoutError

/- The message of a layout error. -/
def message :
    LayoutError → String
| .unexpectedMacro text =>
    "Macro instruction \"" ++ text
      ++ "\" survived macro processing"
| .missingParameter directive =>
    directive.name ++ " is missing its parameter"
| .missingLabel directive =>
    directive.name ++ " needs a label"
| .invalidLoc number =>
    "Invalid LOC target: " ++ number.message
| .locOutOfRange target padding limit =>
    "LOC 0x" ++ Text.hex target.toNat ++ " needs "
      ++ toString padding ++ " placeholders, at most "
      ++ toString limit ++ " are allowed"
| .undefinedBlock name =>
    "Block \"" ++ name ++ "\" is not defined"
| .badBlock name =>
    "Block \"" ++ name ++ "\" ends before it starts"
| .unterminatedBlock name =>
    "Block \"" ++ name ++ "\" is missing its ENDBLOCK"
| .registersExhausted =>
    "No global register left for GREG, $32 is the lowest one"

/- The class of a layout error. -/
def errorClass :
    LayoutError → ErrorClass
| .invalidLoc _ => .semantic
| _ => .structural

end LayoutError

end MmixAsm
