import MmixAsm.ErrorClass
import MmixAsm.Token

/-
  What can be wrong with a source line.

  Key definitions include:
    * `MmixAsm.LineFault`
    * `MmixAsm.SyntaxError`
    * `MmixAsm.SyntaxError.message`
-/

------------------------------------------------------------
-- Faults Of A Line
------------------------------------------------------------

namespace MmixAsm

/- Why the fields of a line do not form an instruction. -/
inductive ShapeFault where
  | labelNotWord
  | keywordMissing
  | extraField
  | malformedParameters
deriving DecidableEq

/- The wording of a shape fault. -/
def ShapeFault.text :
    ShapeFault → String
| .labelNotWord => "a label has to be a single word"
| .keywordMissing => "a label needs a keyword after it"
| .extraField => "unexpected field after the parameters"
| .malformedParameters => "malformed parameter list"

/- What is wrong with a line, apart from where it stands. -/
inductive LineFault where
  | unterminatedString
  | unexpectedToken (text : String)
  | shape (fault : ShapeFault)
  | missingTemplate
  | nestedTemplate
deriving DecidableEq

/- A fault and the number of its line. -/
structure SyntaxError where
  line : Nat
  fault : LineFault
deriving DecidableEq

namespace SyntaxError

/- The message of a syntax error. -/
def message (e : SyntaxError) : String :=
  match e.fault with
  | .unterminatedString => unterminatedMessage e.line
  | .unexpectedToken text =>
      "Line " ++ toString e.line ++ ": unexpected token \""
        ++ text ++ "\", expected a keyword"
  | .shape fault =>
      "Line " ++ toString e.line
        ++ ": the line could not be parsed, " ++ fault.text
  | .missingTemplate =>
      "Line " ++ toString e.line
        ++ ": MACRO needs a template instruction"
  | .nestedTemplate =>
      "Line " ++ toString e.line ++ ": the template of a MACRO"
        ++ " can not be a macro instruction itself"

/- The class of a syntax error. -/
def errorClass (e : SyntaxError) : ErrorClass :=
  match e.fault with
  | .unterminatedString => .structural
  | .shape _ => .structural
  | .unexpectedToken _ => .semantic
  | .missingTemplate => .semantic
  | .nestedTemplate => .semantic

end SyntaxError

end MmixAsm
