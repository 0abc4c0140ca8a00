import MmixAsm.Keyword
import MmixAsm.SyntaxError

/-
  Fields: the blank separated parts of a line.

  Blanks beside a comma do not separate anything, so a
  parameter list may be written with or without them.  All
  other blanks between two tokens end a field.

  Key definitions include:
    * `MmixAsm.Field`
    * `MmixAsm.Field.ofTokens`
    * `MmixAsm.Field.keyword?`
    * `MmixAsm.Field.parameters`
-/

------------------------------------------------------------
-- Grouping Tokens
------------------------------------------------------------

namespace MmixAsm

/- The tokens of one part of a line, without spaces. -/
abbrev Field : Type :=
  List Token

/-
  Remove the spaces that separate nothing: those behind a
  comma or behind nothing at all, which `joined` tells, and
  those in front of a comma.
-/
def squeeze
    (joined : Bool) :
    List Token → List Token
| [] => []
| .space :: .comma :: ts => .comma :: squeeze true ts
| .space :: ts =>
    if joined then squeeze joined ts
    else .space :: squeeze joined ts
| .comma :: ts => .comma :: squeeze true ts
| t :: ts => t :: squeeze false ts

/- The fields of a line. -/
def Field.ofTokens (ts : List Token) : List Field :=
  (splitWhere (· == .space) (squeeze true ts)).filter
    (!·.isEmpty)

end MmixAsm

------------------------------------------------------------
-- Reading A Field
------------------------------------------------------------

namespace MmixAsm

/- The written form of a token. -/
def Token.text :
    Token → String
| .word text => text
| .quoted text => text
| .comma => ","
| .space => ""

namespace Field

/- The tokens of a field, written without blanks. -/
def text (field : Field) : String :=
  String.join (field.map Token.text)

/- The only word of a field. -/
def word? :
    Field → Option String
| [.word text] => some text
| _ => none

/- The keyword that a field consists of. -/
def keyword? (field : Field) : Option Keyword :=
  field.word?.bind Keyword.ofWord?

/-
  The items of a parameter list: words or strings with one
  comma between each two, and at least one item.
-/
def items? :
    Field → Option (List String)
| [.word text] => some [text]
| [.quoted text] => some [text]
| .word text :: .comma :: rest =>
    (items? rest).map (text :: ·)
| .quoted text :: .comma :: rest =>
    (items? rest).map (text :: ·)
| _ => none

/- The parameters a field lists. -/
def parameters (field : Field) : Except LineFault (List String) :=
  match field.items? with
  | some items => .ok items
  | none => .error (.shape .malformedParameters)

end Field

end MmixAsm
