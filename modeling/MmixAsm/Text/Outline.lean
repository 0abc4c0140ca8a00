import MmixAsm.Text.Split

/-
  Outlines: nested values written over several lines.

  An outline is a list of lines.  The parts of a value stand
  on lines of their own, four blanks further to the right,
  and each part ends in a comma.

  Key definitions include:
    * `MmixAsm.Text.Outline`
    * `MmixAsm.Text.Outline.list`
    * `MmixAsm.Text.Outline.wrap`
    * `MmixAsm.Text.Outline.record`
    * `MmixAsm.Text.Outline.text`
-/

------------------------------------------------------------
-- Outlines
------------------------------------------------------------

namespace MmixAsm

namespace Text

/- The lines of a written value. -/
abbrev Outline : Type :=
  List String

namespace Outline

/- A value written in one line. -/
def atom (text : String) : Outline :=
  [text]

/- Write a text in front of the first line. -/
def headed
    (head : String) :
    Outline → Outline
| [] => [head]
| line :: rest => (head ++ line) :: rest

/- Write a comma behind the last line. -/
def ended :
    Outline → Outline
| [] => [","]
| [line] => [line ++ ","]
| line :: rest => line :: ended rest

/- Write a value as a part of another one. -/
def part (outline : Outline) : Outline :=
  outline.ended.map ("    " ++ ·)

/- A list of values. -/
def list :
    List Outline → Outline
| [] => ["[]"]
| items => ["["] ++ items.flatMap part ++ ["]"]

/- A value inside a named wrapper. -/
def wrap
    (name : String)
    (inner : Outline) : Outline :=
  [name ++ "("] ++ part inner ++ [")"]

/- A record with named fields. -/
def record
    (name : String)
    (fields : List (String × Outline)) : Outline :=
  [name ++ " \x7b"]
    ++ fields.flatMap
        (fun field => part (headed (field.1 ++ ": ") field.2))
    ++ ["\x7d"]

/- A value that may be missing. -/
def optional :
    Option Outline → Outline
| none => atom "None"
| some inner => wrap "Some" inner

/- The text of an outline, every line ended. -/
def text (outline : Outline) : String :=
  endLines outline

end Outline

end Text

end MmixAsm
