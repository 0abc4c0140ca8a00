import MmixAsm.Instruction

/-
  Statements: the instructions that take a place in memory.

  Key definitions include:
    * `MmixAsm.Statement`
    * `MmixAsm.Statement.render`
    * `MmixAsm.Item`
-/

------------------------------------------------------------
-- Statements
------------------------------------------------------------

namespace MmixAsm

/-
  An operation, an allocation, or a placeholder that only
  keeps its position.
-/
inductive Statement where
  | op (line : Line String)
  | alloc (line : Line DataSize)
  | padding
deriving DecidableEq

namespace Statement

/- The written form of a statement; padding is empty. -/
def render :
    Statement → String
| .op line => line.render id
| .alloc line => line.render DataSize.name
| .padding => ""

/- Apply a function to every parameter. -/
def mapParameters
    (f : String → String) :
    Statement → Statement
| .op line => .op (line.mapParameters f)
| .alloc line => .alloc (line.mapParameters f)
| .padding => .padding

end Statement

end MmixAsm

------------------------------------------------------------
-- Items
------------------------------------------------------------

namespace MmixAsm

/- A statement, or a directive that stands between them. -/
inductive Item where
  | statement (content : Statement)
  | control (line : Line Directive)
deriving DecidableEq

/- The statement an item is. -/
def Item.statement? :
    Item → Option Statement
| .statement content => some content
| .control _ => none

end MmixAsm
