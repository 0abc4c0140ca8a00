import MmixAsm.Layout.Statement

/-
  Label tables: what a label stands for.

  A label keeps the first meaning it is given.

  Key definitions include:
    * `MmixAsm.LabelTable`
    * `MmixAsm.LabelTable.get?`
    * `MmixAsm.LabelTable.bind`
    * `MmixAsm.LabelTable.bindCode`
    * `MmixAsm.LabelTable.apply`
-/

------------------------------------------------------------
-- Bindings
------------------------------------------------------------

namespace MmixAsm

/- Labels with the expressions they stand for. -/
structure LabelTable where
  bindings : List (String × String)
deriving DecidableEq

namespace LabelTable

/- The table without labels. -/
def empty : LabelTable where
  bindings := []

/- The expression a label stands for. -/
def get?
    (table : LabelTable)
    (label : String) : Option String :=
  table.bindings.lookup label

/- Bind a label, unless it is bound already. -/
def bind
    (table : LabelTable)
    (label : String)
    (expression : String) : LabelTable :=
  match table.get? label with
  | some _ => table
  | none => ⟨(label, expression) :: table.bindings⟩

/- Bind a label that may be missing. -/
def bindOptional
    (table : LabelTable)
    (label : Option String)
    (expression : String) : LabelTable :=
  match label with
  | some name => table.bind name expression
  | none => table

end LabelTable

end MmixAsm

------------------------------------------------------------
-- Labels Of Statements
------------------------------------------------------------

namespace MmixAsm

namespace LabelTable

/- Bind the label of an operation to its position. -/
def bindStatement
    (table : LabelTable)
    (position : Nat) :
    Statement → LabelTable
| .op line => table.bindOptional line.label (toString position)
| _ => table

/-
  Bind the labels of all operations to their positions.
  Labels of allocations are not bound, because their address
  is no position.
-/
def bindCode
    (table : LabelTable)
    (statements : List Statement) : LabelTable :=
  statements.zipIdx.foldl
    (fun acc entry => acc.bindStatement entry.2 entry.1) table

/- Replace a text that is a bound label. -/
def resolve
    (table : LabelTable)
    (text : String) : String :=
  (table.get? text).getD text

/-
  Replace the bound labels among the parameters of all
  statements.  The expression put in is not looked up again.
-/
def apply
    (table : LabelTable)
    (statements : List Statement) : List Statement :=
  statements.map (Statement.mapParameters table.resolve)

end LabelTable

end MmixAsm
