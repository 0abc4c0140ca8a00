import MmixAsm.Layout.Padding
import MmixAsm.Layout.Stream

/-
  The layout of a whole program.

  LOC is replaced by padding, the other directives are read
  and dropped, blocks go to the places that want them, and at
  last the labels of operations are bound to their final
  positions and replaced in all parameters.

  Key definitions include:
    * `MmixAsm.layOut`
-/

------------------------------------------------------------
-- Layout
------------------------------------------------------------

namespace MmixAsm

/- Bind the labels of placed operations and replace them. -/
def Placed.resolve (placed : Placed) : List Statement :=
  (placed.labels.bindCode placed.stream.statements).apply
    placed.stream.statements

/- Lay out a program, with a limit on each LOC's padding. -/
def layOut
    (limit : Nat)
    (instructions : List Instruction) :
    Except LayoutError (List Statement) := do
  let items ← pad limit instructions
  let symbols ← Symbols.collect items
  let placed ←
    Placed.ofBlocks (statementsOf items) symbols.labels
      symbols.blocks
  return placed.resolve

end MmixAsm
