import MmixAsm.Layout.Block
import MmixAsm.Layout.LabelTable

/-
  Symbols: what the directives of a program declare.

  The directives are read in order, each with the number of
  statements in front of it as its position.  They bind
  labels, hand out global registers and describe blocks, and
  take no place among the statements.

  Key definitions include:
    * `MmixAsm.Symbols`
    * `MmixAsm.Symbols.declare`
    * `MmixAsm.Symbols.collect`
    * `MmixAsm.statementsOf`
-/

------------------------------------------------------------
-- Symbols
------------------------------------------------------------

namespace MmixAsm

/-
  What the directives have declared so far.  `nextGlobal` is
  the register that the next GREG takes.
-/
structure Symbols where
  labels : LabelTable
  blocks : List Block
  nextGlobal : Nat
deriving DecidableEq

namespace Symbols

/- The highest register that GREG hands out. -/
def firstGlobal : Nat :=
  254

/- The lowest register that GREG hands out. -/
def lowestGlobal : Nat :=
  32

/- Nothing is declared yet. -/
def empty : Symbols where
  labels := .empty
  blocks := []
  nextGlobal := firstGlobal

/- The register that the next GREG takes. -/
def register (symbols : Symbols) : String :=
  "$" ++ toString symbols.nextGlobal

/- Take a global register and bind the label to it. -/
def takeRegister
    (symbols : Symbols)
    (label : Option String) : Except LayoutError Symbols :=
  if symbols.nextGlobal < lowestGlobal then
    .error .registersExhausted
  else
    .ok { symbols with
      labels :=
        symbols.labels.bindOptional label symbols.register
      nextGlobal := symbols.nextGlobal - 1 }

/- Read a directive that has a parameter. -/
def declareWith
    (symbols : Symbols)
    (position : Nat)
    (label : Option String)
    (parameter : String) :
    Directive → Except LayoutError Symbols
| .block =>
    .ok { symbols with
      blocks :=
        Block.update parameter (Block.openAt position)
          symbols.blocks }
| .endBlock =>
    (Block.close symbols.blocks parameter position).map
      fun blocks => { symbols with blocks }
| .place =>
    .ok { symbols with
      blocks :=
        Block.update parameter (Block.wantAt position label)
          symbols.blocks }
| .equate =>
    match label with
    | none => .error (.missingLabel .equate)
    | some name =>
        .ok { symbols with
          labels := symbols.labels.bind name parameter }
| .loc => .ok symbols
| .greg => .ok symbols

/-
  Read one directive at the given position.  GREG needs no
  parameter, and all others need one.
-/
def declare
    (symbols : Symbols)
    (position : Nat)
    (line : Line Directive) : Except LayoutError Symbols :=
  if line.keyword = .greg then
    symbols.takeRegister line.label
  else
    match line.parameters with
    | [] => .error (.missingParameter line.keyword)
    | parameter :: _ =>
        symbols.declareWith position line.label parameter
          line.keyword

/- Read one item; the first component is the position. -/
def step
    (state : Nat × Symbols) :
    Item → Except LayoutError (Nat × Symbols)
| .statement _ => .ok (state.1 + 1, state.2)
| .control line =>
    (state.2.declare state.1 line).map (state.1, ·)

/- Read all directives of a program in order. -/
def collect
    (items : List Item) : Except LayoutError Symbols :=
  (items.foldlM step (0, empty)).map (·.2)

end Symbols

/- The statements of a program without its directives. -/
def statementsOf (items : List Item) : List Statement :=
  items.filterMap Item.statement?

end MmixAsm
