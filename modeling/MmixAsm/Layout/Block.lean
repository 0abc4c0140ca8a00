import MmixAsm.Layout.Error

/-
  Blocks: named ranges of statements.

  A block is opened and closed by directives, and a third
  directive says where it is wanted.  The three may come in
  any order, so a block is described piece by piece.

  Key definitions include:
    * `MmixAsm.Block`
    * `MmixAsm.Block.update`
    * `MmixAsm.Block.close`
-/

------------------------------------------------------------
-- Blocks
------------------------------------------------------------

namespace MmixAsm

/-
  A named range of statements, from `start` to `last` with
  both ends, and the place `origin` where it is wanted, whose
  label is `label`.
-/
structure Block where
  name : String
  label : Option String
  origin : Option Nat
  start : Option Nat
  last : Option Nat
deriving DecidableEq

namespace Block

/- A block of which only the name is known. -/
def named (name : String) : Block where
  name := name
  label := none
  origin := none
  start := none
  last := none

/- Find a block by its name. -/
def find?
    (blocks : List Block)
    (name : String) : Option Block :=
  blocks.find? (fun block => block.name == name)

/-
  Change the block with the given name, which is added behind
  the others if it is new.  Names stay distinct and keep the
  order of their first mention.
-/
def update
    (name : String)
    (change : Block → Block) :
    List Block → List Block
| [] => [change (named name)]
| block :: rest =>
    if block.name = name then
      change block :: rest
    else
      block :: update name change rest

/- Open a block here, also if it was open or closed. -/
def openAt
    (position : Nat)
    (block : Block) : Block :=
  { block with start := some position, last := none }

/- Want a block here, under the label of the place. -/
def wantAt
    (position : Nat)
    (label : Option String)
    (block : Block) : Block :=
  { block with origin := some position, label := label }

/-
  The block closed in front of the given position.  It has to
  be open somewhere in front and to hold a statement.
-/
def close
    (blocks : List Block)
    (name : String)
    (position : Nat) : Except LayoutError (List Block) :=
  match (find? blocks name).bind (·.start) with
  | none => .error (.undefinedBlock name)
  | some start =>
      if start < position then
        .ok (update name
          (fun block => { block with last := some (position - 1) })
          blocks)
      else
        .error (.badBlock name)

end Block

end MmixAsm
