import MmixAsm.Layout.Symbols

/-
  Streams: statements that keep their identity while blocks
  are moved.

  A statement's identity is its position before any block is
  moved.  Blocks name their statements by identity, so a move
  does not disturb the ranges of the blocks that follow.

  Key definitions include:
    * `MmixAsm.Stream`
    * `MmixAsm.Stream.move`
    * `MmixAsm.Block.plan`
    * `MmixAsm.Placed.ofBlocks`
-/

------------------------------------------------------------
-- Moving One Block
------------------------------------------------------------

namespace MmixAsm

/- Statements, each beside its identity. -/
abbrev Stream : Type :=
  List (Statement × Nat)

namespace Stream

/- Give every statement its position as its identity. -/
def ofStatements (statements : List Statement) : Stream :=
  statements.zipIdx

/- The statements in their present order. -/
def statements (stream : Stream) : List Statement :=
  stream.map (·.1)

/- Whether an identity lies in a range with both ends. -/
def inRange
    (first last : Nat)
    (entry : Statement × Nat) : Bool :=
  first ≤ entry.2 && entry.2 ≤ last

/- The statements of a range, in their present order. -/
def inside
    (stream : Stream)
    (first last : Nat) : Stream :=
  stream.filter (inRange first last)

/- The statements outside a range, in their present order. -/
def outside
    (stream : Stream)
    (first last : Nat) : Stream :=
  stream.filter (fun entry => !inRange first last entry)

/-
  Where a range lands that is wanted at `origin`: there, or
  at the end if the other statements are fewer.
-/
def landing
    (stream : Stream)
    (first last origin : Nat) : Nat :=
  min origin (stream.outside first last).length

/- Move a range to the place where it lands. -/
def move
    (stream : Stream)
    (first last origin : Nat) : Stream :=
  let others := stream.outside first last
  let position := stream.landing first last origin
  others.take position ++ stream.inside first last
    ++ others.drop position

end Stream

end MmixAsm

------------------------------------------------------------
-- Placing All Blocks
------------------------------------------------------------

namespace MmixAsm

/- What is to be done with a block. -/
inductive Plan where
  | unused
  | insideItself
  | move (first last origin : Nat)
deriving DecidableEq

/-
  Decide what is to be done with a block.  Every block has to
  be complete, and one that is wanted inside itself cannot be
  moved.
-/
def Block.plan (block : Block) : Except LayoutError Plan :=
  match block.start, block.last with
  | none, _ => .error (.undefinedBlock block.name)
  | some _, none => .error (.unterminatedBlock block.name)
  | some first, some last =>
      match block.origin with
      | none => .ok .unused
      | some origin =>
          if first ≤ origin ∧ origin ≤ last then
            .ok .insideItself
          else
            .ok (.move first last origin)

/- A stream with the labels bound while placing blocks. -/
structure Placed where
  stream : Stream
  labels : LabelTable

namespace Placed

/- Carry out a plan; a moved block binds its label. -/
def follow
    (placed : Placed)
    (label : Option String) :
    Plan → Placed
| .unused => placed
| .insideItself => placed
| .move first last origin => {
    stream := placed.stream.move first last origin
    labels :=
      placed.labels.bindOptional label
        (toString (placed.stream.landing first last origin)) }

/- Place one block. -/
def place
    (placed : Placed)
    (block : Block) : Except LayoutError Placed :=
  block.plan.map (placed.follow block.label)

/- Place all blocks in order. -/
def ofBlocks
    (statements : List Statement)
    (labels : LabelTable)
    (blocks : List Block) : Except LayoutError Placed :=
  blocks.foldlM place ⟨.ofStatements statements, labels⟩

end Placed

end MmixAsm
