import MmixAsm.Layout.Error
import MmixAsm.Layout.Segment
import MmixAsm.Layout.Statement

/-
  Padding: how LOC moves the next statement.

  LOC asks that the next statement stands at an offset of its
  segment.  It is replaced by as many placeholders as that
  takes, and by none if the offset is already reached.  Other
  directives have no position of their own and pass through.

  Key definitions include:
    * `MmixAsm.paddingOf`
    * `MmixAsm.pad`
-/

------------------------------------------------------------
-- Placeholders
------------------------------------------------------------

namespace MmixAsm

/- Most placeholders of one LOC when nothing else is said. -/
def defaultPaddingLimit : Nat :=
  1048576

/-
  The number of placeholders that one LOC inserts at the
  given position.
-/
def paddingOf
    (limit : Nat)
    (position : Nat)
    (line : Line Directive) : Except LayoutError Nat :=
  match line.parameters with
  | [] => .error (.missingParameter .loc)
  | parameter :: _ =>
      match Segment.address parameter with
      | .error number => .error (.invalidLoc number)
      | .ok target =>
          let padding :=
            (Segment.offset target).toNat - position
          if limit < padding then
            .error (.locOutOfRange target padding limit)
          else
            .ok padding

/-
  Replace every LOC by its placeholders.  The position counts
  the statements in front.
-/
def padFrom
    (limit : Nat)
    (position : Nat) :
    List Instruction → Except LayoutError (List Item)
| [] => .ok []
| .op line :: rest =>
    (padFrom limit (position + 1) rest).map
      (.statement (.op line) :: ·)
| .alloc line :: rest =>
    (padFrom limit (position + 1) rest).map
      (.statement (.alloc line) :: ·)
| .control line :: rest =>
    if line.keyword = .loc then
      match paddingOf limit position line with
      | .error e => .error e
      | .ok padding =>
          (padFrom limit (position + padding) rest).map
            (List.replicate padding (.statement .padding) ++ ·)
    else
      (padFrom limit position rest).map (.control line :: ·)
| instruction :: _ =>
    .error (.unexpectedMacro instruction.render)

/- Replace every LOC of a program by its placeholders. -/
def pad
    (limit : Nat)
    (instructions : List Instruction) :
    Except LayoutError (List Item) :=
  padFrom limit 0 instructions

end MmixAsm
