import MmixAsm.Literal

/-
  The segments of the address space.

  The three highest bits of an address select its segment and
  the other bits are the offset inside it.

  Key definitions include:
    * `MmixAsm.Segment`
    * `MmixAsm.Segment.base`
    * `MmixAsm.Segment.address`
    * `MmixAsm.Segment.offset`
-/

------------------------------------------------------------
-- Segments
------------------------------------------------------------

namespace MmixAsm

/- A segment that has a name of its own. -/
inductive Segment where
  | text
  | data
  | pool
  | stack
deriving DecidableEq

namespace Segment

/- All named segments. -/
def all : List Segment :=
  [.text, .data, .pool, .stack]

/- The name of a segment. -/
def name :
    Segment → String
| .text => "Text_Segment"
| .data => "Data_Segment"
| .pool => "Pool_Segment"
| .stack => "Stack_Segment"

/- The first address of a segment. -/
def base :
    Segment → UInt64
| .text => 0x0000000000000000
| .data => 0x2000000000000000
| .pool => 0x4000000000000000
| .stack => 0x6000000000000000

/- The first address of the segment with the given name. -/
def baseOf? (name : String) : Option UInt64 :=
  (all.find? (fun segment => segment.name == name)).map base

/-
  The address a text denotes: the base of a named segment or
  a number.
-/
def address (text : String) : Except NumberFault UInt64 :=
  match baseOf? text with
  | some value => .ok value
  | none => Literal.number text

/- The offset of an address inside its segment. -/
def offset (address : UInt64) : UInt64 :=
  address &&& 0x1FFFFFFFFFFFFFFF

end Segment

end MmixAsm
