/-
  White space and trimming.

  The class is the Unicode property White_Space, which holds
  of twenty-five characters.

  Key definitions include:
    * `MmixAsm.Text.isWhiteSpace`
    * `MmixAsm.Text.trim`
-/

------------------------------------------------------------
-- White Space
------------------------------------------------------------

namespace MmixAsm

namespace Text

/- Whether a character has the property White_Space. -/
def isWhiteSpace (c : Char) : Bool :=
  let n := c.toNat
  (0x09 ≤ n && n ≤ 0x0D) || n == 0x20 || n == 0x85
    || n == 0xA0 || n == 0x1680
    || (0x2000 ≤ n && n ≤ 0x200A) || n == 0x2028
    || n == 0x2029 || n == 0x202F || n == 0x205F
    || n == 0x3000

/- Remove the white space at the end of a text. -/
def trimEnd (cs : List Char) : List Char :=
  (cs.reverse.dropWhile isWhiteSpace).reverse

/- Remove the white space at both ends of a text. -/
def trim (cs : List Char) : List Char :=
  trimEnd (cs.dropWhile isWhiteSpace)

end Text

end MmixAsm
