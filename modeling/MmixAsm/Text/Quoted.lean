import MmixAsm.Text.Hex
import MmixAsm.Text.Unprintable

/-
  Text in quotes, with escapes for what cannot be seen.

  Key definitions include:
    * `MmixAsm.Text.escape`
    * `MmixAsm.Text.quoted`
-/

------------------------------------------------------------
-- Quoting
------------------------------------------------------------

namespace MmixAsm

namespace Text

/-
  How a character is written between double quotes.  Five
  characters have a short escape beside the backslash itself,
  and the unprintable others are written by their number.
-/
def escape (c : Char) : String :=
  if c = '"' then "\\\""
  else if c = '\\' then "\\\\"
  else if c = '\t' then "\\t"
  else if c = '\r' then "\\r"
  else if c = '\n' then "\\n"
  else if c = Char.ofNat 0 then "\\0"
  else if isUnprintable c then
    "\\u\x7b" ++ hex c.toNat ++ "\x7d"
  else
    String.singleton c

/- A text between double quotes. -/
def quoted (text : String) : String :=
  "\"" ++ String.join (text.toList.map escape) ++ "\""

end Text

end MmixAsm
