/-
  The two classes an assembly error falls into.

  Every error of every stage belongs to one of them, and a
  report names the class beside the message.

  Key definitions include:
    * `MmixAsm.ErrorClass`
    * `MmixAsm.ErrorClass.text`
-/

------------------------------------------------------------
-- Error Classes
------------------------------------------------------------

namespace MmixAsm

/-
  A structural error is a broken shape of the program, such
  as a missing file or an unclosed block.  A semantic error
  is a problem with a single name or literal.
-/
inductive ErrorClass where
  | structural
  | semantic
deriving DecidableEq

/- The word that stands for a class in a report. -/
def ErrorClass.text :
    ErrorClass → String
| .structural => "structural"
| .semantic => "semantic"

end MmixAsm
