/-
  Dividing lists, and joining lines.

  Key definitions include:
    * `MmixAsm.splitWhere`
    * `MmixAsm.Text.endLines`

  Key theorems include:
    * `MmixAsm.splitWhere_ne_nil`
-/

------------------------------------------------------------
-- Dividing Lists
------------------------------------------------------------

namespace MmixAsm

variable {α : Type}

/-
  Divide a list at the elements that satisfy `p`, which are
  left out.  There is one part more than such elements.
-/
def splitWhere
    (p : α → Bool) :
    List α → List (List α)
| [] => [[]]
| x :: xs =>
    if p x then
      [] :: splitWhere p xs
    else
      match splitWhere p xs with
      | [] => [[x]]
      | part :: rest => (x :: part) :: rest

/- There is always at least one part. -/
theorem splitWhere_ne_nil
    (p : α → Bool)
    (xs : List α) :
    splitWhere p xs ≠ [] := by
  cases xs with
  | nil => simp [splitWhere]
  | cons x xs =>
      unfold splitWhere
      split
      · simp
      · split <;> simp

end MmixAsm

------------------------------------------------------------
-- Joining Lines
------------------------------------------------------------

namespace MmixAsm

namespace Text

/- Texts as lines, every line ended. -/
def endLines (lines : List String) : String :=
  String.join (lines.map (· ++ "\n"))

end Text

end MmixAsm
