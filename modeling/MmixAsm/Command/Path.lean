import MmixAsm.Text.Split

/-
  Paths, and the places that they lead to.

  A path is a text of parts with slashes between them.  One
  that begins with a slash starts at the root, any other in
  the directory in which the command works.

  Key definitions include:
    * `MmixAsm.pathParts`
    * `MmixAsm.fileName`
    * `MmixAsm.Place`
    * `MmixAsm.Place.step`
-/

------------------------------------------------------------
-- Paths
------------------------------------------------------------

namespace MmixAsm

/- The parts of a path between its slashes. -/
def pathParts (path : String) : List String :=
  (splitWhere (· == '/') path.toList).map String.ofList

/- Whether a part of a path stays where it is. -/
def staysHere (part : String) : Bool :=
  part == "" || part == "."

/-
  The name of the file that a path leads to, which is its
  last part that names anything.  A path that ends by going
  up has no such name and stands for itself.
-/
def fileName (path : String) : String :=
  match ((pathParts path).filter (!staysHere ·)).getLast? with
  | none => path
  | some ".." => path
  | some name => name

/- The most bytes that a name in a directory may have. -/
def longestName : Nat :=
  255

/- The most bytes that a path may have. -/
def longestPath : Nat :=
  4095

end MmixAsm

------------------------------------------------------------
-- Places
------------------------------------------------------------

namespace MmixAsm

/- A place, given by the names on the way from the root. -/
abbrev Place :=
  List String

namespace Place

/-
  The place that one part of a path leads to.  The root has
  nothing above it, so that going up from it stays there.
-/
def step
    (place : Place)
    (part : String) : Place :=
  if staysHere part then place
  else if part = ".." then place.dropLast
  else place ++ [part]

/- A place and all the places above it. -/
def upwards (place : Place) : List Place :=
  (List.range (place.length + 1)).map (place.take ·)

end Place

end MmixAsm
