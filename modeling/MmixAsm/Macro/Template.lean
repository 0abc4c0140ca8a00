import MmixAsm.Macro.Library

/-
  Templates: how a site gets its instruction.

  A hole in a template is an ampersand and the name of a
  formal.  The formals are replaced one after the other, the
  longest name first, so that a name which begins another one
  does not take its place.  Text that was put in is read
  again by the formals that follow.

  Key definitions include:
    * `MmixAsm.fillHole`
    * `MmixAsm.bindFormals`
    * `MmixAsm.Template.instantiate`
    * `MmixAsm.Library.expanded`
    * `MmixAsm.Library.expand`
-/

------------------------------------------------------------
-- Holes
------------------------------------------------------------

namespace MmixAsm

/-
  Replace the holes of one formal from left to right.  The
  first argument counts the characters of a hole that are
  still to be passed over.
-/
def fillHole
    (formal actual : List Char) :
    Nat → List Char → List Char
| _, [] => []
| skip + 1, _ :: cs => fillHole formal actual skip cs
| 0, c :: cs =>
    if c = '&' ∧ formal.isPrefixOf cs then
      actual ++ fillHole formal actual formal.length cs
    else
      c :: fillHole formal actual 0 cs

/- Replace the holes of one formal in a parameter. -/
def fillParameter
    (parameter : String)
    (binding : String × String) : String :=
  String.ofList
    (fillHole binding.1.toList binding.2.toList 0
      parameter.toList)

/-
  Pair the formals with the actuals in the order in which
  they are replaced: by the bytes of the formal, most first,
  and in the written order among equals.
-/
def bindFormals
    (formals actuals : List String) : List (String × String) :=
  (formals.zip actuals).mergeSort
    (fun a b => b.1.utf8ByteSize ≤ a.1.utf8ByteSize)

/- Replace all holes in a parameter. -/
def fillAll
    (bindings : List (String × String))
    (parameter : String) : String :=
  bindings.foldl fillParameter parameter

/- The label of a site counts more than the template's. -/
def Instruction.relabel
    (instruction : Instruction)
    (label : Option String) : Instruction :=
  match label with
  | some name => instruction.withLabel (some name)
  | none => instruction

/- A template with its holes filled. -/
def Template.instantiate
    (template : Template)
    (actuals : List String) : Instruction :=
  template.body.withParameters
    (template.body.parameters.map
      (fillAll (bindFormals template.formals actuals)))

end MmixAsm

------------------------------------------------------------
-- Sites
------------------------------------------------------------

namespace MmixAsm

namespace Library

/- The instruction that takes the place of a site. -/
def expandSite
    (library : Library)
    (file : String)
    (table : MacroTable)
    (site : Site) : Except MacroError Instruction :=
  match site.actuals with
  | [] => .error (.missingParameter file .application)
  | name :: actuals =>
      match library.template? table name with
      | none => .error (.unknownName file name)
      | some template =>
          if template.formals.length = actuals.length then
            .ok ((template.instantiate actuals).relabel
              site.label)
          else
            .error (.wrongArity file name
              template.formals.length actuals.length)

/- The offsets of all live sites with their instructions. -/
def expansions
    (library : Library)
    (file : String)
    (unit : SourceUnit) :
    Except MacroError (List (Nat × Instruction)) :=
  unit.liveSites.mapM fun site =>
    (library.expandSite file unit.table site).map
      (site.offset, ·)

/- Put instructions into the slots at their offsets. -/
def fillSlots
    (slots : List Slot)
    (instructions : List (Nat × Instruction)) : List Slot :=
  instructions.foldl
    (fun acc entry => acc.set entry.1 (.live entry.2)) slots

/- Replace the live sites of a unit. -/
def expandUnit
    (library : Library)
    (file : String)
    (unit : SourceUnit) : Except MacroError SourceUnit :=
  (library.expansions file unit).map fun instructions =>
    { unit with slots := fillSlots unit.slots instructions }

/- The library with the live sites of all files replaced. -/
def expanded
    (library : Library) : Except MacroError Library :=
  (library.units.mapM fun entry =>
    (library.expandUnit entry.1 entry.2).map (entry.1, ·)).map
      Library.mk

/-
  Replace the live sites of all files.  The library is given
  back in any case, and a failure leaves it as it was.
-/
def expand
    (library : Library) : Library × Option MacroError :=
  match library.expanded with
  | .ok result => (result, none)
  | .error e => (library, some e)

end Library

end MmixAsm
