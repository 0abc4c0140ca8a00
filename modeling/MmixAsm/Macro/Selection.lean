import MmixAsm.Macro.Condition
import MmixAsm.Macro.Library

/-
  Selection: which parts of a file are kept.

  The regions of a file are decided in the order of their
  first lines, and a region whose first line is dropped
  already is not looked at.  A failure keeps what was dropped
  before it.

  Key definitions include:
    * `MmixAsm.Library.evaluate`
    * `MmixAsm.Library.dropped?`
    * `MmixAsm.Library.selectUnit`
    * `MmixAsm.Library.selectParts`
    * `MmixAsm.Library.selected`
-/

------------------------------------------------------------
-- Selection
------------------------------------------------------------

namespace MmixAsm

namespace Library

/- Whether a condition holds as seen from a table. -/
def evaluate
    (library : Library)
    (file : String)
    (table : MacroTable)
    (text : String) : Except MacroError Bool :=
  match Condition.ofText? text with
  | none => .error (.malformedCondition file text)
  | some condition =>
      match library.constant? table condition.name with
      | none => .error (.undefinedConstant file condition.name)
      | some value => .ok (condition.holds value)

/- The region that an entry drops, if there is one. -/
def dropped?
    (library : Library)
    (file : String)
    (unit : SourceUnit) :
    MacroDecl → Except MacroError (Option Region)
| .ifDefined wanted name region =>
    if unit.isDropped region.start then
      .ok none
    else if library.isDefined unit.table name = wanted then
      .ok none
    else
      .ok (some region)
| .ifCondition condition thenPart elsePart =>
    if unit.isDropped thenPart.start then
      .ok none
    else
      match library.evaluate file unit.table condition with
      | .error e => .error e
      | .ok true => .ok elsePart
      | .ok false => .ok (some thenPart)
| _ => .ok none

/- Drop the region of an entry. -/
def selectEntry
    (library : Library)
    (file : String)
    (unit : SourceUnit)
    (entry : MacroDecl) : Except MacroError SourceUnit :=
  match library.dropped? file unit entry with
  | .error e => .error e
  | .ok none => .ok unit
  | .ok (some region) => .ok (unit.dropRegion region)

/-
  Decide some regions of a unit.  The unit is given back in
  any case, together with the failure that ended the work.
-/
def selectEntries
    (library : Library)
    (file : String)
    (unit : SourceUnit) :
    List MacroDecl → SourceUnit × Option MacroError
| [] => (unit, none)
| entry :: rest =>
    match library.selectEntry file unit entry with
    | .error e => (unit, some e)
    | .ok unit => library.selectEntries file unit rest

/- Decide all regions of a unit. -/
def selectUnit
    (library : Library)
    (file : String)
    (unit : SourceUnit) : SourceUnit × Option MacroError :=
  library.selectEntries file unit unit.table

/- Decide the regions of some units up to a failure. -/
def selectUnits
    (library : Library) :
    List (String × SourceUnit) →
      List (String × SourceUnit) × Option MacroError
| [] => ([], none)
| (file, unit) :: rest =>
    match library.selectUnit file unit with
    | (unit, some e) => ((file, unit) :: rest, some e)
    | (unit, none) =>
        let others := library.selectUnits rest
        ((file, unit) :: others.1, others.2)

/-
  Decide the regions of all files in the order of their
  names.  Tables do not change, so every name is looked up in
  the library as it was.
-/
def selectParts
    (library : Library) : Library × Option MacroError :=
  let result := library.selectUnits library.units
  (⟨result.1⟩, result.2)

/- The library with all regions decided. -/
def selected (library : Library) : Except MacroError Library :=
  match library.selectParts with
  | (_, some e) => .error e
  | (result, none) => .ok result

end Library

end MmixAsm
