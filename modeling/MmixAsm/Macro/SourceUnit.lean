import MmixAsm.Macro.Survey
import MmixAsm.SourceFile

/-
  Source units: files while the macro layer works on them.

  Every line keeps a slot.  A slot is live if it holds an
  instruction of the program, vacant if a macro line stood
  there, and dropped if a conditional region left it out.

  Key definitions include:
    * `MmixAsm.Slot`
    * `MmixAsm.SourceUnit`
    * `MmixAsm.SourceUnit.ofFile`
    * `MmixAsm.SourceUnit.dropRegion`
    * `MmixAsm.SourceUnit.instructions`
-/

------------------------------------------------------------
-- Slots
------------------------------------------------------------

namespace MmixAsm

/- What became of a line. -/
inductive Slot where
  | live (instruction : Instruction)
  | vacant
  | dropped
deriving DecidableEq

namespace Slot

/- The slot of a line at first. -/
def ofInstruction (instruction : Instruction) : Slot :=
  if instruction.isMacro then .vacant else .live instruction

/- The instruction of a live slot. -/
def instruction? :
    Slot → Option Instruction
| .live instruction => some instruction
| _ => none

end Slot

end MmixAsm

------------------------------------------------------------
-- Source Units
------------------------------------------------------------

namespace MmixAsm

/- The slots of a file and what its macro lines declare. -/
structure SourceUnit where
  slots : List Slot
  table : MacroTable
deriving DecidableEq

namespace SourceUnit

/- The unit of a file whose macro lines are in order. -/
def ofFile (file : SourceFile) : Except MacroError SourceUnit :=
  (Survey.ofLines file.name file.instructions).map fun _ => {
    slots := file.instructions.map Slot.ofInstruction
    table := MacroTable.ofLines file.instructions }

/- Whether the line at an offset is dropped. -/
def isDropped
    (unit : SourceUnit)
    (offset : Nat) : Bool :=
  unit.slots[offset]? == some .dropped

/- Drop all lines of a region, as far as there are any. -/
def dropRegion
    (unit : SourceUnit)
    (region : Region) : SourceUnit :=
  { unit with
    slots := unit.slots.mapIdx fun offset slot =>
      if region.start ≤ offset ∧ offset < region.stop then
        .dropped
      else
        slot }

/- The live instructions in order. -/
def instructions (unit : SourceUnit) : List Instruction :=
  unit.slots.filterMap Slot.instruction?

/- The files included by lines that are not dropped. -/
def liveInclusions (unit : SourceUnit) : List String :=
  (unit.table.inclusions.filter
    (fun entry => !unit.isDropped entry.2)).map (·.1)

/- The sites on lines that are not dropped. -/
def liveSites (unit : SourceUnit) : List Site :=
  unit.table.sites.filter
    (fun site => !unit.isDropped site.offset)

end SourceUnit

end MmixAsm
