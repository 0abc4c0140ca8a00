import MmixAsm.Instruction

/-
  Macro declarations: what the macro lines of a file say.

  An entry records the offset of its line, or the range of
  lines it governs.  Lines are never removed while the macro
  layer runs, so the offsets stay right.

  Key definitions include:
    * `MmixAsm.Region`
    * `MmixAsm.Template`
    * `MmixAsm.Site`
    * `MmixAsm.MacroDecl`
    * `MmixAsm.MacroTable`
-/

------------------------------------------------------------
-- Entries
------------------------------------------------------------

namespace MmixAsm

/- The lines from `start` up to but without `stop`. -/
structure Region where
  start : Nat
  stop : Nat
deriving DecidableEq

/- An instruction with holes, under a name. -/
structure Template where
  name : String
  formals : List String
  body : Instruction
deriving DecidableEq

/-
  A line to be replaced by a template.  The first actual
  names the template and the others fill its holes.
-/
structure Site where
  label : Option String
  offset : Nat
  actuals : List String
deriving DecidableEq

/- What one macro line declares. -/
inductive MacroDecl where
  | template (template : Template)
  | site (site : Site)
  | inclusion (file : String) (offset : Nat)
  | constant (name value : String)
  | ifDefined (wanted : Bool) (name : String) (region : Region)
  | ifCondition (condition : String) (thenPart : Region)
      (elsePart : Option Region)
deriving DecidableEq

namespace MacroDecl

/- The name that an entry defines. -/
def definedName? :
    MacroDecl → Option String
| .template t => some t.name
| .constant name _ => some name
| _ => none

/- The template that an entry defines. -/
def template? :
    MacroDecl → Option Template
| .template t => some t
| _ => none

/- The name and value of the constant an entry defines. -/
def constant? :
    MacroDecl → Option (String × String)
| .constant name value => some (name, value)
| _ => none

/- The site that an entry marks. -/
def site? :
    MacroDecl → Option Site
| .site s => some s
| _ => none

/- The file that an entry includes, and its offset. -/
def inclusion? :
    MacroDecl → Option (String × Nat)
| .inclusion file offset => some (file, offset)
| _ => none

end MacroDecl

end MmixAsm

------------------------------------------------------------
-- Tables
------------------------------------------------------------

namespace MmixAsm

/- The entries of a file, in the order of their lines. -/
abbrev MacroTable : Type :=
  List MacroDecl

namespace MacroTable

/- The entry that defines a name. -/
def entry?
    (table : MacroTable)
    (name : String) : Option MacroDecl :=
  table.find? (fun entry => entry.definedName? == some name)

/- Whether a name is defined as a template or a constant. -/
def defines
    (table : MacroTable)
    (name : String) : Bool :=
  (table.entry? name).isSome

/- All templates. -/
def templates (table : MacroTable) : List Template :=
  table.filterMap MacroDecl.template?

/- All constants with their values. -/
def constants (table : MacroTable) : List (String × String) :=
  table.filterMap MacroDecl.constant?

/- All sites. -/
def sites (table : MacroTable) : List Site :=
  table.filterMap MacroDecl.site?

/- All inclusions with their offsets. -/
def inclusions (table : MacroTable) : List (String × Nat) :=
  table.filterMap MacroDecl.inclusion?

/- The template with the given name. -/
def template?
    (table : MacroTable)
    (name : String) : Option Template :=
  table.templates.find? (fun t => t.name == name)

/- The value of the constant with the given name. -/
def constant?
    (table : MacroTable)
    (name : String) : Option String :=
  table.constants.lookup name

end MacroTable

end MmixAsm
