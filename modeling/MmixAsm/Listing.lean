import MmixAsm.SourceFile
import MmixAsm.Text.Outline
import MmixAsm.Text.Quoted

/-
  Listings: parsed files written out in full.

  A listing names every part of every instruction, so that
  one can see how a line was understood.

  Key definitions include:
    * `MmixAsm.Instruction.outline`
    * `MmixAsm.SourceFile.outline`
    * `MmixAsm.listing`
-/

------------------------------------------------------------
-- Names In A Listing
------------------------------------------------------------

namespace MmixAsm

/- The name of a size in a listing. -/
def DataSize.listed :
    DataSize → String
| .byte => "Byte"
| .wyde => "Wyde"
| .tetra => "Tetra"
| .octa => "Octa"

/- The name of a directive in a listing. -/
def Directive.listed :
    Directive → String
| .loc => "Loc"
| .greg => "Greg"
| .equate => "Is"
| .place => "Use"
| .block => "Block"
| .endBlock => "EndBlock"

/- The name of a macro instruction in a listing. -/
def MacroKind.listed :
    MacroKind → String
| .inclusion => "Include"
| .definition => "Macro"
| .application => "UseMacro"
| .ifDefined => "IfDef"
| .ifUndefined => "IfNDef"
| .ifCondition => "If"
| .otherwise => "Else"
| .endIf => "EndIf"
| .constant => "Define"

end MmixAsm

------------------------------------------------------------
-- Listings
------------------------------------------------------------

namespace MmixAsm

open Text (Outline)

/- A text in a listing. -/
def listedText (text : String) : Outline :=
  .atom (Text.quoted text)

/-
  The three fields of a line, of which the keyword's field
  has a name of its own.
-/
def Line.fields
    {κ : Type}
    (name : String)
    (listed : κ → Outline)
    (line : Line κ) : List (String × Outline) :=
  [("label", .optional (line.label.map listedText)),
    (name, listed line.keyword),
    ("parameters", .list (line.parameters.map listedText))]

/- The fields of a macro instruction. -/
def macroFields
    (line : Line MacroKind)
    (body : Option Outline) : List (String × Outline) :=
  line.fields "kind" (Outline.atom ∘ MacroKind.listed)
    ++ [("expression", .optional body)]

/- An instruction in a listing. -/
def Instruction.outline :
    Instruction → Outline
| .op line =>
    .wrap "Op" (.record "OpInstruction"
      (line.fields "mnemonic" listedText))
| .alloc line =>
    .wrap "Alloc" (.record "AllocInstruction"
      (line.fields "size" (Outline.atom ∘ DataSize.listed)))
| .control line =>
    .wrap "Control" (.record "ControlInstruction"
      (line.fields "directive"
        (Outline.atom ∘ Directive.listed)))
| .macroLine line =>
    .wrap "Macro" (.record "MacroInstruction"
      (macroFields line none))
| .macroTemplate line body =>
    .wrap "Macro" (.record "MacroInstruction"
      (macroFields line (some body.outline)))

/- A file in a listing. -/
def SourceFile.outline (file : SourceFile) : Outline :=
  .record "SourceFile"
    [("name", listedText file.name),
      ("instructions",
        .list (file.instructions.map Instruction.outline)),
      ("is_entry",
        .atom (if file.isEntry then "true" else "false"))]

/- The listing of some files. -/
def listing (files : List SourceFile) : String :=
  (Outline.list (files.map SourceFile.outline)).text

end MmixAsm
