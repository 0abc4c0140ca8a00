import MmixAsm.Keyword

/-
  Instructions: what one source line says.

  Every line has an optional label, a keyword and a list of
  parameters.  `Line` holds these three for one family of
  keywords, and an instruction is a line of one of the four
  families.  A macro line may carry a template, which is an
  instruction of its own.

  Key definitions include:
    * `MmixAsm.Line`
    * `MmixAsm.Instruction`
    * `MmixAsm.Instruction.render`
-/

------------------------------------------------------------
-- Lines
------------------------------------------------------------

namespace MmixAsm

/- A line whose keyword comes from one family. -/
structure Line (κ : Type) where
  label : Option String
  keyword : κ
  parameters : List String
deriving DecidableEq

namespace Line

variable {κ : Type}

/-
  The written form of a line: the label, the keyword and the
  parameters with commas between them, each part present only
  if there is something to write.
-/
def render
    (spell : κ → String)
    (line : Line κ) : String :=
  (match line.label with
    | some label => label ++ " "
    | none => "")
    ++ spell line.keyword
    ++ (match line.parameters with
        | [] => ""
        | ps => " " ++ String.intercalate "," ps)

/- Apply a function to every parameter. -/
def mapParameters
    (f : String → String)
    (line : Line κ) : Line κ :=
  { line with parameters := line.parameters.map f }

end Line

end MmixAsm

------------------------------------------------------------
-- Instructions
------------------------------------------------------------

namespace MmixAsm

/- What one source line says. -/
inductive Instruction where
  | op (line : Line String)
  | alloc (line : Line DataSize)
  | control (line : Line Directive)
  | macroLine (line : Line MacroKind)
  | macroTemplate (line : Line MacroKind) (body : Instruction)
deriving DecidableEq

namespace Instruction

/- The label of an instruction. -/
def label? :
    Instruction → Option String
| .op line => line.label
| .alloc line => line.label
| .control line => line.label
| .macroLine line => line.label
| .macroTemplate line _ => line.label

/- The parameters of an instruction. -/
def parameters :
    Instruction → List String
| .op line => line.parameters
| .alloc line => line.parameters
| .control line => line.parameters
| .macroLine line => line.parameters
| .macroTemplate line _ => line.parameters

/- Replace the label of an instruction. -/
def withLabel
    (label : Option String) :
    Instruction → Instruction
| .op line => .op { line with label }
| .alloc line => .alloc { line with label }
| .control line => .control { line with label }
| .macroLine line => .macroLine { line with label }
| .macroTemplate line body =>
    .macroTemplate { line with label } body

/- Replace the parameters of an instruction. -/
def withParameters
    (parameters : List String) :
    Instruction → Instruction
| .op line => .op { line with parameters }
| .alloc line => .alloc { line with parameters }
| .control line => .control { line with parameters }
| .macroLine line => .macroLine { line with parameters }
| .macroTemplate line body =>
    .macroTemplate { line with parameters } body

/- Add a parameter behind the others. -/
def pushParameter
    (parameter : String)
    (instruction : Instruction) : Instruction :=
  instruction.withParameters
    (instruction.parameters ++ [parameter])

/- Remove the last parameter, if there is one. -/
def popParameter (instruction : Instruction) : Instruction :=
  instruction.withParameters instruction.parameters.dropLast

/- Whether an instruction belongs to the macro layer. -/
def isMacro :
    Instruction → Bool
| .macroLine _ => true
| .macroTemplate _ _ => true
| _ => false

/- The instruction a keyword makes of its line. -/
def ofKeyword
    (label : Option String)
    (parameters : List String) :
    Keyword → Instruction
| .op mnemonic => .op ⟨label, mnemonic, parameters⟩
| .alloc size => .alloc ⟨label, size, parameters⟩
| .control directive => .control ⟨label, directive, parameters⟩
| .macroKind kind => .macroLine ⟨label, kind, parameters⟩

/- The written form of an instruction. -/
def render :
    Instruction → String
| .op line => line.render id
| .alloc line => line.render DataSize.name
| .control line => line.render Directive.name
| .macroLine line => line.render MacroKind.name
| .macroTemplate line body =>
    line.render MacroKind.name ++ " " ++ body.render

end Instruction

end MmixAsm
