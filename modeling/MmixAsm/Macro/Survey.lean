import MmixAsm.Literal
import MmixAsm.Macro.Declaration
import MmixAsm.Macro.Error

/-
  Reading the macro lines of one file.

  A survey goes over the lines once and finds the first that
  is wrong: a missing part, a name defined twice, or ELSE and
  ENDIF that match no open region.  In a file that passes,
  conditional regions are nested like brackets, and each
  entry follows from its own line and the lines behind it.

  Key definitions include:
    * `MmixAsm.Survey`
    * `MmixAsm.Survey.ofLines`
    * `MmixAsm.regionStop`
    * `MmixAsm.regionElse?`
    * `MmixAsm.MacroTable.ofLines`
-/

------------------------------------------------------------
-- Macro Lines
------------------------------------------------------------

namespace MmixAsm

namespace Instruction

/- The line of a macro instruction. -/
def macroLine? :
    Instruction → Option (Line MacroKind)
| .macroLine line => some line
| .macroTemplate line _ => some line
| _ => none

/- The template that a macro instruction carries. -/
def macroBody? :
    Instruction → Option Instruction
| .macroTemplate _ body => some body
| _ => none

/- The kind of a macro instruction. -/
def macroKind? (instruction : Instruction) : Option MacroKind :=
  instruction.macroLine?.map (·.keyword)

/- Whether an instruction opens a conditional region. -/
def opensRegion (instruction : Instruction) : Bool :=
  match instruction.macroKind? with
  | some .ifDefined => true
  | some .ifUndefined => true
  | some .ifCondition => true
  | _ => false

end Instruction

/-
  The name and the value of a constant, either of which may
  stand first.  The value may be left out if the name is a
  parameter.
-/
def constantOf? (line : Line MacroKind) : Option (String × String) :=
  match line.label, line.parameters with
  | some name, [value] => some (name, value)
  | none, [name] => some (name, "")
  | none, [name, value] => some (name, value)
  | _, _ => none

/- A file name, which may be written in quotes. -/
def fileNameOf (parameter : String) : String :=
  (Literal.content? parameter).getD parameter

end MmixAsm

------------------------------------------------------------
-- Survey
------------------------------------------------------------

namespace MmixAsm

/- A region that is still open; only an IF can have ELSE. -/
inductive Opening where
  | definedness
  | condition (elseSeen : Bool)
deriving DecidableEq

/- What is known in front of a line. -/
structure Survey where
  names : List String
  openings : List Opening
deriving DecidableEq

namespace Survey

/- Nothing is known in front of the first line. -/
def start : Survey where
  names := []
  openings := []

/- Define a name that is new. -/
def define
    (survey : Survey)
    (file name : String) : Except MacroError Survey :=
  if survey.names.contains name then
    .error (.duplicateName file name)
  else
    .ok { survey with names := name :: survey.names }

/- Open a region. -/
def push
    (survey : Survey)
    (opening : Opening) : Survey :=
  { survey with openings := opening :: survey.openings }

/- Pass from the first part of an IF to its other part. -/
def turn
    (survey : Survey)
    (file : String) : Except MacroError Survey :=
  match survey.openings with
  | [] => .error (.unmatched file .otherwise)
  | .condition false :: rest =>
      .ok { survey with openings := .condition true :: rest }
  | _ => .error (.unexpectedElse file)

/- Close the innermost region. -/
def pop
    (survey : Survey)
    (file : String) : Except MacroError Survey :=
  match survey.openings with
  | [] => .error (.unmatched file .endIf)
  | _ :: rest => .ok { survey with openings := rest }

/- Read the definition of a template. -/
def defineTemplate
    (survey : Survey)
    (file : String)
    (line : Line MacroKind)
    (body : Option Instruction) : Except MacroError Survey :=
  match line.label, body with
  | none, _ => .error (.missingLabel file line.keyword)
  | some name, none => .error (.missingTemplate file name)
  | some name, some _ => survey.define file name

/- Go on if the line has a parameter. -/
def needParameter
    (survey : Survey)
    (file : String)
    (line : Line MacroKind) : Except MacroError Survey :=
  match line.parameters with
  | [] => .error (.missingParameter file line.keyword)
  | _ => .ok survey

/- Read one macro line. -/
def readMacro
    (survey : Survey)
    (file : String)
    (line : Line MacroKind)
    (body : Option Instruction) : Except MacroError Survey :=
  match line.keyword with
  | .definition => survey.defineTemplate file line body
  | .inclusion => survey.needParameter file line
  | .application => survey.needParameter file line
  | .constant =>
      match constantOf? line with
      | some (name, _) => survey.define file name
      | none => .error (.missingParameter file line.keyword)
  | .ifDefined =>
      (survey.push .definedness).needParameter file line
  | .ifUndefined =>
      (survey.push .definedness).needParameter file line
  | .ifCondition =>
      (survey.push (.condition false)).needParameter file line
  | .otherwise => survey.turn file
  | .endIf => survey.pop file

/- Read one line, which need not be a macro line. -/
def step
    (file : String)
    (survey : Survey)
    (instruction : Instruction) : Except MacroError Survey :=
  match instruction.macroLine? with
  | some line =>
      survey.readMacro file line instruction.macroBody?
  | none => .ok survey

/- Read all lines of a file; no region may stay open. -/
def ofLines
    (file : String)
    (lines : List Instruction) : Except MacroError Survey :=
  match lines.foldlM (step file) start with
  | .error e => .error e
  | .ok survey =>
      if survey.openings.isEmpty then .ok survey
      else .error (.unterminatedRegion file)

end Survey

end MmixAsm

------------------------------------------------------------
-- Regions
------------------------------------------------------------

namespace MmixAsm

/-
  The offset of the ENDIF that closes a region, given the
  lines inside it with the offset of the first.  The depth
  counts the regions opened and not yet closed in between.
-/
def regionStop
    (depth offset : Nat) :
    List Instruction → Nat
| [] => offset
| line :: rest =>
    if line.opensRegion then
      regionStop (depth + 1) (offset + 1) rest
    else if line.macroKind? = some .endIf then
      match depth with
      | 0 => offset
      | depth + 1 => regionStop depth (offset + 1) rest
    else
      regionStop depth (offset + 1) rest

/- The offset of the ELSE that divides a region. -/
def regionElse?
    (depth offset : Nat) :
    List Instruction → Option Nat
| [] => none
| line :: rest =>
    if line.opensRegion then
      regionElse? (depth + 1) (offset + 1) rest
    else if line.macroKind? = some .endIf then
      match depth with
      | 0 => none
      | depth + 1 => regionElse? depth (offset + 1) rest
    else if line.macroKind? = some .otherwise ∧ depth = 0 then
      some offset
    else
      regionElse? depth (offset + 1) rest

/-
  The entry of a condition.  Its first part runs to ELSE, or
  to ENDIF if there is none.
-/
def conditionEntry
    (condition : String)
    (offset : Nat)
    (rest : List Instruction) : MacroDecl :=
  let stop := regionStop 0 (offset + 1) rest
  match regionElse? 0 (offset + 1) rest with
  | some middle =>
      .ifCondition condition ⟨offset, middle⟩
        (some ⟨middle, stop⟩)
  | none => .ifCondition condition ⟨offset, stop⟩ none

end MmixAsm

------------------------------------------------------------
-- Tables
------------------------------------------------------------

namespace MmixAsm

/-
  The entry that a macro line declares, given its offset and
  the lines behind it.  ELSE and ENDIF declare nothing, since
  they belong to the line that opened their region.
-/
def MacroDecl.ofLine?
    (line : Line MacroKind)
    (body : Option Instruction)
    (offset : Nat)
    (rest : List Instruction) : Option MacroDecl :=
  match line.keyword, line.parameters with
  | .definition, formals => do
      some (.template ⟨← line.label, formals, ← body⟩)
  | .inclusion, file :: _ =>
      some (.inclusion (fileNameOf file) offset)
  | .application, actuals =>
      some (.site ⟨line.label, offset, actuals⟩)
  | .constant, _ =>
      (constantOf? line).map fun c => .constant c.1 c.2
  | .ifDefined, name :: _ =>
      some (.ifDefined true name
        ⟨offset, regionStop 0 (offset + 1) rest⟩)
  | .ifUndefined, name :: _ =>
      some (.ifDefined false name
        ⟨offset, regionStop 0 (offset + 1) rest⟩)
  | .ifCondition, condition :: _ =>
      some (conditionEntry condition offset rest)
  | _, _ => none

/- The entries of lines of which the first has the offset. -/
def MacroTable.ofLinesFrom
    (offset : Nat) :
    List Instruction → MacroTable
| [] => []
| line :: rest =>
    (line.macroLine?.bind fun macroLine =>
        MacroDecl.ofLine? macroLine line.macroBody? offset
          rest).toList
      ++ MacroTable.ofLinesFrom (offset + 1) rest

/- The entries of a file. -/
def MacroTable.ofLines (lines : List Instruction) : MacroTable :=
  MacroTable.ofLinesFrom 0 lines

end MmixAsm
