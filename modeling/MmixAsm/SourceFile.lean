import MmixAsm.Field
import MmixAsm.Instruction

/-
  Source files and how they are read.

  A line without fields says nothing; any other line is one
  instruction.  The template of a macro definition is read by
  the same rules from the fields that follow the formals.

  The reader holds one token of the next line when it judges
  a line.  An unterminated string that opens the next line is
  therefore reported before a fault of the line itself.

  Key definitions include:
    * `MmixAsm.SourceFile`
    * `MmixAsm.heading`
    * `MmixAsm.Instruction.ofFields`
    * `MmixAsm.Instruction.ofScan?`
    * `MmixAsm.parseLines`
    * `MmixAsm.SourceFile.parse`
-/

------------------------------------------------------------
-- Source Files
------------------------------------------------------------

namespace MmixAsm

/-
  A named list of instructions.  The program starts in the
  file that is marked as the entry.
-/
structure SourceFile where
  name : String
  instructions : List Instruction
  isEntry : Bool
deriving DecidableEq

end MmixAsm

------------------------------------------------------------
-- Headings
------------------------------------------------------------

namespace MmixAsm

/- The label and keyword of a line and its other fields. -/
structure Heading where
  label : Option String
  keyword : Keyword
  rest : List Field

/-
  Read the heading of a line.  A first field that is a
  keyword stands for itself; otherwise it is the label, and
  the second field has to be the keyword.
-/
def heading :
    List Field → Except LineFault Heading
| [] => .error (.shape .keywordMissing)
| first :: rest =>
    match first.keyword? with
    | some keyword => .ok ⟨none, keyword, rest⟩
    | none =>
        match first.word?, rest with
        | none, _ => .error (.shape .labelNotWord)
        | some _, [] => .error (.shape .keywordMissing)
        | some label, second :: others =>
            match second.keyword? with
            | some keyword => .ok ⟨some label, keyword, others⟩
            | none => .error (.unexpectedToken second.text)

/- A heading takes at least one field. -/
theorem length_heading_rest_lt
    {fields : List Field}
    {head : Heading}
    (h : heading fields = .ok head) :
    head.rest.length < fields.length := by
  unfold heading at h
  split at h
  · cases h
  · split at h
    · cases h
      simp
    · split at h
      · cases h
      · cases h
      · split at h
        · cases h
          simp only [List.length_cons]
          omega
        · cases h

/-
  Divide what follows a macro definition's keyword into the
  formals and the template.  A first field that is a keyword
  belongs to the template, and there are no formals then.
-/
def formals :
    List Field → Except LineFault (List String × List Field)
| [] => .ok ([], [])
| first :: rest =>
    match first.keyword? with
    | some _ => .ok ([], first :: rest)
    | none =>
        match first.parameters with
        | .ok names => .ok (names, rest)
        | .error fault => .error fault

/- A template has no more fields than the definition. -/
theorem length_formals_le
    {fields : List Field}
    {names : List String}
    {body : List Field}
    (h : formals fields = .ok (names, body)) :
    body.length ≤ fields.length := by
  unfold formals at h
  split at h
  · cases h
    simp
  · split at h
    · cases h
      simp
    · split at h
      · cases h
        simp
      · cases h

end MmixAsm

------------------------------------------------------------
-- Instructions
------------------------------------------------------------

namespace MmixAsm

/- The parameters in the one field that may hold them. -/
def soleParameters :
    List Field → Except LineFault (List String)
| [] => .ok []
| [field] => field.parameters
| _ => .error (.shape .extraField)

/-
  Read an instruction from the fields of a line.  Templates
  are read recursively from fewer fields.
-/
def Instruction.ofFields
    (fields : List Field) : Except LineFault Instruction :=
  match _hHead : heading fields with
  | .error fault => .error fault
  | .ok head =>
      if head.keyword = .macroKind .definition then
        match _hBody : formals head.rest with
        | .error fault => .error fault
        | .ok (names, body) =>
            if body.isEmpty then
              .error .missingTemplate
            else
              match Instruction.ofFields body with
              | .error fault => .error fault
              | .ok template =>
                  if template.isMacro then
                    .error .nestedTemplate
                  else
                    .ok (.macroTemplate
                      ⟨head.label, .definition, names⟩ template)
      else
        match soleParameters head.rest with
        | .error fault => .error fault
        | .ok parameters =>
            .ok (.ofKeyword head.label parameters head.keyword)
termination_by fields.length
decreasing_by
  have hLt := length_heading_rest_lt _hHead
  have hLe := length_formals_le _hBody
  omega

/- Read a scanned line, which may hold nothing. -/
def Instruction.ofScan?
    (scan : Scan) : Except LineFault (Option Instruction) :=
  match scan.unclosed with
  | some _ => .error .unterminatedString
  | none =>
      match Field.ofTokens (scan.tokens.map (·.2)) with
      | [] => .ok none
      | fields => (Instruction.ofFields fields).map some

end MmixAsm

------------------------------------------------------------
-- Reading Files
------------------------------------------------------------

namespace MmixAsm

/- Whether an unterminated string opens the first line. -/
def opensUnclosed :
    List Scan → Bool
| [] => false
| scan :: _ => scan.unclosed == some 1

/- The error to report for a faulty line. -/
def lineError
    (number : Nat)
    (fault : LineFault)
    (following : List Scan) : SyntaxError :=
  if fault ≠ .unterminatedString ∧ opensUnclosed following then
    ⟨number + 1, .unterminatedString⟩
  else
    ⟨number, fault⟩

/- Read lines of which the first has the given number. -/
def parseLines
    (number : Nat) :
    List Scan → Except SyntaxError (List Instruction)
| [] => .ok []
| scan :: rest =>
    match Instruction.ofScan? scan with
    | .error fault => .error (lineError number fault rest)
    | .ok none => parseLines (number + 1) rest
    | .ok (some instruction) =>
        match parseLines (number + 1) rest with
        | .error e => .error e
        | .ok instructions => .ok (instruction :: instructions)

/- The label that marks the entry of a program. -/
def entryLabel : String :=
  "Main"

/- Whether an instruction carries the entry label. -/
def Instruction.marksEntry (instruction : Instruction) : Bool :=
  instruction.label? == some entryLabel

/- Remove the entry label from an instruction. -/
def Instruction.dropEntryLabel
    (instruction : Instruction) : Instruction :=
  if instruction.marksEntry then instruction.withLabel none
  else instruction

/-
  Read a source file.  The entry label only marks the file,
  so no instruction keeps it.
-/
def SourceFile.parse
    (name : String)
    (text : String) : Except SyntaxError SourceFile :=
  match parseLines 1 (scanText text) with
  | .error e => .error e
  | .ok instructions =>
      .ok {
        name
        instructions :=
          instructions.map Instruction.dropEntryLabel
        isEntry := instructions.any Instruction.marksEntry }

end MmixAsm
