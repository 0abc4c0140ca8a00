import MmixAsm.Macro.Condition
import MmixAsm.Macro.Library
import MmixAsm.Macro.Template
import MmixAsm.Proofs.Balance

/-
  What a file says, read line by line.

  Reading keeps the parts of the regions that are open, the
  innermost first.  A line is active if every part around it
  is kept, and only active lines say anything: an instruction
  stands for itself, and USEMACRO for the instance of its
  template.  No offset and no region bound occurs here.
  Names are looked up in the tables; `MmixAsm.Part.Selected`
  is the same rule for the lines of the files alone.

  Key definitions include:
    * `MmixAsm.Part`
    * `MmixAsm.EnclosedLine.ofLines`
    * `MmixAsm.Library.keepsPart`
    * `MmixAsm.Library.isActive`
    * `MmixAsm.Library.isFaulty`
    * `MmixAsm.Library.meaning?`
    * `MmixAsm.Library.reading?`

  Key theorems include:
    * `MmixAsm.Balanced.parts_suffix`
-/

------------------------------------------------------------
-- Parts Around A Line
------------------------------------------------------------

namespace MmixAsm

/-
  One part of a conditional region: the line that opens the
  region, and whether the part stands behind its ELSE.
-/
structure Part where
  opener : Line MacroKind
  behindElse : Bool
deriving DecidableEq

namespace Part

/- Pass from the innermost part to the one behind ELSE. -/
def turn :
    List Part → List Part
| [] => []
| part :: rest => { part with behindElse := true } :: rest

/- The parts around the line that follows the given one. -/
def pass
    (parts : List Part)
    (instruction : Instruction) : List Part :=
  match instruction.macroLine? with
  | none => parts
  | some line =>
      match line.keyword with
      | .ifDefined => ⟨line, false⟩ :: parts
      | .ifUndefined => ⟨line, false⟩ :: parts
      | .ifCondition => ⟨line, false⟩ :: parts
      | .otherwise => turn parts
      | .endIf => parts.tail
      | _ => parts

theorem pass_of_not_isBracket
    {line : Instruction}
    (hLine : line.isBracket = false)
    (parts : List Part) :
    pass parts line = parts := by
  rcases Instruction.isBracket_eq_false_iff.mp hLine with
    ⟨hOpens, hElse, hEnd⟩
  unfold pass
  cases hMacro : line.macroLine? with
  | none => rfl
  | some content =>
      have hKind :
          line.macroKind? = some content.keyword := by
        simp [Instruction.macroKind?, hMacro]
      cases hKeyword : content.keyword <;>
        simp [Instruction.opensRegion, hKind, hKeyword]
          at hOpens hElse hEnd ⊢

theorem pass_of_opensRegion
    {line : Instruction}
    {content : Line MacroKind}
    (hLine : line.opensRegion = true)
    (hMacro : line.macroLine? = some content)
    (parts : List Part) :
    pass parts line = ⟨content, false⟩ :: parts := by
  have hKind : line.macroKind? = some content.keyword := by
    simp [Instruction.macroKind?, hMacro]
  unfold pass
  rw [hMacro]
  cases hKeyword : content.keyword <;>
    simp [Instruction.opensRegion, hKind, hKeyword]
      at hLine ⊢

theorem pass_of_otherwise
    {line : Instruction}
    (hLine : line.macroKind? = some .otherwise)
    (parts : List Part) :
    pass parts line = turn parts := by
  rcases Option.map_eq_some_iff.mp hLine with
    ⟨content, hMacro, hKeyword⟩
  simp [pass, hMacro, hKeyword]

theorem pass_of_endIf
    {line : Instruction}
    (hLine : line.macroKind? = some .endIf)
    (parts : List Part) :
    pass parts line = parts.tail := by
  rcases Option.map_eq_some_iff.mp hLine with
    ⟨content, hMacro, hKeyword⟩
  simp [pass, hMacro, hKeyword]

end Part

/- A line that opens a region is a macro line. -/
theorem Instruction.exists_macroLine_of_opensRegion
    {line : Instruction}
    (hLine : line.opensRegion = true) :
    ∃ content, line.macroLine? = some content := by
  cases hMacro : line.macroLine? with
  | none =>
      simp [opensRegion, macroKind?, hMacro] at hLine
  | some content => exact ⟨content, rfl⟩

/- A line and the parts around it, the innermost first. -/
structure EnclosedLine where
  parts : List Part
  line : Instruction
deriving DecidableEq

namespace EnclosedLine

/- Read lines of which the first lies in the given parts. -/
def ofLines
    (parts : List Part) :
    List Instruction → List EnclosedLine
| [] => []
| line :: rest =>
    ⟨parts, line⟩ :: ofLines (Part.pass parts line) rest

theorem ofLines_append
    (parts : List Part)
    (left right : List Instruction) :
    ofLines parts (left ++ right) =
      ofLines parts left
        ++ ofLines (left.foldl Part.pass parts) right := by
  induction left generalizing parts with
  | nil => rfl
  | cons line rest ih =>
      simp only [List.cons_append, ofLines, List.foldl_cons]
      rw [ih]

theorem map_line_ofLines
    (parts : List Part)
    (lines : List Instruction) :
    (ofLines parts lines).map (·.line) = lines := by
  induction lines generalizing parts with
  | nil => rfl
  | cons line rest ih => rw [ofLines, List.map_cons, ih]

@[simp] theorem length_ofLines
    (parts : List Part)
    (lines : List Instruction) :
    (ofLines parts lines).length = lines.length := by
  rw [← List.length_map, map_line_ofLines]

end EnclosedLine

namespace Balanced

/- Behind balanced lines the same parts are open as before. -/
theorem foldl_pass
    {lines : List Instruction}
    (hLines : Balanced lines)
    (parts : List Part) :
    lines.foldl Part.pass parts = parts := by
  induction hLines generalizing parts with
  | nil => rfl
  | plain hLine => exact Part.pass_of_not_isBracket hLine parts
  | append hLeft hRight ihLeft ihRight =>
      rw [List.foldl_append, ihLeft, ihRight]
  | @region opener closer body hOpener hBody hCloser ih =>
      rcases Instruction.exists_macroLine_of_opensRegion
        hOpener with ⟨content, hMacro⟩
      simp only [List.cons_append, List.foldl_cons,
        List.foldl_append, List.foldl_nil]
      rw [ih, Part.pass_of_opensRegion hOpener hMacro,
        Part.pass_of_endIf hCloser]
      rfl
  | @alternative opener divider closer body other hOpener hBody
      hDivider hOther hCloser ihBody ihOther =>
      have hOpen :=
        Instruction.opensRegion_of_kind hOpener (by simp)
      rcases Instruction.exists_macroLine_of_opensRegion
        hOpen with ⟨content, hMacro⟩
      simp only [List.cons_append, List.append_assoc,
        List.foldl_cons, List.foldl_append, List.foldl_nil]
      rw [ihBody, ihOther,
        Part.pass_of_opensRegion hOpen hMacro,
        Part.pass_of_otherwise hDivider,
        Part.pass_of_endIf hCloser]
      rfl

/- What `ofLines` reads of a region without ELSE. -/
theorem ofLines_region
    {opener closer : Instruction}
    {content : Line MacroKind}
    {body : List Instruction}
    (hOpener : opener.opensRegion = true)
    (hMacro : opener.macroLine? = some content)
    (hBody : Balanced body)
    (parts : List Part) :
    EnclosedLine.ofLines parts (opener :: body ++ [closer]) =
      ⟨parts, opener⟩
        :: (EnclosedLine.ofLines (⟨content, false⟩ :: parts)
              body
          ++ [⟨⟨content, false⟩ :: parts, closer⟩]) := by
  simp only [List.cons_append, EnclosedLine.ofLines]
  rw [EnclosedLine.ofLines_append, hBody.foldl_pass,
    Part.pass_of_opensRegion hOpener hMacro]
  rfl

/- What `ofLines` reads of a region with both parts. -/
theorem ofLines_alternative
    {opener divider closer : Instruction}
    {content : Line MacroKind}
    {body other : List Instruction}
    (hOpener : opener.opensRegion = true)
    (hMacro : opener.macroLine? = some content)
    (hBody : Balanced body)
    (hDivider : divider.macroKind? = some .otherwise)
    (hOther : Balanced other)
    (parts : List Part) :
    EnclosedLine.ofLines parts
        (opener :: body ++ divider :: other ++ [closer]) =
      ⟨parts, opener⟩
        :: (EnclosedLine.ofLines (⟨content, false⟩ :: parts)
              body
          ++ ⟨⟨content, false⟩ :: parts, divider⟩
          :: (EnclosedLine.ofLines (⟨content, true⟩ :: parts)
                other
            ++ [⟨⟨content, true⟩ :: parts, closer⟩])) := by
  simp only [List.cons_append, List.append_assoc,
    EnclosedLine.ofLines]
  rw [EnclosedLine.ofLines_append, hBody.foldl_pass,
    Part.pass_of_opensRegion hOpener hMacro]
  simp only [EnclosedLine.ofLines]
  rw [Part.pass_of_otherwise hDivider,
    EnclosedLine.ofLines_append, hOther.foldl_pass]
  rfl

/- Balanced lines stay inside the parts they start in. -/
theorem parts_suffix
    {lines : List Instruction}
    (hLines : Balanced lines)
    {parts : List Part}
    {enclosed : EnclosedLine}
    (hMem : enclosed ∈ EnclosedLine.ofLines parts lines) :
    parts <:+ enclosed.parts := by
  induction hLines generalizing parts with
  | nil => cases hMem
  | plain hLine =>
      cases List.mem_singleton.mp hMem
      exact List.suffix_rfl
  | append hLeft hRight ihLeft ihRight =>
      rw [EnclosedLine.ofLines_append, hLeft.foldl_pass]
        at hMem
      rcases List.mem_append.mp hMem with hMem | hMem
      · exact ihLeft hMem
      · exact ihRight hMem
  | @region opener closer body hOpener hBody hCloser ih =>
      rcases Instruction.exists_macroLine_of_opensRegion
        hOpener with ⟨content, hMacro⟩
      rw [hBody.ofLines_region hOpener hMacro] at hMem
      rcases List.mem_cons.mp hMem with rfl | hMem
      · exact List.suffix_rfl
      rcases List.mem_append.mp hMem with hMem | hMem
      · exact (List.suffix_cons _ _).trans (ih hMem)
      · cases List.mem_singleton.mp hMem
        exact List.suffix_cons _ _
  | @alternative opener divider closer body other hOpener hBody
      hDivider hOther hCloser ihBody ihOther =>
      have hOpen :=
        Instruction.opensRegion_of_kind hOpener (by simp)
      rcases Instruction.exists_macroLine_of_opensRegion
        hOpen with ⟨content, hMacro⟩
      rw [hBody.ofLines_alternative hOpen hMacro hDivider
        hOther] at hMem
      rcases List.mem_cons.mp hMem with rfl | hMem
      · exact List.suffix_rfl
      rcases List.mem_append.mp hMem with hMem | hMem
      · exact (List.suffix_cons _ _).trans (ihBody hMem)
      rcases List.mem_cons.mp hMem with rfl | hMem
      · exact List.suffix_cons _ _
      rcases List.mem_append.mp hMem with hMem | hMem
      · exact (List.suffix_cons _ _).trans (ihOther hMem)
      · cases List.mem_singleton.mp hMem
        exact List.suffix_cons _ _

end Balanced

end MmixAsm

------------------------------------------------------------
-- Active Lines
------------------------------------------------------------

namespace MmixAsm

namespace Library

/- Whether a condition is malformed or about no constant. -/
def conditionFails
    (library : Library)
    (table : MacroTable)
    (text : String) : Bool :=
  match Condition.ofText? text with
  | none => true
  | some condition =>
      (library.constant? table condition.name).isNone

/- Whether a condition compares a constant and holds. -/
def conditionHolds
    (library : Library)
    (table : MacroTable)
    (text : String) : Bool :=
  match Condition.ofText? text with
  | none => false
  | some condition =>
      (library.constant? table condition.name).any
        condition.holds

/-
  Whether a part of a region is kept.  The two parts of an IF
  are kept if its condition holds and if it does not.
-/
def keepsPart
    (library : Library)
    (table : MacroTable)
    (part : Part) : Bool :=
  match part.opener.keyword, part.opener.parameters with
  | .ifDefined, name :: _ => library.isDefined table name
  | .ifUndefined, name :: _ => !library.isDefined table name
  | .ifCondition, condition :: _ =>
      library.conditionHolds table condition
        != part.behindElse
  | _, _ => true

/- Whether all parts around a line are kept. -/
def isActive
    (library : Library)
    (table : MacroTable)
    (enclosed : EnclosedLine) : Bool :=
  enclosed.parts.all (library.keepsPart table)

/- Whether a line is an IF whose condition has no answer. -/
def isUndecided
    (library : Library)
    (table : MacroTable)
    (line : Line MacroKind) : Bool :=
  match line.keyword, line.parameters with
  | .ifCondition, condition :: _ =>
      library.conditionFails table condition
  | _, _ => false

/- Whether a line is an active IF without an answer. -/
def isFaulty
    (library : Library)
    (table : MacroTable)
    (enclosed : EnclosedLine) : Bool :=
  library.isActive table enclosed
    && enclosed.line.macroLine?.any (library.isUndecided table)

/- The instance of the template that a USEMACRO line names. -/
def instance?
    (library : Library)
    (table : MacroTable)
    (line : Line MacroKind) : Option Instruction :=
  match line.parameters with
  | [] => none
  | name :: actuals =>
      ((library.template? table name).filter
        (·.formals.length == actuals.length)).map
          fun template =>
            (template.instantiate actuals).relabel line.label

/-
  What a line says where it is active: an instruction says
  itself, USEMACRO one instance, and other macro lines
  nothing.  A USEMACRO line without instance has no meaning.
-/
def meaning?
    (library : Library)
    (table : MacroTable)
    (instruction : Instruction) : Option (List Instruction) :=
  match instruction.macroLine? with
  | none => some [instruction]
  | some line =>
      if line.keyword = .application then
        (library.instance? table line).map ([·])
      else
        some []

/- What the active lines of a file say, in order. -/
def reading?
    (library : Library)
    (table : MacroTable)
    (lines : List Instruction) : Option (List Instruction) :=
  (((EnclosedLine.ofLines [] lines).filter
    (library.isActive table)).mapM
      fun enclosed =>
        library.meaning? table enclosed.line).map
    List.flatten

end Library

end MmixAsm
