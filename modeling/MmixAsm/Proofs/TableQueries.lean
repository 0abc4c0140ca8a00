import Mathlib.Data.List.Forall2
import MmixAsm.Macro.Condition
import MmixAsm.Proofs.LibraryFiles

/-
  What lines ask of the tables, and what lines add to them.

  A line asks whether a name is defined, for the value of a
  constant, or for a template.  A line adds at most one entry
  that can be an answer, under the name that it defines, and
  at most one link to another file.  Exchanging a line for one
  with the same link therefore changes no answer except under
  the names that the two define.

  Key definitions include:
    * `MmixAsm.Instruction.definedName?`
    * `MmixAsm.Instruction.includedFile?`
    * `MmixAsm.Query`
    * `MmixAsm.Library.answer`
    * `MmixAsm.MacroTable.AgreesOn`
    * `MmixAsm.Library.AgreesOn`

  Key theorems include:
    * `MmixAsm.MacroTable.includedFiles_ofLinesFrom`
    * `MmixAsm.MacroTable.agreesOn_of_exchange`
    * `MmixAsm.Library.answer_of_agreesOn`
-/

------------------------------------------------------------
-- Names And Links Of A Line
------------------------------------------------------------

namespace MmixAsm

namespace Instruction

/- The name that a line defines. -/
def definedName? (instruction : Instruction) : Option String :=
  match instruction.macroLine? with
  | none => none
  | some line =>
      match line.keyword with
      | .definition => line.label
      | .constant => (constantOf? line).map (·.1)
      | _ => none

/- The file that a line includes. -/
def includedFile? (instruction : Instruction) : Option String :=
  match instruction.macroLine? with
  | none => none
  | some line =>
      match line.keyword with
      | .inclusion => line.parameters.head?.map fileNameOf
      | _ => none

theorem definedName?_of_opensRegion
    {line : Instruction}
    (hLine : line.opensRegion = true) :
    line.definedName? = none := by
  unfold opensRegion macroKind? at hLine
  unfold definedName?
  cases hMacro : line.macroLine? with
  | none => rfl
  | some content =>
      cases hKeyword : content.keyword <;>
        simp [hMacro, hKeyword] at hLine ⊢

/- A line that includes a file is a macro line, no bracket. -/
theorem exists_of_includedFile?
    {line : Instruction}
    {file : String}
    (h : line.includedFile? = some file) :
    (∃ content, line.macroLine? = some content) ∧
      line.isBracket = false := by
  unfold includedFile? at h
  cases hMacro : line.macroLine? with
  | none => simp [hMacro] at h
  | some content =>
      refine ⟨⟨content, rfl⟩, ?_⟩
      cases hKeyword : content.keyword <;>
        simp only [hMacro, hKeyword, reduceCtorEq] at h
      have hKind : line.macroKind? = some .inclusion := by
        simp [macroKind?, hMacro, hKeyword]
      exact isBracket_eq_false_of_kind hKind (by simp)

end Instruction

namespace MacroTable

/- The entry of a line is under the name that it defines. -/
theorem definedName?_of_mem_ofLine
    {offset : Nat}
    {line : Instruction}
    {rest : List Instruction}
    {entry : MacroDecl}
    {name : String}
    (hEntry : entry ∈ ofLine offset line rest)
    (hName : entry.definedName? = some name) :
    line.definedName? = some name := by
  unfold ofLine at hEntry
  rcases Option.bind_eq_some_iff.mp
    (Option.mem_toList.mp hEntry) with
    ⟨content, hMacro, hDecl⟩
  unfold Instruction.definedName?
  rw [hMacro]
  unfold MacroDecl.ofLine? at hDecl
  split at hDecl
  · rename_i hKeyword
    rcases Option.bind_eq_some_iff.mp hDecl with
      ⟨label, hLabel, hBody⟩
    rcases Option.bind_eq_some_iff.mp hBody with
      ⟨body, _, hTemplate⟩
    cases hTemplate
    simp only [hKeyword, hLabel]
    exact hName
  · cases hDecl
    cases hName
  · cases hDecl
    cases hName
  · rename_i hKeyword
    rcases Option.map_eq_some_iff.mp hDecl with
      ⟨constant, hConstant, rfl⟩
    simp only [hKeyword, hConstant, Option.map_some]
    exact hName
  · cases hDecl
    cases hName
  · cases hDecl
    cases hName
  · cases hDecl
    unfold conditionEntry at hName
    split at hName
    · cases hName
    · cases hName
  · cases hDecl

/- Only INCLUDE lines have a link among their entries. -/
theorem inclusions_ofLine
    (offset : Nat)
    (line : Instruction)
    (rest : List Instruction) :
    inclusions (ofLine offset line rest) =
      (line.includedFile?.map (·, offset)).toList := by
  unfold ofLine Instruction.includedFile?
  cases line.macroLine? with
  | none => rfl
  | some content =>
      simp only [Option.bind_some]
      unfold MacroDecl.ofLine?
      cases hKeyword : content.keyword
      case definition =>
        cases content.label <;> cases line.macroBody? <;> rfl
      case application => rfl
      case constant => cases constantOf? content <;> rfl
      case otherwise => rfl
      case endIf => rfl
      case inclusion => cases content.parameters <;> rfl
      case ifDefined => cases content.parameters <;> rfl
      case ifUndefined => cases content.parameters <;> rfl
      case ifCondition =>
        cases content.parameters with
        | nil => rfl
        | cons condition others =>
            simp only [conditionEntry]
            cases regionElse? 0 (offset + 1) rest <;> rfl

theorem inclusions_append
    (left right : MacroTable) :
    inclusions (left ++ right) =
      inclusions left ++ inclusions right :=
  List.filterMap_append

/- The links of a file are those of its lines. -/
theorem includedFiles_ofLinesFrom
    (offset : Nat)
    (lines : List Instruction) :
    includedFiles (ofLinesFrom offset lines) =
      lines.filterMap Instruction.includedFile? := by
  induction lines generalizing offset with
  | nil => rfl
  | cons line rest ih =>
      have hRest := ih (offset + 1)
      unfold includedFiles at hRest ⊢
      rw [ofLinesFrom_cons, inclusions_append,
        inclusions_ofLine, List.map_append, hRest,
        List.filterMap_cons]
      cases line.includedFile? <;> rfl

end MacroTable

end MmixAsm

------------------------------------------------------------
-- Entries Under A Name
------------------------------------------------------------

namespace MmixAsm

namespace MacroTable

/- The entries that define a name. -/
def under
    (table : MacroTable)
    (name : String) : MacroTable :=
  table.filter (·.definedName? == some name)

theorem under_cons
    (entry : MacroDecl)
    (rest : MacroTable)
    (name : String) :
    under (entry :: rest) name =
      if entry.definedName? == some name then
        entry :: rest.under name
      else
        rest.under name :=
  List.filter_cons

theorem under_append
    (left right : MacroTable)
    (name : String) :
    under (left ++ right) name =
      left.under name ++ right.under name :=
  List.filter_append _ _

/- A name is looked up among the entries that define it. -/
theorem defines_under
    (table : MacroTable)
    (name : String) :
    (table.under name).defines name = table.defines name := by
  unfold defines entry? under
  simp only [List.find?_filter, and_self, Bool.decide_eq_true]

theorem template?_under
    (table : MacroTable)
    (name : String) :
    (table.under name).template? name =
      table.template? name := by
  unfold template? templates under
  rw [List.find?_filterMap, List.find?_filterMap,
    List.find?_filter]
  congr 2
  funext entry
  cases entry <;>
    simp [MacroDecl.definedName?, MacroDecl.template?,
      beq_eq_decide]

theorem constant?_under
    (table : MacroTable)
    (name : String) :
    (table.under name).constant? name =
      table.constant? name := by
  unfold constant? constants
  induction table with
  | nil => rfl
  | cons entry rest ih =>
      rw [under_cons, List.filterMap_cons]
      cases entry with
      | template t =>
          by_cases hName : t.name = name <;>
            simp [MacroDecl.definedName?,
              MacroDecl.constant?, hName, ih,
              List.filterMap_cons]
      | constant other value =>
          by_cases hName : other = name
          · simp [MacroDecl.definedName?,
              MacroDecl.constant?, hName]
          · have hOther : (name == other) = false := by
              simpa using Ne.symm hName
            simp [MacroDecl.definedName?,
              MacroDecl.constant?, hName, hOther, ih,
              List.lookup_cons]
      | _ =>
          simp [MacroDecl.definedName?, MacroDecl.constant?, ih]

/- A line adds nothing under a name that it does not define. -/
theorem under_ofLine_of_ne
    {line : Instruction}
    {name : String}
    (hLine : line.definedName? ≠ some name)
    (offset : Nat)
    (rest : List Instruction) :
    under (ofLine offset line rest) name = [] := by
  apply List.filter_eq_nil_iff.mpr
  intro entry hEntry hName
  exact hLine (definedName?_of_mem_ofLine hEntry
    (eq_of_beq hName))

/- What a line adds under a name does not depend on others. -/
theorem under_ofLine_congr
    (offset : Nat)
    (line : Instruction)
    (rest others : List Instruction)
    (name : String) :
    under (ofLine offset line rest) name =
      under (ofLine offset line others) name := by
  cases hOpens : line.opensRegion with
  | false =>
      rw [ofLine_of_not_opensRegion hOpens offset rest,
        ofLine_of_not_opensRegion hOpens offset others]
  | true =>
      have hLine : line.definedName? ≠ some name := by
        rw [Instruction.definedName?_of_opensRegion hOpens]
        exact nofun
      rw [under_ofLine_of_ne hLine, under_ofLine_of_ne hLine]

/-
  Exchanging a line changes nothing under a name that neither
  of the two lines defines.
-/
theorem under_of_exchange
    {line other : Instruction}
    {name : String}
    (hLine : line.definedName? ≠ some name)
    (hOther : other.definedName? ≠ some name)
    (offset : Nat)
    (before behind : List Instruction) :
    under (ofLinesFrom offset (before ++ line :: behind))
        name =
      under (ofLinesFrom offset (before ++ other :: behind))
        name := by
  induction before generalizing offset with
  | nil =>
      rw [List.nil_append, List.nil_append, ofLinesFrom_cons,
        ofLinesFrom_cons, under_append, under_append,
        under_ofLine_of_ne hLine, under_ofLine_of_ne hOther]
  | cons first rest ih =>
      rw [List.cons_append, List.cons_append,
        ofLinesFrom_cons, ofLinesFrom_cons, under_append,
        under_append, ih,
        under_ofLine_congr offset first
          (rest ++ line :: behind) (rest ++ other :: behind)]

/- Tables with the same links that agree on a name. -/
structure AgreesOn
    (name : String)
    (left right : MacroTable) : Prop where
  links : left.includedFiles = right.includedFiles
  entries : left.under name = right.under name

theorem AgreesOn.refl
    (name : String)
    (table : MacroTable) :
    AgreesOn name table table :=
  ⟨rfl, rfl⟩

/-
  Exchanging a line for one that includes the same changes
  tables only under the names that the two lines define.
-/
theorem agreesOn_of_exchange
    {line other : Instruction}
    {name : String}
    (hLinks : line.includedFile? = other.includedFile?)
    (hLine : line.definedName? ≠ some name)
    (hOther : other.definedName? ≠ some name)
    (before behind : List Instruction) :
    AgreesOn name (ofLines (before ++ line :: behind))
      (ofLines (before ++ other :: behind)) := by
  refine ⟨?_, under_of_exchange hLine hOther 0 before behind⟩
  unfold ofLines
  rw [includedFiles_ofLinesFrom, includedFiles_ofLinesFrom,
    List.filterMap_append, List.filterMap_append,
    List.filterMap_cons, List.filterMap_cons, hLinks]

end MacroTable

end MmixAsm

------------------------------------------------------------
-- Queries
------------------------------------------------------------

namespace MmixAsm

/- What can be asked about a name. -/
inductive Query where
  | defined (name : String)
  | constant (name : String)
  | template (name : String)
deriving DecidableEq

/- What the tables say about a name. -/
inductive Answer where
  | defined (answer : Bool)
  | constant (value : Option String)
  | template (template : Option Template)
deriving DecidableEq

/- The name that a query is about. -/
def Query.name :
    Query → String
| .defined name => name
| .constant name => name
| .template name => name

/- What a macro line asks. -/
def Line.query? (line : Line MacroKind) : Option Query :=
  match line.keyword, line.parameters with
  | .ifDefined, name :: _ => some (.defined name)
  | .ifUndefined, name :: _ => some (.defined name)
  | .ifCondition, text :: _ =>
      (Condition.ofText? text).map (.constant ·.name)
  | .application, name :: _ => some (.template name)
  | _, _ => none

/- What a line asks. -/
def Instruction.query?
    (instruction : Instruction) : Option Query :=
  instruction.macroLine?.bind Line.query?

namespace Library

/- The answer to a query as seen from a table. -/
def answer
    (library : Library)
    (table : MacroTable) :
    Query → Answer
| .defined name => .defined (library.isDefined table name)
| .constant name => .constant (library.constant? table name)
| .template name => .template (library.template? table name)

/- Libraries whose tables agree on a name, file by file. -/
def AgreesOn
    (name : String)
    (left right : Library) : Prop :=
  ∀ file : String,
    Option.Rel (MacroTable.AgreesOn name)
      ((left.unit? file).map (·.table))
      ((right.unit? file).map (·.table))

variable {left right : Library}
variable {leftTable rightTable : MacroTable}
variable {name : String}

theorem AgreesOn.sameLinks
    (h : AgreesOn name left right) :
    left.SameLinks right := by
  intro file
  have hFile := h file
  cases hLeft : left.unit? file with
  | none =>
      cases hRight : right.unit? file with
      | none => rfl
      | some unit => simp [hLeft, hRight] at hFile
  | some unit =>
      cases hRight : right.unit? file with
      | none => simp [hLeft, hRight] at hFile
      | some other =>
          rw [hLeft, hRight] at hFile
          cases hFile with
          | some hTable =>
              exact congrArg some hTable.links

/- The same tables are searched, and they agree on the name. -/
theorem forall₂_tablesFrom
    (h : AgreesOn name left right)
    (hTable : MacroTable.AgreesOn name leftTable rightTable) :
    List.Forall₂ (MacroTable.AgreesOn name)
      (left.tablesFrom leftTable)
      (right.tablesFrom rightTable) := by
  unfold tablesFrom
  refine .cons hTable ?_
  have hLinks := hTable.links
  unfold MacroTable.includedFiles at hLinks
  rw [reachable_congr h.sameLinks, hLinks]
  apply List.rel_filterMap (R := Eq)
  · rintro file _ rfl
    exact h file
  · exact List.forall₂_refl _

/- A search for the name finds the same. -/
theorem findFrom_of_agreesOn
    {α : Type}
    {find : MacroTable → Option α}
    (hFind : ∀ table : MacroTable,
      find (table.under name) = find table)
    (h : AgreesOn name left right)
    (hTable : MacroTable.AgreesOn name leftTable rightTable) :
    left.findFrom leftTable find =
      right.findFrom rightTable find := by
  unfold findFrom
  have hTables := forall₂_tablesFrom h hTable
  generalize left.tablesFrom leftTable = tables at hTables ⊢
  generalize right.tablesFrom rightTable = others
    at hTables ⊢
  induction hTables with
  | nil => rfl
  | cons hHead _ ih =>
      rw [List.findSome?_cons, List.findSome?_cons, ih,
        ← hFind, hHead.entries, hFind]

theorem isDefined_of_agreesOn
    (h : AgreesOn name left right)
    (hTable : MacroTable.AgreesOn name leftTable rightTable) :
    left.isDefined leftTable name =
      right.isDefined rightTable name := by
  unfold isDefined
  have hTables := forall₂_tablesFrom h hTable
  generalize left.tablesFrom leftTable = tables at hTables ⊢
  generalize right.tablesFrom rightTable = others
    at hTables ⊢
  induction hTables with
  | nil => rfl
  | cons hHead _ ih =>
      rw [List.any_cons, List.any_cons, ih,
        ← MacroTable.defines_under, hHead.entries,
        MacroTable.defines_under]

/- Where libraries agree on a name, so do their answers. -/
theorem answer_of_agreesOn
    {query : Query}
    (h : AgreesOn query.name left right)
    (hTable :
      MacroTable.AgreesOn query.name leftTable rightTable) :
    left.answer leftTable query =
      right.answer rightTable query := by
  cases query with
  | defined name =>
      exact congrArg Answer.defined
        (isDefined_of_agreesOn h hTable)
  | constant name =>
      exact congrArg Answer.constant
        (findFrom_of_agreesOn
          (MacroTable.constant?_under · name) h hTable)
  | template name =>
      exact congrArg Answer.template
        (findFrom_of_agreesOn
          (MacroTable.template?_under · name) h hTable)

end Library

end MmixAsm
