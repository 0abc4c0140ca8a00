import MmixAsm.Proofs.EndedLines
import MmixAsm.Proofs.SameAnswers
import MmixAsm.Proofs.StageContracts
import MmixAsm.Proofs.StatementOrder
import MmixAsm.Proofs.UnreadActuals

/-
  The written program has one line for each position.

  Labels are words, and no parameter that is read holds a
  line feed.  An instance of a template is made of its text
  and of the actuals, and a replaced label of a parameter, a
  register or a position, so no line feed comes in later.
  Every instruction is written with its keyword, which is a
  word, so only placeholders leave their line empty.

  Key definitions include:
    * `MmixAsm.IsOneLine`
    * `MmixAsm.Line.FitsLine`
    * `MmixAsm.Instruction.FitsLine`
    * `MmixAsm.Statement.FitsLine`

  Key theorems include:
    * `MmixAsm.isOneLine_fillAll`
    * `MmixAsm.fitsLine_of_expandProgram`
    * `MmixAsm.fitsLine_of_layOut`
    * `MmixAsm.output_has_line_per_position`
-/

------------------------------------------------------------
-- Texts Inside One Line
------------------------------------------------------------

namespace MmixAsm

/- A text without a line feed. -/
def IsOneLine (text : String) : Prop :=
  '\n' ∉ text.toList

instance (text : String) : Decidable (IsOneLine text) :=
  inferInstanceAs (Decidable ('\n' ∉ text.toList))

theorem IsOneLine.append
    {left right : String}
    (hLeft : IsOneLine left)
    (hRight : IsOneLine right) :
    IsOneLine (left ++ right) := by
  unfold IsOneLine
  rw [String.toList_append, List.mem_append]
  exact not_or.mpr ⟨hLeft, hRight⟩

theorem isOneLine_intercalate
    {separator : String}
    {texts : List String}
    (hSeparator : IsOneLine separator)
    (hTexts : ∀ text ∈ texts, IsOneLine text) :
    IsOneLine (String.intercalate separator texts) := by
  intro hFeed
  rcases mem_toList_intercalate hFeed with
    hFeed | ⟨text, hText, hFeed⟩
  · exact hSeparator hFeed
  · exact hTexts text hText hFeed

/- A number is written in digits. -/
theorem isOneLine_toString (value : Nat) :
    IsOneLine (toString value) := by
  intro hFeed
  rw [Nat.toString_eq_repr, Nat.toList_repr] at hFeed
  have hDigit := Nat.isDigit_of_mem_toDigits (by decide)
    (by decide) hFeed
  cases hDigit

/- What is read as one item stands on one line. -/
theorem IsItem.isOneLine
    {text : String}
    (hItem : IsItem text) :
    IsOneLine text :=
  fun hFeed => (hItem.isLineChar _ hFeed).1 rfl

theorem IsWord.isOneLine
    {text : String}
    (hWord : IsWord text) :
    IsOneLine text :=
  IsItem.isOneLine (Or.inl hWord)

/- Filling holes puts in nothing but the actuals. -/
theorem isOneLine_fillAll
    {bindings : List (String × String)}
    {parameter : String}
    (hBindings : ∀ binding ∈ bindings, IsOneLine binding.2)
    (hParameter : IsOneLine parameter) :
    IsOneLine (fillAll bindings parameter) := by
  unfold fillAll
  induction bindings generalizing parameter with
  | nil => exact hParameter
  | cons binding rest ih =>
      rcases List.forall_mem_cons.mp hBindings with
        ⟨hBinding, hRest⟩
      apply ih hRest
      intro hFeed
      rw [fillParameter, String.toList_ofList] at hFeed
      rcases Marking.mem_of_mem_fillHole hFeed with
        hActual | hText
      · exact hBinding hActual
      · exact hParameter hText

/- Formals are bound to the given actuals. -/
theorem isOneLine_of_mem_bindFormals
    {formals actuals : List String}
    (hActuals : ∀ actual ∈ actuals, IsOneLine actual) :
    ∀ binding ∈ bindFormals formals actuals,
      IsOneLine binding.2 := by
  intro binding hBinding
  have hZip := List.mem_mergeSort.mp hBinding
  exact hActuals binding.2 (List.of_mem_zip hZip).2

end MmixAsm

------------------------------------------------------------
-- Lines
------------------------------------------------------------

namespace MmixAsm

namespace Line

variable {κ : Type}
variable {line : Line κ}

/- A line with a word as label and no line feed behind it. -/
structure FitsLine (line : Line κ) : Prop where
  label : ∀ name ∈ line.label, IsWord name
  parameters : ∀ parameter ∈ line.parameters,
    IsOneLine parameter

theorem Shaped.fitsLine
    (hLine : line.Shaped) :
    line.FitsLine where
  label name hName := (hLine.label name hName).1
  parameters item hItem :=
    (hLine.parameters item hItem).isOneLine

theorem FitsLine.setLabel
    {label : Option String}
    (hLine : line.FitsLine)
    (hLabel : ∀ name ∈ label, IsWord name) :
    FitsLine { line with label } :=
  ⟨hLabel, hLine.parameters⟩

theorem FitsLine.setParameters
    {parameters : List String}
    (hLine : line.FitsLine)
    (hParameters : ∀ parameter ∈ parameters,
      IsOneLine parameter) :
    FitsLine { line with parameters } :=
  ⟨hLine.label, hParameters⟩

theorem FitsLine.mapParameters
    {f : String → String}
    (hLine : line.FitsLine)
    (hReplace : ∀ text, IsOneLine text → IsOneLine (f text)) :
    (line.mapParameters f).FitsLine := by
  apply hLine.setParameters
  intro parameter hParameter
  rcases List.mem_map.mp hParameter with ⟨old, hOld, rfl⟩
  exact hReplace old (hLine.parameters old hOld)

/- A keyword that is a word is written on one line. -/
theorem FitsLine.isOneLine_render
    {spell : κ → String}
    (hLine : line.FitsLine)
    (hKeyword : IsWord (spell line.keyword)) :
    IsOneLine (line.render spell) := by
  have hBlank : IsOneLine " " := by
    decide
  have hComma : IsOneLine "," := by
    decide
  have hNothing : IsOneLine "" := by
    decide
  unfold render
  refine IsOneLine.append (.append ?_ hKeyword.isOneLine) ?_
  · cases hLabel : line.label with
    | none => exact hNothing
    | some name =>
        exact (hLine.label name hLabel).isOneLine.append hBlank
  · cases hParameters : line.parameters with
    | nil => exact hNothing
    | cons parameter rest =>
        refine hBlank.append (isOneLine_intercalate hComma ?_)
        rw [← hParameters]
        exact hLine.parameters

/- The keyword is always written. -/
theorem render_ne_empty
    {spell : κ → String}
    (hKeyword : IsWord (spell line.keyword)) :
    line.render spell ≠ "" := by
  intro hEmpty
  have hChars := congrArg String.toList hEmpty
  unfold render at hChars
  rw [String.toList_append, String.toList_append] at hChars
  have hFront := (List.append_eq_nil_iff.mp hChars).1
  exact hKeyword.1 (List.append_eq_nil_iff.mp hFront).2

end Line

namespace Keyword

/- The words that spell mnemonics, sizes and directives. -/
theorem isWord_of_opcode?
    {mnemonic : String}
    (h : (Mnemonic.opcode? mnemonic).isSome) :
    IsWord mnemonic :=
  isWord_of_ofWord? (ofWord?_of_opcode? h)

theorem isWord_dataSize (size : DataSize) :
    IsWord size.name :=
  isWord_of_ofWord? (ofWord?_dataSize size)

theorem isWord_directive (directive : Directive) :
    IsWord directive.name :=
  isWord_of_ofWord? (ofWord?_directive directive)

end Keyword

end MmixAsm

------------------------------------------------------------
-- Instructions
------------------------------------------------------------

namespace MmixAsm

namespace Instruction

/- An instruction without a line feed, nor in its template. -/
def FitsLine :
    Instruction → Prop
| .op line => line.FitsLine
| .alloc line => line.FitsLine
| .control line => line.FitsLine
| .macroLine line => line.FitsLine
| .macroTemplate line body => line.FitsLine ∧ body.FitsLine

variable {instruction : Instruction}

theorem IsStatement.fitsLine
    (hStatement : instruction.IsStatement) :
    instruction.FitsLine := by
  cases instruction with
  | op line => exact hStatement.1.fitsLine
  | alloc line => exact Line.Shaped.fitsLine hStatement
  | control line => exact Line.Shaped.fitsLine hStatement
  | macroLine line => exact hStatement.elim
  | macroTemplate line body => exact hStatement.elim

/- What can be written holds no line feed. -/
theorem Writable.fitsLine
    (hWritable : instruction.Writable) :
    instruction.FitsLine := by
  cases instruction with
  | op line => exact IsStatement.fitsLine hWritable
  | alloc line => exact IsStatement.fitsLine hWritable
  | control line => exact IsStatement.fitsLine hWritable
  | macroLine line => exact hWritable.1.fitsLine
  | macroTemplate line body =>
      exact ⟨hWritable.1.fitsLine, hWritable.2.2.1.fitsLine⟩

theorem FitsLine.of_macroLine?
    {line : Line MacroKind}
    (hFits : instruction.FitsLine)
    (hLine : instruction.macroLine? = some line) :
    line.FitsLine := by
  cases instruction with
  | op line => cases hLine
  | alloc line => cases hLine
  | control line => cases hLine
  | macroLine line =>
      cases hLine
      exact hFits
  | macroTemplate line body =>
      cases hLine
      exact hFits.1

theorem FitsLine.of_macroBody?
    {body : Instruction}
    (hFits : instruction.FitsLine)
    (hBody : instruction.macroBody? = some body) :
    body.FitsLine := by
  cases instruction with
  | op line => cases hBody
  | alloc line => cases hBody
  | control line => cases hBody
  | macroLine line => cases hBody
  | macroTemplate line template =>
      cases hBody
      exact hFits.2

theorem FitsLine.parameters
    (hFits : instruction.FitsLine) :
    ∀ parameter ∈ instruction.parameters,
      IsOneLine parameter := by
  cases instruction with
  | op line => exact Line.FitsLine.parameters hFits
  | alloc line => exact Line.FitsLine.parameters hFits
  | control line => exact Line.FitsLine.parameters hFits
  | macroLine line => exact Line.FitsLine.parameters hFits
  | macroTemplate line body => exact hFits.1.parameters

theorem FitsLine.withParameters
    {parameters : List String}
    (hFits : instruction.FitsLine)
    (hParameters : ∀ parameter ∈ parameters,
      IsOneLine parameter) :
    (instruction.withParameters parameters).FitsLine := by
  cases instruction with
  | op line => exact Line.FitsLine.setParameters hFits hParameters
  | alloc line =>
      exact Line.FitsLine.setParameters hFits hParameters
  | control line =>
      exact Line.FitsLine.setParameters hFits hParameters
  | macroLine line =>
      exact Line.FitsLine.setParameters hFits hParameters
  | macroTemplate line body =>
      exact ⟨hFits.1.setParameters hParameters, hFits.2⟩

theorem FitsLine.relabel
    {label : Option String}
    (hFits : instruction.FitsLine)
    (hLabel : ∀ name ∈ label, IsWord name) :
    (instruction.relabel label).FitsLine := by
  cases label with
  | none => exact hFits
  | some name =>
      cases instruction with
      | op line => exact Line.FitsLine.setLabel hFits hLabel
      | alloc line => exact Line.FitsLine.setLabel hFits hLabel
      | control line => exact Line.FitsLine.setLabel hFits hLabel
      | macroLine line =>
          exact Line.FitsLine.setLabel hFits hLabel
      | macroTemplate line body =>
          exact ⟨hFits.1.setLabel hLabel, hFits.2⟩

/- An instance holds what its template and actuals hold. -/
theorem FitsLine.instantiate
    {template : Template}
    {actuals : List String}
    (hBody : template.body.FitsLine)
    (hActuals : ∀ actual ∈ actuals, IsOneLine actual) :
    (template.instantiate actuals).FitsLine := by
  apply hBody.withParameters
  intro parameter hParameter
  rcases List.mem_map.mp hParameter with ⟨old, hOld, rfl⟩
  exact isOneLine_fillAll
    (isOneLine_of_mem_bindFormals hActuals)
    (hBody.parameters old hOld)

/- Plain instructions are written on one line. -/
theorem FitsLine.isOneLine_render
    (hFits : instruction.FitsLine)
    (hPlain : instruction.IsPlain) :
    IsOneLine instruction.render := by
  cases instruction with
  | op line =>
      exact Line.FitsLine.isOneLine_render hFits
        (Keyword.isWord_of_opcode? hPlain)
  | alloc line =>
      exact Line.FitsLine.isOneLine_render hFits
        (Keyword.isWord_dataSize line.keyword)
  | control line =>
      exact Line.FitsLine.isOneLine_render hFits
        (Keyword.isWord_directive line.keyword)
  | macroLine line => exact hPlain.elim
  | macroTemplate line body => exact hPlain.elim

end Instruction

end MmixAsm

------------------------------------------------------------
-- Programs Of The Macro Layer
------------------------------------------------------------

namespace MmixAsm

namespace Library

variable {files : List SourceFile}
variable {library : Library}
variable {file : SourceFile}

/- Every template that is found is written in some file. -/
theorem exists_line_of_template?
    {name : String}
    {template : Template}
    (hHolds : library.HoldsFiles files)
    (hFile : file ∈ files)
    (hTemplate : library.template? file.table name =
      some template) :
    ∃ other ∈ files, ∃ line ∈ other.instructions,
      line.macroBody? = some template.body := by
  rcases List.exists_of_findSome?_eq_some hTemplate with
    ⟨table, hTable, hSome⟩
  have hMem : template ∈ table.templates :=
    List.mem_of_find?_eq_some hSome
  rcases List.mem_cons.mp hTable with rfl | hTable
  · exact ⟨file, hFile, MacroTable.exists_of_mem_templates hMem⟩
  · rcases List.mem_filterMap.mp hTable with
      ⟨included, -, hTable⟩
    rcases Option.map_eq_some_iff.mp hTable with
      ⟨unit, hUnit, rfl⟩
    have hEntry := mem_units_of_unit? hUnit
    rcases List.mem_map.mp (hHolds.units.mem_iff.mp hEntry) with
      ⟨other, hOther, hEq⟩
    cases hEq
    exact ⟨other, hOther,
      MacroTable.exists_of_mem_templates hMem⟩

/- What a line without line feeds says has none either. -/
theorem fitsLine_of_meaning?
    {line : Instruction}
    {said : List Instruction}
    (hFiles : ∀ file ∈ files,
      ∀ line ∈ file.instructions, line.FitsLine)
    (hHolds : library.HoldsFiles files)
    (hFile : file ∈ files)
    (hLine : line.FitsLine)
    (hSaid : library.meaning? file.table line = some said) :
    ∀ instruction ∈ said, instruction.FitsLine := by
  unfold meaning? at hSaid
  cases hMacro : line.macroLine? with
  | none =>
      rw [hMacro] at hSaid
      cases hSaid
      exact List.forall_mem_singleton.mpr hLine
  | some content =>
      have hContent := hLine.of_macroLine? hMacro
      simp only [hMacro] at hSaid
      by_cases hKeyword : content.keyword = .application
      · rw [if_pos hKeyword] at hSaid
        rcases Option.map_eq_some_iff.mp hSaid with
          ⟨instruction, hInstance, rfl⟩
        refine List.forall_mem_singleton.mpr ?_
        unfold instance? at hInstance
        cases hParameters : content.parameters with
        | nil =>
            rw [hParameters] at hInstance
            cases hInstance
        | cons name actuals =>
            have hActuals := hContent.parameters
            rw [hParameters] at hInstance hActuals
            rcases Option.map_eq_some_iff.mp hInstance with
              ⟨template, hFound, rfl⟩
            rcases exists_line_of_template? hHolds hFile
              (Option.eq_some_of_filter_eq_some hFound) with
              ⟨other, hOther, source, hSource, hBody⟩
            have hTemplate : template.body.FitsLine :=
              (hFiles other hOther source hSource).of_macroBody?
                hBody
            exact (hTemplate.instantiate
              (List.forall_mem_cons.mp hActuals).2).relabel
                hContent.label
      · rw [if_neg hKeyword] at hSaid
        cases hSaid
        exact List.forall_mem_nil _

/- What is read is said by some line. -/
theorem exists_line_of_reading?
    {table : MacroTable}
    {lines instructions : List Instruction}
    {instruction : Instruction}
    (hReading : library.reading? table lines =
      some instructions)
    (hMem : instruction ∈ instructions) :
    ∃ line ∈ lines, ∃ said,
      library.meaning? table line = some said ∧
        instruction ∈ said := by
  rcases Option.map_eq_some_iff.mp hReading with
    ⟨parts, hParts, rfl⟩
  rcases List.mem_flatten.mp hMem with ⟨said, hSaid, hMem⟩
  rcases exists_mem_of_forall₂
    (Literal.mapM_eq_some_iff.mp hParts).flip hSaid with
    ⟨enclosed, hEnclosed, hMeaning⟩
  have hLine := List.mem_map_of_mem
    (f := EnclosedLine.line) (List.mem_filter.mp hEnclosed).1
  rw [EnclosedLine.map_line_ofLines] at hLine
  exact ⟨enclosed.line, hLine, said, hMeaning, hMem⟩

end Library

/- The macro layer brings in no line feed. -/
theorem fitsLine_of_expandProgram
    {files : List SourceFile}
    {program : List Instruction}
    (hFiles : ∀ file ∈ files,
      ∀ line ∈ file.instructions, line.FitsLine)
    (hProgram : expandProgram files = .ok program) :
    ∀ instruction ∈ program, instruction.FitsLine := by
  rcases exists_of_bind_eq_ok hProgram with ⟨_, -, hRest⟩
  rcases exists_of_bind_eq_ok hRest with
    ⟨library, hLibrary, -⟩
  rcases exists_of_expandProgram hLibrary hProgram with
    ⟨entry, expanded, -, hExpands, hFlatten⟩
  rcases exists_of_map_eq_ok hFlatten with ⟨order, -, rfl⟩
  intro instruction hMem
  rcases List.mem_flatMap.mp hMem with ⟨name, -, hMem⟩
  rw [Library.instructionsOf_eq] at hMem
  cases hUnit : expanded.unit? name with
  | none =>
      rw [hUnit] at hMem
      cases hMem
  | some unit =>
      rw [hUnit] at hMem
      have hName : name ∈ expanded.names :=
        List.mem_map_of_mem (Library.mem_units_of_unit? hUnit)
      rcases hExpands.exists_file name hName with
        ⟨file, hFile, rfl⟩
      rcases hExpands.exists_unit hFile with
        ⟨found, hFound, hReading, -⟩
      cases hUnit.symm.trans hFound
      rcases Library.exists_line_of_reading? hReading hMem with
        ⟨line, hLine, said, hSaid, hMem⟩
      exact Library.fitsLine_of_meaning? hFiles hExpands.holds
        hFile (hFiles file hFile line hLine) hSaid
        instruction hMem

end MmixAsm

------------------------------------------------------------
-- Layouts
------------------------------------------------------------

namespace MmixAsm

namespace Statement

/- A statement whose texts hold no line feed. -/
def FitsLine :
    Statement → Prop
| .op line => line.FitsLine
| .alloc line => line.FitsLine
| .padding => True

variable {statement : Statement}

theorem FitsLine.mapParameters
    {f : String → String}
    (hFits : statement.FitsLine)
    (hReplace : ∀ text, IsOneLine text → IsOneLine (f text)) :
    (statement.mapParameters f).FitsLine := by
  cases statement with
  | op line => exact Line.FitsLine.mapParameters hFits hReplace
  | alloc line =>
      exact Line.FitsLine.mapParameters hFits hReplace
  | padding => trivial

/- Statements are written on one line. -/
theorem FitsLine.isOneLine_render
    (hFits : statement.FitsLine)
    (hKnown : statement.IsKnown) :
    IsOneLine statement.render := by
  cases statement with
  | op line =>
      exact Line.FitsLine.isOneLine_render hFits
        (Keyword.isWord_of_opcode? hKnown)
  | alloc line =>
      exact Line.FitsLine.isOneLine_render hFits
        (Keyword.isWord_dataSize line.keyword)
  | padding => exact List.not_mem_nil

/- Only placeholders are written as nothing. -/
theorem IsKnown.render_eq_empty_iff
    (hKnown : statement.IsKnown) :
    statement.render = "" ↔ statement = .padding := by
  cases statement with
  | op line =>
      have hWritten : line.render id ≠ "" :=
        Line.render_ne_empty (Keyword.isWord_of_opcode? hKnown)
      exact iff_of_false hWritten (by simp)
  | alloc line =>
      have hWritten : line.render DataSize.name ≠ "" :=
        Line.render_ne_empty
          (Keyword.isWord_dataSize line.keyword)
      exact iff_of_false hWritten (by simp)
  | padding => simp [render]

end Statement

/- A declared label has its meaning from one of the lines. -/
theorem exists_line_of_declaredFrom
    {greg : Nat}
    {label text : String}
    {lines : List (Line Directive)}
    (h : declaredFrom greg label lines = some text) :
    ∃ line ∈ lines, ∃ number,
      line.meaning? number = some text := by
  induction lines generalizing greg with
  | nil => cases h
  | cons line rest ih =>
      rw [declaredFrom] at h
      by_cases hDeclares : line.declares label
      · rw [if_pos hDeclares] at h
        exact ⟨line, List.mem_cons_self, greg, h⟩
      · rw [if_neg hDeclares] at h
        rcases ih h with ⟨other, hOther, hMeaning⟩
        exact ⟨other, List.mem_cons_of_mem line hOther,
          hMeaning⟩

theorem Line.FitsLine.isOneLine_meaning?
    {line : Line Directive}
    {number : Nat}
    {text : String}
    (hLine : line.FitsLine)
    (hMeaning : line.meaning? number = some text) :
    IsOneLine text := by
  unfold Line.meaning? at hMeaning
  cases hKeyword : line.keyword <;>
    simp only [hKeyword, reduceCtorEq] at hMeaning
  case equate =>
    exact hLine.parameters text
      (List.mem_of_mem_head? hMeaning)
  case greg =>
    cases hMeaning
    have hMark : IsOneLine "$" := by
      decide
    exact hMark.append (isOneLine_toString _)

/- Labels stand for parameters, registers and positions. -/
theorem isOneLine_of_bindingOf
    {instructions : List Instruction}
    {items : List Item}
    {program : List Statement}
    {label text : String}
    (hFits : ∀ instruction ∈ instructions,
      instruction.FitsLine)
    (h : bindingOf instructions items program label =
      some text) :
    IsOneLine text := by
  rcases Option.or_eq_some_iff.mp h with
    hDeclared | ⟨-, hPlaced⟩
  · rcases exists_line_of_declaredFrom hDeclared with
      ⟨line, hLine, number, hMeaning⟩
    rcases List.mem_filterMap.mp hLine with
      ⟨instruction, hInstruction, hDirective⟩
    have hInstruction := hFits instruction hInstruction
    cases instruction with
    | control content =>
        cases hDirective
        exact Line.FitsLine.isOneLine_meaning? hInstruction
          hMeaning
    | op _ => cases hDirective
    | alloc _ => cases hDirective
    | macroLine _ => cases hDirective
    | macroTemplate _ _ => cases hDirective
  · rcases Option.or_eq_some_iff.mp hPlaced with
      hSplice | ⟨-, hCode⟩
    · rcases Option.map_eq_some_iff.mp hSplice with
        ⟨position, -, rfl⟩
      exact isOneLine_toString position
    · rcases Option.map_eq_some_iff.mp hCode with
        ⟨position, -, rfl⟩
      exact isOneLine_toString position

/- The layout brings in no line feed. -/
theorem fitsLine_of_layOut
    {limit : Nat}
    {instructions : List Instruction}
    {program : List Statement}
    (hFits : ∀ instruction ∈ instructions,
      instruction.FitsLine)
    (hLayOut : layOut limit instructions = .ok program) :
    ∀ statement ∈ program, statement.FitsLine := by
  rcases layOut_cases hLayOut with
    ⟨items, symbols, placed, hItems, hSymbols, hPlaced, rfl⟩
  have hReplace : ∀ text, IsOneLine text →
      IsOneLine (placed.bindings.resolve text) := by
    intro text hText
    have hBinding :=
      get?_bindings hItems hSymbols hPlaced text
    unfold LabelTable.resolve
    rw [hBinding]
    cases hText' : bindingOf instructions items
        placed.resolve text with
    | none => exact hText
    | some value => exact isOneLine_of_bindingOf hFits hText'
  intro statement hStatement
  rcases List.mem_map.mp hStatement with ⟨old, hOld, rfl⟩
  apply Statement.FitsLine.mapParameters _ hReplace
  -- The statement was an instruction or pads a LOC.
  rcases List.mem_map.mp hOld with ⟨entry, hEntry, rfl⟩
  have hFirst := List.fst_mem_of_mem_zipIdx
    ((Placed.perm_of_places hPlaced).mem_iff.mp hEntry)
  have hGiven := (statementsOf_perm hItems).mem_iff.mp hFirst
  rcases List.mem_append.mp hGiven with hGiven | hPadding
  · rcases List.mem_filterMap.mp hGiven with
      ⟨instruction, hInstruction, hContent⟩
    have hInstruction := hFits instruction hInstruction
    cases instruction with
    | op line =>
        rw [← Option.some.inj hContent]
        exact hInstruction
    | alloc line =>
        rw [← Option.some.inj hContent]
        exact hInstruction
    | control _ => cases hContent
    | macroLine _ => cases hContent
    | macroTemplate _ _ => cases hContent
  · rw [List.eq_of_mem_replicate hPadding]
    trivial

end MmixAsm

------------------------------------------------------------
-- Written Programs
------------------------------------------------------------

namespace MmixAsm

variable {limit : Nat}
variable {sources : List Source}
variable {output : Output}

/- How the program behind the macro layer comes about. -/
theorem exists_of_assemble_macros
    (h : assemble limit .macros sources = .ok output) :
    ∃ files instructions,
      parseSources sources = .ok files ∧
        expandProgram files = .ok instructions ∧
        output = .expanded instructions := by
  rcases exists_of_bind_eq_ok h with ⟨files, hParse, h⟩
  rcases exists_of_bind_eq_ok h with
    ⟨instructions, hProgram, h⟩
  cases h
  exact ⟨files, instructions, hParse,
    ok_of_mapError_eq_ok hProgram, rfl⟩

/- How the program behind the layout comes about. -/
theorem exists_of_assemble_preprocess
    (h : assemble limit .preprocess sources = .ok output) :
    ∃ files instructions statements,
      parseSources sources = .ok files ∧
        expandProgram files = .ok instructions ∧
        layOut limit instructions = .ok statements ∧
        output = .resolved statements := by
  rcases exists_of_bind_eq_ok h with ⟨files, hParse, h⟩
  rcases exists_of_bind_eq_ok h with
    ⟨instructions, hProgram, h⟩
  rcases exists_of_bind_eq_ok h with
    ⟨statements, hLayOut, h⟩
  cases h
  exact ⟨files, instructions, statements, hParse,
    ok_of_mapError_eq_ok hProgram,
    ok_of_mapError_eq_ok hLayOut, rfl⟩

/- Lines of source texts hold no line feed. -/
theorem fitsLine_of_parseSources
    {files : List SourceFile}
    (hParse : parseSources sources = .ok files) :
    ∀ file ∈ files,
      ∀ line ∈ file.instructions, line.FitsLine := by
  intro file hFile line hLine
  exact (wellFormed_of_parseSources hParse file hFile line
    hLine).1.fitsLine

/- Empty lines are where placeholders are. -/
theorem getElem?_render_eq_empty_iff
    {statements : List Statement}
    (hKnown : ∀ statement ∈ statements, statement.IsKnown)
    (position : Nat) :
    (statements.map Statement.render)[position]? = some "" ↔
      statements[position]? = some .padding := by
  rw [List.getElem?_map, Option.map_eq_some_iff]
  constructor
  · rintro ⟨statement, hAt, hEmpty⟩
    have hStatement :=
      hKnown statement (List.mem_of_getElem? hAt)
    rw [hAt, hStatement.render_eq_empty_iff.mp hEmpty]
  · intro hAt
    exact ⟨.padding, hAt, rfl⟩

/-
  The text of a program has one ended line for each of its
  instructions or statements, the written form of this one.
  Behind the layout, the line at a position is empty if and
  only if a placeholder is there, so lines are counted like
  positions.
-/
theorem output_has_line_per_position
    (limit : Nat)
    (sources : List Source) :
    (∀ output, assemble limit .macros sources = .ok output →
      ∃ instructions, output = .expanded instructions ∧
        Text.endedLines? output.text =
          some (instructions.map Instruction.render)) ∧
    ∀ output, assemble limit .preprocess sources = .ok output →
      ∃ statements : List Statement,
        output = .resolved statements ∧
          Text.endedLines? output.text =
            some (statements.map Statement.render) ∧
          ∀ position : Nat,
            (statements.map Statement.render)[position]? =
                some "" ↔
              statements[position]? = some .padding := by
  constructor
  · intro output hAssemble
    rcases exists_of_assemble_macros hAssemble with
      ⟨files, instructions, hParse, hProgram, rfl⟩
    have hFits := fitsLine_of_expandProgram
      (fitsLine_of_parseSources hParse) hProgram
    have hPlain := isPlain_of_expandProgram
      (wellFormed_of_parseSources hParse) hProgram
    refine ⟨instructions, rfl, Text.endedLines?_map ?_⟩
    intro instruction hMem
    exact (hFits instruction hMem).isOneLine_render
      (hPlain instruction hMem)
  · intro output hAssemble
    rcases exists_of_assemble_preprocess hAssemble with
      ⟨files, instructions, statements, hParse, hProgram,
        hLayOut, rfl⟩
    have hFits := fitsLine_of_layOut
      (fitsLine_of_expandProgram
        (fitsLine_of_parseSources hParse) hProgram) hLayOut
    have hKnown := isKnown_of_layOut
      (isPlain_of_expandProgram
        (wellFormed_of_parseSources hParse) hProgram) hLayOut
    refine ⟨statements, rfl, Text.endedLines?_map ?_,
      getElem?_render_eq_empty_iff hKnown⟩
    intro statement hMem
    exact (hFits statement hMem).isOneLine_render
      (hKnown statement hMem)

/- A file with a template, a placeholder and a label. -/
def numberedSource : Source where
  name := "main"
  text :=
    "say MACRO t BYTE &t\nMain LOC 1\n"
      ++ "msg USEMACRO say,\"a b\"\nhere SETL $1,here"

def numberedFile : SourceFile where
  name := "main"
  instructions := [
    .macroTemplate ⟨some "say", .definition, ["t"]⟩
      (.alloc ⟨none, .byte, ["&t"]⟩),
    .control ⟨none, .loc, ["1"]⟩,
    .macroLine ⟨some "msg", .application,
      ["say", "\"a b\""]⟩,
    .op ⟨some "here", "SETL", ["$1", "here"]⟩]
  isEntry := true

def numberedProgram : List Instruction := [
  .control ⟨none, .loc, ["1"]⟩,
  .alloc ⟨some "msg", .byte, ["\"a b\""]⟩,
  .op ⟨some "here", "SETL", ["$1", "here"]⟩]

def numberedStatements : List Statement := [
  .padding,
  .alloc ⟨some "msg", .byte, ["\"a b\""]⟩,
  .op ⟨some "here", "SETL", ["$1", "2"]⟩]

theorem numberedSource_has_line_per_position :
    assemble 1 .macros [numberedSource] =
        .ok (.expanded numberedProgram) ∧
      assemble 1 .preprocess [numberedSource] =
        .ok (.resolved numberedStatements) ∧
      Text.endedLines?
          (Output.expanded numberedProgram).text =
        some ["LOC 1", "msg BYTE \"a b\"",
          "here SETL $1,here"] ∧
      Text.endedLines?
          (Output.resolved numberedStatements).text =
        some ["", "msg BYTE \"a b\"", "here SETL $1,2"] ∧
      ∀ position : Nat,
        (numberedStatements.map Statement.render)[position]? =
            some "" ↔
          numberedStatements[position]? = some .padding := by
  let expanded :=
    (Library.expansion [numberedFile]).toOption.getD .empty
  have hParse : parseSources [numberedSource] =
      .ok [numberedFile] := by
    decide +kernel
  have hExpanded : Library.expansion [numberedFile] =
      .ok expanded := by
    decide +kernel
  have hAlone : (expanded.unit? "main").map
      (·.liveInclusions) = some [] := by
    decide +kernel
  have hInstructions : ["main"].flatMap
      expanded.instructionsOf = numberedProgram := by
    decide +kernel
  have hProgram : expandProgram [numberedFile] =
      .ok numberedProgram := by
    rw [← hInstructions]
    exact expandProgram_of_fileOrder rfl hExpanded
      (Library.fileOrder_of_alone hAlone)
  have hLayOut : layOut 1 numberedProgram =
      .ok numberedStatements := by
    decide +kernel
  have hMacros : assemble 1 .macros [numberedSource] =
      .ok (.expanded numberedProgram) := by
    unfold assemble
    rw [hParse]
    simp [Except.bind, bind, hProgram, Except.mapError, pure,
      Except.pure]
  have hPreprocess : assemble 1 .preprocess [numberedSource] =
      .ok (.resolved numberedStatements) := by
    unfold assemble
    rw [hParse]
    simp [Except.bind, bind, hProgram, hLayOut,
      Except.mapError, pure, Except.pure]
  have hInstructionLines :
      numberedProgram.map Instruction.render =
        ["LOC 1", "msg BYTE \"a b\"", "here SETL $1,here"] := by
    decide +kernel
  have hStatementLines :
      numberedStatements.map Statement.render =
        ["", "msg BYTE \"a b\"", "here SETL $1,2"] := by
    decide +kernel
  have hLines := output_has_line_per_position 1
    [numberedSource]
  rcases hLines.1 _ hMacros with ⟨instructions, hEq, hText⟩
  cases hEq
  rcases hLines.2 _ hPreprocess with
    ⟨statements, hEq, hTexts, hPositions⟩
  cases hEq
  rw [hInstructionLines] at hText
  rw [hStatementLines] at hTexts
  exact ⟨hMacros, hPreprocess, hText, hTexts, hPositions⟩

end MmixAsm
