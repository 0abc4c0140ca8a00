import MmixAsm.SourceFile

/-
  Well-formed instructions: those that can be written on one
  line and read back.

  A label or parameter is written as it is, so it has to be a
  text that is read as one token.  A label has to be no
  keyword, since a keyword in front begins the instruction,
  and the formals of a macro have to be told from the first
  field of its template.

  Key definitions include:
    * `MmixAsm.IsWord`
    * `MmixAsm.IsQuoted`
    * `MmixAsm.IsItem`
    * `MmixAsm.Instruction.Writable`
    * `MmixAsm.Instruction.WellFormed`

  Key theorems include:
    * `MmixAsm.Keyword.ofWord?_of_opcode?`
    * `MmixAsm.Keyword.isWord_of_ofWord?`
-/

------------------------------------------------------------
-- Words And Strings
------------------------------------------------------------

namespace MmixAsm

/- A character that no word holds. -/
def isSpecial (c : Char) : Bool :=
  isDelimiter c || c == '\n' || c == '%' || c == Char.ofNat 0

/- A text that is read as one word. -/
def IsWord (text : String) : Prop :=
  text.toList ≠ [] ∧
    (∀ c ∈ text.toList, isSpecial c = false) ∧
    ¬ ['/', '/'] <:+: text.toList

/- A text in double quotes that is read as one string. -/
def IsQuoted (text : String) : Prop :=
  ∃ body : List Char,
    text.toList = '"' :: (body ++ ['"']) ∧
      ∀ c ∈ body, c ≠ '"' ∧ c ≠ '\n' ∧ c ≠ Char.ofNat 0

/- A text that can stand as a parameter. -/
def IsItem (text : String) : Prop :=
  IsWord text ∨ IsQuoted text

/- A text of letters and digits, not empty. -/
def isAlphanumeric (text : String) : Bool :=
  !text.toList.isEmpty && text.toList.all Char.isAlphanum

/- Letters and digits form a word. -/
theorem isWord_of_isAlphanumeric
    {text : String}
    (h : isAlphanumeric text = true) :
    IsWord text := by
  simp only [isAlphanumeric, Bool.and_eq_true,
    Bool.not_eq_true', List.isEmpty_eq_false_iff,
    List.all_eq_true] at h
  rcases h with ⟨hText, hChars⟩
  refine ⟨hText, ?_, ?_⟩
  · intro c hc
    have hChar := hChars c hc
    apply Bool.eq_false_iff.mpr
    intro hSpecial
    simp only [isSpecial, isDelimiter, isBlank, Bool.or_eq_true,
      beq_iff_eq] at hSpecial
    rcases hSpecial with
      ((((((rfl | rfl) | rfl) | rfl) | rfl) | rfl) | rfl) | rfl
      <;> cases hChar
  · intro hComment
    have hSlash := hComment.subset List.mem_cons_self
    cases hChars '/' hSlash

/- No word is a string in quotes. -/
theorem IsWord.not_isQuoted
    {text : String}
    (hWord : IsWord text) :
    ¬ IsQuoted text := by
  rintro ⟨body, hText, -⟩
  have hQuote : '"' ∈ text.toList := by
    rw [hText]
    exact List.mem_cons_self
  have hSpecial := hWord.2.1 '"' hQuote
  simp [isSpecial, isDelimiter] at hSpecial

end MmixAsm

------------------------------------------------------------
-- Well-Formed Instructions
------------------------------------------------------------

namespace MmixAsm

/- A line whose label and parameters can be written. -/
structure Line.Shaped
    {κ : Type}
    (line : Line κ) : Prop where
  label : ∀ name ∈ line.label,
    IsWord name ∧ Keyword.ofWord? name = none
  parameters : ∀ item ∈ line.parameters, IsItem item

namespace Instruction

/- An instruction that can be the template of a macro. -/
def IsStatement :
    Instruction → Prop
| .op line =>
    line.Shaped ∧ (Mnemonic.opcode? line.keyword).isSome
| .alloc line => line.Shaped
| .control line => line.Shaped
| .macroLine _ => False
| .macroTemplate _ _ => False

/-
  An instruction that can be written, whatever its label.  A
  macro definition and nothing else has a template.  Without
  formals the template must not be labelled, because the
  label would be read as the formals, and a formal alone must
  not be a keyword, because the template would start there.
-/
def Writable :
    Instruction → Prop
| .op line => IsStatement (.op line)
| .alloc line => IsStatement (.alloc line)
| .control line => IsStatement (.control line)
| .macroLine line =>
    line.Shaped ∧ line.keyword ≠ .definition
| .macroTemplate line body =>
    line.Shaped ∧
      line.keyword = .definition ∧
      body.IsStatement ∧
      (∀ formal, line.parameters = [formal] →
        Keyword.ofWord? formal = none) ∧
      (line.parameters = [] → body.label? = none)

/- An instruction that can be written and keeps its label. -/
def WellFormed (instruction : Instruction) : Prop :=
  instruction.Writable ∧
    instruction.label? ≠ some entryLabel

theorem IsStatement.isMacro_eq_false
    {instruction : Instruction}
    (h : instruction.IsStatement) :
    instruction.isMacro = false := by
  cases instruction with
  | op line => rfl
  | alloc line => rfl
  | control line => rfl
  | macroLine line => exact h.elim
  | macroTemplate line body => exact h.elim

end Instruction

end MmixAsm

------------------------------------------------------------
-- Keywords
------------------------------------------------------------

namespace MmixAsm

namespace Keyword

/- The spelling of a keyword. -/
def name :
    Keyword → String
| .op mnemonic => mnemonic
| .alloc size => size.name
| .control directive => directive.name
| .macroKind kind => kind.name

theorem ofWord?_directive
    (directive : Directive) :
    ofWord? directive.name = some (.control directive) := by
  cases directive <;> decide +kernel

theorem ofWord?_macroKind
    (kind : MacroKind) :
    ofWord? kind.name = some (.macroKind kind) := by
  cases kind <;> decide +kernel

theorem ofWord?_dataSize
    (size : DataSize) :
    ofWord? size.name = some (.alloc size) := by
  cases size <;> decide +kernel

/- Only mnemonics that are in the table have an opcode. -/
theorem mem_table_of_opcode?
    {mnemonic : String}
    (h : (Mnemonic.opcode? mnemonic).isSome) :
    mnemonic ∈ Mnemonic.table := by
  unfold Mnemonic.opcode? at h
  by_cases hMem : mnemonic ∈ Mnemonic.table
  · exact hMem
  · rw [List.idxOf?_eq_none_iff.mpr hMem] at h
    cases h

/- No mnemonic is spelled like another keyword. -/
theorem table_is_apart :
    ∀ mnemonic ∈ Mnemonic.table,
      Directive.ofName? mnemonic = none ∧
        MacroKind.ofName? mnemonic = none ∧
        DataSize.ofName? mnemonic = none := by
  decide +kernel

theorem ofWord?_of_opcode?
    {mnemonic : String}
    (h : (Mnemonic.opcode? mnemonic).isSome) :
    ofWord? mnemonic = some (.op mnemonic) := by
  rcases table_is_apart mnemonic (mem_table_of_opcode? h) with
    ⟨hDirective, hMacro, hSize⟩
  rcases Option.isSome_iff_exists.mp h with
    ⟨opcode, hOpcode⟩
  simp [ofWord?, hDirective, hMacro, hSize, ofMnemonic?,
    hOpcode]

/- The ways in which a word can spell a keyword. -/
theorem name_of_ofWord?
    {word : String}
    {keyword : Keyword}
    (h : ofWord? word = some keyword) :
    keyword.name = word ∧
      ∀ mnemonic, keyword = .op mnemonic →
        (Mnemonic.opcode? mnemonic).isSome := by
  unfold ofWord? at h
  simp only [Option.orElse_eq_orElse, Option.orElse_eq_or,
    Option.or_eq_some_iff, Option.map_eq_some_iff] at h
  rcases h with ⟨directive, hFind, rfl⟩ | ⟨-, h⟩
  · have hName := List.find?_some hFind
    exact ⟨eq_of_beq hName, fun _ hOp => by cases hOp⟩
  rcases h with ⟨kind, hFind, rfl⟩ | ⟨-, h⟩
  · have hName := List.find?_some hFind
    exact ⟨eq_of_beq hName, fun _ hOp => by cases hOp⟩
  rcases h with ⟨size, hFind, rfl⟩ | ⟨-, h⟩
  · have hName := List.find?_some hFind
    exact ⟨eq_of_beq hName, fun _ hOp => by cases hOp⟩
  · simp only [ofMnemonic?, Option.map_eq_some_iff] at h
    rcases h with ⟨opcode, hOpcode, rfl⟩
    refine ⟨rfl, fun mnemonic hOp => ?_⟩
    cases hOp
    exact Option.isSome_of_eq_some hOpcode

/- Every mnemonic is a word. -/
theorem isWord_of_mem_table
    {mnemonic : String}
    (h : mnemonic ∈ Mnemonic.table) :
    IsWord mnemonic := by
  have hTable : ∀ mnemonic ∈ Mnemonic.table,
      isAlphanumeric mnemonic = true := by
    decide +kernel
  exact isWord_of_isAlphanumeric (hTable mnemonic h)

/- Every keyword is spelled by a word. -/
theorem isWord_of_ofWord?
    {word : String}
    {keyword : Keyword}
    (h : ofWord? word = some keyword) :
    IsWord word := by
  rcases name_of_ofWord? h with ⟨rfl, hOp⟩
  cases keyword with
  | op mnemonic =>
      exact isWord_of_mem_table
        (mem_table_of_opcode? (hOp mnemonic rfl))
  | alloc size =>
      apply isWord_of_isAlphanumeric
      cases size <;> decide +kernel
  | control directive =>
      apply isWord_of_isAlphanumeric
      cases directive <;> decide +kernel
  | macroKind kind =>
      apply isWord_of_isAlphanumeric
      cases kind <;> decide +kernel

/- A string in quotes spells no keyword. -/
theorem ofWord?_of_isQuoted
    {text : String}
    (hQuoted : IsQuoted text) :
    ofWord? text = none := by
  cases hWord : ofWord? text with
  | none => rfl
  | some keyword =>
      exact absurd hQuoted
        (isWord_of_ofWord? hWord).not_isQuoted

end Keyword

end MmixAsm
