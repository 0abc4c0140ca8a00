import MmixAsm.Proofs.WrittenParts

/-
  Instructions and the fields of their lines.

  The parts of an instruction are its label, its keyword and
  its parameters, each if there is something to write, and
  for a macro definition the parts of its template.  An
  instruction that can be written is read back from its parts,
  and whatever is read from proper tokens can be written.

  Key definitions include:
    * `MmixAsm.Line.parts`
    * `MmixAsm.Instruction.parts`

  Key theorems include:
    * `MmixAsm.Instruction.render_eq_writtenText`
    * `MmixAsm.Instruction.ofFields_parts`
    * `MmixAsm.Instruction.writable_of_ofFields`
-/

------------------------------------------------------------
-- Parts Of An Instruction
------------------------------------------------------------

namespace MmixAsm

/- The part that lists parameters, if there are any. -/
def parameterParts :
    List String → List (List String)
| [] => []
| item :: items => [item :: items]

/- The parts of a line. -/
def Line.parts
    {κ : Type}
    (spell : κ → String)
    (line : Line κ) : List (List String) :=
  line.label.toList.map ([·])
    ++ [spell line.keyword] :: parameterParts line.parameters

/- The parts of an instruction. -/
def Instruction.parts :
    Instruction → List (List String)
| .op line => line.parts id
| .alloc line => line.parts DataSize.name
| .control line => line.parts Directive.name
| .macroLine line => line.parts MacroKind.name
| .macroTemplate line body =>
    line.parts MacroKind.name ++ body.parts

theorem Line.parts_ne_nil
    {κ : Type}
    (spell : κ → String)
    (line : Line κ) :
    line.parts spell ≠ [] := by
  simp [Line.parts]

theorem Instruction.parts_ne_nil
    (instruction : Instruction) :
    instruction.parts ≠ [] := by
  cases instruction with
  | op line => exact line.parts_ne_nil _
  | alloc line => exact line.parts_ne_nil _
  | control line => exact line.parts_ne_nil _
  | macroLine line => exact line.parts_ne_nil _
  | macroTemplate line body =>
      exact List.append_ne_nil_of_left_ne_nil
        (line.parts_ne_nil _) _

/- The written form of a line consists of its parts. -/
theorem Line.render_eq_writtenText
    {κ : Type}
    (spell : κ → String)
    (line : Line κ) :
    line.render spell = writtenText (line.parts spell) := by
  rcases line with ⟨label, keyword, parameters⟩
  cases label <;> cases parameters <;>
    simp [Line.render, Line.parts, parameterParts, writtenText,
      String.intercalate_cons_cons, String.append_assoc]

/- The written form of an instruction consists of its parts. -/
theorem Instruction.render_eq_writtenText
    (instruction : Instruction) :
    instruction.render = writtenText instruction.parts := by
  induction instruction with
  | op line => exact line.render_eq_writtenText _
  | alloc line => exact line.render_eq_writtenText _
  | control line => exact line.render_eq_writtenText _
  | macroLine line => exact line.render_eq_writtenText _
  | macroTemplate line body ih =>
      have hLine := line.parts_ne_nil MacroKind.name
      have hBody := body.parts_ne_nil
      rw [render, ih, line.render_eq_writtenText, parts]
      unfold writtenText
      rw [List.map_append,
        String.intercalate_append_of_ne_nil
          (by simpa using hLine) (by simpa using hBody)]

end MmixAsm

------------------------------------------------------------
-- Parts Can Be Written
------------------------------------------------------------

namespace MmixAsm

/- A word alone is a part. -/
theorem WrittenPart.of_isWord
    {text : String}
    (hWord : IsWord text) :
    WrittenPart [text] := by
  refine ⟨List.cons_ne_nil _ _, ?_⟩
  intro item hItem
  rw [List.mem_singleton.mp hItem]
  exact Or.inl hWord

theorem Line.Shaped.writtenPart
    {κ : Type}
    {spell : κ → String}
    {line : Line κ}
    (hShaped : line.Shaped)
    (hKeyword : IsWord (spell line.keyword)) :
    ∀ part ∈ line.parts spell, WrittenPart part := by
  intro part hPart
  rcases List.mem_append.mp hPart with hLabel | hRest
  · rcases List.mem_map.mp hLabel with ⟨name, hName, rfl⟩
    have hLabelled := hShaped.label name
      (Option.mem_toList.mp hName)
    exact WrittenPart.of_isWord hLabelled.1
  · rcases List.mem_cons.mp hRest with rfl | hParameters
    · exact WrittenPart.of_isWord hKeyword
    · cases hItems : line.parameters with
      | nil =>
          rw [hItems] at hParameters
          cases hParameters
      | cons item items =>
          rw [hItems] at hParameters
          rw [List.mem_singleton.mp hParameters, ← hItems]
          exact ⟨by simp [hItems], hShaped.parameters⟩

theorem Instruction.IsStatement.writtenPart
    {instruction : Instruction}
    (hStatement : instruction.IsStatement) :
    ∀ part ∈ instruction.parts, WrittenPart part := by
  cases instruction with
  | op line =>
      exact hStatement.1.writtenPart
        (Keyword.isWord_of_ofWord?
          (Keyword.ofWord?_of_opcode? hStatement.2))
  | alloc line =>
      exact Line.Shaped.writtenPart hStatement
        (Keyword.isWord_of_ofWord? (Keyword.ofWord?_dataSize _))
  | control line =>
      exact Line.Shaped.writtenPart hStatement
        (Keyword.isWord_of_ofWord?
          (Keyword.ofWord?_directive _))
  | macroLine line => exact hStatement.elim
  | macroTemplate line body => exact hStatement.elim

theorem Instruction.Writable.writtenPart
    {instruction : Instruction}
    (hWritable : instruction.Writable) :
    ∀ part ∈ instruction.parts, WrittenPart part := by
  have hMacro : ∀ kind : MacroKind, IsWord kind.name :=
    fun kind => Keyword.isWord_of_ofWord?
      (Keyword.ofWord?_macroKind kind)
  cases instruction with
  | op line => exact IsStatement.writtenPart hWritable
  | alloc line => exact IsStatement.writtenPart hWritable
  | control line => exact IsStatement.writtenPart hWritable
  | macroLine line =>
      exact hWritable.1.writtenPart (hMacro line.keyword)
  | macroTemplate line body =>
      intro part hPart
      rcases hWritable with ⟨hLine, -, hBody, -, -⟩
      rcases List.mem_append.mp hPart with hPart | hPart
      · exact hLine.writtenPart (hMacro line.keyword) part hPart
      · exact hBody.writtenPart part hPart

end MmixAsm

------------------------------------------------------------
-- Reading Parts Back
------------------------------------------------------------

namespace MmixAsm

namespace Field

/- The field of one word is that word. -/
theorem word?_ofItems
    {text : String}
    (hWord : IsWord text) :
    word? (ofItems [text]) = some text := by
  have hField : ofItems [text] = [.word text] := by
    simp [ofItems, Token.ofItem_of_isWord hWord]
  rw [hField]
  rfl

theorem keyword?_ofItems
    {text : String}
    (hWord : IsWord text) :
    keyword? (ofItems [text]) = Keyword.ofWord? text := by
  rw [keyword?, word?_ofItems hWord, Option.bind_some]

/- A part that is no keyword is the field of no keyword. -/
theorem keyword?_ofItems_eq_none
    {items : List String}
    (hSole : ∀ item, items = [item] →
      Keyword.ofWord? item = none) :
    keyword? (ofItems items) = none := by
  cases items with
  | nil => rfl
  | cons item items =>
      cases items with
      | nil =>
          rcases Token.ofItem_cases item with h | h
          · simp [keyword?, ofItems, h, word?, hSole item rfl]
          · simp [keyword?, ofItems, h, word?]
      | cons next items =>
          rw [ofItems_cons_cons]
          simp [keyword?, word?]

/- The items of a part are read from its field. -/
theorem items?_ofItems
    {items : List String}
    (hNonempty : items ≠ []) :
    items? (ofItems items) = some items := by
  induction items with
  | nil => exact absurd rfl hNonempty
  | cons item items ih =>
      cases items with
      | nil =>
          rcases Token.ofItem_cases item with h | h <;>
            simp [ofItems, h, items?]
      | cons next items =>
          have hTail := ih (List.cons_ne_nil _ _)
          rw [ofItems_cons_cons]
          rcases Token.ofItem_cases item with h | h <;>
            simp [h, items?, hTail]

theorem parameters_ofItems
    {items : List String}
    (hNonempty : items ≠ []) :
    parameters (ofItems items) = .ok items := by
  rw [parameters, items?_ofItems hNonempty]

end Field

/- The parameters of a line are read from their part. -/
theorem soleParameters_parameterParts
    (items : List String) :
    soleParameters ((parameterParts items).map Field.ofItems) =
      .ok items := by
  cases items with
  | nil => rfl
  | cons item items =>
      exact Field.parameters_ofItems (List.cons_ne_nil _ _)

/-
  The heading of a line is read from its parts, whatever
  follows them.
-/
theorem Line.Shaped.heading_parts
    {κ : Type}
    {spell : κ → String}
    {line : Line κ}
    {keyword : Keyword}
    (hShaped : line.Shaped)
    (hKeyword : Keyword.ofWord? (spell line.keyword) =
      some keyword)
    (following : List Field) :
    heading
        ((line.parts spell).map Field.ofItems ++ following) =
      .ok ⟨line.label, keyword,
        (parameterParts line.parameters).map Field.ofItems
          ++ following⟩ := by
  have hWord := Field.keyword?_ofItems
    (Keyword.isWord_of_ofWord? hKeyword)
  rw [hKeyword] at hWord
  rw [Line.parts]
  cases hLabel : line.label with
  | none => simp [heading, hWord]
  | some name =>
      rcases hShaped.label name hLabel with
        ⟨hIsWord, hNone⟩
      have hFirst := Field.keyword?_ofItems hIsWord
      rw [hNone] at hFirst
      simp [heading, hFirst, Field.word?_ofItems hIsWord,
        hWord]

namespace Instruction

/- A line without a template is read from its parts. -/
theorem ofFields_line
    {κ : Type}
    {spell : κ → String}
    {line : Line κ}
    {keyword : Keyword}
    (hShaped : line.Shaped)
    (hKeyword : Keyword.ofWord? (spell line.keyword) =
      some keyword)
    (hPlain : keyword ≠ .macroKind .definition) :
    ofFields ((line.parts spell).map Field.ofItems) =
      .ok (.ofKeyword line.label line.parameters keyword) := by
  have hHead := hShaped.heading_parts hKeyword []
  simp only [List.append_nil] at hHead
  rw [ofFields]
  split
  · next hError =>
      rw [hHead] at hError
      cases hError
  · next hOk =>
      rw [hHead] at hOk
      cases hOk
      simp only [hPlain, if_false,
        soleParameters_parameterParts]

/- A statement is read back from its parts. -/
theorem IsStatement.ofFields_parts
    {instruction : Instruction}
    (hStatement : instruction.IsStatement) :
    ofFields (instruction.parts.map Field.ofItems) =
      .ok instruction := by
  cases instruction with
  | op line =>
      exact ofFields_line hStatement.1
        (Keyword.ofWord?_of_opcode? hStatement.2) (by simp)
  | alloc line =>
      exact ofFields_line hStatement
        (Keyword.ofWord?_dataSize _) (by simp)
  | control line =>
      exact ofFields_line hStatement
        (Keyword.ofWord?_directive _) (by simp)
  | macroLine line => exact hStatement.elim
  | macroTemplate line body => exact hStatement.elim

/- A statement without a label starts with its keyword. -/
theorem IsStatement.parts_of_unlabelled
    {instruction : Instruction}
    (hStatement : instruction.IsStatement)
    (hLabel : instruction.label? = none) :
    ∃ word keyword rest,
      Keyword.ofWord? word = some keyword ∧
        instruction.parts = [word] :: rest := by
  cases instruction with
  | op line =>
      have hParts : line.label = none := hLabel
      exact ⟨_, _, _,
        Keyword.ofWord?_of_opcode? hStatement.2, by
          rw [parts, Line.parts, hParts]
          rfl⟩
  | alloc line =>
      have hParts : line.label = none := hLabel
      exact ⟨_, _, _, Keyword.ofWord?_dataSize line.keyword, by
          rw [parts, Line.parts, hParts]
          rfl⟩
  | control line =>
      have hParts : line.label = none := hLabel
      exact ⟨_, _, _, Keyword.ofWord?_directive line.keyword, by
          rw [parts, Line.parts, hParts]
          rfl⟩
  | macroLine line => exact hStatement.elim
  | macroTemplate line body => exact hStatement.elim

/- Formals and template are divided where they were joined. -/
theorem IsStatement.formals_parts
    {items : List String}
    {body : Instruction}
    (hBody : body.IsStatement)
    (hSole : ∀ formal, items = [formal] →
      Keyword.ofWord? formal = none)
    (hLabel : items = [] → body.label? = none) :
    formals ((parameterParts items).map Field.ofItems
        ++ body.parts.map Field.ofItems) =
      .ok (items, body.parts.map Field.ofItems) := by
  cases items with
  | nil =>
      rcases hBody.parts_of_unlabelled (hLabel rfl) with
        ⟨word, keyword, rest, hWord, hParts⟩
      have hFirst := Field.keyword?_ofItems
        (Keyword.isWord_of_ofWord? hWord)
      rw [hWord] at hFirst
      simp [parameterParts, hParts, formals, hFirst]
  | cons item items =>
      have hFirst := Field.keyword?_ofItems_eq_none hSole
      have hItems := Field.parameters_ofItems
        (List.cons_ne_nil item items)
      simp [parameterParts, formals, hFirst, hItems]

/- An instruction is read back from its parts. -/
theorem Writable.ofFields_parts
    {instruction : Instruction}
    (hWritable : instruction.Writable) :
    ofFields (instruction.parts.map Field.ofItems) =
      .ok instruction := by
  cases instruction with
  | op line => exact IsStatement.ofFields_parts hWritable
  | alloc line => exact IsStatement.ofFields_parts hWritable
  | control line => exact IsStatement.ofFields_parts hWritable
  | macroLine line =>
      rcases hWritable with ⟨hLine, hKeyword⟩
      exact ofFields_line hLine (Keyword.ofWord?_macroKind _)
        (by simpa using hKeyword)
  | macroTemplate line body =>
      rcases hWritable with
        ⟨hLine, hKeyword, hBody, hSole, hLabel⟩
      have hName : Keyword.ofWord? line.keyword.name =
          some (.macroKind .definition) := by
        rw [hKeyword]
        exact Keyword.ofWord?_macroKind .definition
      have hHead := hLine.heading_parts hName
        (body.parts.map Field.ofItems)
      have hFormals := hBody.formals_parts hSole hLabel
      have hTemplate := hBody.ofFields_parts
      rw [parts, List.map_append, ofFields]
      split
      · next hError =>
          rw [hHead] at hError
          cases hError
      · next hOk =>
          rw [hHead] at hOk
          cases hOk
          simp only [if_true]
          split
          · next hError =>
              rw [hFormals] at hError
              cases hError
          · next hOk =>
              rw [hFormals] at hOk
              cases hOk
              simp [hTemplate, body.parts_ne_nil,
                hBody.isMacro_eq_false, ← hKeyword]

end Instruction

end MmixAsm

------------------------------------------------------------
-- What Is Read Can Be Written
------------------------------------------------------------

namespace MmixAsm

namespace Field

/- A field of proper tokens. -/
def Proper (field : Field) : Prop :=
  ∀ token ∈ field, token.Proper

/- The only word of a proper field is a word. -/
theorem Proper.isWord
    {field : Field}
    {text : String}
    (hProper : field.Proper)
    (hWord : field.word? = some text) :
    IsWord text := by
  unfold word? at hWord
  split at hWord
  · cases hWord
    exact hProper _ List.mem_cons_self
  · cases hWord

/- What follows a comma is proper too. -/
theorem Proper.behindComma
    {token : Token}
    {rest : Field}
    (hProper : Proper (token :: .comma :: rest)) :
    Proper rest := by
  intro other hOther
  exact hProper other (List.mem_cons_of_mem _
    (List.mem_cons_of_mem _ hOther))

/- The items of a proper field can be written. -/
theorem Proper.isItem
    {field : Field}
    {items : List String}
    (hProper : field.Proper)
    (hItems : field.items? = some items) :
    ∀ item ∈ items, IsItem item := by
  fun_induction items? field generalizing items with
  | case1 text =>
      cases hItems
      intro item hItem
      rw [List.mem_singleton.mp hItem]
      exact Or.inl (hProper _ List.mem_cons_self)
  | case2 text =>
      cases hItems
      intro item hItem
      rw [List.mem_singleton.mp hItem]
      exact Or.inr (hProper _ List.mem_cons_self)
  | case3 text rest ih =>
      rcases Option.map_eq_some_iff.mp hItems with
        ⟨others, hOthers, rfl⟩
      intro item hItem
      rcases List.mem_cons.mp hItem with rfl | hItem
      · exact Or.inl (hProper _ List.mem_cons_self)
      · exact ih hProper.behindComma hOthers item hItem
  | case4 text rest ih =>
      rcases Option.map_eq_some_iff.mp hItems with
        ⟨others, hOthers, rfl⟩
      intro item hItem
      rcases List.mem_cons.mp hItem with rfl | hItem
      · exact Or.inr (hProper _ List.mem_cons_self)
      · exact ih hProper.behindComma hOthers item hItem
  | case5 => cases hItems

/- A field with items has at least one. -/
theorem items?_ne_some_nil
    (field : Field) :
    field.items? ≠ some [] := by
  fun_cases items? field <;> simp_all

/- A part of one item is a keyword if its field is one. -/
theorem Proper.ofWord?_eq_none
    {field : Field}
    {item : String}
    (hProper : field.Proper)
    (hKeyword : field.keyword? = none)
    (hItems : field.items? = some [item]) :
    Keyword.ofWord? item = none := by
  unfold items? at hItems
  split at hItems
  · cases hItems
    exact hKeyword
  · cases hItems
    exact Keyword.ofWord?_of_isQuoted
      (hProper _ List.mem_cons_self)
  · -- More than one token makes more than one item.
    rcases Option.map_eq_some_iff.mp hItems with
      ⟨others, hOthers, hCons⟩
    cases hCons
    exact absurd hOthers (items?_ne_some_nil _)
  · rcases Option.map_eq_some_iff.mp hItems with
      ⟨others, hOthers, hCons⟩
    cases hCons
    exact absurd hOthers (items?_ne_some_nil _)
  · cases hItems

end Field

end MmixAsm

namespace MmixAsm

/- The parameters of a field are its items. -/
theorem Field.items?_of_parameters
    {field : Field}
    {items : List String}
    (hItems : field.parameters = .ok items) :
    field.items? = some items := by
  unfold Field.parameters at hItems
  split at hItems
  · next hSome =>
      cases hItems
      exact hSome
  · cases hItems

theorem isItem_of_soleParameters
    {fields : List Field}
    {items : List String}
    (hProper : ∀ field ∈ fields, field.Proper)
    (hItems : soleParameters fields = .ok items) :
    ∀ item ∈ items, IsItem item := by
  unfold soleParameters at hItems
  split at hItems
  · cases hItems
    intro item hItem
    cases hItem
  · next field =>
      have hField := hProper field List.mem_cons_self
      exact hField.isItem (Field.items?_of_parameters hItems)
  · cases hItems

/- What a heading read from proper fields is like. -/
theorem shaped_of_heading
    {fields : List Field}
    {head : Heading}
    (hProper : ∀ field ∈ fields, field.Proper)
    (hHead : heading fields = .ok head) :
    (∀ name ∈ head.label,
        IsWord name ∧ Keyword.ofWord? name = none) ∧
      (∃ word, Keyword.ofWord? word = some head.keyword) ∧
      head.rest <:+ fields := by
  have hSpelled : ∀ (field : Field) (keyword : Keyword),
      field.keyword? = some keyword →
        ∃ word, Keyword.ofWord? word = some keyword := by
    intro field keyword hKeyword
    rcases Option.bind_eq_some_iff.mp hKeyword with
      ⟨word, -, hWord⟩
    exact ⟨word, hWord⟩
  unfold heading at hHead
  split at hHead
  · cases hHead
  · next first rest =>
      split at hHead
      · next keyword hFirst =>
          cases hHead
          refine ⟨?_, hSpelled first keyword hFirst,
            List.suffix_cons _ _⟩
          intro name hName
          cases hName
      · next hFirst =>
          split at hHead
          · cases hHead
          · cases hHead
          · next label second others hLabel =>
              split at hHead
              · next keyword hSecond =>
                  cases hHead
                  refine ⟨?_, hSpelled second keyword hSecond,
                    (List.suffix_cons _ _).trans
                      (List.suffix_cons _ _)⟩
                  intro name hName
                  cases hName
                  have hField := hProper first List.mem_cons_self
                  refine ⟨hField.isWord hLabel, ?_⟩
                  simpa [Field.keyword?, hLabel] using hFirst
              · cases hHead

/- What the formals read from proper fields are like. -/
theorem shaped_of_formals
    {fields : List Field}
    {names : List String}
    {body : List Field}
    (hProper : ∀ field ∈ fields, field.Proper)
    (hFormals : formals fields = .ok (names, body)) :
    (∀ item ∈ names, IsItem item) ∧
      (∀ formal, names = [formal] →
        Keyword.ofWord? formal = none) ∧
      (names = [] → ∀ first ∈ body.head?,
        first.keyword? ≠ none) ∧
      body <:+ fields := by
  unfold formals at hFormals
  split at hFormals
  · cases hFormals
    simp
  · next first rest =>
      split at hFormals
      · next keyword hFirst =>
          cases hFormals
          simp [hFirst]
      · next hFirst =>
          split at hFormals
          · next items hItems =>
              cases hFormals
              have hField := hProper first List.mem_cons_self
              have hSome := Field.items?_of_parameters hItems
              refine ⟨hField.isItem hSome, ?_, ?_,
                List.suffix_cons _ _⟩
              · rintro formal rfl
                exact hField.ofWord?_eq_none hFirst hSome
              · rintro rfl
                exact absurd hSome
                  (Field.items?_ne_some_nil first)
          · cases hFormals

namespace Instruction

/- A keyword other than MACRO makes a writable line. -/
theorem writable_ofKeyword
    {label : Option String}
    {items : List String}
    {word : String}
    {keyword : Keyword}
    (hLabel : ∀ name ∈ label,
      IsWord name ∧ Keyword.ofWord? name = none)
    (hItems : ∀ item ∈ items, IsItem item)
    (hKeyword : Keyword.ofWord? word = some keyword)
    (hPlain : keyword ≠ .macroKind .definition) :
    (ofKeyword label items keyword).Writable := by
  cases keyword with
  | op mnemonic =>
      have hName := Keyword.name_of_ofWord? hKeyword
      exact ⟨⟨hLabel, hItems⟩, hName.2 mnemonic rfl⟩
  | alloc size => exact ⟨hLabel, hItems⟩
  | control directive => exact ⟨hLabel, hItems⟩
  | macroKind kind =>
      exact ⟨⟨hLabel, hItems⟩, by simpa using hPlain⟩

/- A writable instruction outside the macro layer. -/
theorem Writable.isStatement
    {instruction : Instruction}
    (hWritable : instruction.Writable)
    (hMacro : instruction.isMacro = false) :
    instruction.IsStatement := by
  cases instruction with
  | op line => exact hWritable
  | alloc line => exact hWritable
  | control line => exact hWritable
  | macroLine line => cases hMacro
  | macroTemplate line body => cases hMacro

/- The two ways in which an instruction is read. -/
inductive ReadFrom
    (fields : List Field) :
    Instruction → Prop
  | line
      (head : Heading)
      (items : List String)
      (hHead : heading fields = .ok head)
      (hPlain : head.keyword ≠ .macroKind .definition)
      (hItems : soleParameters head.rest = .ok items) :
      ReadFrom fields (ofKeyword head.label items head.keyword)
  | template
      (head : Heading)
      (names : List String)
      (rest : List Field)
      (body : Instruction)
      (hHead : heading fields = .ok head)
      (hFormals : formals head.rest = .ok (names, rest))
      (hBody : ofFields rest = .ok body)
      (hMacro : body.isMacro = false) :
      ReadFrom fields
        (.macroTemplate ⟨head.label, .definition, names⟩ body)

theorem readFrom_of_ofFields
    {fields : List Field}
    {instruction : Instruction}
    (hFields : ofFields fields = .ok instruction) :
    ReadFrom fields instruction := by
  rw [ofFields] at hFields
  split at hFields
  · cases hFields
  · next head hHead =>
      split at hFields
      · split at hFields
        · cases hFields
        · next names rest hFormals =>
            split at hFields
            · cases hFields
            · split at hFields
              · cases hFields
              · next body hBody =>
                  split at hFields
                  · cases hFields
                  · next hMacro =>
                      cases hFields
                      exact .template head names rest body hHead
                        hFormals hBody
                        (Bool.eq_false_iff.mpr hMacro)
      · next hPlain =>
          split at hFields
          · cases hFields
          · next items hItems =>
              cases hFields
              exact .line head items hHead hPlain hItems

theorem label?_ofKeyword
    (label : Option String)
    (items : List String)
    (keyword : Keyword) :
    (ofKeyword label items keyword).label? = label := by
  cases keyword <;> rfl

/- Fields that start with a keyword give no label. -/
theorem ReadFrom.label?_eq_none
    {fields : List Field}
    {instruction : Instruction}
    (hRead : ReadFrom fields instruction)
    (hFirst : ∀ first ∈ fields.head?, first.keyword? ≠ none) :
    instruction.label? = none := by
  have hLabel : ∀ head, heading fields = .ok head →
      head.label = none := by
    intro head hHead
    cases fields with
    | nil => cases hHead
    | cons first rest =>
        cases hKeyword : first.keyword? with
        | none => exact absurd hKeyword (hFirst first rfl)
        | some keyword =>
            simp only [heading, hKeyword] at hHead
            cases hHead
            rfl
  cases hRead with
  | line head items hHead =>
      rw [label?_ofKeyword]
      exact hLabel head hHead
  | template head names rest body hHead =>
      exact hLabel head hHead

/- A line read from proper fields can be written. -/
theorem writable_line
    {fields : List Field}
    {head : Heading}
    {items : List String}
    (hProper : ∀ field ∈ fields, field.Proper)
    (hHead : heading fields = .ok head)
    (hPlain : head.keyword ≠ .macroKind .definition)
    (hItems : soleParameters head.rest = .ok items) :
    (ofKeyword head.label items head.keyword).Writable := by
  rcases shaped_of_heading hProper hHead with
    ⟨hLabel, ⟨word, hWord⟩, hRest⟩
  have hParameters := isItem_of_soleParameters
    (fun field hField => hProper field (hRest.subset hField))
    hItems
  exact writable_ofKeyword hLabel hParameters hWord hPlain

/- A statement read from proper fields can be written. -/
theorem ReadFrom.isStatement
    {fields : List Field}
    {instruction : Instruction}
    (hRead : ReadFrom fields instruction)
    (hProper : ∀ field ∈ fields, field.Proper)
    (hMacro : instruction.isMacro = false) :
    instruction.IsStatement := by
  cases hRead with
  | line head items hHead hPlain hItems =>
      have hLine := writable_line hProper hHead hPlain hItems
      exact hLine.isStatement hMacro
  | template => cases hMacro

/- What is read from proper fields can be written. -/
theorem writable_of_ofFields
    {fields : List Field}
    {instruction : Instruction}
    (hProper : ∀ field ∈ fields, field.Proper)
    (hFields : ofFields fields = .ok instruction) :
    instruction.Writable := by
  cases readFrom_of_ofFields hFields with
  | line head items hHead hPlain hItems =>
      exact writable_line hProper hHead hPlain hItems
  | template head names rest body hHead hFormals hBody hMacro =>
      rcases shaped_of_heading hProper hHead with
        ⟨hLabel, -, hRest⟩
      rcases shaped_of_formals
        (fun field hField => hProper field (hRest.subset hField))
        hFormals with ⟨hNames, hSole, hFirst, hSuffix⟩
      have hTemplate := readFrom_of_ofFields hBody
      have hStatement := hTemplate.isStatement
        (fun field hField =>
          hProper field ((hSuffix.trans hRest).subset hField))
        hMacro
      exact ⟨⟨hLabel, hNames⟩, rfl, hStatement, hSole,
        fun hNil => hTemplate.label?_eq_none (hFirst hNil)⟩

end Instruction

end MmixAsm
