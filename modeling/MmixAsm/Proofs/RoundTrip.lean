import MmixAsm.Proofs.InstructionForms

/-
  Reading and writing whole files.

  Reading is the inverse of writing on well-formed
  instructions, and nothing else is ever read: the well-formed
  instructions are exactly those that some text holds.

  Key theorems include:
    * `MmixAsm.SourceFile.wellFormed_of_parse`
    * `MmixAsm.SourceFile.parse_written`
    * `MmixAsm.SourceFile.parse_inverse_of_render`
-/

------------------------------------------------------------
-- Lines Of A Text
------------------------------------------------------------

namespace MmixAsm

/- The parts of a divided list hold its other elements. -/
theorem mem_of_mem_splitWhere
    {α : Type}
    {p : α → Bool}
    {xs part : List α}
    {x : α}
    (hPart : part ∈ splitWhere p xs)
    (hx : x ∈ part) :
    x ∈ xs ∧ p x = false := by
  induction xs generalizing part with
  | nil =>
      rw [splitWhere, List.mem_singleton] at hPart
      rw [hPart] at hx
      cases hx
  | cons y ys ih =>
      have hTail : ∀ other ∈ splitWhere p ys, x ∈ other →
          x ∈ y :: ys ∧ p x = false := by
        intro other hOther hMem
        rcases ih hOther hMem with ⟨hYs, hNot⟩
        exact ⟨List.mem_cons_of_mem y hYs, hNot⟩
      unfold splitWhere at hPart
      split at hPart
      · rcases List.mem_cons.mp hPart with rfl | hPart
        · cases hx
        · exact hTail part hPart hx
      · next hNot =>
          have hHead : p y = false := Bool.eq_false_iff.mpr hNot
          split at hPart
          · next hNil =>
              exact absurd hNil (splitWhere_ne_nil p ys)
          · next first rest hParts =>
              rw [hParts] at hTail
              rcases List.mem_cons.mp hPart with rfl | hPart
              · rcases List.mem_cons.mp hx with rfl | hx
                · exact ⟨List.mem_cons_self, hHead⟩
                · exact hTail first List.mem_cons_self hx
              · exact hTail part
                  (List.mem_cons_of_mem _ hPart) hx

/- No line of a text holds a line feed or a null. -/
theorem isLineChar_of_mem_sourceLines
    {text : String}
    {line : List Char}
    (hLine : line ∈ sourceLines text) :
    ∀ c ∈ line, isLineChar c := by
  intro c hc
  rcases mem_of_mem_splitWhere hLine hc with ⟨hMem, hFeed⟩
  have hNull : (c != Char.ofNat 0) = true :=
    List.all_eq_true.mp List.all_takeWhile c hMem
  exact ⟨by simpa using hFeed, bne_iff_ne.mp hNull⟩

/- A text without nulls is read to its end. -/
theorem beforeNull_of_forall_ne
    {cs : List Char}
    (hNull : ∀ c ∈ cs, c ≠ Char.ofNat 0) :
    beforeNull cs = cs := by
  induction cs with
  | nil => rfl
  | cons c cs ih =>
      have hFirst := hNull c List.mem_cons_self
      have hRest := ih fun d hd =>
        hNull d (List.mem_cons_of_mem c hd)
      unfold beforeNull at hRest ⊢
      simp [hFirst, hRest]

/- Every character of a joined text comes from a part. -/
theorem mem_toList_intercalate
    {separator : String}
    {texts : List String}
    {c : Char}
    (hc : c ∈ (String.intercalate separator texts).toList) :
    c ∈ separator.toList ∨ ∃ text ∈ texts, c ∈ text.toList := by
  induction texts with
  | nil => simp at hc
  | cons text texts ih =>
      cases texts with
      | nil =>
          rw [String.intercalate_singleton] at hc
          exact Or.inr ⟨text, List.mem_cons_self, hc⟩
      | cons next texts =>
          rw [String.intercalate_cons_cons] at hc
          simp only [String.toList_append, List.mem_append]
            at hc
          rcases hc with (hText | hSeparator) | hRest
          · exact Or.inr ⟨text, List.mem_cons_self, hText⟩
          · exact Or.inl hSeparator
          · rcases ih hRest with hSeparator | ⟨other, hMem, hc⟩
            · exact Or.inl hSeparator
            · exact Or.inr
                ⟨other, List.mem_cons_of_mem text hMem, hc⟩

/- An item fits on a line. -/
theorem IsItem.isLineChar
    {text : String}
    (hItem : IsItem text) :
    ∀ c ∈ text.toList, isLineChar c := by
  intro c hc
  rcases hItem with ⟨-, hChars, -⟩ | ⟨body, hText, hBody⟩
  · have hSpecial := hChars c hc
    simp only [isSpecial, Bool.or_eq_false_iff,
      beq_eq_false_iff_ne] at hSpecial
    exact ⟨hSpecial.1.1.2, hSpecial.2⟩
  · rw [hText] at hc
    have hQuote : MmixAsm.isLineChar '"' := by
      constructor <;> decide
    rcases List.mem_cons.mp hc with rfl | hc
    · exact hQuote
    · rcases List.mem_append.mp hc with hc | hc
      · exact (hBody c hc).2
      · rw [List.mem_singleton.mp hc]
        exact hQuote

/- Written parts fit on a line. -/
theorem isLineChar_writtenText
    {parts : List (List String)}
    (hParts : ∀ part ∈ parts, WrittenPart part) :
    ∀ c ∈ (writtenText parts).toList, isLineChar c := by
  have hSpace : isLineChar ' ' := by
    constructor <;> decide
  have hComma : isLineChar ',' := by
    constructor <;> decide
  intro c hc
  rcases mem_toList_intercalate hc with hBlank | ⟨text, hText, hc⟩
  · rw [List.mem_singleton.mp hBlank]
    exact hSpace
  · rcases List.mem_map.mp hText with ⟨part, hPart, rfl⟩
    rcases mem_toList_intercalate hc with
      hJoin | ⟨item, hItem, hc⟩
    · rw [List.mem_singleton.mp hJoin]
      exact hComma
    · exact ((hParts part hPart).2 item hItem).isLineChar c hc

end MmixAsm

------------------------------------------------------------
-- What Is Read Is Well-Formed
------------------------------------------------------------

namespace MmixAsm

/- Only spaces are removed from a line. -/
theorem mem_of_mem_squeeze
    {joined : Bool}
    {tokens : List Token}
    {token : Token}
    (hToken : token ∈ squeeze joined tokens) :
    token ∈ tokens := by
  fun_induction squeeze joined tokens with
  | case1 => cases hToken
  | case2 joined tokens ih =>
      rcases List.mem_cons.mp hToken with rfl | hToken
      · simp
      · simp [ih hToken]
  | case3 tokens hComma ih =>
      exact List.mem_cons_of_mem _ (ih hToken)
  | case4 joined tokens hComma hJoined ih =>
      rcases List.mem_cons.mp hToken with rfl | hToken
      · exact List.mem_cons_self
      · exact List.mem_cons_of_mem _ (ih hToken)
  | case5 joined tokens ih =>
      rcases List.mem_cons.mp hToken with rfl | hToken
      · exact List.mem_cons_self
      · exact List.mem_cons_of_mem _ (ih hToken)
  | case6 joined first tokens hSpace hComma hOther ih =>
      rcases List.mem_cons.mp hToken with rfl | hToken
      · exact List.mem_cons_self
      · exact List.mem_cons_of_mem _ (ih hToken)

/- The fields of proper tokens are proper. -/
theorem Field.proper_of_ofTokens
    {tokens : List Token}
    (hProper : ∀ token ∈ tokens, token.Proper) :
    ∀ field ∈ Field.ofTokens tokens, field.Proper := by
  intro field hField token hToken
  have hPart := (List.mem_filter.mp hField).1
  have hSqueezed := (mem_of_mem_splitWhere hPart hToken).1
  exact hProper token (mem_of_mem_squeeze hSqueezed)

/- What is read from a line can be written. -/
theorem Instruction.writable_of_ofScan?
    {scan : Scan}
    {instruction : Instruction}
    (hProper : ∀ token ∈ scan.tokens, token.2.Proper)
    (hScan : Instruction.ofScan? scan = .ok (some instruction)) :
    instruction.Writable := by
  have hTokens : ∀ token ∈ scan.tokens.map (·.2),
      token.Proper := by
    intro token hToken
    rcases List.mem_map.mp hToken with ⟨located, hMem, rfl⟩
    exact hProper located hMem
  unfold Instruction.ofScan? at hScan
  split at hScan
  · cases hScan
  · split at hScan
    · cases hScan
    · cases hFields : Instruction.ofFields
          (Field.ofTokens (scan.tokens.map (·.2))) with
      | error fault =>
          rw [hFields] at hScan
          cases hScan
      | ok found =>
          rw [hFields] at hScan
          cases hScan
          exact writable_of_ofFields
            (Field.proper_of_ofTokens hTokens) hFields

/- Every instruction of a file is read from one line. -/
theorem exists_scan_of_parseLines
    {number : Nat}
    {scans : List Scan}
    {instructions : List Instruction}
    (hLines : parseLines number scans = .ok instructions) :
    ∀ instruction ∈ instructions,
      ∃ scan ∈ scans,
        Instruction.ofScan? scan = .ok (some instruction) := by
  fun_induction parseLines number scans
    generalizing instructions with
  | case1 =>
      cases hLines
      intro instruction hMem
      cases hMem
  | case2 => cases hLines
  | case3 number scan rest hScan ih =>
      intro instruction hMem
      rcases ih hLines instruction hMem with
        ⟨found, hFound, hRead⟩
      exact ⟨found, List.mem_cons_of_mem _ hFound, hRead⟩
  | case4 => cases hLines
  | case5 number scan rest first hScan others hOthers ih =>
      cases hLines
      intro instruction hMem
      rcases List.mem_cons.mp hMem with rfl | hMem
      · exact ⟨scan, List.mem_cons_self, hScan⟩
      · rcases ih hOthers instruction hMem with
          ⟨found, hFound, hRead⟩
        exact ⟨found, List.mem_cons_of_mem _ hFound, hRead⟩

namespace Instruction

theorem label?_withLabel
    (label : Option String)
    (instruction : Instruction) :
    (instruction.withLabel label).label? = label := by
  cases instruction <;> rfl

/- Removing the label keeps an instruction writable. -/
theorem Writable.withLabel_none
    {instruction : Instruction}
    (hWritable : instruction.Writable) :
    (instruction.withLabel none).Writable := by
  have hNone : ∀ name ∈ (none : Option String),
      IsWord name ∧ Keyword.ofWord? name = none := by
    intro name hName
    cases hName
  cases instruction with
  | op line =>
      exact ⟨⟨hNone, hWritable.1.parameters⟩, hWritable.2⟩
  | alloc line =>
      have hLine : line.Shaped := hWritable
      exact ⟨hNone, hLine.parameters⟩
  | control line =>
      have hLine : line.Shaped := hWritable
      exact ⟨hNone, hLine.parameters⟩
  | macroLine line =>
      exact ⟨⟨hNone, hWritable.1.parameters⟩, hWritable.2⟩
  | macroTemplate line body =>
      exact ⟨⟨hNone, hWritable.1.parameters⟩, hWritable.2⟩

/- Dropping the entry label makes it well-formed. -/
theorem Writable.dropEntryLabel
    {instruction : Instruction}
    (hWritable : instruction.Writable) :
    instruction.dropEntryLabel.WellFormed := by
  unfold Instruction.dropEntryLabel
  split
  · refine ⟨hWritable.withLabel_none, ?_⟩
    rw [label?_withLabel]
    exact Option.some_ne_none _ |>.symm
  · next hEntry =>
      refine ⟨hWritable, fun hLabel => hEntry ?_⟩
      rw [marksEntry, hLabel]
      exact beq_self_eq_true _

end Instruction

/- Every instruction of a file that was read is well-formed. -/
theorem SourceFile.wellFormed_of_parse
    {name text : String}
    {file : SourceFile}
    (hParse : SourceFile.parse name text = .ok file) :
    ∀ instruction ∈ file.instructions,
      instruction.WellFormed := by
  unfold SourceFile.parse at hParse
  split at hParse
  · cases hParse
  · next found hLines =>
      cases hParse
      intro instruction hMem
      rcases List.mem_map.mp hMem with ⟨read, hRead, rfl⟩
      rcases exists_scan_of_parseLines hLines read hRead with
        ⟨scan, hScan, hOk⟩
      rcases List.mem_map.mp hScan with ⟨line, hLine, rfl⟩
      have hProper := Scan.proper_of_ofLine 1
        (isLineChar_of_mem_sourceLines hLine)
      exact (Instruction.writable_of_ofScan? hProper hOk)
        |>.dropEntryLabel

end MmixAsm

------------------------------------------------------------
-- What Is Written Is Read Back
------------------------------------------------------------

namespace MmixAsm

/- The line of an instruction is read as the instruction. -/
theorem Instruction.Writable.ofScan?_ofLine
    {instruction : Instruction}
    (hWritable : instruction.Writable)
    (column : Nat) :
    Instruction.ofScan?
        (Scan.ofLine column instruction.render.toList) =
      .ok (some instruction) := by
  have hParts := hWritable.writtenPart
  have hScan := scans_writtenText hParts column
  rw [← instruction.render_eq_writtenText] at hScan
  have hFields := Field.ofTokens_writtenTokens
    (fun part hPart => (hParts part hPart).1)
    instruction.parts_ne_nil
  rw [← hScan.1] at hFields
  have hNonempty :
      instruction.parts.map Field.ofItems ≠ [] := by
    simpa using instruction.parts_ne_nil
  unfold Instruction.ofScan?
  rw [hScan.2, hFields]
  split
  · next hNone => cases hNone
  · split
    · next hNil => exact absurd hNil hNonempty
    · rw [hWritable.ofFields_parts]
      rfl

/- The lines of instructions are read as the instructions. -/
theorem parseLines_written
    {instructions : List Instruction}
    (number : Nat)
    (hWritable : ∀ instruction ∈ instructions,
      instruction.Writable) :
    parseLines number (instructions.map fun instruction =>
        Scan.ofLine 1 instruction.render.toList) =
      .ok instructions := by
  induction instructions generalizing number with
  | nil => rfl
  | cons instruction instructions ih =>
      have hFirst := (hWritable instruction
        List.mem_cons_self).ofScan?_ofLine 1
      have hRest := ih (number + 1) fun other hOther =>
        hWritable other (List.mem_cons_of_mem _ hOther)
      simp only [List.map_cons, parseLines, hFirst, hRest]

/- Instructions written one to a line give back their lines. -/
theorem sourceLines_written
    {instructions : List Instruction}
    (hWritable : ∀ instruction ∈ instructions,
      instruction.Writable)
    (hNonempty : instructions ≠ []) :
    sourceLines (String.intercalate "\n"
        (instructions.map Instruction.render)) =
      instructions.map fun instruction =>
        instruction.render.toList := by
  have hLine : ∀ line ∈ instructions.map Instruction.render,
      ∀ c ∈ line.toList, isLineChar c := by
    intro line hLine
    rcases List.mem_map.mp hLine with ⟨instruction, hMem, rfl⟩
    rw [instruction.render_eq_writtenText]
    exact isLineChar_writtenText
      (hWritable instruction hMem).writtenPart
  have hText : ∀ c ∈ (String.intercalate "\n"
      (instructions.map Instruction.render)).toList,
      c ≠ Char.ofNat 0 := by
    intro c hc
    rcases mem_toList_intercalate hc with
      hFeed | ⟨line, hMem, hc⟩
    · have hFeed : c = '\n' := by
        simpa using hFeed
      rw [hFeed]
      decide
    · exact (hLine line hMem c hc).2
  have hApart : ∀ line ∈ instructions.map fun instruction =>
      instruction.render.toList, '\n' ∉ line := by
    intro line hMem hFeed
    rcases List.mem_map.mp hMem with
      ⟨instruction, hInstruction, rfl⟩
    have hChars := hLine _ (List.mem_map_of_mem hInstruction)
    exact (hChars '\n' hFeed).1 rfl
  rw [sourceLines, beforeNull_of_forall_ne hText,
    String.toList_intercalate, List.map_map]
  exact splitWhere_intercalate hApart (by simpa using hNonempty)

namespace SourceFile

/-
  A file of well-formed instructions, written one to a line,
  is read as these instructions.
-/
theorem parse_written
    {instructions : List Instruction}
    (name : String)
    (hWellFormed : ∀ instruction ∈ instructions,
      instruction.WellFormed) :
    parse name (String.intercalate "\n"
        (instructions.map Instruction.render)) =
      .ok ⟨name, instructions, false⟩ := by
  have hWritable : ∀ instruction ∈ instructions,
      instruction.Writable :=
    fun instruction hMem => (hWellFormed instruction hMem).1
  have hLines : parseLines 1 (scanText (String.intercalate "\n"
      (instructions.map Instruction.render))) =
      .ok instructions := by
    by_cases hNil : instructions = []
    · -- No instruction is written as one empty line.
      subst hNil
      simp [scanText, sourceLines, beforeNull, splitWhere,
        Scan.ofLine, Scan.empty, parseLines,
        Instruction.ofScan?, Field.ofTokens, squeeze]
    · rw [scanText, sourceLines_written hWritable hNil,
        List.map_map]
      exact parseLines_written 1 hWritable
  have hEntry : ∀ instruction ∈ instructions,
      instruction.marksEntry = false := by
    intro instruction hMem
    have hLabel := (hWellFormed instruction hMem).2
    exact beq_eq_false_iff_ne.mpr hLabel
  have hKept : ∀ instruction ∈ instructions,
      instruction.dropEntryLabel = instruction := by
    intro instruction hMem
    rw [Instruction.dropEntryLabel, hEntry instruction hMem]
    rfl
  have hMap : instructions.map Instruction.dropEntryLabel =
      instructions :=
    (List.map_congr_left hKept).trans (List.map_id _)
  have hAny :
      instructions.any Instruction.marksEntry = false := by
    rw [List.any_eq_false]
    intro instruction hMem
    rw [hEntry instruction hMem]
    exact Bool.false_ne_true
  unfold parse
  rw [hLines]
  simp only [hMap, hAny]

/-
  Reading inverts writing.  The instructions that are read
  from texts are well-formed, and every list of well-formed
  instructions is read from the text it is written as.
-/
theorem parse_inverse_of_render :
    (∀ (name text : String) (file : SourceFile),
      parse name text = .ok file →
        ∀ instruction ∈ file.instructions,
          instruction.WellFormed) ∧
    (∀ (name : String) (instructions : List Instruction),
      (∀ instruction ∈ instructions,
          instruction.WellFormed) →
        parse name (String.intercalate "\n"
            (instructions.map Instruction.render)) =
          .ok ⟨name, instructions, false⟩) := by
  constructor
  · intro name text file hParse
    exact wellFormed_of_parse hParse
  · intro name instructions hWellFormed
    exact parse_written name hWellFormed

/- A labelled template and a string that holds a blank. -/
def sampleLines : List Instruction := [
  .op ⟨none, "ADD", ["$1", "\"a b\""]⟩,
  .macroTemplate ⟨some "inc", .definition, ["x"]⟩
    (.op ⟨some "L", "INCL", ["&x", "1"]⟩)]

/- The sample with the entry label, comments and blanks. -/
def sampleText : String :=
  "Main ADD $1 , \"a b\" % c\n\n inc MACRO x L INCL &x,1 //"

theorem sampleLines_inverse :
    (∀ instruction ∈ sampleLines, instruction.WellFormed) ∧
      parse "a" (String.intercalate "\n"
          (sampleLines.map Instruction.render)) =
        .ok ⟨"a", sampleLines, false⟩ := by
  have hRead : (parse "a" sampleText).toOption =
      some ⟨"a", sampleLines, true⟩ := by
    decide +kernel
  have hWellFormed :
      ∀ instruction ∈ sampleLines, instruction.WellFormed := by
    cases hParse : parse "a" sampleText with
    | error fault =>
        rw [hParse] at hRead
        cases hRead
    | ok file =>
        rw [hParse] at hRead
        cases hRead
        exact parse_inverse_of_render.1 _ _ _ hParse
  exact ⟨hWellFormed,
    parse_inverse_of_render.2 "a" sampleLines hWellFormed⟩

end SourceFile

end MmixAsm
