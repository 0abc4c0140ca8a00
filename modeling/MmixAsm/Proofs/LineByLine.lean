import Mathlib.Data.List.DropRight
import MmixAsm.Proofs.OnePassReading

/-
  Source text is read line by line.

  A text can be read if and only if each of its lines can be
  read alone, and then the file holds what the lines hold.  A
  line gives one instruction, unless it is blank or holds a
  comment only.  The file is the entry if some line has the
  entry label, which no instruction keeps.

  Key definitions include:
    * `MmixAsm.isSilent`
    * `MmixAsm.lineLabel?`

  Key theorems include:
    * `MmixAsm.parseLines_eq_ok_iff`
    * `MmixAsm.Field.exists_ofTokens_cons`
    * `MmixAsm.Instruction.ofScan?_line`
    * `MmixAsm.SourceFile.parse_line_iff`
    * `MmixAsm.SourceFile.parse_eq_ok_iff`
    * `MmixAsm.SourceFile.parse_by_lines`
-/

------------------------------------------------------------
-- Lines Read Alone
------------------------------------------------------------

namespace MmixAsm

/- The first line is read, and then the others. -/
theorem parseLines_cons_eq_ok_iff
    {number : Nat}
    {scan : Scan}
    {rest : List Scan}
    {instructions : List Instruction} :
    parseLines number (scan :: rest) = .ok instructions ↔
      ∃ found others,
        Instruction.ofScan? scan = .ok found ∧
          parseLines (number + 1) rest = .ok others ∧
          instructions = found.toList ++ others := by
  rw [parseLines]
  rcases Instruction.ofScan? scan with fault | found
  · simp
  · cases found with
    | none => simp
    | some instruction =>
        cases parseLines (number + 1) rest with
        | error e => simp
        | ok others => simp [eq_comm]

/- Lines are read if each of them is. -/
theorem parseLines_eq_ok_iff
    {number : Nat}
    {scans : List Scan}
    {instructions : List Instruction} :
    parseLines number scans = .ok instructions ↔
      ∃ founds,
        List.Forall₂
            (fun scan found =>
              Instruction.ofScan? scan = .ok found)
            scans founds ∧
          instructions = founds.flatMap Option.toList := by
  induction scans generalizing number instructions with
  | nil => simp [parseLines, eq_comm]
  | cons scan rest ih =>
      rw [parseLines_cons_eq_ok_iff]
      constructor
      · rintro ⟨found, others, hScan, hOthers, rfl⟩
        rcases ih.mp hOthers with ⟨founds, hFounds, rfl⟩
        exact ⟨found :: founds, .cons hScan hFounds, rfl⟩
      · rintro ⟨founds, hFounds, rfl⟩
        rcases hFounds with _ | ⟨hScan, hFounds⟩
        exact ⟨_, _, hScan, ih.mpr ⟨_, hFounds, rfl⟩, rfl⟩

/- A line is a text of one line. -/
theorem sourceLines_line
    {line : List Char}
    (hLine : ∀ c ∈ line, isLineChar c) :
    sourceLines (String.ofList line) = [line] := by
  rw [sourceLines, String.toList_ofList,
    beforeNull_of_forall_ne fun c hc => (hLine c hc).2,
    splitWhere_eq_splitOnP,
    List.splitOnP_eq_singleton fun c hc =>
      beq_false_of_ne (hLine c hc).1]

/- What the text of a single line is read as. -/
theorem SourceFile.parse_line_iff
    {line : List Char}
    (name : String)
    (part : SourceFile)
    (hLine : ∀ c ∈ line, isLineChar c) :
    SourceFile.parse name (String.ofList line) = .ok part ↔
      ∃ found,
        Instruction.ofScan? (Scan.ofLine 1 line) = .ok found ∧
          part = ofRead name found.toList := by
  rw [parse_eq, scanText, sourceLines_line hLine,
    List.map_singleton, map_parseLines_cons]
  rcases Instruction.ofScan? (Scan.ofLine 1 line) with
    fault | found
  · simp [afterLine]
  · cases found with
    | none => simp [afterLine, parseLines, Except.map, eq_comm]
    | some instruction =>
        simp [afterLine, parseLines, Except.map, withFront,
          ofRead, eq_comm]

end MmixAsm

------------------------------------------------------------
-- Silent Lines
------------------------------------------------------------

namespace MmixAsm

/- Whether a line is blank or holds a comment only. -/
def isSilent (line : List Char) : Bool :=
  (line.dropWhile isBlank).isEmpty
    || startsComment (line.dropWhile isBlank)

/- The word that a line begins with, if any. -/
def firstWord (line : List Char) : String :=
  String.ofList (spanWord (line.dropWhile isBlank)).1

/- A first word is the label, unless it is a keyword. -/
def labelOf? (word : String) : Option String :=
  match Keyword.ofWord? word with
  | some _ => none
  | none => some word

/- The label of a line. -/
def lineLabel? (line : List Char) : Option String :=
  if isSilent line then none else labelOf? (firstWord line)

/- A blank in front of all tokens separates nothing. -/
theorem Field.ofTokens_space
    (tokens : List Token) :
    Field.ofTokens (.space :: tokens) =
      Field.ofTokens tokens := by
  unfold Field.ofTokens
  cases tokens with
  | nil => rfl
  | cons token tokens =>
      cases token with
      | word text => rfl
      | quoted text => rfl
      | comma => rfl
      | space => rfl

/- The first token of a line begins its first field. -/
theorem Field.exists_ofTokens_cons
    {token : Token}
    (tokens : List Token)
    (hSpace : token ≠ .space) :
    ∃ field fields,
      Field.ofTokens (token :: tokens) =
        (token :: field) :: fields := by
  have hSqueeze : ∃ others,
      squeeze true (token :: tokens) = token :: others := by
    cases token with
    | word text => exact ⟨_, rfl⟩
    | quoted text => exact ⟨_, rfl⟩
    | comma => exact ⟨_, rfl⟩
    | space => exact absurd rfl hSpace
  rcases hSqueeze with ⟨others, hOthers⟩
  rcases List.exists_cons_of_ne_nil
    (splitWhere_ne_nil (· == Token.space) others) with
    ⟨field, fields, hFields⟩
  refine ⟨field, fields.filter (!·.isEmpty), ?_⟩
  rw [Field.ofTokens, hOthers, splitWhere, hFields,
    if_neg (by simpa using hSpace)]
  rfl

/- The blanks in front of a line change nothing. -/
theorem Instruction.exists_ofScan?_dropWhile
    (column : Nat)
    (line : List Char) :
    ∃ place,
      Instruction.ofScan? (Scan.ofLine column line) =
        Instruction.ofScan?
          (Scan.ofLine place (line.dropWhile isBlank)) := by
  by_cases hNone : line.takeWhile isBlank = []
  · have hLine := List.takeWhile_append_dropWhile
      (p := isBlank) (l := line)
    rw [hNone, List.nil_append] at hLine
    exact ⟨column, by rw [hLine]⟩
  · have hBlanks : ∀ c ∈ line.takeWhile isBlank,
        isBlank c = true :=
      fun c hc => List.mem_takeWhile_imp hc
    have hScan := Scan.ofLine_blanks column hNone hBlanks
      (List.dropWhile_idempotent isBlank line)
    rw [List.takeWhile_append_dropWhile] at hScan
    refine ⟨column + (line.takeWhile isBlank).length, ?_⟩
    rw [hScan]
    split
    · next hSilent => rw [Scan.ofLine_silent _ hSilent]
    · unfold Instruction.ofScan?
      simp only [Scan.cons, List.map_cons,
        Field.ofTokens_space]

/- The first token of a line that holds something. -/
theorem Scan.exists_first_token
    {text : List Char}
    (place : Nat)
    (hBlank : ∀ c ∈ text.head?, isBlank c = false)
    (hLoud : (text.isEmpty || startsComment text) = false)
    (hUnclosed : (ofLine place text).unclosed = none) :
    ∃ token others,
      (ofLine place text).tokens.map (·.2) =
          token :: others ∧
        token ≠ .space ∧
        ∀ word, token = .word word →
          word = String.ofList (spanWord text).1 := by
  revert hUnclosed
  fun_cases ofLine place text with
  | case1 => cases hLoud
  | case2 c cs hComment =>
      rw [hComment, Bool.or_true] at hLoud
      cases hLoud
  | case3 c cs hComment hSpace =>
      rw [hBlank c rfl] at hSpace
      cases hSpace
  | case4 c cs hComment hSpace =>
      rw [hBlank c rfl] at hSpace
      cases hSpace
  | case5 cs =>
      intro _
      refine ⟨_, _, rfl, Token.noConfusion, ?_⟩
      intro word hWord
      cases hWord
  | case6 =>
      intro hUnclosed
      cases hUnclosed
  | case7 =>
      intro _
      refine ⟨_, _, rfl, Token.noConfusion, ?_⟩
      intro word hWord
      cases hWord
  | case8 c cs hComment hSpace hComma hQuote split =>
      have hDelimiter : isDelimiter c = false := by
        simp [isDelimiter, hSpace, hComma, hQuote]
      intro _
      refine ⟨_, _, rfl, Token.noConfusion, ?_⟩
      rintro word ⟨⟩
      rw [spanWord_cons hDelimiter
        (Bool.eq_false_iff.mpr hComment)]

end MmixAsm

------------------------------------------------------------
-- Labels Of Lines
------------------------------------------------------------

namespace MmixAsm

theorem Field.word?_eq_some
    {field : Field}
    {word : String}
    (h : field.word? = some word) :
    field = [.word word] := by
  unfold Field.word? at h
  split at h
  · cases h
    rfl
  · cases h

/- The first field of a line is a word. -/
theorem exists_word_of_heading
    {field : Field}
    {rest : List Field}
    {head : Heading}
    (h : heading (field :: rest) = .ok head) :
    ∃ word,
      field = [.word word] ∧ head.label = labelOf? word := by
  unfold heading at h
  cases hWord : field.word? with
  | none =>
      have hKeyword : field.keyword? = none := by
        rw [Field.keyword?, hWord]
        rfl
      simp only [hKeyword, hWord] at h
      cases h
  | some word =>
      have hKeyword : field.keyword? =
          Keyword.ofWord? word := by
        rw [Field.keyword?, hWord]
        rfl
      refine ⟨word, Field.word?_eq_some hWord, ?_⟩
      unfold labelOf?
      cases hOf : Keyword.ofWord? word with
      | some keyword =>
          simp only [hKeyword, hOf] at h
          cases h
          rfl
      | none =>
          cases rest with
          | nil =>
              simp only [hKeyword, hOf, hWord] at h
              cases h
          | cons second others =>
              cases hSecond : second.keyword? with
              | none =>
                  simp only [hKeyword, hOf, hWord, hSecond] at h
                  cases h
              | some keyword =>
                  simp only [hKeyword, hOf, hWord, hSecond] at h
                  cases h
                  rfl

/- An instruction has the label of its heading. -/
theorem Instruction.exists_heading_of_ofFields
    {fields : List Field}
    {instruction : Instruction}
    (h : Instruction.ofFields fields = .ok instruction) :
    ∃ head,
      heading fields = .ok head ∧
        instruction.label? = head.label := by
  revert h
  fun_cases Instruction.ofFields fields with
  | case1 => exact nofun
  | case2 => exact nofun
  | case3 => exact nofun
  | case4 => exact nofun
  | case5 => exact nofun
  | case6 head hHead =>
      rintro ⟨⟩
      exact ⟨head, hHead, rfl⟩
  | case7 => exact nofun
  | case8 head hHead =>
      rintro ⟨⟩
      refine ⟨head, hHead, ?_⟩
      cases head.keyword <;> rfl

/-
  A silent line holds no instruction.  Any other line that is
  read holds one, which has the label of the line.
-/
theorem Instruction.ofScan?_line
    {line : List Char}
    {found : Option Instruction}
    (h : Instruction.ofScan? (Scan.ofLine 1 line) =
      .ok found) :
    found.isNone = isSilent line ∧
      found.bind Instruction.label? = lineLabel? line := by
  rcases exists_ofScan?_dropWhile 1 line with ⟨place, hPlace⟩
  rw [hPlace] at h
  unfold lineLabel?
  cases hSilent : isSilent line with
  | true =>
      rw [Scan.ofLine_silent _ hSilent] at h
      cases h
      exact ⟨rfl, rfl⟩
  | false =>
      unfold ofScan? at h
      cases hUnclosed : (Scan.ofLine place
          (line.dropWhile isBlank)).unclosed with
      | some column =>
          simp only [hUnclosed] at h
          cases h
      | none =>
          rcases Scan.exists_first_token place
            (isBlank_head_dropWhile line) hSilent hUnclosed with
            ⟨token, others, hTokens, hSpace, hWord⟩
          rcases Field.exists_ofTokens_cons others hSpace with
            ⟨field, fields, hFields⟩
          simp only [hUnclosed, hTokens, hFields] at h
          rcases exists_of_map_eq_ok h with
            ⟨instruction, hRead, rfl⟩
          rcases exists_heading_of_ofFields hRead with
            ⟨head, hHead, hLabel⟩
          rcases exists_word_of_heading hHead with
            ⟨word, hField, hWordLabel⟩
          cases hField
          refine ⟨rfl, ?_⟩
          have hFirst : word = firstWord line := hWord word rfl
          rw [← hFirst, ← hWordLabel, ← hLabel]
          rfl

end MmixAsm

------------------------------------------------------------
-- Lists Side By Side
------------------------------------------------------------

namespace MmixAsm

/- Each element of a list has a partner. -/
theorem exists_forall₂_iff
    {α β : Type}
    {R : α → β → Prop}
    {xs : List α} :
    (∃ ys, List.Forall₂ R xs ys) ↔ ∀ x ∈ xs, ∃ y, R x y := by
  induction xs with
  | nil => simp
  | cons x xs ih =>
      rw [List.forall_mem_cons, ← ih]
      constructor
      · rintro ⟨_, _ | ⟨hHead, hTail⟩⟩
        exact ⟨⟨_, hHead⟩, ⟨_, hTail⟩⟩
      · rintro ⟨⟨y, hHead⟩, ⟨ys, hTail⟩⟩
        exact ⟨y :: ys, .cons hHead hTail⟩

/- Partners have a property alike. -/
theorem exists_mem_iff_of_forall₂
    {α β : Type}
    {p : α → Prop}
    {q : β → Prop}
    {xs : List α}
    {ys : List β}
    (h : List.Forall₂ (fun x y => p x ↔ q y) xs ys) :
    (∃ x ∈ xs, p x) ↔ ∃ y ∈ ys, q y := by
  induction h with
  | nil => simp
  | cons hHead _ ih =>
      rw [List.exists_mem_cons_iff, List.exists_mem_cons_iff,
        hHead, ih]

end MmixAsm

------------------------------------------------------------
-- Files
------------------------------------------------------------

namespace MmixAsm

namespace SourceFile

/- The lines of a text, by the line feeds before a null. -/
theorem sourceLines_eq_splitOn
    (text : String) :
    sourceLines text =
      (text.toList.takeWhile (· != Char.ofNat 0)).splitOn
        '\n' := by
  rw [sourceLines, splitWhere_eq_splitOnP,
    ← List.splitOn_eq_splitOnP]
  rfl

/- What a line that is read alone holds. -/
theorem holds_of_parse_line
    {name : String}
    {line : List Char}
    {part : SourceFile}
    (hLine : ∀ c ∈ line, isLineChar c)
    (h : parse name (String.ofList line) = .ok part) :
    part.instructions.length =
        (if isSilent line then 0 else 1) ∧
      (part.isEntry = true ↔
        lineLabel? line = some entryLabel) := by
  rcases (parse_line_iff name part hLine).mp h with
    ⟨found, hFound, rfl⟩
  rcases Instruction.ofScan?_line hFound with
    ⟨hSilent, hLabel⟩
  rw [← hSilent, ← hLabel]
  cases found with
  | none => simp [ofRead]
  | some instruction =>
      simp [ofRead, Instruction.marksEntry]

/- Files of single lines, put together. -/
theorem ofRead_flatMap
    (name : String)
    (founds : List (Option Instruction)) :
    ofRead name (founds.flatMap Option.toList) =
      ⟨name,
        (founds.map fun found =>
          ofRead name found.toList).flatMap (·.instructions),
        (founds.map fun found =>
          ofRead name found.toList).any (·.isEntry)⟩ := by
  simp [ofRead, List.map_flatMap, List.flatMap_map,
    List.any_flatMap, List.any_map, Function.comp_def]

/- Lines are read alone as their scans are read. -/
theorem forall₂_parse_iff
    {name : String}
    {lines : List (List Char)}
    {parts : List SourceFile}
    (hLines : ∀ line ∈ lines, ∀ c ∈ line, isLineChar c) :
    List.Forall₂
        (fun line part =>
          parse name (String.ofList line) = .ok part)
        lines parts ↔
      ∃ founds,
        List.Forall₂
            (fun line found =>
              Instruction.ofScan? (Scan.ofLine 1 line) =
                .ok found)
            lines founds ∧
          parts = founds.map fun found =>
            ofRead name found.toList := by
  induction lines generalizing parts with
  | nil => simp
  | cons line rest ih =>
      rcases List.forall_mem_cons.mp hLines with
        ⟨hLine, hRest⟩
      constructor
      · rintro (_ | ⟨hPart, hParts⟩)
        rcases (parse_line_iff name _ hLine).mp hPart with
          ⟨found, hFound, rfl⟩
        rcases (ih hRest).mp hParts with
          ⟨founds, hFounds, rfl⟩
        exact ⟨found :: founds, .cons hFound hFounds, rfl⟩
      · rintro ⟨_, _ | ⟨hFound, hFounds⟩, rfl⟩
        exact .cons
          ((parse_line_iff name _ hLine).mpr ⟨_, hFound, rfl⟩)
          ((ih hRest).mpr ⟨_, hFounds, rfl⟩)

/- A text is read if each of its lines is read alone. -/
theorem parse_eq_ok_iff
    {name text : String}
    {file : SourceFile} :
    parse name text = .ok file ↔
      ∃ parts,
        List.Forall₂
            (fun line part =>
              parse name (String.ofList line) = .ok part)
            (sourceLines text) parts ∧
          file = ⟨name, parts.flatMap (·.instructions),
            parts.any (·.isEntry)⟩ := by
  have hLines : ∀ line ∈ sourceLines text,
      ∀ c ∈ line, isLineChar c :=
    fun line hLine => isLineChar_of_mem_sourceLines hLine
  rw [parse_eq, scanText]
  constructor
  · intro h
    rcases exists_of_map_eq_ok h with
      ⟨instructions, hInstructions, rfl⟩
    rcases parseLines_eq_ok_iff.mp hInstructions with
      ⟨founds, hFounds, rfl⟩
    rw [List.forall₂_map_left_iff] at hFounds
    exact ⟨_, (forall₂_parse_iff hLines).mpr
      ⟨founds, hFounds, rfl⟩, ofRead_flatMap name founds⟩
  · rintro ⟨parts, hParts, rfl⟩
    rcases (forall₂_parse_iff hLines).mp hParts with
      ⟨founds, hFounds, rfl⟩
    rw [← ofRead_flatMap, parseLines_eq_ok_iff.mpr
      ⟨founds, List.forall₂_map_left_iff.mpr hFounds, rfl⟩]
    rfl

/-
  Reading a text in one pass is reading it line by line.  The
  text is read if and only if each of its lines is read alone,
  and the file holds the instructions of the lines in order.
  A silent line holds none and any other line exactly one.
  The file is the entry if and only if a line has the entry
  label, and no instruction keeps this label.
-/
theorem parse_by_lines
    (name text : String) :
    readOnce name text = parse name text ∧
      sourceLines text =
        (text.toList.takeWhile (· != Char.ofNat 0)).splitOn
          '\n' ∧
      ((∃ file, parse name text = .ok file) ↔
        ∀ line ∈ sourceLines text,
          ∃ part,
            parse name (String.ofList line) = .ok part) ∧
      ∀ file, parse name text = .ok file →
        ∃ parts,
          List.Forall₂
              (fun line part =>
                parse name (String.ofList line) = .ok part ∧
                  part.instructions.length =
                    if isSilent line then 0 else 1)
              (sourceLines text) parts ∧
            file.name = name ∧
            file.instructions =
              parts.flatMap (·.instructions) ∧
            (file.isEntry = true ↔
              ∃ line ∈ sourceLines text,
                lineLabel? line = some entryLabel) ∧
            ∀ instruction ∈ file.instructions,
              instruction.label? ≠ some entryLabel := by
  have hLines : ∀ line ∈ sourceLines text,
      ∀ c ∈ line, isLineChar c :=
    fun line hLine => isLineChar_of_mem_sourceLines hLine
  refine ⟨readOnce_eq_parse name text,
    sourceLines_eq_splitOn text, ?_, ?_⟩
  · rw [← exists_forall₂_iff]
    constructor
    · rintro ⟨file, hFile⟩
      rcases parse_eq_ok_iff.mp hFile with ⟨parts, hParts, _⟩
      exact ⟨parts, hParts⟩
    · rintro ⟨parts, hParts⟩
      exact ⟨_, parse_eq_ok_iff.mpr ⟨parts, hParts, rfl⟩⟩
  · intro file hFile
    have hLabels : ∀ instruction ∈ file.instructions,
        instruction.label? ≠ some entryLabel :=
      fun instruction hMem =>
        (wellFormed_of_parse hFile instruction hMem).2
    rcases parse_eq_ok_iff.mp hFile with ⟨parts, hParts, rfl⟩
    have hHolds :=
      (List.forall₂_and_left _ _).mpr ⟨hLines, hParts⟩
    refine ⟨parts, ?_, rfl, rfl, ?_, hLabels⟩
    · exact hHolds.imp fun line part h =>
        ⟨h.2, (holds_of_parse_line h.1 h.2).1⟩
    · rw [List.any_eq_true]
      exact exists_mem_iff_of_forall₂
        (hHolds.flip.imp fun part line h =>
          (holds_of_parse_line h.1 h.2).2)

/- A comment, a blank line, and a string behind a null. -/
def entryText : String :=
  "x IS 1\n\t// none\n\nMain BYTE \"a %,\" , 2 % b\x00 \"open"

def entryTextFile : SourceFile where
  name := "a"
  instructions := [
    .control ⟨some "x", .equate, ["1"]⟩,
    .alloc ⟨none, .byte, ["\"a %,\"", "2"]⟩]
  isEntry := true

theorem entryText_by_lines :
    parse "a" entryText = .ok entryTextFile ∧
      ∃ parts,
        List.Forall₂
            (fun line part =>
              parse "a" (String.ofList line) = .ok part ∧
                part.instructions.length =
                  if isSilent line then 0 else 1)
            (sourceLines entryText) parts ∧
          entryTextFile.instructions =
            parts.flatMap (·.instructions) ∧
          ∃ line ∈ sourceLines entryText,
            lineLabel? line = some entryLabel := by
  have hRead : (parse "a" entryText).toOption =
      some entryTextFile := by
    decide +kernel
  have hParse : parse "a" entryText = .ok entryTextFile := by
    cases hParse : parse "a" entryText with
    | error fault =>
        rw [hParse] at hRead
        cases hRead
    | ok file =>
        rw [hParse] at hRead
        cases hRead
        rfl
  rcases (parse_by_lines "a" entryText).2.2.2 _ hParse with
    ⟨parts, hParts, _, hInstructions, hEntry, _⟩
  exact ⟨hParse, parts, hParts, hInstructions,
    hEntry.mp rfl⟩

end SourceFile

end MmixAsm
