import Mathlib.Data.List.Chain
import MmixAsm.Proofs.CharacterCursor
import MmixAsm.Proofs.Outcome
import MmixAsm.Proofs.RoundTrip

/-
  Reading a source file in one pass.

  The reader goes over the listing of a text and holds one
  element of it.  It collects the fields of a line token by
  token, and takes the last field back when a comma follows
  its blank.  At the end of a line it moves on before it
  judges the line.  It reads what is read line by line, and
  reports the same errors.

  Key definitions include:
    * `MmixAsm.OpenLine`
    * `MmixAsm.OpenLine.push`
    * `MmixAsm.readLexemes`
    * `MmixAsm.SourceFile.readOnce`

  Key theorems include:
    * `MmixAsm.Scan.spacesApart_ofLine`
    * `MmixAsm.OpenLine.fields_foldl_push`
    * `MmixAsm.Scan.unclosed_ofLine`
    * `MmixAsm.readLexemes_lexemesFrom`
    * `MmixAsm.SourceFile.readOnce_eq_parse`
-/

------------------------------------------------------------
-- Collecting Fields
------------------------------------------------------------

namespace MmixAsm

/-
  The fields of a line that is not at its end yet: those that
  are finished, the last one first, and the one being read.
-/
structure OpenLine where
  closed : List Field
  current : Field

namespace OpenLine

def empty : OpenLine where
  closed := []
  current := []

/- Add one token to a line. -/
def push
    (line : OpenLine) :
    Token → OpenLine
| .space =>
    if line.current.isEmpty
        || line.current.getLast? == some .comma then
      line
    else
      ⟨line.current :: line.closed, []⟩
| .comma =>
    match line.current, line.closed with
    | [], previous :: others =>
        ⟨others, previous ++ [.comma]⟩
    | _, _ => ⟨line.closed, line.current ++ [.comma]⟩
| token => ⟨line.closed, line.current ++ [token]⟩

/- The fields of a line at its end. -/
def fields (line : OpenLine) : List Field :=
  if line.current.isEmpty then line.closed.reverse
  else (line.current :: line.closed).reverse

/- Whether a blank at this place separates nothing. -/
def joined (line : OpenLine) : Bool :=
  if line.current.isEmpty then line.closed.isEmpty
  else line.current.getLast? == some .comma

end OpenLine

end MmixAsm

------------------------------------------------------------
-- Fields And Tokens
------------------------------------------------------------

namespace MmixAsm

/- No two spaces stand beside each other. -/
def SpacesApart (tokens : List Token) : Prop :=
  tokens.IsChain fun token next =>
    token = .space → next ≠ .space

/- Behind a run of blanks no blank follows. -/
theorem isBlank_head_dropWhile
    (cs : List Char) :
    ∀ c ∈ (cs.dropWhile isBlank).head?, isBlank c = false := by
  intro c hc
  have hHead := List.head?_dropWhile_not isBlank cs
  rw [Option.mem_def.mp hc] at hHead
  exact hHead

namespace Scan

/- Where no blank stands, no space is read. -/
theorem head_ofLine_ne_space
    {line : List Char}
    (column : Nat)
    (hBlank : ∀ c ∈ line.head?, isBlank c = false) :
    ∀ token ∈ ((ofLine column line).tokens.map (·.2)).head?,
      token ≠ .space := by
  fun_cases ofLine column line with
  | case1 => simp [empty]
  | case2 => simp [empty]
  | case3 => simp [empty]
  | case4 c cs hComment hSpace =>
      rw [hBlank c rfl] at hSpace
      cases hSpace
  | case5 => simp [cons]
  | case6 => simp
  | case7 => simp [cons]
  | case8 => simp [cons]

/- A run of blanks is read as one space. -/
theorem spacesApart_ofLine
    (column : Nat)
    (line : List Char) :
    SpacesApart ((ofLine column line).tokens.map (·.2)) := by
  have hOther : ∀ (token : Token) (at' : Nat) (rest : Scan),
      token ≠ .space →
        SpacesApart (rest.tokens.map (·.2)) →
          SpacesApart
            ((cons at' token rest).tokens.map (·.2)) := by
    intro token at' rest hToken hRest
    exact List.isChain_cons.mpr
      ⟨fun _ _ hSpace => absurd hSpace hToken, hRest⟩
  fun_induction ofLine column line with
  | case1 => exact .nil
  | case2 => exact .nil
  | case3 => exact .nil
  | case4 column c cs hComment hBlank rest hRest ih =>
      refine List.isChain_cons.mpr ⟨?_, ih⟩
      intro next hNext _
      exact head_ofLine_ne_space _
        (isBlank_head_dropWhile cs) next hNext
  | case5 column cs hComment hBlank ih =>
      exact hOther _ _ _ Token.noConfusion ih
  | case6 => exact .nil
  | case7 column cs head rest hRest body hComment hBlank hComma
      ih =>
      exact hOther _ _ _ Token.noConfusion ih
  | case8 column c cs hComment hBlank hComma hQuote split ih =>
      exact hOther _ _ _ Token.noConfusion ih

end Scan

namespace OpenLine

variable {line : OpenLine}

/- A comma joins the field in front of it. -/
theorem push_comma
    (hOpen : line.current = [] → line.closed = []) :
    line.push .comma =
      ⟨line.closed, line.current ++ [.comma]⟩ := by
  rcases line with ⟨closed, current⟩
  cases current with
  | nil =>
      cases hOpen rfl
      rfl
  | cons first rest => rfl

/- A blank in front of a comma separates nothing. -/
theorem push_space_comma
    (hOpen : line.current = [] → line.closed = []) :
    (line.push .space).push .comma =
      ⟨line.closed, line.current ++ [.comma]⟩ := by
  rw [push]
  split
  · exact push_comma hOpen
  · rfl

/- A blank that separates nothing changes nothing. -/
theorem push_space_of_joined
    (hJoined : line.joined = true) :
    line.push .space = line := by
  unfold joined at hJoined
  rw [push]
  split
  · rfl
  · next hSome =>
      simp only [Bool.or_eq_true, not_or] at hSome
      rw [if_neg hSome.1] at hJoined
      exact absurd hJoined hSome.2

/- Any other blank finishes a field. -/
theorem push_space_of_not_joined
    (hOpen : line.current = [] → line.closed = [])
    (hJoined : line.joined = false) :
    line.push .space = ⟨line.current :: line.closed, []⟩ ∧
      line.current ≠ [] := by
  have hCurrent : line.current ≠ [] := by
    intro hCurrent
    rw [joined, hCurrent, hOpen hCurrent] at hJoined
    cases hJoined
  have hSome : line.current.isEmpty = false :=
    List.isEmpty_eq_false_iff.mpr hCurrent
  rw [joined, hSome] at hJoined
  rw [push, hSome, if_neg (by simpa using hJoined)]
  exact ⟨rfl, hCurrent⟩

/- A token that is no space keeps a field without spaces. -/
theorem spaceless_concat
    {field : Field}
    {token : Token}
    (hField : ∀ other ∈ field, other ≠ .space)
    (hToken : token ≠ .space) :
    ∀ other ∈ field ++ [token], other ≠ .space := by
  intro other hOther
  rcases List.mem_append.mp hOther with hOther | hOther
  · exact hField other hOther
  · rw [List.mem_singleton.mp hOther]
    exact hToken

/- Behind a token only a comma makes a blank mean nothing. -/
theorem joined_concat
    (closed : List Field)
    (field : Field)
    (token : Token) :
    joined ⟨closed, field ++ [token]⟩ = (token == .comma) := by
  simp [joined]

/- Tokens without a space are one field, or none. -/
theorem filter_splitWhere_field
    {field : Field}
    (hField : ∀ token ∈ field, token ≠ .space) :
    (splitWhere (· == .space) field).filter (!·.isEmpty) =
      if field.isEmpty then [] else [field] := by
  rw [splitWhere_eq_splitOnP,
    List.splitOnP_eq_singleton fun token hToken =>
      beq_false_of_ne (hField token hToken)]
  cases field with
  | nil => rfl
  | cons first rest => rfl

/- A space ends a field. -/
theorem filter_splitWhere_append
    {field : Field}
    (tokens : List Token)
    (hField : ∀ token ∈ field, token ≠ .space)
    (hNonempty : field ≠ []) :
    (splitWhere (· == .space)
        (field ++ .space :: tokens)).filter (!·.isEmpty) =
      field :: (splitWhere (· == .space) tokens).filter
        (!·.isEmpty) := by
  rw [splitWhere_eq_splitOnP,
    List.splitOnP_append_cons_of_forall_mem
      (fun token hToken =>
        beq_false_of_ne (hField token hToken)) _ rfl,
    ← splitWhere_eq_splitOnP]
  simp [hNonempty]

/-
  The fields collected from a line are the finished ones and
  those of the field being read with all tokens that follow.
  Neither a comma nor a blank comes between them.
-/
theorem fields_foldl_push_from
    {tokens : List Token}
    (hApart : SpacesApart tokens)
    (hCurrent : ∀ token ∈ line.current, token ≠ .space)
    (hOpen : ∀ token ∈ tokens.head?,
      token = .comma ∨ token = .space →
        line.current = [] → line.closed = []) :
    (tokens.foldl push line).fields =
      line.closed.reverse
        ++ (splitWhere (· == .space)
          (line.current
            ++ squeeze line.joined tokens)).filter
              (!·.isEmpty) := by
  have hCommaSpace : Token.comma ≠ .space := Token.noConfusion
  generalize hJoined : line.joined = joined
  fun_induction squeeze joined tokens generalizing line with
  | case1 joined =>
      rw [List.append_nil, filter_splitWhere_field hCurrent]
      cases hEmpty : line.current.isEmpty with
      | true => simp [fields, hEmpty]
      | false => simp [fields, hEmpty]
  | case2 joined tokens ih =>
      have hLine := hOpen _ rfl (Or.inr rfl)
      rw [List.foldl_cons, List.foldl_cons,
        push_space_comma hLine]
      rw [ih hApart.tail.tail
        (spaceless_concat hCurrent hCommaSpace) (by simp)
        (joined_concat _ _ _)]
      simp
  | case3 tokens hComma ih =>
      rw [List.foldl_cons, push_space_of_joined hJoined]
      exact ih hApart.tail hCurrent
        (fun _ _ _ => hOpen _ rfl (Or.inr rfl)) hJoined
  | case4 joined tokens hComma hNot ih =>
      have hLine := hOpen _ rfl (Or.inr rfl)
      have hFalse : line.joined = false := by
        rw [hJoined]
        exact Bool.eq_false_iff.mpr hNot
      rcases push_space_of_not_joined hLine hFalse with
        ⟨hPush, hNonempty⟩
      rw [List.foldl_cons, hPush, ih hApart.tail]
      · rw [filter_splitWhere_append _ hCurrent hNonempty]
        simp
      · intro token hToken
        cases hToken
      · rintro token hToken (rfl | rfl)
        · rcases List.head?_eq_some_iff.mp hToken with
            ⟨rest, hRest⟩
          exact absurd hRest (hComma rest)
        · exact absurd rfl
            ((List.isChain_cons.mp hApart).1 _ hToken rfl)
      · rw [Bool.eq_false_iff.mpr hNot]
        rfl
  | case5 joined tokens ih =>
      have hLine := hOpen _ rfl (Or.inl rfl)
      rw [List.foldl_cons, push_comma hLine]
      rw [ih hApart.tail
        (spaceless_concat hCurrent hCommaSpace) (by simp)
        (joined_concat _ _ _)]
      simp
  | case6 joined first tokens _ hSpace hComma ih =>
      have hPush : line.push first =
          ⟨line.closed, line.current ++ [first]⟩ := by
        cases first with
        | word text => rfl
        | quoted text => rfl
        | comma => exact absurd rfl hComma
        | space => exact absurd rfl hSpace
      rw [List.foldl_cons, hPush]
      rw [ih hApart.tail (spaceless_concat hCurrent hSpace)
        (by simp)
        ((joined_concat _ _ _).trans (beq_false_of_ne hComma))]
      simp

/- The fields of a line are collected token by token. -/
theorem fields_foldl_push
    {tokens : List Token}
    (hApart : SpacesApart tokens) :
    (tokens.foldl push empty).fields =
      Field.ofTokens tokens := by
  rw [fields_foldl_push_from hApart]
  · rfl
  · intro token hToken
    cases hToken
  · intro _ _ _ _
    rfl

end OpenLine

end MmixAsm

------------------------------------------------------------
-- The Reader
------------------------------------------------------------

namespace MmixAsm

/- The line of an element of a listing. -/
def Lexeme.line :
    Lexeme → Nat
| .token _ location => location.line
| .unterminated line => line
| .newline location => location.line
| .eof location => location.line

/- The line that a listing begins at. -/
def firstLine :
    List Lexeme → Nat
| [] => 0
| lexeme :: _ => lexeme.line

/- The line of an unterminated string that comes next. -/
def unterminatedAhead :
    List Lexeme → Option Nat
| .unterminated line :: _ => some line
| _ => none

/- Put the instruction of a line in front of a file. -/
def SourceFile.withFront
    (instruction : Instruction)
    (file : SourceFile) : SourceFile :=
  { file with
    instructions :=
      instruction.dropEntryLabel :: file.instructions
    isEntry := instruction.marksEntry || file.isEntry }

/- Go on behind a line, unless the line has a fault. -/
def SourceFile.afterLine
    (outcome : Except LineFault (Option Instruction))
    (report : LineFault → SyntaxError)
    (following : Except SyntaxError SourceFile) :
    Except SyntaxError SourceFile :=
  match outcome with
  | .error fault => .error (report fault)
  | .ok none => following
  | .ok (some instruction) =>
      following.map (SourceFile.withFront instruction)

/- Read the fields of a finished line, and go on. -/
def OpenLine.judge
    (line : OpenLine)
    (number : Nat)
    (following : Except SyntaxError SourceFile) :
    Except SyntaxError SourceFile :=
  match line.fields with
  | [] => following
  | fields =>
      SourceFile.afterLine
        ((Instruction.ofFields fields).map some)
        (⟨number, ·⟩) following

/-
  Read a listing from inside a line with the given number.
  A line that is finished is judged when the element behind
  it is known.
-/
def readLexemes
    (name : String)
    (number : Nat)
    (line : OpenLine) :
    List Lexeme → Except SyntaxError SourceFile
| [] => line.judge number (.ok ⟨name, [], false⟩)
| .eof _ :: _ => line.judge number (.ok ⟨name, [], false⟩)
| .unterminated place :: _ =>
    .error ⟨place, .unterminatedString⟩
| .newline _ :: rest =>
    match unterminatedAhead rest with
    | some place => .error ⟨place, .unterminatedString⟩
    | none =>
        line.judge number
          (readLexemes name (firstLine rest) .empty rest)
| .token token _ :: rest =>
    readLexemes name number (line.push token) rest

/- Read a source file in one pass. -/
def SourceFile.readOnce
    (name : String)
    (text : String) : Except SyntaxError SourceFile :=
  readLexemes name (firstLine (Cursor.ofText text).listing)
    .empty (Cursor.ofText text).listing

end MmixAsm

------------------------------------------------------------
-- The Reader Within A Line
------------------------------------------------------------

namespace MmixAsm

namespace Scan

/-
  An unclosed string is not in front of the place where the
  scan begins, and it is there if no token is read.
-/
theorem unclosed_ofLine
    {column place : Nat}
    {line : List Char}
    (h : (ofLine column line).unclosed = some place) :
    column ≤ place ∧
      (place = column ↔ (ofLine column line).tokens = []) := by
  fun_induction ofLine column line with
  | case1 => cases h
  | case2 => cases h
  | case3 => cases h
  | case4 column c cs hComment hBlank rest hRest ih =>
      have hLength : rest.length ≤ cs.length :=
        length_dropWhile_le isBlank cs
      have hPlace := (ih h).1
      rw [List.length_cons] at hPlace
      simp only [cons, reduceCtorEq, iff_false]
      omega
  | case5 column cs hComment hBlank ih =>
      have hPlace := (ih h).1
      simp only [cons, reduceCtorEq, iff_false]
      omega
  | case6 =>
      cases h
      exact ⟨Nat.le_refl _, by simp⟩
  | case7 column cs head rest hRest body hComment hBlank hComma
      ih =>
      have hPlace := (ih h).1
      simp only [cons, reduceCtorEq, iff_false]
      omega
  | case8 column c cs hComment hBlank hComma hQuote split ih =>
      have hPlace := (ih h).1
      simp only [cons, reduceCtorEq, iff_false]
      omega

end Scan

theorem Field.parameters_ne_unterminatedString
    (field : Field) :
    field.parameters ≠ .error .unterminatedString := by
  unfold Field.parameters
  cases field.items? with
  | none => exact nofun
  | some items => exact nofun

theorem heading_ne_unterminatedString
    (fields : List Field) :
    heading fields ≠ .error .unterminatedString := by
  fun_cases heading fields <;> exact nofun

theorem formals_ne_unterminatedString
    (fields : List Field) :
    formals fields ≠ .error .unterminatedString := by
  fun_cases formals fields with
  | case1 => exact nofun
  | case2 => exact nofun
  | case3 => exact nofun
  | case4 first rest hKeyword fault hFault =>
      rintro ⟨⟩
      exact first.parameters_ne_unterminatedString hFault

theorem soleParameters_ne_unterminatedString
    (fields : List Field) :
    soleParameters fields ≠ .error .unterminatedString := by
  fun_cases soleParameters fields with
  | case1 => exact nofun
  | case2 field => exact field.parameters_ne_unterminatedString
  | case3 => exact nofun

/- Only the scanner finds strings without an end. -/
theorem Instruction.ofFields_ne_unterminatedString
    (fields : List Field) :
    Instruction.ofFields fields ≠
      .error .unterminatedString := by
  intro h
  fun_induction Instruction.ofFields fields with
  | case1 fields fault hHead =>
      cases h
      exact heading_ne_unterminatedString _ hHead
  | case2 fields head hHead hMacro fault hBody =>
      cases h
      exact formals_ne_unterminatedString _ hBody
  | case3 => cases h
  | case4 fields head hHead hMacro names body hBody hSome fault
      hFault ih =>
      cases h
      exact ih hFault
  | case5 => cases h
  | case6 => cases h
  | case7 fields head hHead hMacro fault hFault =>
      cases h
      exact soleParameters_ne_unterminatedString _ hFault
  | case8 => cases h

/- A line that is scanned to its end may have other faults. -/
theorem Instruction.ofScan?_ne_unterminatedString
    {scan : Scan}
    (hUnclosed : scan.unclosed = none) :
    Instruction.ofScan? scan ≠
      .error .unterminatedString := by
  intro h
  unfold Instruction.ofScan? at h
  rw [hUnclosed] at h
  cases hFields : Field.ofTokens (scan.tokens.map (·.2)) with
  | nil =>
      simp only [hFields] at h
      cases h
  | cons first rest =>
      simp only [hFields] at h
      exact ofFields_ne_unterminatedString _
        (fails_of_map_eq_error h)

/- The tokens of a line are pushed in their order. -/
theorem readLexemes_tokens
    (name : String)
    (number : Nat)
    (line : OpenLine)
    (tokens : List (Nat × Token))
    (tail : List Lexeme) :
    readLexemes name number line
        (tokens.map (fun t => .token t.2 ⟨number, t.1⟩)
          ++ tail) =
      readLexemes name number
        ((tokens.map (·.2)).foldl OpenLine.push line) tail := by
  induction tokens generalizing line with
  | nil => rfl
  | cons token tokens ih => exact ih (line.push token.2)

/- Reading stops at a string without its end. -/
theorem readLexemes_unclosed
    {scan : Scan}
    {place : Nat}
    (name : String)
    (number : Nat)
    (tail : List Lexeme)
    (hUnclosed : scan.unclosed = some place) :
    readLexemes name number .empty
        (scan.lexemes number ++ tail) =
      .error ⟨number, .unterminatedString⟩ := by
  rw [Scan.lexemes, hUnclosed, List.append_assoc,
    readLexemes_tokens]
  rfl

/- All other lines are read to their end. -/
theorem readLexemes_closed
    {scan : Scan}
    (name : String)
    (number : Nat)
    (tail : List Lexeme)
    (hUnclosed : scan.unclosed = none) :
    readLexemes name number .empty
        (scan.lexemes number ++ tail) =
      readLexemes name number
        ((scan.tokens.map (·.2)).foldl OpenLine.push .empty)
        tail := by
  rw [Scan.lexemes, hUnclosed, List.append_nil,
    readLexemes_tokens]

/- A line is judged by its scan. -/
theorem judge_foldl_push
    {column : Nat}
    {line : List Char}
    (number : Nat)
    (following : Except SyntaxError SourceFile)
    (hUnclosed : (Scan.ofLine column line).unclosed = none) :
    (((Scan.ofLine column line).tokens.map (·.2)).foldl
        OpenLine.push .empty).judge number following =
      SourceFile.afterLine
        (Instruction.ofScan? (Scan.ofLine column line))
        (⟨number, ·⟩) following := by
  unfold OpenLine.judge Instruction.ofScan?
  rw [OpenLine.fields_foldl_push
    (Scan.spacesApart_ofLine column line), hUnclosed]
  cases Field.ofTokens
      ((Scan.ofLine column line).tokens.map (·.2)) with
  | nil => rfl
  | cons first rest => rfl

end MmixAsm

------------------------------------------------------------
-- The Reader Across Lines
------------------------------------------------------------

namespace MmixAsm

/- The listing of a line and what it ends with. -/
theorem exists_lexemesFrom
    (number : Nat)
    (line : List Char)
    (rest : List (List Char)) :
    ∃ closing tail,
      lexemesFrom number (line :: rest) =
          (Scan.ofLine 1 line).lexemes number
            ++ closing :: tail ∧
        closing.line = number ∧
        unterminatedAhead (closing :: tail) = none := by
  cases rest with
  | nil => exact ⟨_, [], rfl, rfl, rfl⟩
  | cons next others => exact ⟨_, _, rfl, rfl, rfl⟩

/- The listing of a line begins with the line. -/
theorem firstLine_lexemesFrom
    (number : Nat)
    (line : List Char)
    (rest : List (List Char)) :
    firstLine (lexemesFrom number (line :: rest)) = number := by
  rcases exists_lexemesFrom number line rest with
    ⟨closing, tail, hShown, hClosing, _⟩
  rw [hShown, Scan.lexemes]
  cases (Scan.ofLine 1 line).tokens with
  | cons token tokens => rfl
  | nil =>
      cases (Scan.ofLine 1 line).unclosed with
      | some place => rfl
      | none => exact hClosing

/- An unterminated string is ahead if it opens the line. -/
theorem unterminatedAhead_lexemesFrom
    (number : Nat)
    (line : List Char)
    (rest : List (List Char)) :
    unterminatedAhead (lexemesFrom number (line :: rest)) =
      if opensUnclosed ((line :: rest).map (Scan.ofLine 1)) then
        some number
      else
        none := by
  rcases exists_lexemesFrom number line rest with
    ⟨closing, tail, hShown, _, hAhead⟩
  rw [hShown, List.map_cons, opensUnclosed, Scan.lexemes]
  cases hUnclosed : (Scan.ofLine 1 line).unclosed with
  | none =>
      cases (Scan.ofLine 1 line).tokens with
      | nil => exact hAhead
      | cons token tokens => rfl
  | some place =>
      have hPlace := (Scan.unclosed_ofLine hUnclosed).2
      cases hTokens : (Scan.ofLine 1 line).tokens with
      | nil =>
          rw [hPlace.mpr hTokens]
          rfl
      | cons token tokens =>
          have hNe : place ≠ 1 := by
            intro hOne
            rw [hPlace.mp hOne] at hTokens
            cases hTokens
          rw [if_neg (by simpa using hNe)]
          rfl

/- A file that holds these instructions, as they are read. -/
def SourceFile.ofRead
    (name : String)
    (instructions : List Instruction) : SourceFile where
  name := name
  instructions := instructions.map Instruction.dropEntryLabel
  isEntry := instructions.any Instruction.marksEntry

theorem SourceFile.parse_eq
    (name text : String) :
    SourceFile.parse name text =
      (parseLines 1 (scanText text)).map (ofRead name) := by
  unfold SourceFile.parse
  cases parseLines 1 (scanText text) with
  | error e => rfl
  | ok instructions => rfl

/- A line with an unclosed string is reported as such. -/
theorem parseLines_of_unclosed
    {scan : Scan}
    {place : Nat}
    (number : Nat)
    (rest : List Scan)
    (hUnclosed : scan.unclosed = some place) :
    parseLines number (scan :: rest) =
      .error ⟨number, .unterminatedString⟩ := by
  have hScan : Instruction.ofScan? scan =
      .error .unterminatedString := by
    rw [Instruction.ofScan?, hUnclosed]
  simp [parseLines, hScan, lineError]

/- One line of a file, and the lines that follow it. -/
theorem map_parseLines_cons
    (name : String)
    (number : Nat)
    (scan : Scan)
    (rest : List Scan) :
    (parseLines number (scan :: rest)).map
        (SourceFile.ofRead name) =
      SourceFile.afterLine (Instruction.ofScan? scan)
        (lineError number · rest)
        ((parseLines (number + 1) rest).map
          (SourceFile.ofRead name)) := by
  rw [parseLines]
  rcases Instruction.ofScan? scan with fault | found
  · rfl
  · cases found with
    | none => rfl
    | some instruction =>
        cases parseLines (number + 1) rest with
        | error e => rfl
        | ok instructions => rfl

/- A fault is reported where it is, with nothing ahead. -/
theorem lineError_of_closed
    {following : List Scan}
    (hOpens : opensUnclosed following = false)
    (number : Nat) :
    (lineError number · following) = (⟨number, ·⟩) := by
  funext fault
  simp [lineError, hOpens]

/- A string that opens the next line is reported first. -/
theorem afterLine_of_opensUnclosed
    {scan : Scan}
    {following : List Scan}
    (number : Nat)
    (hUnclosed : scan.unclosed = none)
    (hOpens : opensUnclosed following = true) :
    SourceFile.afterLine (Instruction.ofScan? scan)
        (lineError number · following)
        (.error ⟨number + 1, .unterminatedString⟩) =
      .error ⟨number + 1, .unterminatedString⟩ := by
  rcases hScan : Instruction.ofScan? scan with fault | found
  · have hFault : fault ≠ .unterminatedString := by
      rintro rfl
      exact Instruction.ofScan?_ne_unterminatedString
        hUnclosed hScan
    simp [SourceFile.afterLine, lineError, hOpens, hFault]
  · cases found with
    | none => rfl
    | some instruction => rfl

/- The reader reads a listing as its lines are read. -/
theorem readLexemes_lexemesFrom
    (name : String)
    (number : Nat)
    {lines : List (List Char)}
    (hLines : lines ≠ []) :
    readLexemes name number .empty
        (lexemesFrom number lines) =
      (parseLines number
        (lines.map (Scan.ofLine 1))).map
          (SourceFile.ofRead name) := by
  induction lines generalizing number with
  | nil => exact absurd rfl hLines
  | cons line rest ih =>
      cases hUnclosed : (Scan.ofLine 1 line).unclosed with
      | some place =>
          rcases exists_lexemesFrom number line rest with
            ⟨closing, tail, hShown, _⟩
          rw [hShown, readLexemes_unclosed _ _ _ hUnclosed,
            List.map_cons,
            parseLines_of_unclosed _ _ hUnclosed]
          rfl
      | none =>
          rw [List.map_cons, map_parseLines_cons]
          cases rest with
          | nil =>
              rw [lexemesFrom,
                readLexemes_closed _ _ _ hUnclosed, readLexemes,
                judge_foldl_push _ _ hUnclosed,
                lineError_of_closed rfl]
              rfl
          | cons next others =>
              have hShown : lexemesFrom number
                  (line :: next :: others) =
                    (Scan.ofLine 1 line).lexemes number
                      ++ .newline ⟨number, line.length + 1⟩
                      :: lexemesFrom (number + 1)
                        (next :: others) :=
                rfl
              rw [hShown, readLexemes_closed _ _ _ hUnclosed,
                readLexemes, unterminatedAhead_lexemesFrom]
              cases hOpens : opensUnclosed
                  ((next :: others).map (Scan.ofLine 1)) with
              | true =>
                  have hAhead :
                      (Scan.ofLine 1 next).unclosed = some 1 :=
                    eq_of_beq hOpens
                  rw [List.map_cons,
                    parseLines_of_unclosed _ _ hAhead]
                  exact (afterLine_of_opensUnclosed number
                    hUnclosed hOpens).symm
              | false =>
                  rw [lineError_of_closed hOpens,
                    ← ih (number + 1) (List.cons_ne_nil _ _)]
                  simp only [Bool.false_eq_true, if_false]
                  rw [judge_foldl_push _ _ hUnclosed,
                    firstLine_lexemesFrom]

/- Reading in one pass is reading line by line. -/
theorem SourceFile.readOnce_eq_parse
    (name text : String) :
    SourceFile.readOnce name text =
      SourceFile.parse name text := by
  have hLines : sourceLines text ≠ [] :=
    splitWhere_ne_nil _ _
  rcases List.exists_cons_of_ne_nil hLines with
    ⟨line, rest, hText⟩
  have hFirst : firstLine (lexemes text) = 1 := by
    rw [lexemes, hText, firstLine_lexemesFrom]
  rw [SourceFile.readOnce, Cursor.listing_ofText, hFirst,
    lexemes, readLexemes_lexemesFrom name 1 hLines,
    SourceFile.parse_eq, scanText]

end MmixAsm
