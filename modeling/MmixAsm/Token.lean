import MmixAsm.Text.Split

/-
  Tokens and how source text is divided into them.

  Text is read line by line.  A line holds words, double
  quoted strings, commas and runs of blanks; a comment runs
  from `%` or `//` to the end of the line.  Blanks in front of
  a comment or of the line's end say nothing and give no
  token.  A string does not cross a line's end, so a string
  without its closing quote is the last thing on its line.
  The text ends at the first null character.

  Key definitions include:
    * `MmixAsm.Token`
    * `MmixAsm.Scan`
    * `MmixAsm.Scan.ofLine`
    * `MmixAsm.scanText`
    * `MmixAsm.Lexeme`
    * `MmixAsm.lexemes`
-/

------------------------------------------------------------
-- Character Classes
------------------------------------------------------------

namespace MmixAsm

/- A blank separates fields inside a line. -/
def isBlank (c : Char) : Bool :=
  c == ' ' || c == '\t' || c == '\r'

/- Whether a comment starts here. -/
def startsComment :
    List Char → Bool
| '%' :: _ => true
| '/' :: '/' :: _ => true
| _ => false

/- A character that ends a word wherever it stands. -/
def isDelimiter (c : Char) : Bool :=
  isBlank c || c == ',' || c == '"'

/-
  Split off the longest beginning that holds no delimiter
  and no start of a comment.
-/
def spanWord :
    List Char → List Char × List Char
| [] => ([], [])
| c :: cs =>
    if isDelimiter c || startsComment (c :: cs) then
      ([], c :: cs)
    else
      let (word, rest) := spanWord cs
      (c :: word, rest)

/- What follows a word is not longer than the text. -/
theorem length_spanWord_le
    (cs : List Char) :
    (spanWord cs).2.length ≤ cs.length := by
  induction cs with
  | nil => simp [spanWord]
  | cons c cs ih =>
      unfold spanWord
      split
      · simp
      · simp only [List.length_cons]
        omega

/- Dropping a beginning does not lengthen a list. -/
theorem length_dropWhile_le
    {α : Type}
    (p : α → Bool)
    (xs : List α) :
    (xs.dropWhile p).length ≤ xs.length :=
  (List.dropWhile_suffix p).length_le

end MmixAsm

------------------------------------------------------------
-- Tokens Of One Line
------------------------------------------------------------

namespace MmixAsm

/-
  A piece of a line that means something.  A quoted string
  keeps its quotes, and a whole run of blanks is one space.
-/
inductive Token where
  | word (text : String)
  | quoted (text : String)
  | comma
  | space
deriving DecidableEq

/-
  The tokens of one line, each with the column it starts at,
  and the column of a string that lacks its closing quote.
-/
structure Scan where
  tokens : List (Nat × Token)
  unclosed : Option Nat
deriving DecidableEq

namespace Scan

/- A line without tokens. -/
def empty : Scan where
  tokens := []
  unclosed := none

/- Put a token in front of the tokens that follow it. -/
def cons
    (column : Nat)
    (token : Token)
    (rest : Scan) : Scan :=
  { rest with tokens := (column, token) :: rest.tokens }

/-
  Read a line that starts at the given column.  Columns count
  characters.  Every step consumes at least one character, so
  the reading ends.
-/
def ofLine
    (column : Nat)
    (line : List Char) : Scan :=
  match line with
  | [] => empty
  | c :: cs =>
      if startsComment (c :: cs) then
        empty
      else if isBlank c then
        let rest := cs.dropWhile isBlank
        if rest.isEmpty || startsComment rest then
          empty
        else
          cons column .space
            (ofLine (column + (line.length - rest.length)) rest)
      else if c = ',' then
        cons column .comma (ofLine (column + 1) cs)
      else if c = '"' then
        match hRest : cs.dropWhile (· != '"') with
        | [] => { tokens := [], unclosed := some column }
        | _ :: rest =>
            let body := cs.takeWhile (· != '"')
            cons column
              (.quoted (String.ofList ('"' :: body ++ ['"'])))
              (ofLine (column + body.length + 2) rest)
      else
        let split := spanWord cs
        cons column (.word (String.ofList (c :: split.1)))
          (ofLine (column + split.1.length + 1) split.2)
termination_by line.length
decreasing_by
  · have := length_dropWhile_le isBlank cs
    simp only [List.length_cons]
    omega
  · simp
  · have := length_dropWhile_le (· != '"') cs
    rw [hRest] at this
    simp only [List.length_cons] at this ⊢
    omega
  · have := length_spanWord_le cs
    simp only [List.length_cons]
    omega

end Scan

end MmixAsm

------------------------------------------------------------
-- Lines Of A Text
------------------------------------------------------------

namespace MmixAsm

/- The part of a text in front of its first null. -/
def beforeNull (cs : List Char) : List Char :=
  cs.takeWhile (· != Char.ofNat 0)

/-
  The lines of a source text.  There is one line more than
  there are line feeds.
-/
def sourceLines (text : String) : List (List Char) :=
  splitWhere (· == '\n') (beforeNull text.toList)

/- The tokens of a source text, line by line. -/
def scanText (text : String) : List Scan :=
  (sourceLines text).map (Scan.ofLine 1)

end MmixAsm

------------------------------------------------------------
-- Flat Listing
------------------------------------------------------------

namespace MmixAsm

/- A place in a text; lines and columns count from one. -/
structure Location where
  line : Nat
  column : Nat
deriving DecidableEq

/- An element of the flat listing of a text. -/
inductive Lexeme where
  | token (token : Token) (location : Location)
  | unterminated (line : Nat)
  | newline (location : Location)
  | eof (location : Location)
deriving DecidableEq

/- The message about a string without its closing quote. -/
def unterminatedMessage (line : Nat) : String :=
  s!"Unterminated string literal starting at line {line}"

/- The listing of one scanned line. -/
def Scan.lexemes
    (line : Nat)
    (scan : Scan) : List Lexeme :=
  scan.tokens.map (fun t => .token t.2 ⟨line, t.1⟩)
    ++ (match scan.unclosed with
        | some _ => [.unterminated line]
        | none => [])

/- List the lines of a text, the first having this number. -/
def lexemesFrom
    (number : Nat) :
    List (List Char) → List Lexeme
| [] => []
| [line] =>
    (Scan.ofLine 1 line).lexemes number
      ++ [.eof ⟨number, line.length + 1⟩]
| line :: rest =>
    (Scan.ofLine 1 line).lexemes number
      ++ .newline ⟨number, line.length + 1⟩
      :: lexemesFrom (number + 1) rest

/-
  Everything in a text in order, with its newlines and its
  end.  Reading goes on behind an unterminated string.
-/
def lexemes (text : String) : List Lexeme :=
  lexemesFrom 1 (sourceLines text)

end MmixAsm
