import Mathlib.Data.List.TakeWhile
import MmixAsm.Proofs.Scanning

/-
  Reading a text character by character.

  A cursor holds one character of the text and the character
  behind it, and a null stands for both when the text is at
  its end.  It goes over a text once, across the ends of its
  lines, and gives the listing that the scanner gives line by
  line.

  Key definitions include:
    * `MmixAsm.Cursor`
    * `MmixAsm.Cursor.advance`
    * `MmixAsm.Cursor.remaining`
    * `MmixAsm.Cursor.listing`
    * `MmixAsm.Cursor.Passes`
    * `MmixAsm.lexemesAt`

  Key theorems include:
    * `MmixAsm.Cursor.remaining_of_ne`
    * `MmixAsm.Cursor.spanWord_readWord`
    * `MmixAsm.Cursor.listing_eq_lexemesAt`
    * `MmixAsm.Cursor.listing_ofText`
-/

------------------------------------------------------------
-- Cursors
------------------------------------------------------------

namespace MmixAsm

/- The character that stands for the end of a text. -/
def endMark : Char :=
  Char.ofNat 0

/- A place in a text with the two characters found there. -/
structure Cursor where
  current : Char
  ahead : Char
  rest : List Char
  location : Location

namespace Cursor

/- The beginning of a text. -/
def ofText (text : String) : Cursor where
  current := text.toList.headD endMark
  ahead := text.toList.tail.headD endMark
  rest := text.toList.tail.tail
  location := ⟨1, 1⟩

/- Move on by one character. -/
def advance (cursor : Cursor) : Cursor where
  current := cursor.ahead
  ahead := cursor.rest.headD endMark
  rest := cursor.rest.tail
  location :=
    if cursor.current = '\n' then
      ⟨cursor.location.line + 1, 1⟩
    else
      ⟨cursor.location.line, cursor.location.column + 1⟩

/- What there is still to read. -/
def remaining (cursor : Cursor) : List Char :=
  beforeNull (cursor.current :: cursor.ahead :: cursor.rest)

/- Whether a comment starts at the cursor. -/
def atComment (cursor : Cursor) : Bool :=
  cursor.current == '%'
    || (cursor.current == '/' && cursor.ahead == '/')

/- Whether the character at the cursor is part of a word. -/
def atWord (cursor : Cursor) : Bool :=
  !(isDelimiter cursor.current || cursor.current == '\n'
    || cursor.current == endMark || cursor.atComment)

variable {cursor next : Cursor}

/- Nothing remains at the end mark. -/
theorem remaining_of_end
    (hEnd : cursor.current = endMark) :
    cursor.remaining = [] := by
  unfold remaining beforeNull
  rw [hEnd]
  rfl

/- A null that is put behind a text changes nothing. -/
theorem beforeNull_headD
    (c : Char)
    (cs : List Char) :
    beforeNull (c :: cs.headD endMark :: cs.tail) =
      beforeNull (c :: cs) := by
  cases cs with
  | nil =>
      by_cases hc : c = Char.ofNat 0
      · simp [beforeNull, hc]
      · simp [beforeNull, hc, endMark]
  | cons d cs => rfl

/- A character that is no end mark is the next to read. -/
theorem remaining_of_ne
    (hEnd : cursor.current ≠ endMark) :
    cursor.remaining =
      cursor.current :: cursor.advance.remaining := by
  have hCurrent : (cursor.current != Char.ofNat 0) = true :=
    bne_iff_ne.mpr hEnd
  have hAdvance : cursor.advance.remaining =
      beforeNull (cursor.ahead :: cursor.rest) :=
    beforeNull_headD cursor.ahead cursor.rest
  rw [hAdvance]
  exact List.takeWhile_cons_of_pos
    (p := (· != Char.ofNat 0)) hCurrent

theorem length_advance_lt
    (hEnd : cursor.current ≠ endMark) :
    cursor.advance.remaining.length <
      cursor.remaining.length := by
  rw [remaining_of_ne hEnd, List.length_cons]
  omega

/- The two characters tell whether a comment starts. -/
theorem atComment_eq
    (cursor : Cursor) :
    cursor.atComment = startsComment cursor.remaining := by
  by_cases hEnd : cursor.current = endMark
  · rw [remaining_of_end hEnd, atComment, hEnd]
    rfl
  · rw [remaining_of_ne hEnd, Bool.eq_iff_iff,
      startsComment_cons]
    have hAhead : cursor.advance.current = cursor.ahead := rfl
    by_cases hNext : cursor.ahead = endMark
    · have hSlash : endMark ≠ '/' := by decide
      rw [remaining_of_end (hAhead.trans hNext)]
      simp [atComment, hNext, hSlash]
    · rw [remaining_of_ne (hAhead ▸ hNext), hAhead]
      simp [atComment, @eq_comm _ '/' cursor.current,
        @eq_comm _ '/' cursor.ahead]

/- The text is read from its beginning to the first null. -/
theorem remaining_ofText
    (text : String) :
    (ofText text).remaining = beforeNull text.toList := by
  unfold remaining ofText
  cases text.toList with
  | nil => rfl
  | cons c cs => exact beforeNull_headD c cs

end Cursor

end MmixAsm

------------------------------------------------------------
-- Loops
------------------------------------------------------------

namespace MmixAsm

namespace Cursor

/- Pass over the characters of a class. -/
def skipWhile
    (p : Char → Bool)
    (cursor : Cursor) : Cursor :=
  if cursor.current ≠ endMark ∧ p cursor.current then
    skipWhile p cursor.advance
  else
    cursor
termination_by cursor.remaining.length
decreasing_by
  rename_i h
  exact length_advance_lt h.1

theorem ne_endMark_of_atWord
    {cursor : Cursor}
    (h : cursor.atWord = true) :
    cursor.current ≠ endMark := by
  intro hEnd
  simp [atWord, hEnd] at h

/- Any other character begins a word. -/
theorem atWord_of_ne
    {cursor : Cursor}
    (hBlank : ¬ isBlank cursor.current = true)
    (hComment : ¬ cursor.atComment = true)
    (hEnd : cursor.current ≠ endMark)
    (hFeed : cursor.current ≠ '\n')
    (hComma : cursor.current ≠ ',')
    (hQuote : cursor.current ≠ '"') :
    cursor.atWord = true := by
  simp [atWord, isDelimiter, hBlank, hComment, hEnd, hFeed,
    hComma, hQuote]

/- Read a word to its end. -/
def readWord (cursor : Cursor) : List Char × Cursor :=
  if cursor.atWord then
    (cursor.current :: cursor.advance.readWord.1,
      cursor.advance.readWord.2)
  else
    ([], cursor)
termination_by cursor.remaining.length
decreasing_by
  all_goals
    rename_i h
    exact length_advance_lt (ne_endMark_of_atWord h)

/-
  Read a string behind its opening quote.  There is no string
  if the line ends before the closing quote.
-/
def readString (cursor : Cursor) : Option (List Char) × Cursor :=
  if cursor.current = '"' then
    (some [], cursor.advance)
  else if cursor.current = '\n' ∨ cursor.current = endMark then
    (none, cursor)
  else
    (cursor.advance.readString.1.map (cursor.current :: ·),
      cursor.advance.readString.2)
termination_by cursor.remaining.length
decreasing_by
  all_goals
    rename_i h
    exact length_advance_lt fun hEnd => h (Or.inr hEnd)

/-
  The second cursor stands behind this text, which is a part
  of one line.
-/
structure Passes
    (cursor : Cursor)
    (text : List Char)
    (next : Cursor) : Prop where
  remaining : cursor.remaining = text ++ next.remaining
  feeds : ∀ c ∈ text, c ≠ '\n'
  location : next.location =
    ⟨cursor.location.line,
      cursor.location.column + text.length⟩

variable {cursor next : Cursor}
variable {text : List Char}

theorem Passes.refl
    (cursor : Cursor) :
    cursor.Passes [] cursor :=
  ⟨rfl, fun _ hc => absurd hc List.not_mem_nil, rfl⟩

/- A step inside a line. -/
theorem Passes.step
    (hEnd : cursor.current ≠ endMark)
    (hFeed : cursor.current ≠ '\n')
    (h : cursor.advance.Passes text next) :
    cursor.Passes (cursor.current :: text) next := by
  constructor
  · rw [remaining_of_ne hEnd, h.remaining, List.cons_append]
  · intro c hc
    rcases List.mem_cons.mp hc with rfl | hc
    · exact hFeed
    · exact h.feeds c hc
  · rw [h.location, advance, if_neg hFeed, List.length_cons,
      Nat.add_assoc, Nat.add_comm 1]

/- A quote is passed with what follows it. -/
theorem Passes.quote
    (hQuote : cursor.current = '"')
    (h : cursor.advance.Passes text next) :
    cursor.Passes ('"' :: text) next := by
  rw [← hQuote]
  apply Passes.step _ _ h
  · rw [hQuote]
    decide
  · rw [hQuote]
    decide

theorem Passes.length_le
    (h : cursor.Passes text next) :
    next.remaining.length ≤ cursor.remaining.length := by
  rw [h.remaining, List.length_append]
  omega

theorem Passes.length_lt
    (h : cursor.Passes text next)
    (hText : text ≠ []) :
    next.remaining.length < cursor.remaining.length := by
  have hLength := List.length_pos_iff.mpr hText
  rw [h.remaining, List.length_append]
  omega

/- A loop over a class inside lines passes all of the class. -/
theorem passes_skipWhile
    {p : Char → Bool}
    (hFeed : p '\n' = false)
    (cursor : Cursor) :
    cursor.Passes (cursor.remaining.takeWhile p)
        (cursor.skipWhile p) ∧
      (cursor.skipWhile p).remaining =
        cursor.remaining.dropWhile p := by
  fun_induction skipWhile p cursor with
  | case1 cursor h ih =>
      have hNot : cursor.current ≠ '\n' := by
        intro hCurrent
        rw [hCurrent, hFeed] at h
        cases h.2
      rw [remaining_of_ne h.1, List.takeWhile_cons_of_pos h.2,
        List.dropWhile_cons_of_pos h.2]
      exact ⟨Passes.step h.1 hNot ih.1, ih.2⟩
  | case2 cursor h =>
      by_cases hEnd : cursor.current = endMark
      · rw [remaining_of_end hEnd]
        exact ⟨Passes.refl cursor, rfl⟩
      · have hp : ¬ p cursor.current = true :=
          fun hp => h ⟨hEnd, hp⟩
        rw [remaining_of_ne hEnd,
          List.takeWhile_cons_of_neg hp,
          List.dropWhile_cons_of_neg hp]
        exact ⟨Passes.refl cursor, rfl⟩

theorem passes_readWord
    (cursor : Cursor) :
    cursor.Passes cursor.readWord.1 cursor.readWord.2 := by
  fun_induction readWord cursor with
  | case1 cursor h ih =>
      have hFeed : cursor.current ≠ '\n' := by
        intro hFeed
        simp [atWord, hFeed] at h
      exact Passes.step (ne_endMark_of_atWord h) hFeed ih
  | case2 cursor h => exact Passes.refl cursor

/- A string that is read ends at the first quote. -/
theorem passes_readString_some
    {body : List Char}
    (h : cursor.readString = (some body, next)) :
    cursor.Passes (body ++ ['"']) next ∧
      ∀ c ∈ body, c ≠ '"' := by
  fun_induction readString cursor generalizing body with
  | case1 cursor hQuote =>
      cases h
      exact ⟨Passes.quote hQuote (Passes.refl _),
        fun _ hc => absurd hc List.not_mem_nil⟩
  | case2 cursor hQuote hStop => cases h
  | case3 cursor hQuote hStop ih =>
      rw [Prod.mk.injEq] at h
      rcases Option.map_eq_some_iff.mp h.1 with
        ⟨tail, hTail, rfl⟩
      rcases not_or.mp hStop with ⟨hFeed, hEnd⟩
      rcases ih (Prod.ext hTail h.2) with ⟨hPass, hBody⟩
      refine ⟨Passes.step hEnd hFeed hPass, ?_⟩
      intro c hc
      rcases List.mem_cons.mp hc with rfl | hc
      · exact hQuote
      · exact hBody c hc

/- Without a closing quote the whole line is passed. -/
theorem passes_readString_none
    (h : cursor.readString = (none, next)) :
    ∃ text,
      cursor.Passes text next ∧
        (∀ c ∈ text, c ≠ '"') ∧
        (next.current = '\n' ∨ next.current = endMark) := by
  fun_induction readString cursor with
  | case1 cursor hQuote => cases h
  | case2 cursor hQuote hStop =>
      cases h
      exact ⟨[], Passes.refl _,
        fun _ hc => absurd hc List.not_mem_nil, hStop⟩
  | case3 cursor hQuote hStop ih =>
      rw [Prod.mk.injEq, Option.map_eq_none_iff] at h
      rcases not_or.mp hStop with ⟨hFeed, hEnd⟩
      rcases ih (Prod.ext h.1 h.2) with
        ⟨text, hPass, hText, hNext⟩
      refine ⟨cursor.current :: text,
        Passes.step hEnd hFeed hPass, ?_, hNext⟩
      intro c hc
      rcases List.mem_cons.mp hc with rfl | hc
      · exact hQuote
      · exact hText c hc

end Cursor

end MmixAsm

------------------------------------------------------------
-- The Listing Of A Text
------------------------------------------------------------

namespace MmixAsm

namespace Cursor

/- The end mark is no blank. -/
theorem ne_endMark_of_isBlank
    {c : Char}
    (h : isBlank c = true) :
    c ≠ endMark := by
  rintro rfl
  revert h
  decide

theorem ne_endMark_of_atComment
    {cursor : Cursor}
    (h : cursor.atComment = true) :
    cursor.current ≠ endMark := by
  intro hEnd
  rw [atComment_eq, remaining_of_end hEnd] at h
  cases h

/- A loop that passes the character at the cursor goes on. -/
theorem length_skipWhile_lt
    {p : Char → Bool}
    {cursor : Cursor}
    (hFeed : p '\n' = false)
    (hEnd : cursor.current ≠ endMark)
    (hp : p cursor.current = true) :
    (cursor.skipWhile p).remaining.length <
      cursor.remaining.length := by
  apply (passes_skipWhile hFeed cursor).1.length_lt
  rw [remaining_of_ne hEnd, List.takeWhile_cons_of_pos hp]
  exact List.cons_ne_nil _ _

/- A comment is not at the end of its line. -/
theorem ne_feed_of_atComment
    {cursor : Cursor}
    (h : cursor.atComment = true) :
    cursor.current ≠ '\n' := by
  intro hFeed
  simp [atComment, hFeed] at h

theorem length_readWord_lt
    {cursor : Cursor}
    (h : cursor.atWord = true) :
    cursor.readWord.2.remaining.length <
      cursor.remaining.length := by
  apply (passes_readWord cursor).length_lt
  fun_cases readWord cursor with
  | case1 => exact List.cons_ne_nil _ _
  | case2 hNot => exact absurd h hNot

theorem length_readString_le
    {cursor next : Cursor}
    {body : Option (List Char)}
    (h : cursor.readString = (body, next)) :
    next.remaining.length ≤ cursor.remaining.length := by
  cases body with
  | none =>
      rcases passes_readString_none h with ⟨text, hPass, _⟩
      exact hPass.length_le
  | some body =>
      exact (passes_readString_some h).1.length_le

/-
  Everything in front of a cursor, read in one pass.  Blanks
  in front of a comment, of the line's end or of the end mark
  give nothing.
-/
def listing (cursor : Cursor) : List Lexeme :=
  if _hBlank : isBlank cursor.current then
    let next := cursor.skipWhile isBlank
    if next.atComment || next.current == '\n'
        || next.current == endMark then
      next.listing
    else
      .token .space cursor.location :: next.listing
  else if _hComment : cursor.atComment then
    (cursor.skipWhile (· != '\n')).listing
  else if _hEnd : cursor.current = endMark then
    [.eof cursor.location]
  else if _hFeed : cursor.current = '\n' then
    .newline cursor.location :: cursor.advance.listing
  else if _hComma : cursor.current = ',' then
    .token .comma cursor.location :: cursor.advance.listing
  else if _hQuote : cursor.current = '"' then
    match _hString : cursor.advance.readString with
    | (some body, next) =>
        .token
          (.quoted (String.ofList ('"' :: body ++ ['"'])))
          cursor.location :: next.listing
    | (none, next) =>
        .unterminated cursor.location.line :: next.listing
  else
    .token (.word (String.ofList cursor.readWord.1))
      cursor.location :: cursor.readWord.2.listing
termination_by cursor.remaining.length
decreasing_by
  · exact length_skipWhile_lt rfl
      (ne_endMark_of_isBlank _hBlank) _hBlank
  · exact length_skipWhile_lt rfl
      (ne_endMark_of_isBlank _hBlank) _hBlank
  · exact length_skipWhile_lt rfl
      (ne_endMark_of_atComment _hComment)
      (bne_iff_ne.mpr (ne_feed_of_atComment _hComment))
  · exact length_advance_lt _hEnd
  · exact length_advance_lt _hEnd
  · exact Nat.lt_of_le_of_lt (length_readString_le _hString)
      (length_advance_lt _hEnd)
  · exact Nat.lt_of_le_of_lt (length_readString_le _hString)
      (length_advance_lt _hEnd)
  · exact length_readWord_lt (atWord_of_ne _hBlank _hComment
      _hEnd _hFeed _hComma _hQuote)

end Cursor

end MmixAsm

------------------------------------------------------------
-- The Line At A Cursor
------------------------------------------------------------

namespace MmixAsm

/- The beginning of a text, up to the end of its line. -/
def lineLeft (cs : List Char) : List Char :=
  cs.takeWhile (· != '\n')

theorem lineLeft_nil : lineLeft [] = [] :=
  rfl

theorem lineLeft_feed
    (cs : List Char) :
    lineLeft ('\n' :: cs) = [] :=
  rfl

theorem lineLeft_cons
    {c : Char}
    (cs : List Char)
    (hFeed : c ≠ '\n') :
    lineLeft (c :: cs) = c :: lineLeft cs :=
  List.takeWhile_cons_of_pos
    (p := (· != '\n')) (bne_iff_ne.mpr hFeed)

/- A part of a line stands in front of the rest of it. -/
theorem lineLeft_append
    {text : List Char}
    (cs : List Char)
    (hFeeds : ∀ c ∈ text, c ≠ '\n') :
    lineLeft (text ++ cs) = text ++ lineLeft cs :=
  List.takeWhile_append_of_pos
    fun c hc => bne_iff_ne.mpr (hFeeds c hc)

/- No comment starts across the end of a line. -/
theorem startsComment_lineLeft
    (cs : List Char) :
    startsComment (lineLeft cs) = startsComment cs := by
  cases cs with
  | nil => rfl
  | cons c cs =>
      by_cases hFeed : c = '\n'
      · rw [hFeed]
        rfl
      · rw [lineLeft_cons cs hFeed, Bool.eq_iff_iff,
          startsComment_cons, startsComment_cons]
        cases cs with
        | nil => rfl
        | cons d cs =>
            by_cases hNext : d = '\n'
            · simp [hNext, lineLeft]
            · rw [lineLeft_cons cs hNext]
              simp

/- Behind a run of blanks there is no other one. -/
theorem dropWhile_blank_lineLeft
    (cs : List Char) :
    (lineLeft (cs.dropWhile isBlank)).dropWhile isBlank =
      lineLeft (cs.dropWhile isBlank) := by
  induction cs with
  | nil => rfl
  | cons c cs ih =>
      by_cases hBlank : isBlank c = true
      · rw [List.dropWhile_cons_of_pos hBlank]
        exact ih
      · rw [List.dropWhile_cons_of_neg hBlank]
        by_cases hFeed : c = '\n'
        · rw [hFeed]
          rfl
        · rw [lineLeft_cons cs hFeed,
            List.dropWhile_cons_of_neg hBlank]

/- At the end of a line nothing is left of it. -/
theorem lineLeft_dropWhile_feed
    (cs : List Char) :
    lineLeft (cs.dropWhile (· != '\n')) = [] :=
  List.takeWhile_eq_nil_iff.mpr
    (List.dropWhile_get_zero_not _ cs)

/- What a line that is listed ends with. -/
def lineEnd
    (location : Location) :
    List Char → List Lexeme
| [] => [.eof location]
| _ :: rest =>
    .newline location
      :: lexemesFrom (location.line + 1)
        (splitWhere (· == '\n') rest)

/- The listing of a text that begins at a location. -/
def lexemesAt
    (location : Location)
    (cs : List Char) : List Lexeme :=
  (Scan.ofLine location.column (lineLeft cs)).lexemes
      location.line
    ++ lineEnd
      ⟨location.line,
        location.column + (lineLeft cs).length⟩
      (cs.dropWhile (· != '\n'))

/- The first line of a text, and the lines behind it. -/
theorem splitWhere_feed
    (cs : List Char) :
    splitWhere (· == '\n') cs =
      lineLeft cs ::
        match cs.dropWhile (· != '\n') with
        | [] => []
        | _ :: rest => splitWhere (· == '\n') rest := by
  induction cs with
  | nil => rfl
  | cons c cs ih =>
      by_cases hFeed : c = '\n'
      · simp [splitWhere, lineLeft, hFeed]
      · rw [splitWhere, ih, lineLeft_cons cs hFeed]
        simp [hFeed]

/- The listing of a text begins at its first line. -/
theorem lexemesFrom_splitWhere
    (number : Nat)
    (cs : List Char) :
    lexemesFrom number (splitWhere (· == '\n') cs) =
      lexemesAt ⟨number, 1⟩ cs := by
  unfold lexemesAt
  rw [splitWhere_feed]
  cases cs.dropWhile (· != '\n') with
  | nil =>
      simp only [lexemesFrom, lineEnd]
      rw [Nat.add_comm 1]
  | cons feed rest =>
      rcases List.exists_cons_of_ne_nil
        (splitWhere_ne_nil (· == '\n') rest) with
        ⟨line, lines, hLines⟩
      simp only [lineEnd, hLines, lexemesFrom]
      rw [Nat.add_comm 1]

end MmixAsm

------------------------------------------------------------
-- Scanning From A Cursor
------------------------------------------------------------

namespace MmixAsm

namespace Scan

theorem ofLine_nil
    (column : Nat) :
    ofLine column [] = empty := by
  rw [ofLine]

/- A comment and the end of a line hold no tokens. -/
theorem ofLine_silent
    {line : List Char}
    (column : Nat)
    (hSilent : (line.isEmpty || startsComment line) = true) :
    ofLine column line = empty := by
  cases line with
  | nil => exact ofLine_nil column
  | cons c cs =>
      have hComment : startsComment (c :: cs) = true := hSilent
      rw [ofLine, if_pos hComment]

/- A run of blanks is one space, or nothing. -/
theorem ofLine_blanks
    {blanks line : List Char}
    (column : Nat)
    (hNonempty : blanks ≠ [])
    (hBlanks : ∀ c ∈ blanks, isBlank c = true)
    (hLine : line.dropWhile isBlank = line) :
    ofLine column (blanks ++ line) =
      if line.isEmpty || startsComment line then
        empty
      else
        cons column .space
          (ofLine (column + blanks.length) line) := by
  rcases List.exists_cons_of_ne_nil hNonempty with
    ⟨c, cs, rfl⟩
  rcases List.forall_mem_cons.mp hBlanks with ⟨hc, hcs⟩
  have hRest : (cs ++ line).dropWhile isBlank = line := by
    rw [List.dropWhile_append_of_pos hcs, hLine]
  have hComment :
      startsComment (c :: (cs ++ line)) = false := by
    rw [Bool.eq_false_iff, Ne, startsComment_cons]
    rintro (rfl | ⟨tail, hTail⟩)
    · revert hc
      decide
    · cases (List.cons.inj hTail).1
      revert hc
      decide
  rw [List.cons_append, ofLine, hComment, hc]
  simp only [hRest, Bool.false_eq_true, if_false, if_true,
    List.length_cons, List.length_append]
  congr 3
  omega

/- A string without its closing quote ends the scan. -/
theorem ofLine_unclosed
    {body : List Char}
    (column : Nat)
    (hBody : ∀ c ∈ body, c ≠ '"') :
    ofLine column ('"' :: body) =
      { tokens := [], unclosed := some column } := by
  have hDrop : body.dropWhile (· != '"') = [] := by
    rw [List.dropWhile_eq_nil_iff]
    intro c hc
    exact bne_iff_ne.mpr (hBody c hc)
  have hComment : startsComment ('"' :: body) = false := by
    simp [startsComment]
  have hBlank : isBlank '"' = false := by
    decide
  have hComma : '"' ≠ ',' := by
    decide
  rw [ofLine]
  simp only [hComment, hBlank, hComma, if_true, if_false,
    Bool.false_eq_true]
  split
  · rfl
  · next hCons =>
      rw [hDrop] at hCons
      cases hCons

end Scan

namespace Cursor

variable {cursor next : Cursor}
variable {text : List Char}

/- Whether the cursor is behind the last token of a line. -/
theorem silent_iff
    (cursor : Cursor) :
    (cursor.atComment || cursor.current == '\n'
        || cursor.current == endMark) =
      ((lineLeft cursor.remaining).isEmpty
        || startsComment (lineLeft cursor.remaining)) := by
  rw [startsComment_lineLeft, ← atComment_eq]
  by_cases hEnd : cursor.current = endMark
  · simp [remaining_of_end hEnd, hEnd, lineLeft]
  · by_cases hFeed : cursor.current = '\n'
    · simp [remaining_of_ne hEnd, hFeed, lineLeft]
    · rw [remaining_of_ne hEnd, lineLeft_cons _ hFeed,
        beq_false_of_ne hFeed, beq_false_of_ne hEnd]
      simp

/- Nothing is left of a line at its end. -/
theorem lineLeft_of_stop
    (h : cursor.current = '\n' ∨ cursor.current = endMark) :
    lineLeft cursor.remaining = [] := by
  by_cases hEnd : cursor.current = endMark
  · rw [remaining_of_end hEnd]
    rfl
  · rcases h with hFeed | hEnd'
    · rw [remaining_of_ne hEnd, hFeed]
      rfl
    · exact absurd hEnd' hEnd

/- The word that is read is the longest one. -/
theorem spanWord_readWord
    (cursor : Cursor) :
    spanWord (lineLeft cursor.remaining) =
      (cursor.readWord.1,
        lineLeft cursor.readWord.2.remaining) := by
  fun_induction readWord cursor with
  | case1 cursor h ih =>
      have hEnd := ne_endMark_of_atWord h
      simp only [atWord, Bool.not_eq_true',
        Bool.or_eq_false_iff, beq_eq_false_iff_ne] at h
      rcases h with ⟨⟨⟨hDelimiter, hFeed⟩, _⟩, hComment⟩
      rw [atComment_eq, ← startsComment_lineLeft,
        remaining_of_ne hEnd, lineLeft_cons _ hFeed] at hComment
      rw [remaining_of_ne hEnd, lineLeft_cons _ hFeed,
        spanWord_cons hDelimiter hComment, ih]
  | case2 cursor h =>
      by_cases hLine : cursor.current = '\n'
          ∨ cursor.current = endMark
      · rw [lineLeft_of_stop hLine]
        rfl
      · rcases not_or.mp hLine with ⟨hFeed, hEnd⟩
        have hStop : (isDelimiter cursor.current
            || startsComment
              (lineLeft cursor.remaining)) = true := by
          rw [atWord, beq_false_of_ne hFeed,
            beq_false_of_ne hEnd] at h
          rw [startsComment_lineLeft, ← atComment_eq]
          simpa only [Bool.or_false, Bool.not_eq_true,
            Bool.not_eq_false'] using h
        rw [remaining_of_ne hEnd, lineLeft_cons _ hFeed]
          at hStop ⊢
        rw [spanWord, if_pos hStop]

/-
  Behind a part of a line the listing goes on with what the
  scanner finds in the rest of the line.
-/
theorem lexemesAt_of_passes
    (shown : List Lexeme)
    (hPass : cursor.Passes text next)
    (hScan : (Scan.ofLine cursor.location.column
        (text ++ lineLeft next.remaining)).lexemes
          cursor.location.line =
      shown
        ++ (Scan.ofLine next.location.column
          (lineLeft next.remaining)).lexemes
            cursor.location.line) :
    lexemesAt cursor.location cursor.remaining =
      shown ++ lexemesAt next.location next.remaining := by
  have hAll : ∀ c ∈ text, (c != '\n') = true :=
    fun c hc => bne_iff_ne.mpr (hPass.feeds c hc)
  unfold lexemesAt
  rw [hPass.remaining, lineLeft_append _ hPass.feeds, hScan,
    List.dropWhile_append_of_pos hAll, hPass.location,
    List.length_append, List.append_assoc, Nat.add_assoc]

end Cursor

end MmixAsm

------------------------------------------------------------
-- One Pass And Line By Line
------------------------------------------------------------

namespace MmixAsm

namespace Cursor

variable {cursor next : Cursor}
variable {text : List Char}

/- Blanks are listed as they are scanned. -/
theorem lexemesAt_blanks
    (hBlank : isBlank cursor.current = true) :
    lexemesAt cursor.location cursor.remaining =
      (if (cursor.skipWhile isBlank).atComment
          || (cursor.skipWhile isBlank).current == '\n'
          || (cursor.skipWhile isBlank).current == endMark
        then []
        else [.token .space cursor.location])
      ++ lexemesAt (cursor.skipWhile isBlank).location
        (cursor.skipWhile isBlank).remaining := by
  rcases passes_skipWhile (p := isBlank) rfl cursor with
    ⟨hPass, hRest⟩
  have hNonempty : cursor.remaining.takeWhile isBlank ≠ [] := by
    rw [remaining_of_ne (ne_endMark_of_isBlank hBlank),
      List.takeWhile_cons_of_pos hBlank]
    exact List.cons_ne_nil _ _
  have hBlanks : ∀ c ∈ cursor.remaining.takeWhile isBlank,
      isBlank c = true :=
    fun c hc => List.all_eq_true.mp List.all_takeWhile c hc
  have hLine : (lineLeft
      (cursor.skipWhile isBlank).remaining).dropWhile isBlank =
        lineLeft (cursor.skipWhile isBlank).remaining := by
    rw [hRest, dropWhile_blank_lineLeft]
  apply lexemesAt_of_passes _ hPass
  rw [Scan.ofLine_blanks _ hNonempty hBlanks hLine, silent_iff]
  split
  · next hSilent =>
      rw [Scan.ofLine_silent _ hSilent]
      rfl
  · rw [hPass.location]
    rfl

/- A comment is passed over. -/
theorem lexemesAt_comment
    (hComment : cursor.atComment = true) :
    lexemesAt cursor.location cursor.remaining =
      lexemesAt (cursor.skipWhile (· != '\n')).location
        (cursor.skipWhile (· != '\n')).remaining := by
  rcases passes_skipWhile (p := (· != '\n')) rfl cursor with
    ⟨hPass, hRest⟩
  have hLine : lineLeft
      (cursor.skipWhile (· != '\n')).remaining = [] := by
    rw [hRest, lineLeft_dropWhile_feed]
  have hSilent : ((lineLeft cursor.remaining).isEmpty
      || startsComment (lineLeft cursor.remaining)) = true := by
    rw [startsComment_lineLeft, ← atComment_eq, hComment,
      Bool.or_true]
  apply lexemesAt_of_passes [] hPass
  rw [hLine, List.append_nil]
  change (Scan.ofLine _ (lineLeft cursor.remaining)).lexemes _
    = _
  rw [Scan.ofLine_silent _ hSilent, Scan.ofLine_nil]
  rfl

/- The end mark is the end of the listing. -/
theorem lexemesAt_end
    (hEnd : cursor.current = endMark) :
    lexemesAt cursor.location cursor.remaining =
      [.eof cursor.location] := by
  rw [remaining_of_end hEnd, lexemesAt, lineLeft_nil,
    Scan.ofLine_nil]
  rfl

/- A line feed ends its line and begins the next one. -/
theorem lexemesAt_feed
    (hFeed : cursor.current = '\n') :
    lexemesAt cursor.location cursor.remaining =
      .newline cursor.location
        :: lexemesAt cursor.advance.location
          cursor.advance.remaining := by
  have hEnd : cursor.current ≠ endMark := by
    rw [hFeed]
    decide
  have hLocation : cursor.advance.location =
      ⟨cursor.location.line + 1, 1⟩ :=
    if_pos hFeed
  rw [hLocation, ← lexemesFrom_splitWhere,
    remaining_of_ne hEnd, hFeed, lexemesAt, lineLeft_feed,
    Scan.ofLine_nil]
  rfl

theorem lexemesAt_comma
    (hComma : cursor.current = ',') :
    lexemesAt cursor.location cursor.remaining =
      .token .comma cursor.location
        :: lexemesAt cursor.advance.location
          cursor.advance.remaining := by
  have hPass : cursor.Passes [','] cursor.advance := by
    rw [← hComma]
    apply Passes.step _ _ (Passes.refl _)
    · rw [hComma]
      decide
    · rw [hComma]
      decide
  apply lexemesAt_of_passes
    [.token .comma cursor.location] hPass
  rw [List.singleton_append, Scan.ofLine_comma, hPass.location]
  rfl

theorem lexemesAt_string
    {body : List Char}
    (hQuote : cursor.current = '"')
    (hString : cursor.advance.readString =
      (some body, next)) :
    lexemesAt cursor.location cursor.remaining =
      .token (.quoted (String.ofList ('"' :: body ++ ['"'])))
          cursor.location
        :: lexemesAt next.location next.remaining := by
  rcases passes_readString_some hString with ⟨hInner, hBody⟩
  have hPass := hInner.quote hQuote
  apply lexemesAt_of_passes
    [.token (.quoted (String.ofList ('"' :: body ++ ['"'])))
      cursor.location] hPass
  rw [List.cons_append, List.append_assoc,
    List.singleton_append, Scan.ofLine_quoted _ _ hBody,
    hPass.location, List.length_cons, List.length_append,
    List.length_singleton]
  rfl

/- Behind an unterminated string the line is at its end. -/
theorem lexemesAt_unterminated
    (hQuote : cursor.current = '"')
    (hString : cursor.advance.readString = (none, next)) :
    lexemesAt cursor.location cursor.remaining =
      .unterminated cursor.location.line
        :: lexemesAt next.location next.remaining := by
  rcases passes_readString_none hString with
    ⟨text, hInner, hText, hNext⟩
  apply lexemesAt_of_passes
    [.unterminated cursor.location.line] (hInner.quote hQuote)
  rw [lineLeft_of_stop hNext, List.append_nil,
    Scan.ofLine_unclosed _ hText, Scan.ofLine_nil]
  rfl

theorem lexemesAt_word
    (hWord : cursor.atWord = true) :
    lexemesAt cursor.location cursor.remaining =
      .token (.word (String.ofList cursor.readWord.1))
          cursor.location
        :: lexemesAt cursor.readWord.2.location
          cursor.readWord.2.remaining := by
  have hPass := passes_readWord cursor
  have hEnd := ne_endMark_of_atWord hWord
  simp only [atWord, Bool.not_eq_true', Bool.or_eq_false_iff,
    beq_eq_false_iff_ne] at hWord
  rcases hWord with ⟨⟨⟨hDelimiter, hFeed⟩, _⟩, hComment⟩
  have hLine := lineLeft_cons cursor.advance.remaining hFeed
  rw [← remaining_of_ne hEnd] at hLine
  rw [atComment_eq, ← startsComment_lineLeft, hLine]
    at hComment
  have hScan := Scan.ofLine_word cursor.location.column
    hDelimiter hComment
  rw [← hLine, spanWord_readWord] at hScan
  apply lexemesAt_of_passes
    [.token (.word (String.ofList cursor.readWord.1))
      cursor.location] hPass
  rw [← lineLeft_append _ hPass.feeds, ← hPass.remaining,
    hScan, hPass.location]
  rfl

/- The listing in one pass is the one that goes by lines. -/
theorem listing_eq_lexemesAt
    (cursor : Cursor) :
    cursor.listing =
      lexemesAt cursor.location cursor.remaining := by
  fun_induction listing cursor with
  | case1 cursor hBlank next hSilent ih =>
      rw [lexemesAt_blanks hBlank, if_pos hSilent, ih]
      rfl
  | case2 cursor hBlank next hSilent ih =>
      rw [lexemesAt_blanks hBlank, if_neg hSilent, ih]
      rfl
  | case3 cursor hBlank hComment ih =>
      rw [lexemesAt_comment hComment, ih]
  | case4 cursor hBlank hComment hEnd =>
      rw [lexemesAt_end hEnd]
  | case5 cursor hBlank hComment hEnd hFeed ih =>
      rw [lexemesAt_feed hFeed, ih]
  | case6 cursor hBlank hComment hEnd hFeed hComma ih =>
      rw [lexemesAt_comma hComma, ih]
  | case7 cursor hBlank hComment hEnd hFeed hComma hQuote body next
      hString ih =>
      rw [lexemesAt_string hQuote hString, ih]
  | case8 cursor hBlank hComment hEnd hFeed hComma hQuote next
      hString ih =>
      rw [lexemesAt_unterminated hQuote hString, ih]
  | case9 cursor hBlank hComment hEnd hFeed hComma hQuote ih =>
      rw [lexemesAt_word (atWord_of_ne hBlank hComment hEnd
        hFeed hComma hQuote), ih]

/- A text is listed in one pass. -/
theorem listing_ofText
    (text : String) :
    (ofText text).listing = lexemes text := by
  rw [listing_eq_lexemesAt, remaining_ofText, lexemes,
    sourceLines, lexemesFrom_splitWhere]
  rfl

end Cursor

end MmixAsm
