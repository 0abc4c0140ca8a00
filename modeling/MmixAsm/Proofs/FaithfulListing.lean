import MmixAsm.Proofs.OnePassReading

/-
  What the listing of a text says about the text.

  A text falls into pieces: words, strings, commas, blanks and
  line feeds, which are listed, and comments, blanks that end
  a line and strings that are never closed, which are not.
  Every piece that is listed stands where its location says,
  and an open string leaves one complaint.

  Key definitions include:
    * `MmixAsm.Cursor.next`
    * `MmixAsm.Cursor.results`
    * `MmixAsm.Location.behind`
    * `MmixAsm.Piece`
    * `MmixAsm.Piece.Fits`
    * `MmixAsm.Cuts`
    * `MmixAsm.listPieces`

  Key theorems include:
    * `MmixAsm.Cursor.listing_eq_next`
    * `MmixAsm.Cursor.results_listing`
    * `MmixAsm.Cursor.exists_cuts`
    * `MmixAsm.pairwise_listPieces`
    * `MmixAsm.exists_piece_of_mem`
    * `MmixAsm.lexemes_faithful`
-/

------------------------------------------------------------
-- Calls
------------------------------------------------------------

namespace MmixAsm

/- Whether a listing ends here. -/
def Lexeme.isEof :
    Lexeme → Bool
| .eof _ => true
| _ => false

namespace Cursor

/-
  The next element of the listing, and the cursor behind it.
  What is not listed is passed over first.
-/
def next (cursor : Cursor) : Lexeme × Cursor :=
  if _hBlank : isBlank cursor.current then
    let behind := cursor.skipWhile isBlank
    if behind.atComment || behind.current == '\n'
        || behind.current == endMark then
      behind.next
    else
      (.token .space cursor.location, behind)
  else if _hComment : cursor.atComment then
    (cursor.skipWhile (· != '\n')).next
  else if cursor.current = endMark then
    (.eof cursor.location, cursor)
  else if cursor.current = '\n' then
    (.newline cursor.location, cursor.advance)
  else if cursor.current = ',' then
    (.token .comma cursor.location, cursor.advance)
  else if cursor.current = '"' then
    match cursor.advance.readString with
    | (some body, behind) =>
        (.token
          (.quoted (String.ofList ('"' :: body ++ ['"'])))
          cursor.location, behind)
    | (none, behind) =>
        (.unterminated cursor.location.line, behind)
  else
    (.token (.word (String.ofList cursor.readWord.1))
      cursor.location, cursor.readWord.2)
termination_by cursor.remaining.length
decreasing_by
  · exact length_skipWhile_lt rfl
      (ne_endMark_of_isBlank _hBlank) _hBlank
  · exact length_skipWhile_lt rfl
      (ne_endMark_of_atComment _hComment)
      (bne_iff_ne.mpr (ne_feed_of_atComment _hComment))

/- The results of a number of calls. -/
def results :
    Nat → Cursor → List Lexeme
| 0, _ => []
| calls + 1, cursor =>
    cursor.next.1 :: results calls cursor.next.2

/- The listing is what call after call gives up to the end. -/
theorem listing_eq_next
    (cursor : Cursor) :
    cursor.listing =
      cursor.next.1 ::
        if cursor.next.1.isEof then [] else
          cursor.next.2.listing := by
  fun_induction next cursor with
  | case1 cursor hBlank behind hSilent ih =>
      rw [listing_eq_lexemesAt, lexemesAt_blanks hBlank,
        if_pos hSilent, List.nil_append, ← listing_eq_lexemesAt]
      exact ih
  | case2 cursor hBlank behind hSilent =>
      rw [listing_eq_lexemesAt, lexemesAt_blanks hBlank,
        if_neg hSilent, ← listing_eq_lexemesAt]
      rfl
  | case3 cursor hBlank hComment ih =>
      rw [listing_eq_lexemesAt, lexemesAt_comment hComment,
        ← listing_eq_lexemesAt]
      exact ih
  | case4 cursor hBlank hComment hEnd =>
      rw [listing_eq_lexemesAt, lexemesAt_end hEnd]
      rfl
  | case5 cursor hBlank hComment hEnd hFeed =>
      rw [listing_eq_lexemesAt, lexemesAt_feed hFeed,
        ← listing_eq_lexemesAt]
      rfl
  | case6 cursor hBlank hComment hEnd hFeed hComma =>
      rw [listing_eq_lexemesAt, lexemesAt_comma hComma,
        ← listing_eq_lexemesAt]
      rfl
  | case7 cursor hBlank hComment hEnd hFeed hComma hQuote body
      behind hString =>
      rw [listing_eq_lexemesAt, lexemesAt_string hQuote hString,
        ← listing_eq_lexemesAt]
      rfl
  | case8 cursor hBlank hComment hEnd hFeed hComma hQuote behind
      hString =>
      rw [listing_eq_lexemesAt,
        lexemesAt_unterminated hQuote hString,
        ← listing_eq_lexemesAt]
      rfl
  | case9 cursor hBlank hComment hEnd hFeed hComma hQuote =>
      rw [listing_eq_lexemesAt, lexemesAt_word (atWord_of_ne
        hBlank hComment hEnd hFeed hComma hQuote),
        ← listing_eq_lexemesAt]
      rfl

/- As many calls as the listing is long give the listing. -/
theorem results_listing
    (cursor : Cursor) :
    results cursor.listing.length cursor = cursor.listing := by
  generalize hLength : cursor.listing.length = calls
  induction calls generalizing cursor with
  | zero => exact (List.length_eq_zero_iff.mp hLength).symm
  | succ calls ih =>
      rw [listing_eq_next] at hLength ⊢
      rw [List.length_cons, Nat.add_right_cancel_iff] at hLength
      refine congrArg (cursor.next.1 :: ·) ?_
      by_cases hEof : cursor.next.1.isEof = true
      · rw [if_pos hEof] at hLength ⊢
        cases hLength
        rfl
      · rw [if_neg hEof] at hLength ⊢
        exact ih cursor.next.2 hLength

end Cursor

end MmixAsm

------------------------------------------------------------
-- Locations
------------------------------------------------------------

namespace MmixAsm

namespace Location

/-
  The place behind the beginning of a text.  The line feeds
  there count the lines, and what stands behind the last of
  them counts the columns.
-/
def behind (before : List Char) : Location where
  line := before.count '\n' + 1
  column := (before.reverse.takeWhile (· != '\n')).length + 1

/- One place stands in front of another. -/
def Before (left right : Location) : Prop :=
  left.line < right.line ∨
    left.line = right.line ∧ left.column < right.column

theorem Before.trans
    {left middle right : Location}
    (hLeft : left.Before middle)
    (hRight : middle.Before right) :
    left.Before right := by
  unfold Before at hLeft hRight ⊢
  omega

/- Inside a line the column moves on. -/
theorem behind_append
    (before : List Char)
    {text : List Char}
    (hText : ∀ c ∈ text, c ≠ '\n') :
    behind (before ++ text) =
      ⟨(behind before).line,
        (behind before).column + text.length⟩ := by
  have hCount : text.count '\n' = 0 :=
    List.count_eq_zero.mpr fun hMem => hText '\n' hMem rfl
  have hAll : ∀ c ∈ text.reverse, (c != '\n') = true :=
    fun c hc =>
      bne_iff_ne.mpr (hText c (List.mem_reverse.mp hc))
  simp only [behind, List.count_append, hCount,
    List.reverse_append, List.takeWhile_append_of_pos hAll,
    List.length_append, List.length_reverse, Nat.add_zero,
    Location.mk.injEq, true_and]
  omega

/- Behind a line feed a new line begins. -/
theorem behind_feed
    (before : List Char) :
    behind (before ++ ['\n']) =
      ⟨(behind before).line + 1, 1⟩ := by
  unfold behind
  rw [List.count_append, List.reverse_append]
  rfl

/- Whatever is put behind moves the place on. -/
theorem before_behind_append
    (before : List Char)
    {text : List Char}
    (hText : text ≠ []) :
    (behind before).Before (behind (before ++ text)) := by
  induction text generalizing before with
  | nil => exact absurd rfl hText
  | cons c rest ih =>
      have hStep :
          (behind before).Before (behind (before ++ [c])) := by
        by_cases hFeed : c = '\n'
        · rw [hFeed, behind_feed]
          exact .inl (Nat.lt_succ_self _)
        · rw [behind_append before (by simpa using hFeed)]
          exact .inr ⟨rfl, Nat.lt_succ_self _⟩
      rw [List.append_cons]
      cases rest with
      | nil =>
          rw [List.append_nil]
          exact hStep
      | cons d rest =>
          exact hStep.trans
            (ih (before ++ [c]) (List.cons_ne_nil d rest))

end Location

end MmixAsm

------------------------------------------------------------
-- Pieces
------------------------------------------------------------

namespace MmixAsm

/- The pieces of a text, in their own words. -/
inductive Piece where
  | word (text : List Char)
  | quoted (body : List Char)
  | comma
  | space (blanks : List Char)
  | newline
  | comment (text : List Char)
  | trailing (blanks : List Char)
  | unclosed (body : List Char)

/- Whether nothing follows in the line. -/
def atLineEnd :
    List Char → Bool
| [] => true
| c :: _ => c == '\n'

/- Whether a word begins here or goes on. -/
def goesOn :
    List Char → Bool
| [] => false
| c :: cs =>
    !(isDelimiter c || c == '\n' || startsComment (c :: cs))

namespace Piece

/- The characters of a piece. -/
def chars :
    Piece → List Char
| .word text => text
| .quoted body => '"' :: body ++ ['"']
| .comma => [',']
| .space blanks => blanks
| .newline => ['\n']
| .comment text => text
| .trailing blanks => blanks
| .unclosed body => '"' :: body

/-
  Whether a piece may stand in front of a text.  A word is as
  long as it can be, blanks are listed if something follows
  them in the line, a comment and an open string go on to the
  end of the line.
-/
def Fits :
    Piece → List Char → Prop
| .word text, rest =>
    text ≠ [] ∧
      (∀ front back, text = front ++ back → back ≠ [] →
        goesOn (back ++ rest) = true) ∧
      goesOn rest = false
| .quoted body, _ => ∀ c ∈ body, c ≠ '"' ∧ c ≠ '\n'
| .comma, _ => True
| .space blanks, rest =>
    blanks ≠ [] ∧ (∀ c ∈ blanks, isBlank c = true) ∧
      rest.head?.any isBlank = false ∧
      atLineEnd rest = false ∧ startsComment rest = false
| .newline, _ => True
| .comment text, rest =>
    startsComment text = true ∧ (∀ c ∈ text, c ≠ '\n') ∧
      atLineEnd rest = true
| .trailing blanks, rest =>
    blanks ≠ [] ∧ (∀ c ∈ blanks, isBlank c = true) ∧
      (atLineEnd rest = true ∨ startsComment rest = true)
| .unclosed body, rest =>
    (∀ c ∈ body, c ≠ '"' ∧ c ≠ '\n') ∧ atLineEnd rest = true

/- What is listed for a piece at a location. -/
def lexeme?
    (location : Location) :
    Piece → Option Lexeme
| .word text =>
    some (.token (.word (String.ofList text)) location)
| .quoted body =>
    some (.token
      (.quoted (String.ofList ('"' :: body ++ ['"'])))
      location)
| .comma => some (.token .comma location)
| .space _ => some (.token .space location)
| .newline => some (.newline location)
| .comment _ => none
| .trailing _ => none
| .unclosed _ => some (.unterminated location.line)

/- There is no empty piece. -/
theorem Fits.chars_ne_nil
    {piece : Piece}
    {rest : List Char}
    (h : piece.Fits rest) :
    piece.chars ≠ [] := by
  cases piece with
  | word text => exact h.1
  | space blanks => exact h.1
  | trailing blanks => exact h.1
  | comment text =>
      rintro rfl
      cases h.1
  | quoted body => exact List.cons_ne_nil _ _
  | comma => exact List.cons_ne_nil _ _
  | newline => exact List.cons_ne_nil _ _
  | unclosed body => exact List.cons_ne_nil _ _

end Piece

/- The pieces of a text, each of which fits its place. -/
inductive Cuts : List Piece → List Char → Prop
  | nil : Cuts [] []
  | cons
      {piece : Piece}
      {pieces : List Piece}
      {rest : List Char}
      (hFits : piece.Fits rest)
      (hRest : Cuts pieces rest) :
      Cuts (piece :: pieces) (piece.chars ++ rest)

/- The listing of some pieces behind a beginning. -/
def listPieces
    (before : List Char) :
    List Piece → List Lexeme
| [] => [.eof (.behind before)]
| piece :: pieces =>
    (piece.lexeme? (.behind before)).toList
      ++ listPieces (before ++ piece.chars) pieces

end MmixAsm

------------------------------------------------------------
-- Cutting A Text
------------------------------------------------------------

namespace MmixAsm

namespace Cursor

variable {cursor next : Cursor}

theorem goesOn_remaining (cursor : Cursor) :
    goesOn cursor.remaining = cursor.atWord := by
  by_cases hEnd : cursor.current = endMark
  · rw [remaining_of_end hEnd, atWord, hEnd]
    rfl
  · have hComment := cursor.atComment_eq
    rw [remaining_of_ne hEnd] at hComment ⊢
    rw [goesOn, atWord, hComment, beq_false_of_ne hEnd,
      Bool.or_false]

theorem atLineEnd_remaining (cursor : Cursor) :
    atLineEnd cursor.remaining =
      (cursor.current == '\n' || cursor.current == endMark) := by
  by_cases hEnd : cursor.current = endMark
  · rw [remaining_of_end hEnd, hEnd]
    rfl
  · rw [remaining_of_ne hEnd, beq_false_of_ne hEnd,
      Bool.or_false]
    rfl

/- Nothing is left of a line at its end. -/
theorem atLineEnd_eq (cs : List Char) :
    atLineEnd cs = (lineLeft cs).isEmpty := by
  cases cs with
  | nil => rfl
  | cons c rest =>
      by_cases hFeed : c = '\n'
      · rw [hFeed]
        rfl
      · rw [lineLeft_cons rest hFeed, atLineEnd,
          beq_false_of_ne hFeed]
        rfl

/- A word goes on at each of its characters. -/
theorem goesOn_of_readWord
    (cursor : Cursor)
    {front back : List Char}
    (hSplit : cursor.readWord.1 = front ++ back)
    (hBack : back ≠ []) :
    goesOn (back ++ cursor.readWord.2.remaining) = true := by
  have hPass := passes_readWord cursor
  fun_induction readWord cursor generalizing front with
  | case1 cursor hWord ih =>
      cases front with
      | nil =>
          rw [← hSplit.trans (List.nil_append back),
            ← hPass.remaining, goesOn_remaining]
          exact hWord
      | cons c front =>
          exact ih (List.cons.inj hSplit).2
            (passes_readWord cursor.advance)
  | case2 cursor hWord =>
      exact absurd (List.append_eq_nil_iff.mp hSplit.symm).2
        hBack

/- Behind a word no word goes on. -/
theorem atWord_readWord
    (cursor : Cursor) :
    cursor.readWord.2.atWord = false := by
  fun_induction readWord cursor with
  | case1 cursor hWord ih => exact ih
  | case2 cursor hWord => exact Bool.eq_false_iff.mpr hWord

theorem fits_readWord
    (hWord : cursor.atWord = true) :
    (Piece.word cursor.readWord.1).Fits
      cursor.readWord.2.remaining := by
  refine ⟨?_, fun _ _ => goesOn_of_readWord cursor, ?_⟩
  · intro hNil
    have hLess := length_readWord_lt hWord
    rw [(passes_readWord cursor).remaining, hNil,
      List.nil_append] at hLess
    exact Nat.lt_irrefl _ hLess
  · rw [goesOn_remaining, atWord_readWord]

/- Behind a run of blanks there is no blank. -/
theorem head?_dropWhile_isBlank
    (cs : List Char) :
    (cs.dropWhile isBlank).head?.any isBlank = false := by
  induction cs with
  | nil => rfl
  | cons c rest ih =>
      by_cases hBlank : isBlank c = true
      · rw [List.dropWhile_cons_of_pos hBlank]
        exact ih
      · rw [List.dropWhile_cons_of_neg hBlank]
        simpa using hBlank

/- A run of blanks is a piece of one of two kinds. -/
theorem passes_blanks
    (hBlank : isBlank cursor.current = true) :
    ∃ blanks,
      cursor.Passes blanks (cursor.skipWhile isBlank) ∧
        blanks ≠ [] ∧
        (∀ c ∈ blanks, isBlank c = true) ∧
        (cursor.skipWhile isBlank).remaining.head?.any
          isBlank = false := by
  rcases passes_skipWhile (p := isBlank) rfl cursor with
    ⟨hPass, hRest⟩
  refine ⟨_, hPass, ?_, ?_, ?_⟩
  · rw [remaining_of_ne (ne_endMark_of_isBlank hBlank),
      List.takeWhile_cons_of_pos hBlank]
    exact List.cons_ne_nil _ _
  · exact fun c hc =>
      List.all_eq_true.mp List.all_takeWhile c hc
  · rw [hRest, head?_dropWhile_isBlank]

/- A piece is put in front of the pieces that follow it. -/
theorem exists_cuts_cons
    (piece : Piece)
    {before : List Char}
    (hRemaining : cursor.remaining =
      piece.chars ++ next.remaining)
    (hFits : piece.Fits next.remaining)
    (hLocation : cursor.location = .behind before)
    (hNext : ∃ pieces,
      Cuts pieces next.remaining ∧
        next.listing =
          listPieces (before ++ piece.chars) pieces) :
    ∃ pieces,
      Cuts pieces cursor.remaining ∧
        (piece.lexeme? cursor.location).toList ++ next.listing =
          listPieces before pieces := by
  rcases hNext with ⟨pieces, hCuts, hListing⟩
  refine ⟨piece :: pieces, ?_, ?_⟩
  · rw [hRemaining]
    exact .cons hFits hCuts
  · rw [hLocation, hListing]
    rfl

theorem Passes.location_behind
    {text before : List Char}
    (hPass : cursor.Passes text next)
    (hLocation : cursor.location = .behind before) :
    next.location = .behind (before ++ text) := by
  rw [hPass.location, hLocation,
    Location.behind_append before hPass.feeds]

/-
  Whatever is in front of a cursor falls into pieces, and the
  listing is that of the pieces.
-/
theorem exists_cuts
    (cursor : Cursor) :
    ∀ before, cursor.location = .behind before →
      ∃ pieces,
        Cuts pieces cursor.remaining ∧
          cursor.listing = listPieces before pieces := by
  fun_induction listing cursor with
  | case1 cursor hBlank next hSilent ih =>
      intro before hLocation
      rcases passes_blanks hBlank with
        ⟨blanks, hPass, hNonempty, hBlanks, _⟩
      refine exists_cuts_cons (.trailing blanks)
        hPass.remaining ⟨hNonempty, hBlanks, ?_⟩ hLocation
        (ih _ (hPass.location_behind hLocation))
      rw [atLineEnd_remaining, ← atComment_eq]
      rw [Bool.or_assoc, Bool.or_eq_true] at hSilent
      exact hSilent.symm
  | case2 cursor hBlank next hSilent ih =>
      intro before hLocation
      rcases passes_blanks hBlank with
        ⟨blanks, hPass, hNonempty, hBlanks, hBehind⟩
      rw [Bool.or_assoc, Bool.not_eq_true,
        Bool.or_eq_false_iff] at hSilent
      refine exists_cuts_cons (.space blanks)
        hPass.remaining
        ⟨hNonempty, hBlanks, hBehind, ?_, ?_⟩ hLocation
        (ih _ (hPass.location_behind hLocation))
      · rw [atLineEnd_remaining]
        exact hSilent.2
      · rw [← atComment_eq]
        exact hSilent.1
  | case3 cursor hBlank hComment ih =>
      intro before hLocation
      rcases passes_skipWhile (p := (· != '\n')) rfl cursor with
        ⟨hPass, hRest⟩
      refine exists_cuts_cons
        (.comment (lineLeft cursor.remaining))
        hPass.remaining ⟨?_, hPass.feeds, ?_⟩ hLocation
        (ih _ (hPass.location_behind hLocation))
      · rw [startsComment_lineLeft, ← atComment_eq, hComment]
      · rw [hRest, atLineEnd_eq, lineLeft_dropWhile_feed]
        rfl
  | case4 cursor hBlank hComment hEnd =>
      intro before hLocation
      refine ⟨[], ?_, ?_⟩
      · rw [remaining_of_end hEnd]
        exact .nil
      · rw [hLocation]
        rfl
  | case5 cursor hBlank hComment hEnd hFeed ih =>
      intro before hLocation
      refine exists_cuts_cons .newline ?_ trivial
        hLocation (ih _ ?_)
      · rw [remaining_of_ne hEnd, hFeed]
        rfl
      · rw [advance, if_pos hFeed, hLocation]
        exact (Location.behind_feed before).symm
  | case6 cursor hBlank hComment hEnd hFeed hComma ih =>
      intro before hLocation
      have hPass : cursor.Passes [','] cursor.advance := by
        rw [← hComma]
        exact Passes.step hEnd hFeed (Passes.refl _)
      exact exists_cuts_cons .comma hPass.remaining
        trivial hLocation (ih _ (hPass.location_behind hLocation))
  | case7 cursor hBlank hComment hEnd hFeed hComma hQuote body next
      hString ih =>
      intro before hLocation
      rcases passes_readString_some hString with ⟨hInner, hBody⟩
      have hPass := hInner.quote hQuote
      refine exists_cuts_cons (.quoted body)
        hPass.remaining ?_ hLocation
        (ih _ (hPass.location_behind hLocation))
      intro c hc
      exact ⟨hBody c hc,
        hInner.feeds c (List.mem_append_left _ hc)⟩
  | case8 cursor hBlank hComment hEnd hFeed hComma hQuote next
      hString ih =>
      intro before hLocation
      rcases passes_readString_none hString with
        ⟨body, hInner, hBody, hStop⟩
      have hPass := hInner.quote hQuote
      refine exists_cuts_cons (.unclosed body)
        hPass.remaining ⟨?_, ?_⟩ hLocation
        (ih _ (hPass.location_behind hLocation))
      · exact fun c hc => ⟨hBody c hc, hInner.feeds c hc⟩
      · rw [atLineEnd_remaining]
        simpa using hStop
  | case9 cursor hBlank hComment hEnd hFeed hComma hQuote ih =>
      intro before hLocation
      have hWord := atWord_of_ne hBlank hComment hEnd hFeed
        hComma hQuote
      have hPass := passes_readWord cursor
      exact exists_cuts_cons (.word cursor.readWord.1)
        hPass.remaining (fits_readWord hWord) hLocation
        (ih _ (hPass.location_behind hLocation))

end Cursor

end MmixAsm

------------------------------------------------------------
-- Faithful Listings
------------------------------------------------------------

namespace MmixAsm

/- The place of a lexeme, if it tells more than its line. -/
def Lexeme.location? :
    Lexeme → Option Location
| .token _ location => some location
| .unterminated _ => none
| .newline location => some location
| .eof location => some location

/- The characters that a token stands for. -/
def Token.Covers :
    Token → List Char → Prop
| .word text, chars => chars ≠ [] ∧ text.toList = chars
| .quoted text, chars =>
    text.toList = chars ∧
      ∃ body, chars = '"' :: body ++ ['"'] ∧
        ∀ c ∈ body, c ≠ '"' ∧ c ≠ '\n'
| .comma, chars => chars = [',']
| .space, chars =>
    chars ≠ [] ∧ ∀ c ∈ chars, isBlank c = true

namespace Piece

variable {piece : Piece}
variable {rest : List Char}
variable {location place : Location}

/- A lexeme has the place of its piece. -/
theorem location?_of_lexeme?
    {lexeme : Lexeme}
    (h : piece.lexeme? location = some lexeme)
    (hPlace : lexeme.location? = some place) :
    place = location := by
  cases piece <;> cases h <;> cases hPlace <;> rfl

theorem isEof_of_lexeme?
    {lexeme : Lexeme}
    (h : piece.lexeme? location = some lexeme) :
    lexeme.isEof = false := by
  cases piece <;> cases h <;> rfl

/- A token covers the characters of its piece. -/
theorem Fits.covers
    {token : Token}
    (hFits : piece.Fits rest)
    (h : piece.lexeme? location =
      some (.token token place)) :
    place = location ∧ token.Covers piece.chars := by
  cases piece with
  | word text =>
      cases h
      exact ⟨rfl, hFits.1, String.toList_ofList⟩
  | quoted body =>
      cases h
      exact ⟨rfl, String.toList_ofList, body, rfl, hFits⟩
  | comma =>
      cases h
      exact ⟨rfl, rfl⟩
  | space blanks =>
      cases h
      exact ⟨rfl, hFits.1, hFits.2.1⟩
  | newline => cases h
  | comment text => cases h
  | trailing blanks => cases h
  | unclosed body => cases h

end Piece

variable {pieces : List Piece}
variable {before rest : List Char}

/- Whatever is listed is the end or comes from a piece. -/
theorem exists_piece_of_mem
    {lexeme : Lexeme}
    (hCuts : Cuts pieces rest)
    (hMem : lexeme ∈ listPieces before pieces) :
    lexeme = .eof (.behind (before ++ rest)) ∨
      ∃ (front : List Char) (piece : Piece) (back : List Char),
        rest = front ++ piece.chars ++ back ∧
          piece.Fits back ∧
          piece.lexeme? (.behind (before ++ front)) =
            some lexeme := by
  induction hCuts generalizing before with
  | nil =>
      rw [List.append_nil]
      exact .inl (List.mem_singleton.mp hMem)
  | @cons piece pieces rest hFits hRest ih =>
      rcases List.mem_append.mp hMem with hHere | hLater
      · refine .inr ⟨[], piece, rest, rfl, hFits, ?_⟩
        rw [List.append_nil]
        exact Option.mem_toList.mp hHere
      · rcases ih hLater with hEnd | ⟨front, other, back, hSplit,
          hOther, hListed⟩
        · left
          rw [hEnd, List.append_assoc]
        · refine .inr ⟨piece.chars ++ front, other, back, ?_,
            hOther, ?_⟩
          · rw [hSplit, List.append_assoc, List.append_assoc,
              List.append_assoc]
          · rw [← List.append_assoc]
            exact hListed

/- Whatever is listed stands behind the beginning. -/
theorem exists_behind_of_mem
    {lexeme : Lexeme}
    {place : Location}
    (hCuts : Cuts pieces rest)
    (hMem : lexeme ∈ listPieces before pieces)
    (hPlace : lexeme.location? = some place) :
    ∃ front, place = .behind (before ++ front) := by
  rcases exists_piece_of_mem hCuts hMem with
    rfl | ⟨front, piece, back, _, _, hListed⟩
  · cases hPlace
    exact ⟨rest, rfl⟩
  · exact ⟨front, Piece.location?_of_lexeme? hListed hPlace⟩

/- The places of a listing go forward. -/
theorem pairwise_listPieces
    (hCuts : Cuts pieces rest) :
    ((listPieces before pieces).filterMap
      Lexeme.location?).Pairwise Location.Before := by
  induction hCuts generalizing before with
  | nil => exact List.pairwise_singleton _ _
  | @cons piece pieces rest hFits hRest ih =>
      have hLater : ∀ place ∈
          (listPieces (before ++ piece.chars) pieces).filterMap
            Lexeme.location?,
          (Location.behind before).Before place := by
        intro place hPlace
        rcases List.mem_filterMap.mp hPlace with
          ⟨lexeme, hMem, hPlace⟩
        rcases exists_behind_of_mem hRest hMem hPlace with
          ⟨front, rfl⟩
        rw [List.append_assoc]
        apply Location.before_behind_append
        intro hNil
        exact hFits.chars_ne_nil (List.append_eq_nil_iff.mp hNil).1
      rw [listPieces, List.filterMap_append,
        List.pairwise_append]
      refine ⟨?_, ih, ?_⟩
      · cases piece.lexeme? (.behind before) with
        | none => exact .nil
        | some lexeme =>
            change ([lexeme].filterMap _).Pairwise _
            cases hPlace : lexeme.location? with
            | none =>
                rw [List.filterMap_cons_none hPlace]
                exact .nil
            | some place =>
                rw [List.filterMap_cons_some hPlace]
                exact List.pairwise_singleton _ _
      · intro place hPlace other hOther
        rcases List.mem_filterMap.mp hPlace with
          ⟨lexeme, hMem, hPlace⟩
        rw [Piece.location?_of_lexeme?
          (Option.mem_toList.mp hMem) hPlace]
        exact hLater other hOther

/- The end is listed last and only once. -/
theorem listPieces_eq_concat
    (hCuts : Cuts pieces rest) :
    ∃ front,
      listPieces before pieces =
          front ++ [.eof (.behind (before ++ rest))] ∧
        ∀ lexeme ∈ front, lexeme.isEof = false := by
  induction hCuts generalizing before with
  | nil =>
      rw [List.append_nil]
      exact ⟨[], rfl, fun _ hMem => absurd hMem List.not_mem_nil⟩
  | @cons piece pieces rest hFits hRest ih =>
      rcases @ih (before ++ piece.chars) with
        ⟨front, hFront, hNone⟩
      refine ⟨(piece.lexeme? (.behind before)).toList ++ front,
        ?_, ?_⟩
      · rw [listPieces, hFront, List.append_assoc,
          List.append_assoc]
      · intro lexeme hMem
        rcases List.mem_append.mp hMem with hHere | hLater
        · exact Piece.isEof_of_lexeme? (Option.mem_toList.mp hHere)
        · exact hNone lexeme hLater

/-
  The listing of a text without nulls is faithful.  Calls give
  it one by one and reach its end, which is listed last.  The
  places go forward, and every token stands where it says and
  covers what stands there.  The text falls into pieces, each
  fit for its place, and the listing is that of the pieces: a
  comment and blanks that end a line are not listed, and an
  open string gives one complaint with its line.
-/
theorem lexemes_faithful
    (text : String)
    (hText : ∀ c ∈ text.toList, c ≠ endMark) :
    Cursor.results (lexemes text).length (.ofText text) =
        lexemes text ∧
      (∃ front,
        lexemes text =
            front ++ [.eof (.behind text.toList)] ∧
          ∀ lexeme ∈ front, lexeme.isEof = false) ∧
      ((lexemes text).filterMap
        Lexeme.location?).Pairwise Location.Before ∧
      (∀ token location,
        .token token location ∈ lexemes text →
        ∃ before chars after,
          text.toList = before ++ chars ++ after ∧
            location = .behind before ∧
            token.Covers chars) ∧
      ∃ pieces,
        Cuts pieces text.toList ∧
          lexemes text = listPieces [] pieces := by
  have hRemaining : (Cursor.ofText text).remaining =
      text.toList := by
    rw [Cursor.remaining_ofText, beforeNull_of_forall_ne hText]
  rcases (Cursor.ofText text).exists_cuts [] rfl with
    ⟨pieces, hCuts, hListing⟩
  rw [hRemaining] at hCuts
  rw [Cursor.listing_ofText] at hListing
  refine ⟨?_, ?_, ?_, ?_, pieces, hCuts, hListing⟩
  · rw [← Cursor.listing_ofText]
    exact Cursor.results_listing _
  · rw [hListing]
    exact listPieces_eq_concat hCuts
  · rw [hListing]
    exact pairwise_listPieces hCuts
  · intro token location hMem
    rw [hListing] at hMem
    rcases exists_piece_of_mem hCuts hMem with
      hEnd | ⟨before, piece, after, hSplit, hFits, hListed⟩
    · cases hEnd
    · rcases hFits.covers hListed with ⟨hPlace, hCovers⟩
      exact ⟨before, piece.chars, after, hSplit, hPlace, hCovers⟩

/-
  A string with a comma, a line that ends in blanks and a
  return, a comment, and a string that is never closed.
-/
def stripedText : String :=
  "x \"a, b\",/ \r\n% c\n\t\"d%\n/"

def stripedListing : List Lexeme := [
  .token (.word "x") ⟨1, 1⟩,
  .token .space ⟨1, 2⟩,
  .token (.quoted "\"a, b\"") ⟨1, 3⟩,
  .token .comma ⟨1, 9⟩,
  .token (.word "/") ⟨1, 10⟩,
  .newline ⟨1, 13⟩,
  .newline ⟨2, 4⟩,
  .token .space ⟨3, 1⟩,
  .unterminated 3,
  .newline ⟨3, 5⟩,
  .token (.word "/") ⟨4, 1⟩,
  .eof ⟨4, 2⟩]

theorem stripedText_faithful :
    (∀ c ∈ stripedText.toList, c ≠ endMark) ∧
      Cursor.results 12 (.ofText stripedText) =
        stripedListing ∧
      (stripedListing.filterMap
        Lexeme.location?).Pairwise Location.Before ∧
      (∃ before chars after,
        stripedText.toList = before ++ chars ++ after ∧
          ⟨1, 3⟩ = Location.behind before ∧
          Token.Covers (.quoted "\"a, b\"") chars) ∧
      ∃ pieces,
        Cuts pieces stripedText.toList ∧
          stripedListing = listPieces [] pieces := by
  have hAll : stripedText.toList.all (· != endMark) = true := by
    decide +kernel
  have hText : ∀ c ∈ stripedText.toList, c ≠ endMark :=
    fun c hc => bne_iff_ne.mp (List.all_eq_true.mp hAll c hc)
  have hListing : lexemes stripedText = stripedListing := by
    decide +kernel
  have hFaithful := lexemes_faithful stripedText hText
  rw [hListing] at hFaithful
  rcases hFaithful with ⟨hResults, _, hPlaces, hTokens, hPieces⟩
  exact ⟨hText, hResults, hPlaces,
    hTokens _ _ (by simp [stripedListing]), hPieces⟩

end MmixAsm
