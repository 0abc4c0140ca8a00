import MmixAsm.Proofs.WellFormed

/-
  What the scanner reads, and what it gives back.

  In one direction every token of a line is a word or a
  string of the written form.  In the other direction the
  written forms are read back as the tokens they stand for,
  whatever follows them, as long as nothing that follows a
  word could be taken for a part of it.

  Key definitions include:
    * `MmixAsm.Token.Proper`
    * `MmixAsm.EndsWord`
    * `MmixAsm.StartsItem`
    * `MmixAsm.Token.ofItem`
    * `MmixAsm.Scans`

  Key theorems include:
    * `MmixAsm.Scan.proper_of_ofLine`
    * `MmixAsm.Scans.item`
    * `MmixAsm.Scans.comma`
    * `MmixAsm.Scans.space`
-/

------------------------------------------------------------
-- The Longest Word
------------------------------------------------------------

namespace MmixAsm

/- A comment starts at `%` or at two slashes. -/
theorem startsComment_cons
    (c : Char)
    (cs : List Char) :
    startsComment (c :: cs) = true ↔
      c = '%' ∨ ['/', '/'] <+: c :: cs := by
  unfold startsComment
  split
  · simp_all
  · simp_all
  · next h1 h2 =>
      constructor
      · intro h
        cases h
      · rintro (rfl | ⟨rest, hRest⟩)
        · exact absurd rfl (h1 _)
        · cases hRest
          exact absurd rfl (h2 _)

/- A word and what follows it make up the text. -/
theorem spanWord_append
    (cs : List Char) :
    (spanWord cs).1 ++ (spanWord cs).2 = cs := by
  induction cs with
  | nil => rfl
  | cons c cs ih =>
      unfold spanWord
      split
      · rfl
      · simpa using ih

/- The step of `spanWord` at a character of the word. -/
theorem spanWord_cons
    {c : Char}
    {cs : List Char}
    (hDelimiter : isDelimiter c = false)
    (hComment : startsComment (c :: cs) = false) :
    spanWord (c :: cs) =
      (c :: (spanWord cs).1, (spanWord cs).2) := by
  rw [spanWord]
  simp [hDelimiter, hComment]

/- No character of a word ends it or starts a comment. -/
theorem spanWord_all
    {c : Char}
    {cs : List Char}
    (hMem : c ∈ (spanWord cs).1) :
    isDelimiter c = false ∧ c ≠ '%' := by
  induction cs with
  | nil => cases hMem
  | cons d cs ih =>
      unfold spanWord at hMem
      split at hMem
      · cases hMem
      · next hStop =>
          simp only [Bool.or_eq_true, startsComment_cons,
            not_or, Bool.not_eq_true] at hStop
          rcases List.mem_cons.mp hMem with rfl | hMem
          · exact ⟨hStop.1, hStop.2.1⟩
          · exact ih hMem

/- A word holds no start of a comment. -/
theorem spanWord_slashes
    (cs : List Char) :
    ¬ ['/', '/'] <:+: (spanWord cs).1 := by
  induction cs with
  | nil => simp [spanWord]
  | cons c cs ih =>
      unfold spanWord
      split
      · simp
      · next hStop =>
          simp only [Bool.or_eq_true, startsComment_cons,
            not_or] at hStop
          rw [List.infix_cons_iff]
          rintro (hPrefix | hInfix)
          · -- Two slashes in front of the word are in front
            -- of the text.
            have hWord : c :: (spanWord cs).1 <+: c :: cs :=
              ⟨(spanWord cs).2, by
                rw [List.cons_append, spanWord_append]⟩
            exact hStop.2.2 (hPrefix.trans hWord)
          · exact ih hInfix

end MmixAsm

------------------------------------------------------------
-- Reading A Word Back
------------------------------------------------------------

namespace MmixAsm

/- A text that begins with no part of a word. -/
def EndsWord (rest : List Char) : Prop :=
  ∀ c ∈ rest.head?, isDelimiter c = true

theorem endsWord_nil : EndsWord [] := by
  intro c hc
  cases hc

theorem endsWord_cons
    {c : Char}
    (cs : List Char)
    (h : isDelimiter c = true) :
    EndsWord (c :: cs) := by
  intro d hd
  cases hd
  exact h

/- Behind a word no comment is made up of both. -/
theorem startsComment_append
    {c : Char}
    {cs rest : List Char}
    (hPercent : c ≠ '%')
    (hSlashes : ¬ ['/', '/'] <:+: c :: cs)
    (hRest : EndsWord rest) :
    startsComment (c :: (cs ++ rest)) = false := by
  rw [Bool.eq_false_iff, Ne, startsComment_cons]
  rintro (rfl | ⟨tail, hTail⟩)
  · exact hPercent rfl
  · cases cs with
    | nil =>
        cases rest with
        | nil => cases hTail
        | cons d rest =>
            cases hTail
            have hDelimiter := hRest '/' rfl
            revert hDelimiter
            decide
    | cons d cs =>
        apply hSlashes
        simp only [List.cons_append, List.nil_append,
          List.cons.injEq] at hTail
        rcases hTail with ⟨rfl, rfl, -⟩
        exact ⟨[], cs, rfl⟩

/- A word in front of a delimiter is split off whole. -/
theorem spanWord_of_word
    {cs rest : List Char}
    (hChars : ∀ c ∈ cs, isSpecial c = false)
    (hSlashes : ¬ ['/', '/'] <:+: cs)
    (hRest : EndsWord rest) :
    spanWord (cs ++ rest) = (cs, rest) := by
  induction cs with
  | nil =>
      cases rest with
      | nil => rfl
      | cons d rest =>
          rw [List.nil_append, spanWord]
          simp [hRest d rfl]
  | cons c cs ih =>
      have hc := hChars c List.mem_cons_self
      simp only [isSpecial, Bool.or_eq_false_iff,
        beq_eq_false_iff_ne] at hc
      have hComment :=
        startsComment_append hc.1.2 hSlashes hRest
      have hTail := ih
        (fun d hd => hChars d (List.mem_cons_of_mem c hd))
        (fun h => hSlashes
          (h.trans (List.suffix_cons c cs).isInfix))
      rw [List.cons_append,
        spanWord_cons hc.1.1.1 hComment, hTail]

end MmixAsm

------------------------------------------------------------
-- One Step Of The Scanner
------------------------------------------------------------

namespace MmixAsm

namespace Scan

/- A word is read up to its end. -/
theorem ofLine_word
    {c : Char}
    {cs : List Char}
    (column : Nat)
    (hDelimiter : isDelimiter c = false)
    (hComment : startsComment (c :: cs) = false) :
    ofLine column (c :: cs) =
      cons column
        (.word (String.ofList (spanWord (c :: cs)).1))
        (ofLine (column + (spanWord (c :: cs)).1.length)
          (spanWord (c :: cs)).2) := by
  rw [spanWord_cons hDelimiter hComment, ofLine]
  simp only [isDelimiter, Bool.or_eq_false_iff,
    beq_eq_false_iff_ne] at hDelimiter
  simp [hComment, hDelimiter, Nat.add_assoc]

/- A string is read up to its closing quote. -/
theorem ofLine_quoted
    {body : List Char}
    (column : Nat)
    (rest : List Char)
    (hBody : ∀ c ∈ body, c ≠ '"') :
    ofLine column ('"' :: (body ++ '"' :: rest)) =
      cons column
        (.quoted (String.ofList ('"' :: (body ++ ['"']))))
        (ofLine (column + body.length + 2) rest) := by
  have hAll : ∀ c ∈ body, (c != '"') = true := by
    intro c hc
    exact bne_iff_ne.mpr (hBody c hc)
  have hDrop :
      (body ++ '"' :: rest).dropWhile (· != '"') =
        '"' :: rest := by
    rw [List.dropWhile_append_of_pos hAll]
    rfl
  have hTake :
      (body ++ '"' :: rest).takeWhile (· != '"') = body := by
    rw [List.takeWhile_append_of_pos hAll]
    simp
  have hComment :
      startsComment ('"' :: (body ++ '"' :: rest)) = false := by
    simp [startsComment]
  have hBlank : isBlank '"' = false := by
    decide
  have hComma : '"' ≠ ',' := by
    decide
  rw [ofLine]
  simp only [hComment, hBlank, hComma, hTake, if_true,
    if_false, Bool.false_eq_true]
  split
  · next hNil =>
      rw [hDrop] at hNil
      cases hNil
  · next hCons =>
      rw [hDrop] at hCons
      cases hCons
      rfl

theorem ofLine_comma
    (column : Nat)
    (rest : List Char) :
    ofLine column (',' :: rest) =
      cons column .comma (ofLine (column + 1) rest) := by
  rw [ofLine]
  simp [startsComment, isBlank]

/- One blank in front of something is a space. -/
theorem ofLine_space
    {c : Char}
    {cs : List Char}
    (column : Nat)
    (hBlank : isBlank c = false)
    (hComment : startsComment (c :: cs) = false) :
    ofLine column (' ' :: c :: cs) =
      cons column .space (ofLine (column + 1) (c :: cs)) := by
  have hNone : startsComment (' ' :: c :: cs) = false := by
    simp [startsComment]
  have hSpace : isBlank ' ' = true := by
    decide
  rw [ofLine]
  simp [hNone, hSpace, hBlank, hComment]

end Scan

end MmixAsm

------------------------------------------------------------
-- Tokens Have The Written Form
------------------------------------------------------------

namespace MmixAsm

/- A token whose text has the written form of its kind. -/
def Token.Proper :
    Token → Prop
| .word text => IsWord text
| .quoted text => IsQuoted text
| .comma => True
| .space => True

/- A character that may stand anywhere in a line. -/
def isLineChar (c : Char) : Prop :=
  c ≠ '\n' ∧ c ≠ Char.ofNat 0

namespace Scan

/- The text split off as a word is a word. -/
theorem isWord_spanWord
    {c : Char}
    {cs : List Char}
    (hLine : ∀ d ∈ c :: cs, isLineChar d)
    (hDelimiter : isDelimiter c = false)
    (hComment : startsComment (c :: cs) = false) :
    IsWord (String.ofList (spanWord (c :: cs)).1) := by
  unfold IsWord
  rw [String.toList_ofList]
  refine ⟨?_, ?_, spanWord_slashes (c :: cs)⟩
  · rw [spanWord_cons hDelimiter hComment]
    exact List.cons_ne_nil _ _
  · intro d hd
    rcases spanWord_all hd with ⟨hDelim, hPercent⟩
    have hMem : d ∈ c :: cs := by
      rw [← spanWord_append (c :: cs)]
      exact List.mem_append_left _ hd
    rcases hLine d hMem with ⟨hFeed, hNull⟩
    simp [isSpecial, hDelim, hPercent, hFeed, hNull]

/- The text up to the closing quote is a string. -/
theorem isQuoted_takeWhile
    {cs : List Char}
    (hLine : ∀ d ∈ cs, isLineChar d) :
    IsQuoted (String.ofList
      ('"' :: cs.takeWhile (· != '"') ++ ['"'])) := by
  refine ⟨cs.takeWhile (· != '"'), ?_, ?_⟩
  · rw [String.toList_ofList, List.cons_append]
  · intro d hd
    have hQuote : (d != '"') = true :=
      List.all_eq_true.mp List.all_takeWhile d hd
    have hMem : d ∈ cs :=
      (List.takeWhile_prefix _).subset hd
    exact ⟨bne_iff_ne.mp hQuote, hLine d hMem⟩

/- A token in front keeps the tokens proper. -/
theorem proper_cons
    {column : Nat}
    {token : Token}
    {rest : Scan}
    (hToken : token.Proper)
    (hRest : ∀ t ∈ rest.tokens, t.2.Proper) :
    ∀ t ∈ (cons column token rest).tokens, t.2.Proper := by
  intro t ht
  rcases List.mem_cons.mp ht with rfl | ht
  · exact hToken
  · exact hRest t ht

/- Every token of a line is proper. -/
theorem proper_of_ofLine
    {cs : List Char}
    (column : Nat)
    (hLine : ∀ c ∈ cs, isLineChar c) :
    ∀ t ∈ (ofLine column cs).tokens, t.2.Proper := by
  -- The reading of a line consumes it from the front, so
  -- what is left holds only characters of the line.
  fun_induction ofLine column cs with
  | case1 => simp [empty]
  | case2 => simp [empty]
  | case3 => simp [empty]
  | case4 column c cs _ _ rest _ ih =>
      have hRest : rest <:+ c :: cs :=
        (List.dropWhile_suffix _).trans (List.suffix_cons _ _)
      exact proper_cons trivial
        (ih fun d hd => hLine d (hRest.subset hd))
  | case5 column cs _ _ ih =>
      exact proper_cons trivial
        (ih fun d hd => hLine d (List.mem_cons_of_mem _ hd))
  | case6 => simp
  | case7 column cs head rest hRest body _ _ _ ih =>
      have hBody : ∀ d ∈ cs, isLineChar d :=
        fun d hd => hLine d (List.mem_cons_of_mem _ hd)
      have hSuffix : rest <:+ cs := by
        have hDrop := List.dropWhile_suffix (l := cs) (· != '"')
        rw [hRest] at hDrop
        exact (List.suffix_cons _ _).trans hDrop
      exact proper_cons (isQuoted_takeWhile hBody)
        (ih fun d hd => hBody d (hSuffix.subset hd))
  | case8 column c cs hComment hBlank hComma hQuote split ih =>
      have hDelimiter : isDelimiter c = false := by
        simp [isDelimiter, hBlank, hComma, hQuote]
      have hStart : startsComment (c :: cs) = false :=
        Bool.eq_false_iff.mpr hComment
      have hWord :=
        isWord_spanWord hLine hDelimiter hStart
      rw [spanWord_cons hDelimiter hStart] at hWord
      have hSuffix : split.2 <:+ c :: cs :=
        ⟨c :: split.1, by
          rw [List.cons_append, spanWord_append]⟩
      exact proper_cons hWord
        (ih fun d hd => hLine d (hSuffix.subset hd))

end Scan

end MmixAsm

------------------------------------------------------------
-- Written Forms Are Read Back
------------------------------------------------------------

namespace MmixAsm

/- The token that a parameter is written as. -/
def Token.ofItem (text : String) : Token :=
  if text.toList.head? = some '"' then .quoted text
  else .word text

/- A word starts neither with a delimiter nor a comment. -/
theorem IsWord.exists_cons
    {text : String}
    {rest : List Char}
    (hWord : IsWord text)
    (hEnds : EndsWord rest) :
    ∃ c cs, text.toList = c :: cs ∧
      isDelimiter c = false ∧
      startsComment (c :: (cs ++ rest)) = false := by
  rcases hWord with ⟨hNonempty, hChars, hSlashes⟩
  rcases List.exists_cons_of_ne_nil hNonempty with
    ⟨c, cs, hText⟩
  rw [hText] at hChars hSlashes
  have hc := hChars c List.mem_cons_self
  simp only [isSpecial, Bool.or_eq_false_iff,
    beq_eq_false_iff_ne] at hc
  exact ⟨c, cs, hText, hc.1.1.1,
    startsComment_append hc.1.2 hSlashes hEnds⟩

/- A text in front of which a blank is a space. -/
def StartsItem (cs : List Char) : Prop :=
  ∃ c rest, cs = c :: rest ∧
    isBlank c = false ∧ startsComment (c :: rest) = false

/- A parameter starts neither with a blank nor a comment. -/
theorem IsItem.startsItem
    {text : String}
    {rest : List Char}
    (hItem : IsItem text)
    (hEnds : EndsWord rest) :
    StartsItem (text.toList ++ rest) := by
  rcases hItem with hWord | ⟨body, hText, -⟩
  · rcases hWord.exists_cons hEnds with
      ⟨c, cs, hText, hDelimiter, hComment⟩
    simp only [isDelimiter, Bool.or_eq_false_iff]
      at hDelimiter
    exact ⟨c, cs ++ rest, by rw [hText, List.cons_append],
      hDelimiter.1.1, hComment⟩
  · refine ⟨'"', body ++ ['"'] ++ rest, ?_, by decide, ?_⟩
    · rw [hText, List.cons_append]
    · simp [startsComment]

theorem Token.ofItem_of_isWord
    {text : String}
    (hWord : IsWord text) :
    Token.ofItem text = .word text := by
  rcases hWord.exists_cons endsWord_nil with
    ⟨c, cs, hText, hDelimiter, -⟩
  have hQuote : c ≠ '"' := by
    rintro rfl
    revert hDelimiter
    decide
  simp [ofItem, hText, hQuote]

theorem Token.ofItem_of_isQuoted
    {text : String}
    (hQuoted : IsQuoted text) :
    Token.ofItem text = .quoted text := by
  rcases hQuoted with ⟨body, hText, -⟩
  simp [ofItem, hText]

/- The text is read as these tokens and no unclosed string. -/
def Scans
    (cs : List Char)
    (tokens : List Token) : Prop :=
  ∀ column,
    (Scan.ofLine column cs).tokens.map (·.2) = tokens ∧
      (Scan.ofLine column cs).unclosed = none

namespace Scans

variable {rest : List Char}
variable {tokens : List Token}

theorem nil : Scans [] [] := by
  intro column
  rw [Scan.ofLine]
  exact ⟨rfl, rfl⟩

/- A step that reads one token and leaves the rest. -/
theorem of_cons
    {cs : List Char}
    {token : Token}
    (hRest : Scans rest tokens)
    (hStep : ∀ column, ∃ next,
      Scan.ofLine column cs =
        Scan.cons column token (Scan.ofLine next rest)) :
    Scans cs (token :: tokens) := by
  intro column
  rcases hStep column with ⟨next, hNext⟩
  rcases hRest next with ⟨hTokens, hUnclosed⟩
  rw [hNext]
  exact ⟨congrArg (token :: ·) hTokens, hUnclosed⟩

theorem comma
    (hRest : Scans rest tokens) :
    Scans (',' :: rest) (.comma :: tokens) :=
  hRest.of_cons fun column =>
    ⟨column + 1, Scan.ofLine_comma column rest⟩

/- A word is read whole in front of a delimiter. -/
theorem word
    {text : String}
    (hWord : IsWord text)
    (hEnds : EndsWord rest)
    (hRest : Scans rest tokens) :
    Scans (text.toList ++ rest) (.word text :: tokens) := by
  apply hRest.of_cons
  intro column
  rcases IsWord.exists_cons hWord hEnds with
    ⟨c, cs, hText, hDelimiter, hComment⟩
  have hSpan : spanWord (text.toList ++ rest) =
      (text.toList, rest) :=
    spanWord_of_word hWord.2.1 hWord.2.2 hEnds
  have hStep := Scan.ofLine_word column hDelimiter hComment
  rw [← List.cons_append, ← hText, hSpan,
    String.ofList_toList] at hStep
  exact ⟨_, hStep⟩

/- A string is read up to its closing quote. -/
theorem quoted
    {text : String}
    (hQuoted : IsQuoted text)
    (hRest : Scans rest tokens) :
    Scans (text.toList ++ rest) (.quoted text :: tokens) := by
  apply hRest.of_cons
  intro column
  rcases hQuoted with ⟨body, hText, hBody⟩
  have hStep := Scan.ofLine_quoted column rest
    fun c hc => (hBody c hc).1
  rw [← hText, String.ofList_toList] at hStep
  refine ⟨_, Eq.trans (congrArg _ ?_) hStep⟩
  simp [hText]

/- A parameter is read as the token it is written as. -/
theorem item
    {text : String}
    (hItem : IsItem text)
    (hEnds : EndsWord rest)
    (hRest : Scans rest tokens) :
    Scans (text.toList ++ rest)
      (.ofItem text :: tokens) := by
  rcases hItem with hWord | hQuoted
  · rw [Token.ofItem_of_isWord hWord]
    exact word hWord hEnds hRest
  · rw [Token.ofItem_of_isQuoted hQuoted]
    exact quoted hQuoted hRest

/- A blank in front of something is a space. -/
theorem space
    (hStarts : StartsItem rest)
    (hRest : Scans rest tokens) :
    Scans (' ' :: rest) (.space :: tokens) := by
  apply hRest.of_cons
  intro column
  rcases hStarts with ⟨c, cs, rfl, hBlank, hComment⟩
  exact ⟨column + 1,
    Scan.ofLine_space column hBlank hComment⟩

end Scans

end MmixAsm
