import MmixAsm.Proofs.FirstFault

/-
  What a line says, wherever its tokens stand.

  The beginning of a line is read without the rest of it, up
  to the blanks, the comment or the open string that it ends
  in.  So a change behind it can be judged by what these read
  together with the rest.

  Key definitions include:
    * `MmixAsm.LineContent`
    * `MmixAsm.LineContent.ofLine`
    * `MmixAsm.Zone`
    * `MmixAsm.Zone.after`
    * `MmixAsm.LineContent.ReadsAlone`
    * `MmixAsm.LineContent.reading`

  Key theorems include:
    * `MmixAsm.Scan.content_ofLine`
    * `MmixAsm.LineContent.readsAlone`
    * `MmixAsm.LineContent.ofLine_exchange_blanks`
    * `MmixAsm.LineContent.ofLine_end`
    * `MmixAsm.LineContent.ofLine_comment`
    * `MmixAsm.LineContent.reading_comma`
-/

------------------------------------------------------------
-- Contents
------------------------------------------------------------

namespace MmixAsm

/-
  The tokens of a line without their columns, and whether a
  string is left open.
-/
structure LineContent where
  tokens : List Token
  isOpen : Bool

/- What a scan says without its columns. -/
def Scan.content (scan : Scan) : LineContent where
  tokens := scan.tokens.map (·.2)
  isOpen := scan.unclosed.isSome

namespace LineContent

/- The content of a line. -/
def ofLine (line : List Char) : LineContent :=
  (Scan.ofLine 1 line).content

def nothing : LineContent where
  tokens := []
  isOpen := false

/- Some tokens in front of a content. -/
def prepend
    (tokens : List Token)
    (content : LineContent) : LineContent :=
  { content with tokens := tokens ++ content.tokens }

/- The fields of a line, and whether a string is open. -/
def reading (content : LineContent) : List Field × Bool :=
  (Field.ofTokens content.tokens, content.isOpen)

theorem prepend_append
    (front back : List Token)
    (content : LineContent) :
    prepend (front ++ back) content =
      prepend front (prepend back content) := by
  simp [prepend]

end LineContent

/- What no token of its own begins with is in a word. -/
theorem isDelimiter_eq_false
    {c : Char}
    (hBlank : ¬ isBlank c = true)
    (hComma : ¬ c = ',')
    (hQuote : ¬ c = '"') :
    isDelimiter c = false := by
  simp [isDelimiter, hBlank, hComma, hQuote]

namespace Scan

/- The text around a string that is closed. -/
theorem exists_quoted_split
    {cs rest : List Char}
    {head : Char}
    (h : cs.dropWhile (· != '"') = head :: rest) :
    cs = cs.takeWhile (· != '"') ++ '"' :: rest ∧
      ∀ c ∈ cs.takeWhile (· != '"'), c ≠ '"' := by
  have hHead := List.head?_dropWhile_not (· != '"') cs
  rw [h] at hHead
  have hQuote : head = '"' := by simpa using hHead
  rw [hQuote] at h
  constructor
  · rw [← h, List.takeWhile_append_dropWhile]
  · intro c hc
    have hKept := List.mem_takeWhile_imp hc
    exact bne_iff_ne.mp hKept

theorem ne_quote_of_dropWhile
    {cs : List Char}
    (h : cs.dropWhile (· != '"') = []) :
    ∀ c ∈ cs, c ≠ '"' :=
  fun c hc => bne_iff_ne.mp (List.dropWhile_eq_nil_iff.mp h c hc)

/- A line that begins with a blank. -/
theorem ofLine_leading
    {c : Char}
    (column : Nat)
    (cs : List Char)
    (hBlank : isBlank c = true) :
    ofLine column (c :: cs) =
      if (cs.dropWhile isBlank).isEmpty
          || startsComment (cs.dropWhile isBlank) then
        empty
      else
        cons column .space
          (ofLine
            (column + (c :: cs.takeWhile isBlank).length)
            (cs.dropWhile isBlank)) := by
  have hBlanks : ∀ d ∈ c :: cs.takeWhile isBlank,
      isBlank d = true :=
    List.forall_mem_cons.mpr
      ⟨hBlank, fun _ hd => List.mem_takeWhile_imp hd⟩
  have hScan := ofLine_blanks column (List.cons_ne_nil _ _)
    hBlanks (List.dropWhile_idempotent isBlank cs)
  rw [List.cons_append, List.takeWhile_append_dropWhile]
    at hScan
  exact hScan

/- The column where a line begins does not change it. -/
theorem content_ofLine
    (column other : Nat)
    (line : List Char) :
    (ofLine column line).content =
      (ofLine other line).content := by
  have hCons : ∀ (left right : Nat) (token : Token)
      (scan next : Scan), scan.content = next.content →
        (cons left token scan).content =
          (cons right token next).content := by
    intro left right token scan next h
    rw [LineContent.mk.injEq] at h ⊢
    exact ⟨congrArg (token :: ·) h.1, h.2⟩
  fun_induction ofLine column line generalizing other with
  | case1 column => rw [ofLine_nil]
  | case2 column c cs hComment =>
      rw [ofLine_silent other (by simp [hComment])]
  | case3 column c cs hComment hBlank rest hSilent =>
      rw [ofLine_leading other cs hBlank, if_pos hSilent]
  | case4 column c cs hComment hBlank rest hSilent ih =>
      rw [ofLine_leading other cs hBlank, if_neg hSilent]
      exact hCons _ _ _ _ _ (ih _)
  | case5 column cs hComment hBlank ih =>
      rw [ofLine_comma]
      exact hCons _ _ _ _ _ (ih _)
  | case6 column cs hDrop hComment hBlank hComma =>
      rw [ofLine_unclosed other (ne_quote_of_dropWhile hDrop)]
      rfl
  | case7 column cs head rest hDrop body hComment hBlank hComma
      ih =>
      rcases exists_quoted_split hDrop with ⟨hSplit, hBody⟩
      rw [hSplit, ofLine_quoted other rest hBody]
      exact hCons _ _ _ _ _ (ih _)
  | case8 column c cs hComment hBlank hComma hQuote split ih =>
      have hDelimiter :=
        isDelimiter_eq_false hBlank hComma hQuote
      have hNot := Bool.eq_false_iff.mpr hComment
      rw [ofLine_word other hDelimiter hNot,
        spanWord_cons hDelimiter hNot]
      exact hCons _ _ _ _ _ (ih _)

end Scan

namespace LineContent

variable {line : List Char}

/- What is read in front of a line is read first. -/
theorem ofLine_of_cons
    {text rest : List Char}
    {token : Token}
    {next : Nat}
    (h : Scan.ofLine 1 text =
      Scan.cons 1 token (Scan.ofLine next rest)) :
    ofLine text = prepend [token] (ofLine rest) := by
  rw [ofLine, ofLine, h, Scan.content_ofLine 1 next rest]
  rfl

theorem ofLine_silent
    (hSilent : (line.isEmpty || startsComment line) = true) :
    ofLine line = nothing := by
  rw [ofLine, Scan.ofLine_silent 1 hSilent]
  rfl

/- A run of blanks is one space, or nothing. -/
theorem ofLine_blanks
    {blanks : List Char}
    (hNonempty : blanks ≠ [])
    (hBlanks : ∀ c ∈ blanks, isBlank c = true)
    (hLine : line.dropWhile isBlank = line) :
    ofLine (blanks ++ line) =
      if line.isEmpty || startsComment line then
        nothing
      else
        prepend [.space] (ofLine line) := by
  have hScan := Scan.ofLine_blanks 1 hNonempty hBlanks hLine
  by_cases hSilent :
      (line.isEmpty || startsComment line) = true
  · rw [if_pos hSilent] at hScan ⊢
    rw [ofLine, hScan]
    rfl
  · rw [if_neg hSilent] at hScan ⊢
    exact ofLine_of_cons hScan

theorem ofLine_comma (line : List Char) :
    ofLine (',' :: line) = prepend [.comma] (ofLine line) :=
  ofLine_of_cons (Scan.ofLine_comma 1 line)

theorem ofLine_quoted
    {body : List Char}
    (rest : List Char)
    (hBody : ∀ c ∈ body, c ≠ '"') :
    ofLine ('"' :: (body ++ '"' :: rest)) =
      prepend [.quoted (String.ofList ('"' :: (body ++ ['"'])))]
        (ofLine rest) :=
  ofLine_of_cons (Scan.ofLine_quoted 1 rest hBody)

theorem ofLine_unclosed
    {body : List Char}
    (hBody : ∀ c ∈ body, c ≠ '"') :
    ofLine ('"' :: body) = ⟨[], true⟩ := by
  rw [ofLine, Scan.ofLine_unclosed 1 hBody]
  rfl

theorem ofLine_word
    {c : Char}
    {cs : List Char}
    (hDelimiter : isDelimiter c = false)
    (hComment : startsComment (c :: cs) = false) :
    ofLine (c :: cs) =
      prepend [.word (String.ofList (spanWord (c :: cs)).1)]
        (ofLine (spanWord (c :: cs)).2) :=
  ofLine_of_cons (Scan.ofLine_word 1 hDelimiter hComment)

end LineContent

end MmixAsm

------------------------------------------------------------
-- Zones
------------------------------------------------------------

namespace MmixAsm

/- Where in a text a place is. -/
inductive Zone where
  | code
  | quoted
  | comment
deriving DecidableEq

/- No blank begins a comment. -/
theorem startsComment_of_isBlank
    {c : Char}
    (cs : List Char)
    (hBlank : isBlank c = true) :
    startsComment (c :: cs) = false := by
  rw [Bool.eq_false_iff, Ne, startsComment_cons]
  rintro (rfl | ⟨tail, hTail⟩)
  · exact absurd hBlank (by decide)
  · cases (List.cons.inj hTail).1
    exact absurd hBlank (by decide)

namespace Zone

/- The zone behind one character. -/
def next
    (c : Char)
    (cs : List Char) :
    Zone → Zone
| .code =>
    if startsComment (c :: cs) then .comment
    else if c = '"' then .quoted
    else .code
| .quoted =>
    if c = '"' ∨ c = '\n' then .code else .quoted
| .comment =>
    if c = '\n' then .code else .comment

/- The zone behind a text. -/
def after
    (zone : Zone) :
    List Char → Zone
| [] => zone
| c :: cs => (zone.next c cs).after cs

/- A comment runs to the end of its line. -/
theorem after_comment
    {text : List Char}
    (hFeeds : ∀ c ∈ text, c ≠ '\n') :
    comment.after text = comment := by
  induction text with
  | nil => rfl
  | cons c rest ih =>
      rcases List.forall_mem_cons.mp hFeeds with ⟨hc, hRest⟩
      rw [after, next, if_neg hc]
      exact ih hRest

theorem after_code_of_startsComment
    {text : List Char}
    (hFeeds : ∀ c ∈ text, c ≠ '\n')
    (hComment : startsComment text = true) :
    code.after text = comment := by
  cases text with
  | nil => cases hComment
  | cons c rest =>
      rw [after, next, if_pos hComment]
      exact after_comment
        (List.forall_mem_cons.mp hFeeds).2

/- A string runs on up to its closing quote. -/
theorem after_quoted
    {body : List Char}
    (rest : List Char)
    (hBody : ∀ c ∈ body, c ≠ '"' ∧ c ≠ '\n') :
    quoted.after (body ++ rest) = quoted.after rest := by
  induction body with
  | nil => rfl
  | cons c body ih =>
      rcases List.forall_mem_cons.mp hBody with ⟨hc, hRest⟩
      rw [List.cons_append, after, next,
        if_neg (not_or.mpr hc)]
      exact ih hRest

/- What begins neither comment nor string stays code. -/
theorem after_code_cons
    {c : Char}
    {cs : List Char}
    (hComment : startsComment (c :: cs) = false)
    (hQuote : c ≠ '"') :
    code.after (c :: cs) = code.after cs := by
  rw [after, next, hComment, if_neg Bool.false_ne_true,
    if_neg hQuote]

theorem after_code_dropWhile
    (cs : List Char) :
    code.after (cs.dropWhile isBlank) = code.after cs := by
  induction cs with
  | nil => rfl
  | cons c rest ih =>
      by_cases hBlank : isBlank c = true
      · have hQuote : c ≠ '"' := by
          rintro rfl
          exact absurd hBlank (by decide)
        rw [List.dropWhile_cons_of_pos hBlank, ih,
          after_code_cons
            (startsComment_of_isBlank rest hBlank) hQuote]
      · rw [List.dropWhile_cons_of_neg hBlank]

theorem after_code_spanWord
    (cs : List Char) :
    code.after (spanWord cs).2 = code.after cs := by
  induction cs with
  | nil => rfl
  | cons c rest ih =>
      by_cases hStop :
          (isDelimiter c || startsComment (c :: rest)) = true
      · rw [spanWord, if_pos hStop]
      · rw [Bool.not_eq_true, Bool.or_eq_false_iff] at hStop
        have hQuote : c ≠ '"' := by
          rintro rfl
          exact absurd hStop.1 (by decide)
        rw [spanWord_cons hStop.1 hStop.2, ih,
          after_code_cons hStop.2 hQuote]

/-
  What a beginning of a line ends in: blanks, a comment, or a
  string that is not closed yet.
-/
def Leaves
    (tail : List Char) :
    Zone → Prop
| .code => ∀ c ∈ tail, isBlank c = true
| .comment => startsComment (tail.dropWhile isBlank) = true
| .quoted =>
    ∃ body, tail = '"' :: body ∧ ∀ c ∈ body, c ≠ '"'

end Zone

end MmixAsm

------------------------------------------------------------
-- The Beginning Of A Line
------------------------------------------------------------

namespace MmixAsm

/- What ends a word makes no comment of a slash before it. -/
theorem startsComment_append_of_endsWord
    {text rest : List Char}
    (hText : text ≠ [])
    (hRest : EndsWord rest) :
    startsComment (text ++ rest) = startsComment text := by
  rcases List.exists_cons_of_ne_nil hText with ⟨c, cs, rfl⟩
  rw [Bool.eq_iff_iff, List.cons_append, startsComment_cons,
    startsComment_cons]
  cases cs with
  | nil =>
      refine or_congr_right ⟨?_, ?_⟩
      · rintro ⟨tail, hTail⟩
        have hHead : rest = '/' :: tail :=
          ((List.cons.inj hTail).2).symm
        have hSlash := hRest '/' (by rw [hHead]; rfl)
        exact absurd hSlash (by decide)
      · rintro ⟨tail, hTail⟩
        cases (List.cons.inj hTail).2
  | cons d cs => simp

/- A word in front of what ends it is read alone. -/
theorem spanWord_append_of_endsWord
    (text : List Char)
    {rest : List Char}
    (hRest : EndsWord rest) :
    spanWord (text ++ rest) =
      ((spanWord text).1, (spanWord text).2 ++ rest) := by
  induction text with
  | nil =>
      cases rest with
      | nil => rfl
      | cons d rest =>
          simp [spanWord, hRest d rfl]
  | cons c cs ih =>
      have hComment := startsComment_append_of_endsWord
        (List.cons_ne_nil c cs) hRest
      rw [List.cons_append] at hComment ⊢
      by_cases hStop :
          (isDelimiter c || startsComment (c :: cs)) = true
      · rw [spanWord, hComment, if_pos hStop, spanWord,
          if_pos hStop]
        rfl
      · rw [Bool.not_eq_true, Bool.or_eq_false_iff] at hStop
        rw [spanWord_cons hStop.1 (hComment.trans hStop.2), ih,
          spanWord_cons hStop.1 hStop.2]

namespace LineContent

/-
  The beginning of a line gives some tokens and leaves a tail
  to be read with the rest, if the rest cannot go on with a
  word.
-/
def ReadsAlone (text : List Char) : Prop :=
  ∃ tokens tail,
    (Zone.code.after text).Leaves tail ∧
      ∀ rest, EndsWord rest →
        ofLine (text ++ rest) =
          prepend tokens (ofLine (tail ++ rest))

/- A text without a token is all tail. -/
theorem readsAlone_of_leaves
    {text : List Char}
    (hLeaves : (Zone.code.after text).Leaves text) :
    ReadsAlone text :=
  ⟨[], text, hLeaves, fun _ _ => rfl⟩

/- One token is read in front of the others. -/
theorem ReadsAlone.cons
    {text part : List Char}
    (token : Token)
    (hPart : ReadsAlone part)
    (hZone : Zone.code.after text = Zone.code.after part)
    (hStep : ∀ rest, EndsWord rest →
      ofLine (text ++ rest) =
        prepend [token] (ofLine (part ++ rest))) :
    ReadsAlone text := by
  rcases hPart with ⟨tokens, tail, hLeaves, hRead⟩
  refine ⟨token :: tokens, tail, ?_, ?_⟩
  · rw [hZone]
    exact hLeaves
  · intro rest hRest
    rw [hStep rest hRest, hRead rest hRest, ← prepend_append]
    rfl

/- Blanks in front of something are a space. -/
theorem readsAlone_blanks
    {text : List Char}
    (hBlank : text.takeWhile isBlank ≠ [])
    (hLoud : ((text.dropWhile isBlank).isEmpty
      || startsComment (text.dropWhile isBlank)) = false)
    (hPart : ReadsAlone (text.dropWhile isBlank)) :
    ReadsAlone text := by
  rw [Bool.or_eq_false_iff] at hLoud
  have hSome : text.dropWhile isBlank ≠ [] :=
    List.isEmpty_eq_false_iff.mp hLoud.1
  refine hPart.cons .space
    (Zone.after_code_dropWhile text).symm ?_
  intro rest hRest
  have hText : text ++ rest =
      text.takeWhile isBlank
        ++ (text.dropWhile isBlank ++ rest) := by
    rw [← List.append_assoc, List.takeWhile_append_dropWhile]
  have hDrop : (text.dropWhile isBlank ++ rest).dropWhile
      isBlank = text.dropWhile isBlank ++ rest := by
    rcases List.exists_cons_of_ne_nil hSome with ⟨c, cs, hcs⟩
    have hNot := isBlank_head_dropWhile text c (by rw [hcs]; rfl)
    rw [hcs, List.cons_append, List.dropWhile_cons_of_neg
      (by simp [hNot])]
  rw [hText, ofLine_blanks hBlank
    (fun c hc => List.mem_takeWhile_imp hc) hDrop, if_neg]
  rw [startsComment_append_of_endsWord hSome hRest, hLoud.2]
  simp [hSome]

theorem readsAlone_quoted
    {body part : List Char}
    (hBody : ∀ c ∈ body, c ≠ '"' ∧ c ≠ '\n')
    (hPart : ReadsAlone part) :
    ReadsAlone ('"' :: (body ++ '"' :: part)) := by
  refine hPart.cons
    (.quoted (String.ofList ('"' :: (body ++ ['"'])))) ?_ ?_
  · rw [Zone.after, Zone.next, if_neg (by simp [startsComment]),
      if_pos rfl, Zone.after_quoted _ hBody, Zone.after,
      Zone.next, if_pos (.inl rfl)]
  · intro rest _
    rw [List.cons_append, List.append_assoc, List.cons_append]
    exact ofLine_quoted _ fun c hc => (hBody c hc).1

theorem readsAlone_word
    {c : Char}
    {cs : List Char}
    (hDelimiter : isDelimiter c = false)
    (hComment : startsComment (c :: cs) = false)
    (hPart : ReadsAlone (spanWord (c :: cs)).2) :
    ReadsAlone (c :: cs) := by
  refine hPart.cons
    (.word (String.ofList (spanWord (c :: cs)).1))
    (Zone.after_code_spanWord _).symm ?_
  intro rest hRest
  have hSpan := spanWord_append_of_endsWord (c :: cs) hRest
  have hStarts := startsComment_append_of_endsWord
    (List.cons_ne_nil c cs) hRest
  rw [List.cons_append] at hSpan hStarts ⊢
  rw [ofLine_word hDelimiter (hStarts.trans hComment), hSpan]

theorem ne_feed_dropWhile
    {text : List Char}
    (hFeeds : ∀ c ∈ text, c ≠ '\n') :
    ∀ c ∈ text.dropWhile isBlank, c ≠ '\n' :=
  fun c hc => hFeeds c ((List.dropWhile_suffix _).subset hc)

/- Every beginning of a line is read so. -/
theorem readsAlone
    {text : List Char}
    (hFeeds : ∀ c ∈ text, c ≠ '\n') :
    ReadsAlone text := by
  -- The cases are those of the scan, whose column is free.
  generalize hColumn : (1 : Nat) = column
  clear hColumn
  fun_induction Scan.ofLine column text with
  | case1 column =>
      exact readsAlone_of_leaves
        fun _ hc => absurd hc List.not_mem_nil
  | case2 column c cs hComment =>
      have hBlank : ¬ isBlank c = true := by
        intro hBlank
        rw [startsComment_of_isBlank cs hBlank] at hComment
        cases hComment
      apply readsAlone_of_leaves
      rw [Zone.after_code_of_startsComment hFeeds hComment,
        Zone.Leaves, List.dropWhile_cons_of_neg hBlank]
      exact hComment
  | case3 column c cs hComment hBlank rest hSilent =>
      have hDrop : (c :: cs).dropWhile isBlank = rest :=
        List.dropWhile_cons_of_pos hBlank
      apply readsAlone_of_leaves
      rw [← Zone.after_code_dropWhile, hDrop]
      rcases Bool.or_eq_true_iff.mp hSilent with hNil | hStarts
      · rw [List.isEmpty_iff.mp hNil] at hDrop ⊢
        exact List.dropWhile_eq_nil_iff.mp hDrop
      · have hRest := ne_feed_dropWhile hFeeds
        rw [hDrop] at hRest
        rw [Zone.after_code_of_startsComment hRest hStarts,
          Zone.Leaves, hDrop]
        exact hStarts
  | case4 column c cs hComment hBlank rest hSilent ih =>
      have hDrop : (c :: cs).dropWhile isBlank = rest :=
        List.dropWhile_cons_of_pos hBlank
      have hRest := ne_feed_dropWhile hFeeds
      rw [hDrop] at hRest
      apply readsAlone_blanks
      · rw [List.takeWhile_cons_of_pos hBlank]
        exact List.cons_ne_nil _ _
      · rw [hDrop]
        exact Bool.eq_false_iff.mpr hSilent
      · rw [hDrop]
        exact ih hRest
  | case5 column cs hComment hBlank ih =>
      have hPart := ih (List.forall_mem_cons.mp hFeeds).2
      refine hPart.cons .comma ?_ fun rest _ => ofLine_comma _
      exact Zone.after_code_cons
        (Bool.eq_false_iff.mpr hComment) (by decide)
  | case6 column cs hDrop hComment hBlank hComma =>
      have hBody := Scan.ne_quote_of_dropWhile hDrop
      have hZone : Zone.code.after ('"' :: cs) = .quoted := by
        rw [Zone.after, Zone.next, if_neg hComment, if_pos rfl]
        have hAll := Zone.after_quoted [] fun c hc =>
          ⟨hBody c hc, hFeeds c (List.mem_cons_of_mem _ hc)⟩
        rwa [List.append_nil] at hAll
      apply readsAlone_of_leaves
      rw [hZone]
      exact ⟨cs, rfl, hBody⟩
  | case7 column cs head rest hDrop body hComment hBlank hComma
      ih =>
      rcases Scan.exists_quoted_split hDrop with ⟨hSplit, hBody⟩
      have hChars : ∀ c ∈ cs, c ≠ '\n' :=
        (List.forall_mem_cons.mp hFeeds).2
      rw [hSplit] at hChars ⊢
      rcases List.forall_mem_append.mp hChars with
        ⟨hInside, hBehind⟩
      exact readsAlone_quoted
        (fun c hc => ⟨hBody c hc, hInside c hc⟩)
        (ih (List.forall_mem_cons.mp hBehind).2)
  | case8 column c cs hComment hBlank hComma hQuote split ih =>
      have hDelimiter :=
        isDelimiter_eq_false hBlank hComma hQuote
      have hNot := Bool.eq_false_iff.mpr hComment
      apply readsAlone_word hDelimiter hNot
      rw [spanWord_cons hDelimiter hNot]
      apply ih
      intro d hd
      apply hFeeds d
      rw [← spanWord_append cs]
      exact List.mem_cons_of_mem c (List.mem_append_right _ hd)

end LineContent

end MmixAsm

------------------------------------------------------------
-- Changes In A Line
------------------------------------------------------------

namespace MmixAsm

/- Nothing but blanks. -/
def AllBlank (cs : List Char) : Prop :=
  ∀ c ∈ cs, isBlank c = true

theorem AllBlank.nil : AllBlank [] :=
  fun _ hc => absurd hc List.not_mem_nil

theorem AllBlank.singleton
    {c : Char}
    (hBlank : isBlank c = true) :
    AllBlank [c] :=
  List.forall_mem_singleton.mpr hBlank

theorem AllBlank.append
    {left right : List Char}
    (hLeft : AllBlank left)
    (hRight : AllBlank right) :
    AllBlank (left ++ right) :=
  List.forall_mem_append.mpr ⟨hLeft, hRight⟩

/- Blanks end a word if what follows them does. -/
theorem AllBlank.endsWord
    {blanks rest : List Char}
    (hBlanks : AllBlank blanks)
    (hRest : blanks = [] → EndsWord rest) :
    EndsWord (blanks ++ rest) := by
  cases blanks with
  | nil => exact hRest rfl
  | cons c cs =>
      apply endsWord_cons
      rw [isDelimiter, hBlanks c List.mem_cons_self]
      rfl

theorem AllBlank.isSilent_append
    {blanks : List Char}
    (hBlanks : AllBlank blanks)
    (rest : List Char) :
    isSilent (blanks ++ rest) = isSilent rest := by
  unfold isSilent
  rw [List.dropWhile_append_of_pos hBlanks]

/- A comment stays one, whatever follows. -/
theorem isSilent_append_of_comment
    {text : List Char}
    (rest : List Char)
    (hComment :
      startsComment (text.dropWhile isBlank) = true) :
    isSilent (text ++ rest) = true := by
  cases hDrop : text.dropWhile isBlank with
  | nil =>
      rw [hDrop] at hComment
      cases hComment
  | cons c cs =>
      have hBlank := isBlank_head_dropWhile text c
        (by rw [hDrop]; rfl)
      have hText : text ++ rest =
          text.takeWhile isBlank ++ (c :: (cs ++ rest)) := by
        rw [← List.cons_append, ← hDrop, ← List.append_assoc,
          List.takeWhile_append_dropWhile]
      have hBlanks : AllBlank (text.takeWhile isBlank) :=
        fun d hd => List.mem_takeWhile_imp hd
      rw [hText, hBlanks.isSilent_append, isSilent,
        List.dropWhile_cons_of_neg (by simp [hBlank])]
      rw [hDrop, startsComment_cons] at hComment
      rw [Bool.or_eq_true_iff, startsComment_cons]
      refine .inr (hComment.imp_right fun hSlashes => ?_)
      exact hSlashes.trans (List.prefix_append (c :: cs) rest)

theorem isSilent_of_startsComment
    {text : List Char}
    (hComment : startsComment text = true) :
    isSilent text = true := by
  have hStarts :
      startsComment (text.dropWhile isBlank) = true := by
    cases text with
    | nil => cases hComment
    | cons c cs =>
        rw [List.dropWhile_cons_of_neg]
        · exact hComment
        · intro hBlank
          rw [startsComment_of_isBlank cs hBlank] at hComment
          cases hComment
  have hSilent := isSilent_append_of_comment [] hStarts
  rwa [List.append_nil] at hSilent

namespace LineContent

variable {text old new rest : List Char}

/- The space that a line begins with, or nothing. -/
def leadingSpace (line : List Char) : List Token :=
  if (line.takeWhile isBlank).isEmpty then [] else [.space]

/- The blanks in front of a line are one space at most. -/
theorem ofLine_eq (line : List Char) :
    ofLine line =
      if isSilent line then
        nothing
      else
        prepend (leadingSpace line)
          (ofLine (line.dropWhile isBlank)) := by
  have hLine := List.takeWhile_append_dropWhile
    (p := isBlank) (l := line)
  by_cases hNone : line.takeWhile isBlank = []
  · rw [hNone, List.nil_append] at hLine
    rw [leadingSpace, isSilent, hNone, hLine]
    split
    · next hSilent => exact ofLine_silent hSilent
    · rfl
  · have hRead := ofLine_blanks hNone
      (fun c hc => List.mem_takeWhile_imp hc)
      (List.dropWhile_idempotent isBlank line)
    rw [hLine] at hRead
    rw [hRead, leadingSpace, List.isEmpty_eq_false_iff.mpr hNone]
    rfl

theorem ofLine_of_isSilent
    (hSilent : isSilent text = true) :
    ofLine text = nothing := by
  rw [ofLine_eq, if_pos hSilent]

/- One run of blanks in front of a line is like another. -/
theorem ofLine_exchange_run
    (hOld : AllBlank old)
    (hNew : AllBlank new)
    (hOldSome : old ≠ [])
    (hNewSome : new ≠ []) :
    ofLine (old ++ rest) = ofLine (new ++ rest) := by
  have hSpace : ∀ {run : List Char}, AllBlank run → run ≠ [] →
      leadingSpace (run ++ rest) = [.space] := by
    intro run hRun hSome
    rw [leadingSpace, List.takeWhile_append_of_pos hRun,
      if_neg (by simp [hSome])]
  rw [ofLine_eq (old ++ rest), ofLine_eq (new ++ rest),
    hOld.isSilent_append, hNew.isSilent_append,
    hSpace hOld hOldSome, hSpace hNew hNewSome,
    List.dropWhile_append_of_pos hOld,
    List.dropWhile_append_of_pos hNew]

/- A space or nothing at all. -/
def IsGap (tokens : List Token) : Prop :=
  tokens = [] ∨ tokens = [.space]

theorem isGap_leadingSpace (line : List Char) :
    IsGap (leadingSpace line) := by
  unfold leadingSpace
  split
  · exact .inl rfl
  · exact .inr rfl

/- Blanks in front of a line are such a gap. -/
theorem exists_gap
    (hOld : AllBlank old)
    (rest : List Char) :
    ∃ gap, IsGap gap ∧
      ofLine (old ++ rest) =
        prepend gap (ofLine (rest.dropWhile isBlank)) := by
  have hBehind : isSilent (rest.dropWhile isBlank) =
      isSilent rest := by
    rw [isSilent, List.dropWhile_idempotent, isSilent]
  rw [ofLine_eq (old ++ rest), hOld.isSilent_append,
    List.dropWhile_append_of_pos hOld]
  by_cases hSilent : isSilent rest = true
  · refine ⟨[], .inl rfl, ?_⟩
    rw [if_pos hSilent, ofLine_of_isSilent]
    · rfl
    · rw [hBehind, hSilent]
  · rw [if_neg hSilent]
    exact ⟨_, isGap_leadingSpace _, rfl⟩

/- Blanks in front of a comma are a space or nothing. -/
theorem ofLine_run_comma
    (hOld : AllBlank old) :
    ofLine (old ++ ',' :: rest) =
      prepend (leadingSpace old)
        (prepend [.comma] (ofLine rest)) := by
  have hSilent : isSilent (',' :: rest) = false := by
    simp [isSilent, isBlank, startsComment]
  have hComma : ¬ isBlank ',' = true := by
    decide
  have hTake : (old ++ ',' :: rest).takeWhile isBlank =
      old.takeWhile isBlank := by
    rw [List.takeWhile_append_of_pos hOld,
      List.takeWhile_cons_of_neg hComma, List.append_nil,
      List.takeWhile_eq_self_iff.mpr hOld]
  rw [ofLine_eq, hOld.isSilent_append, hSilent,
    if_neg Bool.false_ne_true, leadingSpace, hTake,
    List.dropWhile_append_of_pos hOld,
    List.dropWhile_cons_of_neg hComma, ofLine_comma,
    leadingSpace]

end LineContent

end MmixAsm

------------------------------------------------------------
-- Lines That Are Read Alike
------------------------------------------------------------

namespace MmixAsm

namespace OpenLine

/- A blank in front of a comma is taken back. -/
theorem push_space_push_comma (line : OpenLine) :
    (line.push .space).push .comma = line.push .comma := by
  rcases line with ⟨closed, current⟩
  cases current with
  | nil => rfl
  | cons first others =>
      rw [push_space_comma fun hNil => by cases hNil]
      rfl

/- A blank behind a comma separates nothing. -/
theorem push_comma_push_space (line : OpenLine) :
    (line.push .comma).push .space = line.push .comma := by
  have hJoined : ∀ closed field,
      joined ⟨closed, field ++ [.comma]⟩ = true :=
    fun closed field => joined_concat closed field .comma
  rcases line with ⟨closed, current⟩
  cases current with
  | cons first others =>
      exact push_space_of_joined
        (hJoined closed (first :: others))
  | nil =>
      cases closed with
      | nil => rfl
      | cons previous others =>
          exact push_space_of_joined (hJoined others previous)

end OpenLine

namespace LineContent

variable {text old new gap rest : List Char}

/- The fields of some tokens, a comma and a content. -/
def fieldsAtComma
    (front : List Token)
    (content : LineContent) : List Field :=
  (content.tokens.foldl OpenLine.push
    ((front.foldl OpenLine.push .empty).push .comma)).fields

/- Spaces beside a comma do not change the fields. -/
theorem ofTokens_beside_comma
    {front lead trail : List Token}
    {content : LineContent}
    (hLead : IsGap lead)
    (hTrail : IsGap trail)
    (hApart : SpacesApart
      (front ++ lead ++ .comma :: trail ++ content.tokens)) :
    Field.ofTokens
        (front ++ lead ++ .comma :: trail ++ content.tokens) =
      fieldsAtComma front content := by
  have hPushed :
      (lead ++ .comma :: trail).foldl OpenLine.push
          (front.foldl OpenLine.push .empty) =
        (front.foldl OpenLine.push .empty).push .comma := by
    rcases hLead with rfl | rfl
    · rcases hTrail with rfl | rfl
      · rfl
      · exact OpenLine.push_comma_push_space _
    · rcases hTrail with rfl | rfl
      · exact OpenLine.push_space_push_comma _
      · exact (congrArg (OpenLine.push · .space)
          (OpenLine.push_space_push_comma _)).trans
          (OpenLine.push_comma_push_space _)
  rw [← OpenLine.fields_foldl_push hApart, List.append_assoc front,
    List.foldl_append, List.foldl_append, hPushed, fieldsAtComma]

/- One run of blanks within a line is like another. -/
theorem ofLine_exchange_blanks
    (hFeeds : ∀ c ∈ text, c ≠ '\n')
    (hZone : Zone.code.after text = .code)
    (hOld : AllBlank old)
    (hNew : AllBlank new)
    (hOldSome : old ≠ [])
    (hNewSome : new ≠ []) :
    ofLine (text ++ (old ++ rest)) =
      ofLine (text ++ (new ++ rest)) := by
  rcases readsAlone hFeeds with ⟨tokens, tail, hLeaves, hRead⟩
  rw [hZone] at hLeaves
  have hRun : ofLine (tail ++ (old ++ rest)) =
      ofLine (tail ++ (new ++ rest)) := by
    rw [← List.append_assoc, ← List.append_assoc]
    exact ofLine_exchange_run (AllBlank.append hLeaves hOld)
      (AllBlank.append hLeaves hNew) (by simp [hOldSome])
      (by simp [hNewSome])
  rw [hRead _ (hOld.endsWord fun hNil => absurd hNil hOldSome),
    hRead _ (hNew.endsWord fun hNil => absurd hNil hNewSome),
    hRun]

/- Blanks in front of a line say nothing. -/
theorem reading_start
    (hOld : AllBlank old)
    (rest : List Char) :
    (ofLine (old ++ rest)).reading =
      (ofLine (rest.dropWhile isBlank)).reading := by
  rcases exists_gap hOld rest with ⟨gap, rfl | rfl, hRead⟩
  · rw [hRead]
    rfl
  · rw [hRead]
    exact Prod.ext (Field.ofTokens_space _) rfl

/- A string that is open stays so without a quote. -/
theorem isOpen_of_quoted
    (hFeeds : ∀ c ∈ text, c ≠ '\n')
    (hZone : Zone.code.after text = .quoted)
    (hRest : EndsWord rest)
    (hQuotes : ∀ c ∈ rest, c ≠ '"') :
    ∃ tokens, ofLine (text ++ rest) = ⟨tokens, true⟩ ∧
      ofLine text = ⟨tokens, true⟩ := by
  rcases readsAlone hFeeds with ⟨tokens, tail, hLeaves, hRead⟩
  rw [hZone] at hLeaves
  rcases hLeaves with ⟨body, rfl, hBody⟩
  have hText := hRead [] endsWord_nil
  rw [List.append_nil, List.append_nil, ofLine_unclosed hBody]
    at hText
  have hBoth : ∀ c ∈ body ++ rest, c ≠ '"' :=
    List.forall_mem_append.mpr ⟨hBody, hQuotes⟩
  refine ⟨tokens ++ [], ?_, hText⟩
  rw [hRead rest hRest, List.cons_append,
    ofLine_unclosed hBoth]
  rfl

/- What is silent alone is silent outside of strings. -/
theorem ofLine_append_silent
    (hFeeds : ∀ c ∈ text, c ≠ '\n')
    (hZone : Zone.code.after text ≠ .quoted)
    (hRest : EndsWord rest)
    (hSilent : isSilent rest = true) :
    ofLine (text ++ rest) = ofLine text := by
  rcases readsAlone hFeeds with ⟨tokens, tail, hLeaves, hRead⟩
  have hTail : ∀ behind, isSilent behind = true →
      ofLine (tail ++ behind) = nothing := by
    intro behind hBehind
    apply ofLine_of_isSilent
    cases hAfter : Zone.code.after text with
    | quoted => exact absurd hAfter hZone
    | code =>
        rw [hAfter] at hLeaves
        rw [AllBlank.isSilent_append hLeaves, hBehind]
    | comment =>
        rw [hAfter] at hLeaves
        exact isSilent_append_of_comment behind hLeaves
  have hText := hRead [] endsWord_nil
  rw [hTail [] rfl, List.append_nil] at hText
  rw [hRead rest hRest, hTail rest hSilent, hText]

/- Blanks at the end of a line say nothing. -/
theorem ofLine_end
    (hFeeds : ∀ c ∈ text, c ≠ '\n')
    (hOld : AllBlank old) :
    ofLine (text ++ old) = ofLine text := by
  have hEnds : EndsWord old := by
    have hBlanks := hOld.endsWord fun _ => endsWord_nil
    rwa [List.append_nil] at hBlanks
  by_cases hZone : Zone.code.after text = .quoted
  · have hQuotes : ∀ c ∈ old, c ≠ '"' := by
      rintro c hc rfl
      exact absurd (hOld '"' hc) (by decide)
    rcases isOpen_of_quoted hFeeds hZone hEnds hQuotes with
      ⟨tokens, hBoth, hText⟩
    rw [hBoth, hText]
  · have hSilent := hOld.isSilent_append []
    rw [List.append_nil] at hSilent
    exact ofLine_append_silent hFeeds hZone hEnds hSilent

/- A comment behind a blank says nothing. -/
theorem ofLine_comment
    {blank : Char}
    {comment : List Char}
    (hFeeds : ∀ c ∈ text, c ≠ '\n')
    (hClosed : (ofLine text).isOpen = false)
    (hBlank : isBlank blank = true)
    (hComment : startsComment comment = true) :
    ofLine (text ++ blank :: comment) = ofLine text := by
  have hZone : Zone.code.after text ≠ .quoted := by
    intro hQuoted
    rcases isOpen_of_quoted hFeeds hQuoted endsWord_nil
      (fun _ hc => absurd hc List.not_mem_nil) with
      ⟨tokens, _, hText⟩
    rw [hText] at hClosed
    cases hClosed
  have hEnds : EndsWord (blank :: comment) := by
    apply endsWord_cons
    rw [isDelimiter, hBlank]
    rfl
  apply ofLine_append_silent hFeeds hZone hEnds
  rw [← List.singleton_append,
    (AllBlank.singleton hBlank).isSilent_append]
  exact isSilent_of_startsComment hComment

/-
  Whatever blanks stand beside a comma, the fields are those
  of the tokens in front, the comma and what stands behind.
-/
theorem exists_fieldsAtComma
    (hFeeds : ∀ c ∈ text, c ≠ '\n')
    (hZone : Zone.code.after text = .code) :
    ∃ front, ∀ {lead trail : List Char} (rest : List Char),
      AllBlank lead → AllBlank trail →
        (ofLine (text ++ (lead ++ ',' :: (trail ++ rest)))).reading =
          (fieldsAtComma front (ofLine (rest.dropWhile isBlank)),
            (ofLine (rest.dropWhile isBlank)).isOpen) := by
  rcases readsAlone hFeeds with ⟨front, tail, hLeaves, hRead⟩
  rw [hZone] at hLeaves
  refine ⟨front, ?_⟩
  intro lead trail rest hLead hTrail
  have hEnds : EndsWord (lead ++ ',' :: (trail ++ rest)) :=
    hLead.endsWord fun _ => endsWord_cons _ rfl
  rcases exists_gap hTrail rest with ⟨gap, hGap, hBehind⟩
  have hLine : ofLine (text ++ (lead ++ ',' :: (trail ++ rest))) =
      prepend
        (front ++ leadingSpace (tail ++ lead) ++ .comma :: gap)
        (ofLine (rest.dropWhile isBlank)) := by
    rw [hRead _ hEnds, ← List.append_assoc,
      ofLine_run_comma (AllBlank.append hLeaves hLead), hBehind]
    simp [prepend]
  have hApart :
      SpacesApart
        (ofLine (text ++ (lead ++ ',' :: (trail ++ rest)))).tokens :=
    Scan.spacesApart_ofLine 1 _
  rw [hLine] at hApart ⊢
  exact Prod.ext
    (ofTokens_beside_comma (isGap_leadingSpace _) hGap hApart) rfl

/- Blanks beside a comma say nothing, on either side. -/
theorem reading_comma
    {gap' : List Char}
    (rest : List Char)
    (hFeeds : ∀ c ∈ text, c ≠ '\n')
    (hZone : Zone.code.after text = .code)
    (hOld : AllBlank old)
    (hGap : AllBlank gap)
    (hNew : AllBlank new)
    (hGap' : AllBlank gap') :
    (ofLine (text ++ (old ++ ',' :: (gap ++ rest)))).reading =
      (ofLine (text ++ (new ++ ',' :: (gap' ++ rest)))).reading := by
  rcases exists_fieldsAtComma hFeeds hZone with ⟨front, hRead⟩
  rw [hRead rest hOld hGap, hRead rest hNew hGap']

end LineContent

end MmixAsm
