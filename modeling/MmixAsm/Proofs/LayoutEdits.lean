import Mathlib.Logic.Relation
import MmixAsm.Proofs.LineContent

/-
  The layout of a text does not change what is read from it.

  A change of the layout stays within one line.  It leaves
  the fields of this line alone, and a file is read from the
  fields of its lines.

  Key definitions include:
    * `MmixAsm.LayoutEdit`
    * `MmixAsm.Around`
    * `MmixAsm.lineReadings`

  Key theorems include:
    * `MmixAsm.LayoutEdit.lineReadings_eq`
    * `MmixAsm.SourceFile.parse_of_lineReadings`
    * `MmixAsm.SourceFile.parse_ignores_layout`
-/

------------------------------------------------------------
-- Changes Of The Layout
------------------------------------------------------------

namespace MmixAsm

/- Behind this text a line begins. -/
def AtLineStart (before : List Char) : Prop :=
  ∀ c ∈ before.getLast?, c = '\n'

instance (before : List Char) :
    Decidable (AtLineStart before) :=
  Option.decidableForallMem before.getLast?

/-
  A change outside of strings and comments that is a matter
  of layout: of a run of blanks, of the blanks at the start
  or at the end of a line or beside a comma, or a comment
  that is put behind a line.
-/
inductive LayoutEdit : List Char → List Char → Prop
| blanks
    {before old new after : List Char}
    (hZone : Zone.code.after before = .code)
    (hOld : AllBlank old)
    (hNew : AllBlank new)
    (hOldSome : old ≠ [])
    (hNewSome : new ≠ []) :
    LayoutEdit (before ++ (old ++ after))
      (before ++ (new ++ after))
| lineStart
    {before old new after : List Char}
    (hStart : AtLineStart before)
    (hOld : AllBlank old)
    (hNew : AllBlank new) :
    LayoutEdit (before ++ (old ++ after))
      (before ++ (new ++ after))
| lineEnd
    {before old new after : List Char}
    (hEnd : lineLeft after = [])
    (hOld : AllBlank old)
    (hNew : AllBlank new) :
    LayoutEdit (before ++ (old ++ after))
      (before ++ (new ++ after))
| beforeComma
    {before old new after : List Char}
    (hZone : Zone.code.after before = .code)
    (hOld : AllBlank old)
    (hNew : AllBlank new) :
    LayoutEdit (before ++ (old ++ ',' :: after))
      (before ++ (new ++ ',' :: after))
| afterComma
    {before old new after : List Char}
    (hZone : Zone.code.after before = .code)
    (hOld : AllBlank old)
    (hNew : AllBlank new) :
    LayoutEdit (before ++ (',' :: old ++ after))
      (before ++ (',' :: new ++ after))
| comment
    {before comment after : List Char}
    {blank : Char}
    (hEnd : lineLeft after = [])
    (hBlank : isBlank blank = true)
    (hComment : startsComment comment = true)
    (hChars : ∀ c ∈ comment, isLineChar c) :
    LayoutEdit (before ++ after)
      (before ++ (blank :: comment ++ after))

end MmixAsm

------------------------------------------------------------
-- The Line Around A Place
------------------------------------------------------------

namespace MmixAsm

/- Every line begins outside of strings and comments. -/
theorem Zone.after_feed
    (zone : Zone)
    (front rest : List Char) :
    zone.after (front ++ '\n' :: rest) = code.after rest := by
  induction front generalizing zone with
  | nil =>
      cases zone with
      | code => simp [after, next, startsComment]
      | quoted => simp [after, next]
      | comment => simp [after, next]
  | cons c front ih => exact ih _

namespace AtLineStart

variable {before : List Char}

theorem eq_nil_or_concat
    (hStart : AtLineStart before) :
    before = [] ∨ ∃ front, before = front ++ ['\n'] := by
  rcases List.eq_nil_or_concat before with
    hNil | ⟨front, c, rfl⟩
  · exact .inl hNil
  · have hFeed : c = '\n' :=
      hStart c (by rw [List.concat_eq_append]; simp)
    exact .inr ⟨front, by rw [hFeed, List.concat_eq_append]⟩

/- The zone at a place is that of its line alone. -/
theorem zone_append
    (hStart : AtLineStart before)
    (line : List Char) :
    Zone.code.after (before ++ line) =
      Zone.code.after line := by
  rcases hStart.eq_nil_or_concat with rfl | ⟨front, rfl⟩
  · rfl
  · rw [List.append_assoc]
    exact Zone.after_feed .code front line

/- The lines in front of a line stay what they are. -/
theorem exists_splitWhere
    (hStart : AtLineStart before) :
    ∃ lines, ∀ rest,
      splitWhere (· == '\n') (before ++ rest) =
        lines ++ splitWhere (· == '\n') rest := by
  rcases hStart.eq_nil_or_concat with rfl | ⟨front, rfl⟩
  · exact ⟨[], fun _ => rfl⟩
  · refine ⟨splitWhere (· == '\n') front, fun rest => ?_⟩
    rw [List.append_assoc, List.singleton_append,
      splitWhere_eq_splitOnP, splitWhere_eq_splitOnP,
      splitWhere_eq_splitOnP,
      List.splitOnP_append_cons front rest rfl]

end AtLineStart

/- The first line of a text begins with a part of it. -/
theorem splitWhere_feed_append
    {start : List Char}
    (rest : List Char)
    (hStart : ∀ c ∈ start, c ≠ '\n') :
    splitWhere (· == '\n') (start ++ rest) =
      (start ++ lineLeft rest) ::
        (splitWhere (· == '\n') rest).tail := by
  have hDrop : (start ++ rest).dropWhile (· != '\n') =
      rest.dropWhile (· != '\n') :=
    List.dropWhile_append_of_pos
      fun c hc => bne_iff_ne.mpr (hStart c hc)
  rw [splitWhere_feed, splitWhere_feed rest, hDrop,
    lineLeft_append rest hStart, List.tail_cons]

/- The beginning of the line that a text ends in. -/
theorem exists_lineStart
    (before : List Char) :
    ∃ front start,
      before = front ++ start ∧ AtLineStart front ∧
        ∀ c ∈ start, c ≠ '\n' := by
  induction before using List.reverseRecOn with
  | nil =>
      refine ⟨[], [], rfl, ?_, ?_⟩
      · intro c hc
        cases hc
      · intro c hc
        cases hc
  | append_singleton before c ih =>
      by_cases hFeed : c = '\n'
      · subst hFeed
        refine ⟨before ++ ['\n'], [], by simp, ?_, ?_⟩
        · intro c hc
          simpa [eq_comm] using hc
        · intro c hc
          cases hc
      · rcases ih with ⟨front, start, rfl, hFront, hStart⟩
        refine ⟨front, start ++ [c], by simp, hFront, ?_⟩
        exact List.forall_mem_append.mpr
          ⟨hStart, by simpa using hFeed⟩

/-
  The line at a place of a text: what stands in front of the
  place on the line, and the lines in front and behind.
-/
structure Around
    (before after : List Char)
    (front : List (List Char))
    (start : List Char)
    (back : List (List Char)) : Prop where
  feeds : ∀ c ∈ start, c ≠ '\n'
  zone : Zone.code.after start = Zone.code.after before
  nothing : AtLineStart before → start = []
  lines : ∀ {part : List Char}, (∀ c ∈ part, c ≠ '\n') →
    splitWhere (· == '\n') (before ++ (part ++ after)) =
      front ++ (start ++ (part ++ lineLeft after)) :: back

/- Around every place there is a line. -/
theorem exists_around
    (before after : List Char) :
    ∃ front start back, Around before after front start back := by
  rcases exists_lineStart before with
    ⟨earlier, start, rfl, hEarlier, hStart⟩
  rcases hEarlier.exists_splitWhere with ⟨front, hFront⟩
  refine ⟨front, start, (splitWhere (· == '\n') after).tail,
    hStart, (hEarlier.zone_append start).symm, ?_, ?_⟩
  · intro hLine
    rcases List.eq_nil_or_concat start with
      hNil | ⟨init, c, rfl⟩
    · exact hNil
    · rw [List.concat_eq_append] at hLine hStart
      have hFeed := hLine c (by simp)
      exact absurd hFeed (hStart c (by simp))
  · intro part hPart
    have hBoth : ∀ c ∈ start ++ part, c ≠ '\n' :=
      List.forall_mem_append.mpr ⟨hStart, hPart⟩
    rw [List.append_assoc, hFront, ← List.append_assoc start,
      splitWhere_feed_append after hBoth, List.append_assoc]

end MmixAsm

------------------------------------------------------------
-- Readings Of Lines
------------------------------------------------------------

namespace MmixAsm

/- What is read of some lines. -/
def readings
    (lines : List (List Char)) : List (List Field × Bool) :=
  lines.map fun line => (LineContent.ofLine line).reading

/- What is read of the lines of a text. -/
def lineReadings (cs : List Char) : List (List Field × Bool) :=
  readings (splitWhere (· == '\n') cs)

/- No line leaves a string open. -/
def AllClosed (found : List (List Field × Bool)) : Prop :=
  ∀ reading ∈ found, reading.2 = false

theorem AllBlank.ne_feed
    {blanks : List Char}
    (hBlanks : AllBlank blanks) :
    ∀ c ∈ blanks, c ≠ '\n' := by
  rintro c hc rfl
  exact absurd (hBlanks '\n' hc) (by decide)

/- A change within a line that keeps its reading. -/
theorem lineReadings_exchange
    {before old new after : List Char}
    (hOld : ∀ c ∈ old, c ≠ '\n')
    (hNew : ∀ c ∈ new, c ≠ '\n')
    (hLine : ∀ start, (∀ c ∈ start, c ≠ '\n') →
      Zone.code.after start = Zone.code.after before →
      (AtLineStart before → start = []) →
      (LineContent.ofLine
          (start ++ (old ++ lineLeft after))).reading ∈
        lineReadings (before ++ (old ++ after)) →
      (LineContent.ofLine
          (start ++ (new ++ lineLeft after))).reading =
        (LineContent.ofLine
          (start ++ (old ++ lineLeft after))).reading) :
    lineReadings (before ++ (new ++ after)) =
      lineReadings (before ++ (old ++ after)) := by
  rcases exists_around before after with
    ⟨front, start, back, hAround⟩
  have hMem :
      (LineContent.ofLine
          (start ++ (old ++ lineLeft after))).reading ∈
        lineReadings (before ++ (old ++ after)) := by
    rw [lineReadings, hAround.lines hOld]
    simp [readings]
  have hSame := hLine start hAround.feeds hAround.zone
    hAround.nothing hMem
  rw [lineReadings, lineReadings, hAround.lines hOld,
    hAround.lines hNew]
  simp only [readings, List.map_append, List.map_cons, hSame]

/- A change of the layout changes no reading. -/
theorem LayoutEdit.lineReadings_eq
    {text edited : List Char}
    (hEdit : LayoutEdit text edited)
    (hClosed : AllClosed (lineReadings text)) :
    lineReadings edited = lineReadings text := by
  cases hEdit with
  | blanks hZone hOld hNew hOldSome hNewSome =>
      apply lineReadings_exchange hOld.ne_feed hNew.ne_feed
      intro start hStart hSame _ _
      rw [LineContent.ofLine_exchange_blanks hStart
        (hSame.trans hZone) hNew hOld hNewSome hOldSome]
  | lineStart hLine hOld hNew =>
      apply lineReadings_exchange hOld.ne_feed hNew.ne_feed
      intro start _ _ hNothing _
      rw [hNothing hLine, List.nil_append, List.nil_append,
        LineContent.reading_start hNew,
        LineContent.reading_start hOld]
  | lineEnd hEnd hOld hNew =>
      apply lineReadings_exchange hOld.ne_feed hNew.ne_feed
      intro start hStart _ _ _
      rw [hEnd, List.append_nil, List.append_nil,
        LineContent.ofLine_end hStart hNew,
        LineContent.ofLine_end hStart hOld]
  | @beforeComma before old new after hZone hOld hNew =>
      apply lineReadings_exchange hOld.ne_feed hNew.ne_feed
      intro start hStart hSame _ _
      rw [lineLeft_cons _ (by decide)]
      have hRead := LineContent.reading_comma (lineLeft after)
        hStart (hSame.trans hZone) hNew AllBlank.nil hOld
        AllBlank.nil
      rwa [List.nil_append] at hRead
  | @afterComma before old new after hZone hOld hNew =>
      have hComma : ∀ {run : List Char}, AllBlank run →
          ∀ c ∈ ',' :: run, c ≠ '\n' := fun hRun =>
        List.forall_mem_cons.mpr ⟨by decide, hRun.ne_feed⟩
      apply lineReadings_exchange (hComma hOld) (hComma hNew)
      intro start hStart hSame _ _
      have hRead := LineContent.reading_comma (lineLeft after)
        hStart (hSame.trans hZone) AllBlank.nil hNew AllBlank.nil
        hOld
      rwa [List.nil_append, List.nil_append] at hRead
  | @comment before comment after blank hEnd hBlank hComment
      hChars =>
      have hOne := AllBlank.singleton hBlank
      have hFeeds : ∀ c ∈ blank :: comment, c ≠ '\n' :=
        List.forall_mem_cons.mpr
          ⟨hOne.ne_feed blank List.mem_cons_self,
            fun c hc => (hChars c hc).1⟩
      apply lineReadings_exchange AllBlank.nil.ne_feed hFeeds
      intro start hStart _ _ hMem
      have hOpen := hClosed _ hMem
      rw [hEnd] at hOpen ⊢
      simp only [List.append_nil] at hOpen ⊢
      rw [LineContent.ofLine_comment hStart hOpen hBlank hComment]

/- Another part of a text, with characters of one kind. -/
theorem forall_mem_exchange
    {kind : Char → Prop}
    {before old new after : List Char}
    (hText : ∀ c ∈ before ++ (old ++ after), kind c)
    (hNew : ∀ c ∈ new, kind c) :
    ∀ c ∈ before ++ (new ++ after), kind c := by
  rcases List.forall_mem_append.mp hText with ⟨hBefore, hRest⟩
  exact List.forall_mem_append.mpr ⟨hBefore,
    List.forall_mem_append.mpr
      ⟨hNew, (List.forall_mem_append.mp hRest).2⟩⟩

theorem AllBlank.ne_endMark
    {blanks : List Char}
    (hBlanks : AllBlank blanks) :
    ∀ c ∈ blanks, c ≠ endMark :=
  fun c hc => Cursor.ne_endMark_of_isBlank (hBlanks c hc)

/- A change of the layout adds no null. -/
theorem LayoutEdit.ne_endMark
    {text edited : List Char}
    (hEdit : LayoutEdit text edited)
    (hText : ∀ c ∈ text, c ≠ endMark) :
    ∀ c ∈ edited, c ≠ endMark := by
  cases hEdit with
  | blanks _ _ hNew =>
      exact forall_mem_exchange hText hNew.ne_endMark
  | lineStart _ _ hNew =>
      exact forall_mem_exchange hText hNew.ne_endMark
  | lineEnd _ _ hNew =>
      exact forall_mem_exchange hText hNew.ne_endMark
  | beforeComma _ _ hNew =>
      exact forall_mem_exchange hText hNew.ne_endMark
  | afterComma _ _ hNew =>
      exact forall_mem_exchange hText
        (List.forall_mem_cons.mpr ⟨by decide, hNew.ne_endMark⟩)
  | @comment before comment after blank _ hBlank _ hChars =>
      exact @forall_mem_exchange _ before [] _ after hText
        (List.forall_mem_cons.mpr
          ⟨Cursor.ne_endMark_of_isBlank hBlank,
            fun c hc => (hChars c hc).2⟩)

/- Any number of such changes changes no reading. -/
theorem lineReadings_of_edits
    {text edited : List Char}
    (hEdits : Relation.ReflTransGen LayoutEdit text edited)
    (hText : ∀ c ∈ text, c ≠ endMark)
    (hClosed : AllClosed (lineReadings text)) :
    (∀ c ∈ edited, c ≠ endMark) ∧
      lineReadings edited = lineReadings text := by
  induction hEdits with
  | refl => exact ⟨hText, rfl⟩
  | tail _ hEdit ih =>
      rcases ih with ⟨hNull, hSame⟩
      refine ⟨hEdit.ne_endMark hNull, ?_⟩
      rw [hEdit.lineReadings_eq (hSame ▸ hClosed), hSame]

end MmixAsm

------------------------------------------------------------
-- Files By Readings
------------------------------------------------------------

namespace MmixAsm

/- A line is read by its fields. -/
theorem Instruction.ofScan?_of_reading
    {left right : List Char}
    (hSame : (LineContent.ofLine left).reading =
      (LineContent.ofLine right).reading) :
    ofScan? (Scan.ofLine 1 left) =
      ofScan? (Scan.ofLine 1 right) := by
  rcases Prod.mk.inj hSame with ⟨hFields, hOpen⟩
  change Field.ofTokens ((Scan.ofLine 1 left).tokens.map (·.2)) =
    Field.ofTokens ((Scan.ofLine 1 right).tokens.map (·.2))
    at hFields
  change (Scan.ofLine 1 left).unclosed.isSome =
    (Scan.ofLine 1 right).unclosed.isSome at hOpen
  unfold ofScan?
  cases hLeft : (Scan.ofLine 1 left).unclosed with
  | none =>
      rw [hLeft] at hOpen
      have hRight : (Scan.ofLine 1 right).unclosed = none :=
        Option.isSome_eq_false_iff.mp hOpen.symm
          |> Option.isNone_iff_eq_none.mp
      rw [hRight, hFields]
  | some place =>
      rw [hLeft] at hOpen
      rcases Option.isSome_iff_exists.mp hOpen.symm with
        ⟨other, hRight⟩
      rw [hRight]

theorem allClosed_cons
    {line : List Char}
    {rest : List (List Char)} :
    AllClosed (readings (line :: rest)) ↔
      (Scan.ofLine 1 line).unclosed = none ∧
        AllClosed (readings rest) := by
  have hLine : (LineContent.ofLine line).reading.2 = false ↔
      (Scan.ofLine 1 line).unclosed = none := by
    rw [← Option.isNone_iff_eq_none, ← Option.isSome_eq_false_iff]
    rfl
  rw [← hLine]
  exact List.forall_mem_cons

theorem opensUnclosed_of_allClosed
    {lines : List (List Char)}
    (hClosed : AllClosed (readings lines)) :
    opensUnclosed (lines.map (Scan.ofLine 1)) = false := by
  cases lines with
  | nil => rfl
  | cons line rest =>
      rw [List.map_cons, opensUnclosed,
        (allClosed_cons.mp hClosed).1]
      rfl

/- Closed lines that read alike are the same file. -/
theorem map_parseLines_of_readings
    {left right : List (List Char)}
    (name : String)
    (number : Nat)
    (hSame : readings left = readings right)
    (hClosed : AllClosed (readings left)) :
    (parseLines number (left.map (Scan.ofLine 1))).map
        (SourceFile.ofRead name) =
      (parseLines number (right.map (Scan.ofLine 1))).map
        (SourceFile.ofRead name) := by
  induction left generalizing right number with
  | nil =>
      rw [List.map_eq_nil_iff.mp hSame.symm]
  | cons line rest ih =>
      rcases List.map_eq_cons_iff.mp hSame.symm with
        ⟨other, others, rfl, hLine, hRest⟩
      have hClosedRest : AllClosed (readings rest) :=
        (allClosed_cons.mp hClosed).2
      have hClosedOthers : AllClosed (readings others) := by
        rw [readings, hRest]
        exact hClosedRest
      rw [List.map_cons, List.map_cons, map_parseLines_cons,
        map_parseLines_cons,
        lineError_of_closed
          (opensUnclosed_of_allClosed hClosedRest),
        lineError_of_closed
          (opensUnclosed_of_allClosed hClosedOthers),
        Instruction.ofScan?_of_reading hLine.symm,
        ih (number + 1) hRest.symm hClosedRest]

/- Closed texts whose lines read alike are the same file. -/
theorem SourceFile.parse_of_lineReadings
    {text edited : String}
    (name : String)
    (hText : ∀ c ∈ text.toList, c ≠ endMark)
    (hEdited : ∀ c ∈ edited.toList, c ≠ endMark)
    (hSame : lineReadings edited.toList =
      lineReadings text.toList)
    (hClosed : AllClosed (lineReadings text.toList)) :
    parse name edited = parse name text := by
  rw [parse_eq, parse_eq, scanText, scanText, sourceLines,
    sourceLines, beforeNull_of_forall_ne hText,
    beforeNull_of_forall_ne hEdited]
  exact (map_parseLines_of_readings name 1 hSame.symm
    hClosed).symm

/- A string that is left open is listed. -/
theorem allClosed_of_lexemesFrom
    {number : Nat}
    {lines : List (List Char)}
    (hClean :
      ∀ line, .unterminated line ∉ lexemesFrom number lines) :
    AllClosed (readings lines) := by
  induction lines generalizing number with
  | nil =>
      intro reading hReading
      cases hReading
  | cons line rest ih =>
      rw [allClosed_cons]
      constructor
      · rcases exists_lexemesFrom number line rest with
          ⟨closing, tail, hShown, _⟩
        cases hUnclosed : (Scan.ofLine 1 line).unclosed with
        | none => rfl
        | some place =>
            refine absurd ?_ (hClean number)
            rw [hShown]
            simp [Scan.lexemes, hUnclosed]
      · cases rest with
        | nil =>
            intro reading hReading
            cases hReading
        | cons next others =>
            have hShown : lexemesFrom number
                (line :: next :: others) =
                  (Scan.ofLine 1 line).lexemes number
                    ++ .newline ⟨number, line.length + 1⟩
                    :: lexemesFrom (number + 1)
                      (next :: others) :=
              rfl
            apply ih
            intro other hOther
            apply hClean other
            rw [hShown]
            exact List.mem_append_right _
              (List.mem_cons_of_mem _ hOther)

namespace SourceFile

/-
  A text without nulls and without a string that is left open
  is the same file after any changes of its layout, or fails
  with the same error in the same line.
-/
theorem parse_ignores_layout
    (name : String)
    {text edited : String}
    (hNull : ∀ c ∈ text.toList, c ≠ endMark)
    (hClean : ∀ line, .unterminated line ∉ lexemes text)
    (hEdits : Relation.ReflTransGen LayoutEdit
      text.toList edited.toList) :
    parse name edited = parse name text := by
  have hLines : lexemes text =
      lexemesFrom 1 (splitWhere (· == '\n') text.toList) := by
    rw [lexemes, sourceLines, beforeNull_of_forall_ne hNull]
  have hClosed : AllClosed (lineReadings text.toList) := by
    rw [hLines] at hClean
    exact allClosed_of_lexemesFrom hClean
  rcases lineReadings_of_edits hEdits hNull hClosed with
    ⟨hEdited, hSame⟩
  exact parse_of_lineReadings name hNull hEdited hSame hClosed

def crampedText : String :=
  "OCTA \",\",1\nSETL $1,2"

def roomyText : String :=
  "OCTA\t\",\" ,\t1\r\n SETL $1,2 % \""

/- One change of each kind. -/
theorem crampedText_edits :
    Relation.ReflTransGen LayoutEdit
      crampedText.toList roomyText.toList := by
  have hBlanks : LayoutEdit crampedText.toList
      "OCTA\t\",\",1\nSETL $1,2".toList := by
    have hEdit := @LayoutEdit.blanks
      "OCTA".toList [' '] ['\t']
      "\",\",1\nSETL $1,2".toList
      (by decide +kernel) (.singleton rfl) (.singleton rfl)
      (List.cons_ne_nil _ _) (List.cons_ne_nil _ _)
    simpa [crampedText] using hEdit
  have hBefore : LayoutEdit
      "OCTA\t\",\",1\nSETL $1,2".toList
      "OCTA\t\",\" ,1\nSETL $1,2".toList := by
    have hEdit := @LayoutEdit.beforeComma
      "OCTA\t\",\"".toList [] [' '] "1\nSETL $1,2".toList
      (by decide +kernel) .nil (.singleton rfl)
    simpa using hEdit
  have hAfter : LayoutEdit
      "OCTA\t\",\" ,1\nSETL $1,2".toList
      "OCTA\t\",\" ,\t1\nSETL $1,2".toList := by
    have hEdit := @LayoutEdit.afterComma
      "OCTA\t\",\" ".toList [] ['\t'] "1\nSETL $1,2".toList
      (by decide +kernel) .nil (.singleton rfl)
    simpa using hEdit
  have hEnd : LayoutEdit
      "OCTA\t\",\" ,\t1\nSETL $1,2".toList
      "OCTA\t\",\" ,\t1\r\nSETL $1,2".toList := by
    have hEdit := @LayoutEdit.lineEnd
      "OCTA\t\",\" ,\t1".toList [] ['\r']
      "\nSETL $1,2".toList
      (by decide +kernel) .nil (.singleton rfl)
    simpa using hEdit
  have hStart : LayoutEdit
      "OCTA\t\",\" ,\t1\r\nSETL $1,2".toList
      "OCTA\t\",\" ,\t1\r\n SETL $1,2".toList := by
    have hEdit := @LayoutEdit.lineStart
      "OCTA\t\",\" ,\t1\r\n".toList [] [' ']
      "SETL $1,2".toList
      (by decide +kernel) .nil (.singleton rfl)
    simpa using hEdit
  have hComment : LayoutEdit
      "OCTA\t\",\" ,\t1\r\n SETL $1,2".toList
      roomyText.toList := by
    have hEdit := @LayoutEdit.comment
      "OCTA\t\",\" ,\t1\r\n SETL $1,2".toList
      "% \"".toList [] ' '
      rfl rfl (by decide +kernel) (by simp [isLineChar])
    simpa [roomyText] using hEdit
  exact .head hBlanks (.head hBefore (.head hAfter
    (.head hEnd (.head hStart (.single hComment)))))

theorem crampedText_ignores_layout :
    (∀ c ∈ crampedText.toList, c ≠ endMark) ∧
      (∀ line, .unterminated line ∉ lexemes crampedText) ∧
      Relation.ReflTransGen LayoutEdit
        crampedText.toList roomyText.toList ∧
      parse "a.mms" roomyText = parse "a.mms" crampedText ∧
      (parse "a.mms" crampedText).isOk = true := by
  have hAll : crampedText.toList.all (· != endMark) = true := by
    decide +kernel
  have hNull : ∀ c ∈ crampedText.toList, c ≠ endMark :=
    fun c hc => bne_iff_ne.mp (List.all_eq_true.mp hAll c hc)
  have hListing : lexemes crampedText = [
      .token (.word "OCTA") ⟨1, 1⟩,
      .token .space ⟨1, 5⟩,
      .token (.quoted "\",\"") ⟨1, 6⟩,
      .token .comma ⟨1, 9⟩,
      .token (.word "1") ⟨1, 10⟩,
      .newline ⟨1, 11⟩,
      .token (.word "SETL") ⟨2, 1⟩,
      .token .space ⟨2, 5⟩,
      .token (.word "$1") ⟨2, 6⟩,
      .token .comma ⟨2, 8⟩,
      .token (.word "2") ⟨2, 9⟩,
      .eof ⟨2, 10⟩] := by
    decide +kernel
  have hClean :
      ∀ line, .unterminated line ∉ lexemes crampedText := by
    rw [hListing]
    simp
  exact ⟨hNull, hClean, crampedText_edits,
    parse_ignores_layout "a.mms" hNull hClean crampedText_edits,
    by decide +kernel⟩

end SourceFile

end MmixAsm
