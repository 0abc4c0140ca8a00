import MmixAsm.Proofs.LineByLine

/-
  Which error is reported for a text.

  The first line that cannot be read alone decides it.  The
  reader has moved on to the next line when it judges a line,
  so a string without its end that opens the next line is
  reported in the place of a fault of another kind.  In all
  other cases the fault of the first such line is reported
  under the number of the line.

  Key definitions include:
    * `MmixAsm.isOpenString`
    * `MmixAsm.SourceFile.FirstFault`

  Key theorems include:
    * `MmixAsm.parseLines_eq_error_iff`
    * `MmixAsm.Scan.unclosed_first_iff`
    * `MmixAsm.SourceFile.parse_line_error_iff`
    * `MmixAsm.SourceFile.parse_reports_first_fault_iff`
-/

------------------------------------------------------------
-- Lines In Front Of A Fault
------------------------------------------------------------

namespace MmixAsm

/- Lines that are read do not take part in an error. -/
theorem parseLines_append_error
    {front : List Scan}
    {scan : Scan}
    {fault : LineFault}
    (number : Nat)
    (behind : List Scan)
    (hFront : ∀ earlier ∈ front,
      ∃ found, Instruction.ofScan? earlier = .ok found)
    (hScan : Instruction.ofScan? scan = .error fault) :
    parseLines number (front ++ scan :: behind) =
      .error (lineError (number + front.length) fault
        behind) := by
  induction front generalizing number with
  | nil => simp [parseLines, hScan]
  | cons earlier front ih =>
      rcases List.forall_mem_cons.mp hFront with
        ⟨⟨found, hFound⟩, hFront⟩
      have hRest := ih (number + 1) hFront
      rw [List.length_cons, Nat.add_comm front.length,
        ← Nat.add_assoc]
      rw [List.cons_append, parseLines, hFound]
      cases found with
      | none => exact hRest
      | some instruction =>
          simp only [hRest]

/- Lines fail where the first of them cannot be read. -/
theorem parseLines_eq_error_iff
    {number : Nat}
    {scans : List Scan}
    {e : SyntaxError} :
    parseLines number scans = .error e ↔
      ∃ front scan behind fault,
        scans = front ++ scan :: behind ∧
          (∀ earlier ∈ front,
            ∃ found, Instruction.ofScan? earlier = .ok found) ∧
          Instruction.ofScan? scan = .error fault ∧
          e = lineError (number + front.length) fault
            behind := by
  constructor
  · intro h
    induction scans generalizing number with
    | nil => cases h
    | cons scan rest ih =>
        rcases hScan : Instruction.ofScan? scan with
          fault | found
        · simp only [parseLines, hScan] at h
          cases h
          exact ⟨[], scan, rest, fault, rfl, by simp, hScan,
            rfl⟩
        · have hRest : parseLines (number + 1) rest =
              .error e := by
            cases found with
            | none => simpa only [parseLines, hScan] using h
            | some instruction =>
                simp only [parseLines, hScan] at h
                cases hRest : parseLines (number + 1) rest with
                | ok others =>
                    rw [hRest] at h
                    cases h
                | error cause =>
                    rw [hRest] at h
                    exact h
          rcases ih hRest with
            ⟨front, later, behind, fault, rfl, hFront, hFault,
              rfl⟩
          refine ⟨scan :: front, later, behind, fault, rfl, ?_,
            hFault, ?_⟩
          · exact List.forall_mem_cons.mpr
              ⟨⟨found, hScan⟩, hFront⟩
          · rw [List.length_cons, Nat.add_comm front.length,
              ← Nat.add_assoc]
  · rintro ⟨front, scan, behind, fault, rfl, hFront, hScan,
      rfl⟩
    exact parseLines_append_error number behind hFront hScan

end MmixAsm

------------------------------------------------------------
-- Strings That Open A Line
------------------------------------------------------------

namespace MmixAsm

/- Whether a line is a string that is never closed. -/
def isOpenString :
    List Char → Bool
| '"' :: body => !body.contains '"'
| _ => false

/-
  A string without its end at the first column is all that
  its line holds.
-/
theorem Scan.unclosed_first_iff
    (line : List Char) :
    (ofLine 1 line).unclosed = some 1 ↔
      isOpenString line = true := by
  constructor
  · intro hUnclosed
    -- A token in front of the string would take its column.
    have hTokens := (unclosed_ofLine hUnclosed).2.mp rfl
    revert hUnclosed hTokens
    fun_cases ofLine 1 line with
    | case1 =>
        intro hUnclosed
        cases hUnclosed
    | case2 =>
        intro hUnclosed
        cases hUnclosed
    | case3 =>
        intro hUnclosed
        cases hUnclosed
    | case4 =>
        intro _ hTokens
        cases hTokens
    | case5 =>
        intro _ hTokens
        cases hTokens
    | case6 body hBody =>
        intro _ _
        have hQuote : '"' ∉ body := by
          intro hMem
          have hOther :=
            List.dropWhile_eq_nil_iff.mp hBody '"' hMem
          revert hOther
          decide
        simpa [isOpenString] using hQuote
    | case7 =>
        intro _ hTokens
        cases hTokens
    | case8 =>
        intro _ hTokens
        cases hTokens
  · intro hOpen
    cases line with
    | nil => cases hOpen
    | cons c body =>
        by_cases hQuote : c = '"'
        · subst hQuote
          have hBody : ∀ c ∈ body, c ≠ '"' := by
            rintro c hc rfl
            simp [isOpenString, hc] at hOpen
          rw [ofLine_unclosed 1 hBody]
        · simp [isOpenString, hQuote] at hOpen

/- Whether an unclosed string opens the lines that follow. -/
theorem opensUnclosed_map
    (lines : List (List Char)) :
    opensUnclosed (lines.map (Scan.ofLine 1)) =
      lines.head?.any isOpenString := by
  cases lines with
  | nil => rfl
  | cons line rest =>
      rw [Bool.eq_iff_iff]
      simp [opensUnclosed, Scan.unclosed_first_iff]

end MmixAsm

------------------------------------------------------------
-- The Reported Error
------------------------------------------------------------

namespace MmixAsm

namespace SourceFile

/- Why the text of a single line cannot be read. -/
theorem parse_line_error_iff
    {line : List Char}
    (name : String)
    (e : SyntaxError)
    (hLine : ∀ c ∈ line, isLineChar c) :
    parse name (String.ofList line) = .error e ↔
      ∃ fault,
        Instruction.ofScan? (Scan.ofLine 1 line) =
            .error fault ∧
          e = ⟨1, fault⟩ := by
  rw [parse_eq, scanText, sourceLines_line hLine,
    List.map_singleton, map_parseLines_cons]
  rcases Instruction.ofScan? (Scan.ofLine 1 line) with
    fault | found
  · simp [afterLine, lineError, opensUnclosed, eq_comm]
  · cases found with
    | none => simp [afterLine, parseLines, Except.map]
    | some instruction =>
        simp [afterLine, parseLines, Except.map]

/-
  A line is the first of a text that cannot be read alone,
  with the lines in front of it and behind it and with the
  error that it gives.
-/
structure FirstFault
    (name text : String)
    (front : List (List Char))
    (line : List Char)
    (behind : List (List Char))
    (e : SyntaxError) : Prop where
  lines : sourceLines text = front ++ line :: behind
  before : ∀ earlier ∈ front,
    ∃ part, parse name (String.ofList earlier) = .ok part
  fails : parse name (String.ofList line) = .error e

/-
  Whether a fault is hidden by the line behind it.  A string
  that is not closed itself is never hidden.
-/
def isHidden
    (e : SyntaxError)
    (behind : List (List Char)) : Bool :=
  e.fault != .unterminatedString
    && behind.head?.any isOpenString

/- A text that cannot be read has a first fault. -/
theorem exists_firstFault
    {name text : String}
    {failure : SyntaxError}
    (h : parse name text = .error failure) :
    ∃ front line behind e,
      FirstFault name text front line behind e := by
  rw [parse_eq] at h
  rcases parseLines_eq_error_iff.mp (fails_of_map_eq_error h)
    with ⟨front, scan, behind, fault, hScans, hFront, hScan, _⟩
  rcases List.map_eq_append_iff.mp hScans with
    ⟨before, after, hText, rfl, hAfter⟩
  rcases List.map_eq_cons_iff.mp hAfter with
    ⟨line, others, rfl, rfl, rfl⟩
  have hLines : ∀ other ∈ before ++ line :: others,
      ∀ c ∈ other, isLineChar c := by
    rw [← hText]
    exact fun other hOther =>
      isLineChar_of_mem_sourceLines hOther
  refine ⟨before, line, others, ⟨1, fault⟩, hText, ?_, ?_⟩
  · intro earlier hEarlier
    rcases hFront _ (List.mem_map_of_mem hEarlier) with
      ⟨found, hFound⟩
    exact ⟨_, (parse_line_iff name _
      (hLines earlier (List.mem_append_left _ hEarlier))).mpr
        ⟨found, hFound, rfl⟩⟩
  · exact (parse_line_error_iff name _
      (hLines line (List.mem_append_right _
        List.mem_cons_self))).mpr ⟨fault, hScan, rfl⟩

/- The error of a text by its first line with a fault. -/
theorem FirstFault.parse_eq_error
    {name text : String}
    {front behind : List (List Char)}
    {line : List Char}
    {e : SyntaxError}
    (h : FirstFault name text front line behind e) :
    e.line = 1 ∧
      parse name text = .error
        (if isHidden e behind then
          ⟨front.length + 2, .unterminatedString⟩
        else
          { e with line := front.length + 1 }) := by
  have hLines : ∀ other ∈ front ++ line :: behind,
      ∀ c ∈ other, isLineChar c := by
    rw [← h.lines]
    exact fun other hOther =>
      isLineChar_of_mem_sourceLines hOther
  rcases (parse_line_error_iff name e
    (hLines line (List.mem_append_right _
      List.mem_cons_self))).mp h.fails with
    ⟨fault, hScan, rfl⟩
  have hFront : ∀ earlier ∈ front.map (Scan.ofLine 1),
      ∃ found, Instruction.ofScan? earlier = .ok found := by
    intro scan hMem
    rcases List.mem_map.mp hMem with ⟨earlier, hEarlier, rfl⟩
    rcases h.before earlier hEarlier with ⟨part, hPart⟩
    rcases (parse_line_iff name part
      (hLines earlier (List.mem_append_left _ hEarlier))).mp
        hPart with ⟨found, hFound, _⟩
    exact ⟨found, hFound⟩
  have hError := parseLines_append_error 1
    (behind.map (Scan.ofLine 1)) hFront hScan
  refine ⟨rfl, ?_⟩
  rw [parse_eq, scanText, h.lines, List.map_append,
    List.map_cons, hError, Except.map, lineError,
    opensUnclosed_map, List.length_map, Nat.add_comm 1]
  simp only [isHidden, Bool.and_eq_true, bne_iff_ne]

/-
  A text that cannot be read has a first line that cannot be
  read alone.  The error of this line is reported under the
  number of the line, unless the next line is a string that
  is never closed and the fault is of another kind.  Then the
  string is reported.
-/
theorem parse_reports_first_fault_iff
    (name text : String) :
    readOnce name text = parse name text ∧
      (∀ failure, parse name text = .error failure →
        ∃ front line behind e,
          FirstFault name text front line behind e) ∧
      ∀ front line behind e,
        FirstFault name text front line behind e →
          e.line = 1 ∧
            (parse name text =
                .error { e with line := front.length + 1 } ↔
              isHidden e behind = false) ∧
            (isHidden e behind = true →
              parse name text = .error
                ⟨front.length + 2, .unterminatedString⟩) := by
  refine ⟨readOnce_eq_parse name text,
    fun failure hFailure => exists_firstFault hFailure, ?_⟩
  intro front line behind e hFirst
  rcases hFirst.parse_eq_error with ⟨hLine, hParse⟩
  refine ⟨hLine, ?_, ?_⟩
  · rw [hParse]
    cases hHidden : isHidden e behind with
    | false => simp
    | true => simp
  · intro hHidden
    rw [hParse, if_pos hHidden]

/- A fault in front of a line that holds an open string. -/
def patientText : String :=
  "x IS 1\n% none\nFOO 1\n \"open"

/- A blank stands in front of the string, so nothing hides. -/
theorem patientText_reports_first_fault :
    FirstFault "a" patientText
        ["x IS 1".toList, "% none".toList] "FOO 1".toList
        [" \"open".toList] ⟨1, .unexpectedToken "1"⟩ ∧
      parse "a" patientText =
        .error ⟨3, .unexpectedToken "1"⟩ := by
  have hFirst : FirstFault "a" patientText
      ["x IS 1".toList, "% none".toList] "FOO 1".toList
      [" \"open".toList] ⟨1, .unexpectedToken "1"⟩ := by
    refine ⟨by decide +kernel, ?_, by decide +kernel⟩
    simp only [List.mem_cons, List.not_mem_nil, or_false,
      forall_eq_or_imp, forall_eq]
    exact ⟨⟨⟨"a", [.control ⟨some "x", .equate, ["1"]⟩], false⟩,
        by decide +kernel⟩,
      ⟨⟨"a", [], false⟩, by decide +kernel⟩⟩
  rcases (parse_reports_first_fault_iff "a" patientText).2.2
    _ _ _ _ hFirst with ⟨_, hReported, _⟩
  exact ⟨hFirst, hReported.mpr (by decide +kernel)⟩

/- The same fault, with the string at the first column. -/
def hastyText : String :=
  "FOO 1\n\"open"

/- The error of the second line takes the place of the first. -/
theorem hastyText_hides_first_fault :
    ¬ ∀ (name text : String) (front : List (List Char))
        (line : List Char) (behind : List (List Char))
        (e : SyntaxError),
      FirstFault name text front line behind e →
        parse name text =
          .error { e with line := front.length + 1 } := by
  intro hReported
  have hFirst : FirstFault "a" hastyText [] "FOO 1".toList
      ["\"open".toList] ⟨1, .unexpectedToken "1"⟩ :=
    ⟨by decide +kernel, by simp, by decide +kernel⟩
  have hParse : parse "a" hastyText =
      .error ⟨2, .unterminatedString⟩ := by
    decide +kernel
  have hSame := hReported _ _ _ _ _ _ hFirst
  rw [hParse] at hSame
  cases hSame

end SourceFile

end MmixAsm
