import MmixAsm.Macro.Survey

/-
  Conditional regions nest like brackets.

  `Balanced` says that the lines of a list pair up: every
  line that opens a region has its ENDIF, and an ELSE stands
  directly inside an IF that has no other ELSE.  The lines of
  a file that passes the survey are balanced, and what an
  entry finds by looking ahead is the partner of its line.

  Key definitions include:
    * `MmixAsm.Balanced`
    * `MmixAsm.Closes`

  Key theorems include:
    * `MmixAsm.Survey.balanced_of_ofLines`
    * `MmixAsm.Balanced.regionStop_append`
    * `MmixAsm.Balanced.regionElse?_append`
    * `MmixAsm.Balanced.ofLinesFrom_append`
-/

------------------------------------------------------------
-- Brackets
------------------------------------------------------------

namespace MmixAsm

namespace Instruction

/- Whether an instruction opens, divides or closes a region. -/
def isBracket (instruction : Instruction) : Bool :=
  instruction.opensRegion
    || instruction.macroKind? == some .otherwise
    || instruction.macroKind? == some .endIf

theorem isBracket_of_opensRegion
    {line : Instruction}
    (h : line.opensRegion = true) :
    line.isBracket = true := by
  simp [isBracket, h]

theorem isBracket_of_otherwise
    {line : Instruction}
    (h : line.macroKind? = some .otherwise) :
    line.isBracket = true := by
  simp [isBracket, h]

theorem isBracket_of_endIf
    {line : Instruction}
    (h : line.macroKind? = some .endIf) :
    line.isBracket = true := by
  simp [isBracket, h]

/- The kinds of lines that open a region. -/
theorem opensRegion_of_kind
    {line : Instruction}
    {kind : MacroKind}
    (h : line.macroKind? = some kind)
    (hKind :
      kind ∈ [.ifDefined, .ifUndefined, .ifCondition]) :
    line.opensRegion = true := by
  simp only [List.mem_cons, List.not_mem_nil, or_false]
    at hKind
  rcases hKind with rfl | rfl | rfl <;>
    simp [opensRegion, h]

theorem opensRegion_of_otherwise
    {line : Instruction}
    (h : line.macroKind? = some .otherwise) :
    line.opensRegion = false := by
  simp [opensRegion, h]

theorem opensRegion_of_endIf
    {line : Instruction}
    (h : line.macroKind? = some .endIf) :
    line.opensRegion = false := by
  simp [opensRegion, h]

/- The kinds of macro lines that are no brackets. -/
theorem isBracket_eq_false_of_kind
    {line : Instruction}
    {kind : MacroKind}
    (h : line.macroKind? = some kind)
    (hKind : kind ∈
      [.definition, .inclusion, .application, .constant]) :
    line.isBracket = false := by
  simp only [List.mem_cons, List.not_mem_nil, or_false]
    at hKind
  rcases hKind with rfl | rfl | rfl | rfl <;>
    simp [isBracket, opensRegion, h]

/- A line without macro is no bracket. -/
theorem isBracket_eq_false_of_macroLine?
    {line : Instruction}
    (h : line.macroLine? = none) :
    line.isBracket = false := by
  simp [isBracket, opensRegion, macroKind?, h]

/- A line that is no bracket leaves all regions alone. -/
theorem isBracket_eq_false_iff
    {line : Instruction} :
    line.isBracket = false ↔
      line.opensRegion = false ∧
        line.macroKind? ≠ some .otherwise ∧
        line.macroKind? ≠ some .endIf := by
  simp [isBracket, and_assoc]

end Instruction

/- Lines in which every region is closed again. -/
inductive Balanced :
    List Instruction → Prop where
  | nil : Balanced []
  | plain
      {line : Instruction}
      (hLine : line.isBracket = false) :
      Balanced [line]
  | append
      {left right : List Instruction}
      (hLeft : Balanced left)
      (hRight : Balanced right) :
      Balanced (left ++ right)
  | region
      {opener closer : Instruction}
      {body : List Instruction}
      (hOpener : opener.opensRegion = true)
      (hBody : Balanced body)
      (hCloser : closer.macroKind? = some .endIf) :
      Balanced (opener :: body ++ [closer])
  | alternative
      {opener divider closer : Instruction}
      {body other : List Instruction}
      (hOpener : opener.macroKind? = some .ifCondition)
      (hBody : Balanced body)
      (hDivider : divider.macroKind? = some .otherwise)
      (hOther : Balanced other)
      (hCloser : closer.macroKind? = some .endIf) :
      Balanced (opener :: body ++ divider :: other ++ [closer])

end MmixAsm

------------------------------------------------------------
-- The Survey Accepts Only Balanced Lines
------------------------------------------------------------

namespace MmixAsm

/-
  Lines that close the given openings, the innermost first,
  and are balanced in between and behind them.
-/
inductive Closes :
    List Opening → List Instruction → Prop where
  | done
      {lines : List Instruction}
      (hLines : Balanced lines) :
      Closes [] lines
  | close
      {opening : Opening}
      {openings : List Opening}
      {body rest : List Instruction}
      {closer : Instruction}
      (hBody : Balanced body)
      (hCloser : closer.macroKind? = some .endIf)
      (hRest : Closes openings rest) :
      Closes (opening :: openings) (body ++ closer :: rest)
  | divide
      {openings : List Opening}
      {body other rest : List Instruction}
      {divider closer : Instruction}
      (hBody : Balanced body)
      (hDivider : divider.macroKind? = some .otherwise)
      (hOther : Balanced other)
      (hCloser : closer.macroKind? = some .endIf)
      (hRest : Closes openings rest) :
      Closes (.condition false :: openings)
        (body ++ divider :: other ++ closer :: rest)

namespace Closes

/- Balanced lines in front change nothing. -/
theorem prepend
    {openings : List Opening}
    {front lines : List Instruction}
    (hFront : Balanced front)
    (h : Closes openings lines) :
    Closes openings (front ++ lines) := by
  cases h with
  | done hLines => exact .done (.append hFront hLines)
  | close hBody hCloser hRest =>
      rw [← List.append_assoc]
      exact .close (.append hFront hBody) hCloser hRest
  | divide hBody hDivider hOther hCloser hRest =>
      rw [← List.append_assoc, ← List.append_assoc]
      exact .divide (.append hFront hBody) hDivider hOther
        hCloser hRest

/- A line that opens a region adds an opening to be closed. -/
theorem cons_opener
    {opening : Opening}
    {openings : List Opening}
    {opener : Instruction}
    {lines : List Instruction}
    (hOpener : opener.opensRegion = true)
    (hKind :
      opening = .condition false →
        opener.macroKind? = some .ifCondition)
    (h : Closes (opening :: openings) lines) :
    Closes openings (opener :: lines) := by
  cases h with
  | @close _ _ body rest closer hBody hCloser hRest =>
      have hRegion : Balanced (opener :: body ++ [closer]) :=
        .region hOpener hBody hCloser
      simpa using hRest.prepend hRegion
  | @divide _ body other rest divider closer hBody hDivider
      hOther hCloser hRest =>
      have hRegion :
          Balanced (opener :: body ++ divider :: other
            ++ [closer]) :=
        .alternative (hKind rfl) hBody hDivider hOther hCloser
      simpa using hRest.prepend hRegion

/- ELSE leaves the other part of an IF to be closed. -/
theorem cons_divider
    {openings : List Opening}
    {divider : Instruction}
    {lines : List Instruction}
    (hDivider : divider.macroKind? = some .otherwise)
    (h : Closes (.condition true :: openings) lines) :
    Closes (.condition false :: openings)
      (divider :: lines) := by
  cases h with
  | close hBody hCloser hRest =>
      exact .divide .nil hDivider hBody hCloser hRest

end Closes

namespace Survey

/- Defining a name does not touch the open regions. -/
theorem openings_define
    {survey next : Survey}
    {file name : String}
    (h : survey.define file name = .ok next) :
    next.openings = survey.openings := by
  unfold define at h
  split at h
  · cases h
  · cases h
    rfl

theorem openings_needParameter
    {survey next : Survey}
    {file : String}
    {line : Line MacroKind}
    (h : survey.needParameter file line = .ok next) :
    next.openings = survey.openings := by
  unfold needParameter at h
  split at h
  · cases h
  · cases h
    rfl

theorem openings_defineTemplate
    {survey next : Survey}
    {file : String}
    {line : Line MacroKind}
    {body : Option Instruction}
    (h : survey.defineTemplate file line body = .ok next) :
    next.openings = survey.openings := by
  unfold defineTemplate at h
  split at h
  · cases h
  · cases h
  · exact openings_define h

theorem openings_turn
    {survey next : Survey}
    {file : String}
    (h : survey.turn file = .ok next) :
    ∃ rest, survey.openings = .condition false :: rest ∧
      next.openings = .condition true :: rest := by
  unfold turn at h
  split at h
  · cases h
  · rename_i rest hOpenings
    cases h
    exact ⟨rest, hOpenings, rfl⟩
  · cases h

theorem openings_pop
    {survey next : Survey}
    {file : String}
    (h : survey.pop file = .ok next) :
    ∃ opening,
      survey.openings = opening :: next.openings := by
  unfold pop at h
  split at h
  · cases h
  · rename_i opening rest hOpenings
    cases h
    exact ⟨opening, hOpenings⟩

/- How one line changes the regions that are open. -/
inductive Passes
    (before : List Opening)
    (line : Instruction) :
    List Opening → Prop where
  | plain
      (hLine : line.isBracket = false) :
      Passes before line before
  | opens
      (opening : Opening)
      (hLine : line.opensRegion = true)
      (hKind :
        opening = .condition false →
          line.macroKind? = some .ifCondition) :
      Passes before line (opening :: before)
  | divides
      {rest : List Opening}
      (hLine : line.macroKind? = some .otherwise)
      (hBefore : before = .condition false :: rest) :
      Passes before line (.condition true :: rest)
  | closes
      {opening : Opening}
      {rest : List Opening}
      (hLine : line.macroKind? = some .endIf)
      (hBefore : before = opening :: rest) :
      Passes before line rest

theorem passes_of_step
    {survey next : Survey}
    {file : String}
    {line : Instruction}
    (h : step file survey line = .ok next) :
    Passes survey.openings line next.openings := by
  unfold step at h
  cases hLine : line.macroLine? with
  | none =>
      rw [hLine] at h
      cases h
      exact .plain
        (Instruction.isBracket_eq_false_of_macroLine? hLine)
  | some content =>
      rw [hLine] at h
      rcases content with ⟨label, keyword, parameters⟩
      have hKind : line.macroKind? = some keyword := by
        simp [Instruction.macroKind?, hLine]
      cases keyword with
      | definition =>
          rw [openings_defineTemplate h]
          exact .plain (Instruction.isBracket_eq_false_of_kind
            hKind (by simp))
      | inclusion =>
          rw [openings_needParameter h]
          exact .plain (Instruction.isBracket_eq_false_of_kind
            hKind (by simp))
      | application =>
          rw [openings_needParameter h]
          exact .plain (Instruction.isBracket_eq_false_of_kind
            hKind (by simp))
      | constant =>
          simp only [readMacro] at h
          split at h
          · rw [openings_define h]
            exact .plain
              (Instruction.isBracket_eq_false_of_kind hKind
                (by simp))
          · cases h
      | ifDefined =>
          have hOpens :=
            Instruction.opensRegion_of_kind hKind (by simp)
          rw [openings_needParameter h]
          exact .opens .definedness hOpens (by simp)
      | ifUndefined =>
          have hOpens :=
            Instruction.opensRegion_of_kind hKind (by simp)
          rw [openings_needParameter h]
          exact .opens .definedness hOpens (by simp)
      | ifCondition =>
          have hOpens :=
            Instruction.opensRegion_of_kind hKind (by simp)
          rw [openings_needParameter h]
          exact .opens (.condition false) hOpens
            (fun _ => hKind)
      | otherwise =>
          rcases openings_turn h with
            ⟨rest, hBefore, hAfter⟩
          rw [hAfter]
          exact .divides hKind hBefore
      | endIf =>
          rcases openings_pop h with ⟨opening, hBefore⟩
          exact .closes hKind hBefore

/- Lines that lead to no open region close those before. -/
theorem closes_of_foldlM
    {survey last : Survey}
    {file : String}
    {lines : List Instruction}
    (hRun : lines.foldlM (step file) survey = .ok last)
    (hLast : last.openings = []) :
    Closes survey.openings lines := by
  induction lines generalizing survey with
  | nil =>
      cases hRun
      rw [hLast]
      exact .done .nil
  | cons line rest ih =>
      rw [List.foldlM_cons] at hRun
      cases hStep : step file survey line with
      | error e =>
          rw [hStep] at hRun
          cases hRun
      | ok next =>
          rw [hStep] at hRun
          have hRest : Closes next.openings rest := ih hRun
          have hPasses := passes_of_step hStep
          generalize survey.openings = before at hPasses ⊢
          generalize next.openings = after at hPasses hRest
          cases hPasses with
          | plain hLine =>
              exact hRest.prepend (.plain hLine)
          | opens opening hLine hKind =>
              exact hRest.cons_opener hLine hKind
          | divides hLine hBefore =>
              rw [hBefore]
              exact hRest.cons_divider hLine
          | closes hLine hBefore =>
              rw [hBefore]
              exact .close .nil hLine hRest

/- A file that passes the survey has balanced lines. -/
theorem balanced_of_ofLines
    {survey : Survey}
    {file : String}
    {lines : List Instruction}
    (h : ofLines file lines = .ok survey) :
    Balanced lines := by
  unfold ofLines at h
  split at h
  · cases h
  · rename_i last hRun
    split at h
    · rename_i hEmpty
      have hCloses :=
        closes_of_foldlM hRun (List.isEmpty_iff.mp hEmpty)
      cases hCloses with
      | done hLines => exact hLines
    · cases h

end Survey

end MmixAsm

------------------------------------------------------------
-- Looking Ahead
------------------------------------------------------------

namespace MmixAsm

namespace Balanced

/- The end of a region is not inside balanced lines. -/
theorem regionStop_append
    {body : List Instruction}
    (hBody : Balanced body)
    (depth offset : Nat)
    (rest : List Instruction) :
    regionStop depth offset (body ++ rest) =
      regionStop depth (offset + body.length) rest := by
  induction hBody generalizing depth offset rest with
  | nil => rfl
  | plain hLine =>
      rcases Instruction.isBracket_eq_false_iff.mp hLine with
        ⟨hOpens, -, hEnd⟩
      simp [regionStop, hOpens, hEnd]
  | append hLeft hRight ihLeft ihRight =>
      rw [List.append_assoc, ihLeft, ihRight,
        List.length_append, Nat.add_assoc]
  | @region opener closer body hOpener hBody hCloser ih =>
      have hClose := Instruction.opensRegion_of_endIf hCloser
      simp only [List.cons_append, List.append_assoc,
        List.nil_append, regionStop, hOpener, if_true]
      rw [ih]
      simp only [regionStop, hClose, hCloser, if_true,
        Bool.false_eq_true, if_false, List.length_append,
        List.length_cons, List.length_nil]
      congr 1
      omega
  | @alternative opener divider closer body other hOpener hBody
      hDivider hOther hCloser ihBody ihOther =>
      have hOpen :=
        Instruction.opensRegion_of_kind hOpener (by simp)
      have hDivide :=
        Instruction.opensRegion_of_otherwise hDivider
      have hClose := Instruction.opensRegion_of_endIf hCloser
      simp only [List.cons_append, List.append_assoc,
        List.nil_append, regionStop, hOpen, if_true]
      rw [ihBody]
      simp only [regionStop, hDivide, hDivider,
        Bool.false_eq_true, if_false, Option.some.injEq,
        reduceCtorEq]
      rw [ihOther]
      simp only [regionStop, hClose, hCloser, if_true,
        Bool.false_eq_true, if_false, List.length_append,
        List.length_cons, List.length_nil]
      congr 1
      omega

/- The ELSE of a region is not inside balanced lines. -/
theorem regionElse?_append
    {body : List Instruction}
    (hBody : Balanced body)
    (depth offset : Nat)
    (rest : List Instruction) :
    regionElse? depth offset (body ++ rest) =
      regionElse? depth (offset + body.length) rest := by
  induction hBody generalizing depth offset rest with
  | nil => rfl
  | plain hLine =>
      rcases Instruction.isBracket_eq_false_iff.mp hLine with
        ⟨hOpens, hElse, hEnd⟩
      simp [regionElse?, hOpens, hElse, hEnd]
  | append hLeft hRight ihLeft ihRight =>
      rw [List.append_assoc, ihLeft, ihRight,
        List.length_append, Nat.add_assoc]
  | @region opener closer body hOpener hBody hCloser ih =>
      have hClose := Instruction.opensRegion_of_endIf hCloser
      simp only [List.cons_append, List.append_assoc,
        List.nil_append, regionElse?, hOpener, if_true]
      rw [ih]
      simp only [regionElse?, hClose, hCloser, if_true,
        Bool.false_eq_true, if_false, List.length_append,
        List.length_cons, List.length_nil]
      congr 1
      omega
  | @alternative opener divider closer body other hOpener hBody
      hDivider hOther hCloser ihBody ihOther =>
      have hOpen :=
        Instruction.opensRegion_of_kind hOpener (by simp)
      have hDivide :=
        Instruction.opensRegion_of_otherwise hDivider
      have hClose := Instruction.opensRegion_of_endIf hCloser
      simp only [List.cons_append, List.append_assoc,
        List.nil_append, regionElse?, hOpen, if_true]
      rw [ihBody]
      -- The ELSE of the inner region stands one level deeper,
      -- so it is passed over.
      simp only [regionElse?, hDivide, hDivider,
        Bool.false_eq_true, if_false, Option.some.injEq,
        reduceCtorEq, Nat.add_eq_zero_iff, and_false]
      rw [ihOther]
      simp only [regionElse?, hClose, hCloser, if_true,
        Bool.false_eq_true, if_false, List.length_append,
        List.length_cons, List.length_nil]
      congr 1
      omega

end Balanced

/- The end and the ELSE of a region without ELSE. -/
theorem regionStop_region
    {body rest : List Instruction}
    {closer : Instruction}
    (hBody : Balanced body)
    (hCloser : closer.macroKind? = some .endIf)
    (offset : Nat) :
    regionStop 0 offset (body ++ closer :: rest) =
      offset + body.length := by
  rw [hBody.regionStop_append]
  simp [regionStop, hCloser,
    Instruction.opensRegion_of_endIf hCloser]

theorem regionElse?_region
    {body rest : List Instruction}
    {closer : Instruction}
    (hBody : Balanced body)
    (hCloser : closer.macroKind? = some .endIf)
    (offset : Nat) :
    regionElse? 0 offset (body ++ closer :: rest) = none := by
  rw [hBody.regionElse?_append]
  simp [regionElse?, hCloser,
    Instruction.opensRegion_of_endIf hCloser]

/- The end and the ELSE of a region with both parts. -/
theorem regionStop_alternative
    {body other rest : List Instruction}
    {divider closer : Instruction}
    (hBody : Balanced body)
    (hDivider : divider.macroKind? = some .otherwise)
    (hOther : Balanced other)
    (hCloser : closer.macroKind? = some .endIf)
    (offset : Nat) :
    regionStop 0 offset
        (body ++ divider :: (other ++ closer :: rest)) =
      offset + body.length + 1 + other.length := by
  rw [hBody.regionStop_append]
  simp only [regionStop, hDivider,
    Instruction.opensRegion_of_otherwise hDivider,
    Bool.false_eq_true, if_false, Option.some.injEq,
    reduceCtorEq]
  exact regionStop_region hOther hCloser _

theorem regionElse?_alternative
    {body rest : List Instruction}
    {divider : Instruction}
    (hBody : Balanced body)
    (hDivider : divider.macroKind? = some .otherwise)
    (offset : Nat) :
    regionElse? 0 offset (body ++ divider :: rest) =
      some (offset + body.length) := by
  rw [hBody.regionElse?_append]
  simp [regionElse?, hDivider,
    Instruction.opensRegion_of_otherwise hDivider]

end MmixAsm

------------------------------------------------------------
-- Entries Of Balanced Lines
------------------------------------------------------------

namespace MmixAsm

/-
  The entry of a line that opens a region, given where the
  region ends and where its ELSE stands.
-/
def MacroDecl.ofRegion?
    (line : Line MacroKind)
    (offset stop : Nat)
    (middle : Option Nat) : Option MacroDecl :=
  match line.keyword, line.parameters with
  | .ifDefined, name :: _ =>
      some (.ifDefined true name ⟨offset, stop⟩)
  | .ifUndefined, name :: _ =>
      some (.ifDefined false name ⟨offset, stop⟩)
  | .ifCondition, condition :: _ =>
      match middle with
      | some middle =>
          some (.ifCondition condition ⟨offset, middle⟩
            (some ⟨middle, stop⟩))
      | none =>
          some (.ifCondition condition ⟨offset, stop⟩ none)
  | _, _ => none

namespace MacroTable

/- The entries of one line, given the lines behind it. -/
def ofLine
    (offset : Nat)
    (line : Instruction)
    (rest : List Instruction) : MacroTable :=
  (line.macroLine?.bind fun macroLine =>
    MacroDecl.ofLine? macroLine line.macroBody? offset
      rest).toList

@[simp] theorem ofLinesFrom_nil
    (offset : Nat) :
    ofLinesFrom offset [] = [] := rfl

theorem ofLinesFrom_cons
    (offset : Nat)
    (line : Instruction)
    (rest : List Instruction) :
    ofLinesFrom offset (line :: rest) =
      ofLine offset line rest
        ++ ofLinesFrom (offset + 1) rest := rfl

/- A line that opens a region looks for its partners. -/
theorem ofLine_of_opensRegion
    {line : Instruction}
    (hLine : line.opensRegion = true)
    (offset : Nat)
    (rest : List Instruction) :
    ofLine offset line rest =
      (line.macroLine?.bind fun macroLine =>
        MacroDecl.ofRegion? macroLine offset
          (regionStop 0 (offset + 1) rest)
          (regionElse? 0 (offset + 1) rest)).toList := by
  unfold ofLine
  cases hMacro : line.macroLine? with
  | none => rfl
  | some content =>
      have hKind :
          line.macroKind? = some content.keyword := by
        simp [Instruction.macroKind?, hMacro]
      simp only [Option.bind_some]
      congr 1
      unfold MacroDecl.ofLine? MacroDecl.ofRegion?
      cases hKeyword : content.keyword <;>
        simp only [Instruction.opensRegion, hKind, hKeyword,
          Bool.false_eq_true] at hLine ⊢
      case ifDefined => cases content.parameters <;> rfl
      case ifUndefined => cases content.parameters <;> rfl
      case ifCondition =>
        cases content.parameters with
        | nil => rfl
        | cons condition others =>
            simp only [conditionEntry]
            cases regionElse? 0 (offset + 1) rest <;> rfl

/- Any other line needs no line behind it. -/
theorem ofLine_of_not_opensRegion
    {line : Instruction}
    (hLine : line.opensRegion = false)
    (offset : Nat)
    (rest : List Instruction) :
    ofLine offset line rest = ofLine offset line [] := by
  unfold ofLine
  cases hMacro : line.macroLine? with
  | none => rfl
  | some content =>
      have hKind :
          line.macroKind? = some content.keyword := by
        simp [Instruction.macroKind?, hMacro]
      simp only [Option.bind_some]
      congr 1
      unfold MacroDecl.ofLine?
      cases hKeyword : content.keyword <;>
        simp only [Instruction.opensRegion, hKind, hKeyword,
          Bool.true_eq_false] at hLine ⊢
      case inclusion => cases content.parameters <;> rfl

/- ELSE and ENDIF have no entry. -/
theorem ofLine_of_otherwise
    {line : Instruction}
    (hLine : line.macroKind? = some .otherwise)
    (offset : Nat)
    (rest : List Instruction) :
    ofLine offset line rest = [] := by
  rcases Option.map_eq_some_iff.mp hLine with
    ⟨content, hMacro, hKeyword⟩
  simp [ofLine, hMacro, MacroDecl.ofLine?, hKeyword]

theorem ofLine_of_endIf
    {line : Instruction}
    (hLine : line.macroKind? = some .endIf)
    (offset : Nat)
    (rest : List Instruction) :
    ofLine offset line rest = [] := by
  rcases Option.map_eq_some_iff.mp hLine with
    ⟨content, hMacro, hKeyword⟩
  simp [ofLine, hMacro, MacroDecl.ofLine?, hKeyword]

end MacroTable

namespace Balanced

open MacroTable

/- Balanced lines have the same entries wherever they end. -/
theorem ofLinesFrom_append
    {lines : List Instruction}
    (hLines : Balanced lines)
    (offset : Nat)
    (rest : List Instruction) :
    ofLinesFrom offset (lines ++ rest) =
      ofLinesFrom offset lines
        ++ ofLinesFrom (offset + lines.length) rest := by
  induction hLines generalizing offset rest with
  | nil => rfl
  | @plain line hLine =>
      have hOpens :=
        (Instruction.isBracket_eq_false_iff.mp hLine).1
      simp only [List.cons_append, List.nil_append,
        ofLinesFrom_cons, List.length_cons, List.length_nil]
      rw [ofLine_of_not_opensRegion hOpens offset rest]
      simp
  | append hLeft hRight ihLeft ihRight =>
      rw [List.append_assoc, ihLeft, ihRight, ihLeft,
        List.length_append, List.append_assoc, Nat.add_assoc]
  | @region opener closer body hOpener hBody hCloser ih =>
      simp only [List.cons_append, List.append_assoc,
        List.nil_append, ofLinesFrom_cons]
      rw [ih, ih, ofLine_of_opensRegion hOpener,
        ofLine_of_opensRegion hOpener,
        regionStop_region hBody hCloser,
        regionStop_region hBody hCloser,
        regionElse?_region hBody hCloser,
        regionElse?_region hBody hCloser]
      simp only [ofLinesFrom_cons, ofLine_of_endIf hCloser,
        List.length_append, List.length_cons, List.length_nil,
        List.append_assoc, List.nil_append]
      congr 3
      omega
  | @alternative opener divider closer body other hOpener hBody
      hDivider hOther hCloser ihBody ihOther =>
      have hOpen :=
        Instruction.opensRegion_of_kind hOpener (by simp)
      simp only [List.cons_append, List.append_assoc,
        List.nil_append, ofLinesFrom_cons]
      rw [ihBody, ihBody, ofLine_of_opensRegion hOpen,
        ofLine_of_opensRegion hOpen,
        regionStop_alternative hBody hDivider hOther hCloser,
        regionStop_alternative hBody hDivider hOther hCloser,
        regionElse?_alternative hBody hDivider,
        regionElse?_alternative hBody hDivider]
      simp only [ofLinesFrom_cons,
        ofLine_of_otherwise hDivider]
      rw [ihOther, ihOther]
      simp only [ofLinesFrom_cons, ofLine_of_endIf hCloser,
        List.length_append, List.length_cons, List.length_nil,
        List.append_assoc, List.nil_append]
      congr 4
      omega

/- The entries of a region without ELSE. -/
theorem ofLinesFrom_region
    {opener closer : Instruction}
    {content : Line MacroKind}
    {body : List Instruction}
    (hOpener : opener.opensRegion = true)
    (hMacro : opener.macroLine? = some content)
    (hBody : Balanced body)
    (hCloser : closer.macroKind? = some .endIf)
    (offset : Nat) :
    ofLinesFrom offset (opener :: body ++ [closer]) =
      (MacroDecl.ofRegion? content offset
          (offset + 1 + body.length) none).toList
        ++ ofLinesFrom (offset + 1) body := by
  rw [List.cons_append, ofLinesFrom_cons,
    ofLine_of_opensRegion hOpener, hMacro,
    regionStop_region hBody hCloser,
    regionElse?_region hBody hCloser,
    hBody.ofLinesFrom_append, ofLinesFrom_cons,
    ofLine_of_endIf hCloser]
  simp

/- The entries of a region with both parts. -/
theorem ofLinesFrom_alternative
    {opener divider closer : Instruction}
    {content : Line MacroKind}
    {body other : List Instruction}
    (hOpener : opener.opensRegion = true)
    (hMacro : opener.macroLine? = some content)
    (hBody : Balanced body)
    (hDivider : divider.macroKind? = some .otherwise)
    (hOther : Balanced other)
    (hCloser : closer.macroKind? = some .endIf)
    (offset : Nat) :
    ofLinesFrom offset
        (opener :: body ++ divider :: other ++ [closer]) =
      (MacroDecl.ofRegion? content offset
          (offset + 1 + body.length + 1 + other.length)
          (some (offset + 1 + body.length))).toList
        ++ (ofLinesFrom (offset + 1) body
          ++ ofLinesFrom (offset + 1 + body.length + 1)
            other) := by
  rw [List.append_assoc, List.cons_append, List.cons_append,
    ofLinesFrom_cons, ofLine_of_opensRegion hOpener, hMacro,
    regionStop_alternative hBody hDivider hOther hCloser,
    regionElse?_alternative hBody hDivider,
    hBody.ofLinesFrom_append, ofLinesFrom_cons,
    ofLine_of_otherwise hDivider, hOther.ofLinesFrom_append,
    ofLinesFrom_cons, ofLine_of_endIf hCloser]
  simp

end Balanced

end MmixAsm
