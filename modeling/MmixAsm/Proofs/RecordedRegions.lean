import MmixAsm.Proofs.ActiveLines
import MmixAsm.Proofs.TableBuilder
import MmixAsm.Proofs.TableQueries

/-
  Which files have a table, and what the table records.

  A file is accepted if its conditional lines pair up, every
  macro line has the parts it needs and no name is defined
  twice.  The table of such a file has an entry for each line
  that makes one, in the order of the lines.  The regions of
  its entries end at the lines that match, so any two lie
  apart or one inside the other.

  Key definitions include:
    * `MmixAsm.openingsAfter`
    * `MmixAsm.Survey.Reads`
    * `MmixAsm.PartsInOrder`
    * `MmixAsm.EntryOf`
    * `MmixAsm.SourceUnit.Records`

  Key theorems include:
    * `MmixAsm.Survey.reads_step`
    * `MmixAsm.Survey.ofLines_eq_error`
    * `MmixAsm.Survey.recorded_of_ofLines`
    * `MmixAsm.Balanced.regions_ofLinesFrom`
    * `MmixAsm.SourceUnit.ofFile_records_brackets`
-/

------------------------------------------------------------
-- Open Regions
------------------------------------------------------------

namespace MmixAsm

/-
  The regions that are open behind a line.  There are none if
  the line divides or closes what it must not.
-/
def openingsAfter
    (openings : List Opening)
    (line : Instruction) : Option (List Opening) :=
  match line.macroKind?, openings with
  | some .ifDefined, _ => some (.definedness :: openings)
  | some .ifUndefined, _ => some (.definedness :: openings)
  | some .ifCondition, _ =>
      some (.condition false :: openings)
  | some .otherwise, .condition false :: rest =>
      some (.condition true :: rest)
  | some .otherwise, _ => none
  | some .endIf, _ :: rest => some rest
  | some .endIf, [] => none
  | _, _ => some openings

variable {line : Instruction}

theorem openingsAfter_of_plain
    (hLine : line.isBracket = false)
    (openings : List Opening) :
    openingsAfter openings line = some openings := by
  rcases Instruction.isBracket_eq_false_iff.mp hLine with
    ⟨hOpens, hElse, hEnd⟩
  unfold Instruction.opensRegion at hOpens
  unfold openingsAfter
  cases hKind : line.macroKind? with
  | none => rfl
  | some kind => cases kind <;> simp_all

theorem openingsAfter_of_opensRegion
    (hLine : line.opensRegion = true)
    (openings : List Opening) :
    ∃ opening,
      openingsAfter openings line =
        some (opening :: openings) := by
  unfold Instruction.opensRegion at hLine
  unfold openingsAfter
  cases hKind : line.macroKind? with
  | none => simp [hKind] at hLine
  | some kind => cases kind <;> simp_all

theorem openingsAfter_of_ifCondition
    (hLine : line.macroKind? = some .ifCondition)
    (openings : List Opening) :
    openingsAfter openings line =
      some (.condition false :: openings) := by
  simp only [openingsAfter, hLine]

theorem openingsAfter_of_otherwise
    (hLine : line.macroKind? = some .otherwise)
    (openings : List Opening) :
    openingsAfter (.condition false :: openings) line =
      some (.condition true :: openings) := by
  simp only [openingsAfter, hLine]

theorem openingsAfter_of_endIf
    (hLine : line.macroKind? = some .endIf)
    (opening : Opening)
    (openings : List Opening) :
    openingsAfter (opening :: openings) line =
      some openings := by
  simp only [openingsAfter, hLine]

/- Reading one line, and reading several. -/
theorem foldlM_openingsAfter_cons
    {openings next : List Opening}
    (hLine : openingsAfter openings line = some next)
    (rest : List Instruction) :
    (line :: rest).foldlM openingsAfter openings =
      rest.foldlM openingsAfter next := by
  rw [List.foldlM_cons, hLine]
  rfl

theorem foldlM_openingsAfter_append
    {openings next : List Opening}
    {front : List Instruction}
    (hFront :
      front.foldlM openingsAfter openings = some next)
    (back : List Instruction) :
    (front ++ back).foldlM openingsAfter openings =
      back.foldlM openingsAfter next := by
  rw [List.foldlM_append, hFront]
  rfl

/- Balanced lines can be read inside any region. -/
theorem Balanced.foldlM_openingsAfter
    {lines : List Instruction}
    (hLines : Balanced lines)
    (openings : List Opening) :
    lines.foldlM openingsAfter openings = some openings := by
  induction hLines generalizing openings with
  | nil => rfl
  | plain hLine =>
      exact foldlM_openingsAfter_cons
        (openingsAfter_of_plain hLine openings) []
  | append hLeft hRight ihLeft ihRight =>
      rw [foldlM_openingsAfter_append (ihLeft openings)]
      exact ihRight openings
  | region hOpener hBody hCloser ih =>
      rcases openingsAfter_of_opensRegion hOpener openings with
        ⟨opening, hOpening⟩
      rw [List.cons_append, foldlM_openingsAfter_cons hOpening,
        foldlM_openingsAfter_append (ih _)]
      exact foldlM_openingsAfter_cons
        (openingsAfter_of_endIf hCloser opening openings) []
  | alternative hOpener hBody hDivider hOther hCloser ihBody
      ihOther =>
      rw [List.append_assoc, List.cons_append,
        foldlM_openingsAfter_cons
          (openingsAfter_of_ifCondition hOpener openings),
        foldlM_openingsAfter_append (ihBody _),
        List.cons_append, foldlM_openingsAfter_cons
          (openingsAfter_of_otherwise hDivider openings),
        foldlM_openingsAfter_append (ihOther _)]
      exact foldlM_openingsAfter_cons
        (openingsAfter_of_endIf hCloser _ openings) []

end MmixAsm

------------------------------------------------------------
-- Reading One Line
------------------------------------------------------------

namespace MmixAsm

namespace MacroError

/- A part is missing, or a name is not new. -/
def isOfParts :
    MacroError → Bool
| .missingParameter _ _ => true
| .missingLabel _ _ => true
| .missingTemplate _ _ => true
| .duplicateName _ _ => true
| _ => false

/- A conditional line has no partner. -/
def isOfBrackets :
    MacroError → Bool
| .unmatched _ _ => true
| .unexpectedElse _ => true
| .unterminatedRegion _ => true
| _ => false

end MacroError

/- Whether a line has the parts that its keyword needs. -/
def Instruction.isComplete (line : Instruction) : Bool :=
  match line.macroLine? with
  | none => true
  | some content =>
      match content.keyword with
      | .definition =>
          content.label.isSome && line.macroBody?.isSome
      | .constant => (constantOf? content).isSome
      | .otherwise => true
      | .endIf => true
      | _ => !content.parameters.isEmpty

namespace Survey

/-
  What reading a line can come to.  The line passes, or it is
  rejected for its parts, its name or its place.
-/
inductive Reads
    (survey : Survey)
    (line : Instruction) :
    Except MacroError Survey → Prop where
  | passes
      {openings : List Opening}
      (hParts : line.isComplete = true)
      (hNew : ∀ name ∈ line.definedName?,
        name ∉ survey.names)
      (hOpenings :
        openingsAfter survey.openings line = some openings) :
      Reads survey line
        (.ok ⟨line.definedName?.toList ++ survey.names,
          openings⟩)
  | incomplete
      {e : MacroError}
      (hFault : e.isOfParts = true)
      (hParts : line.isComplete = false) :
      Reads survey line (.error e)
  | repeats
      {e : MacroError}
      {name : String}
      (hFault : e.isOfParts = true)
      (hName : line.definedName? = some name)
      (hOld : name ∈ survey.names) :
      Reads survey line (.error e)
  | misplaced
      {e : MacroError}
      (hFault : e.isOfBrackets = true)
      (hOpenings :
        openingsAfter survey.openings line = none) :
      Reads survey line (.error e)

variable {file : String}
variable {survey : Survey}
variable {line : Instruction}

theorem reads_define
    {name : String}
    (hParts : line.isComplete = true)
    (hName : line.definedName? = some name)
    (hLine : line.isBracket = false) :
    Reads survey line (survey.define file name) := by
  unfold define
  by_cases hOld : name ∈ survey.names
  · rw [if_pos (List.contains_iff_mem.mpr hOld)]
    exact .repeats rfl hName hOld
  · rw [if_neg (mt List.contains_iff_mem.mp hOld)]
    have hNew : ∀ other ∈ line.definedName?,
        other ∉ survey.names := by
      rw [hName]
      rintro _ ⟨⟩
      exact hOld
    have hPasses := Reads.passes hParts hNew
      (openingsAfter_of_plain hLine survey.openings)
    rw [hName] at hPasses
    exact hPasses

theorem reads_moved
    {openings : List Opening}
    (hParts : line.isComplete = true)
    (hName : line.definedName? = none)
    (hOpenings :
      openingsAfter survey.openings line = some openings) :
    Reads survey line (.ok { survey with openings }) := by
  have hNew : ∀ name ∈ line.definedName?,
      name ∉ survey.names := by
    rw [hName]
    rintro _ ⟨⟩
  have hPasses := Reads.passes hParts hNew hOpenings
  rw [hName] at hPasses
  exact hPasses

/- The lines that need a parameter and define nothing. -/
theorem reads_needParameter
    {content : Line MacroKind}
    {openings : List Opening}
    (hMacro : line.macroLine? = some content)
    (hKeyword : content.keyword ∈ [.inclusion, .application,
      .ifDefined, .ifUndefined, .ifCondition])
    (hOpenings :
      openingsAfter survey.openings line = some openings) :
    Reads survey line
      (({ survey with openings } : Survey).needParameter file
        content) := by
  have hLine :
      line.isComplete = !content.parameters.isEmpty ∧
        line.definedName? = none := by
    simp only [List.mem_cons, List.not_mem_nil, or_false]
      at hKeyword
    rcases hKeyword with h | h | h | h | h <;>
      simp [Instruction.isComplete, Instruction.definedName?,
        hMacro, h]
  rcases hLine with ⟨hParts, hName⟩
  unfold needParameter
  cases hContent : content.parameters with
  | nil =>
      rw [hContent] at hParts
      exact .incomplete rfl hParts
  | cons first others =>
      rw [hContent] at hParts
      exact reads_moved hParts hName hOpenings

theorem reads_turn
    {content : Line MacroKind}
    (hMacro : line.macroLine? = some content)
    (hKeyword : content.keyword = .otherwise) :
    Reads survey line (survey.turn file) := by
  have hParts : line.isComplete = true := by
    simp [Instruction.isComplete, hMacro, hKeyword]
  have hName : line.definedName? = none := by
    simp [Instruction.definedName?, hMacro, hKeyword]
  have hKind : line.macroKind? = some .otherwise := by
    simp [Instruction.macroKind?, hMacro, hKeyword]
  unfold turn
  cases hOpenings : survey.openings with
  | nil =>
      refine .misplaced rfl ?_
      simp only [openingsAfter, hKind, hOpenings]
  | cons opening rest =>
      cases opening with
      | definedness =>
          refine .misplaced rfl ?_
          simp only [openingsAfter, hKind, hOpenings]
      | condition elseSeen =>
          cases elseSeen with
          | false =>
              refine reads_moved hParts hName ?_
              rw [hOpenings]
              exact openingsAfter_of_otherwise hKind rest
          | true =>
              refine .misplaced rfl ?_
              simp only [openingsAfter, hKind, hOpenings]

theorem reads_pop
    {content : Line MacroKind}
    (hMacro : line.macroLine? = some content)
    (hKeyword : content.keyword = .endIf) :
    Reads survey line (survey.pop file) := by
  have hParts : line.isComplete = true := by
    simp [Instruction.isComplete, hMacro, hKeyword]
  have hName : line.definedName? = none := by
    simp [Instruction.definedName?, hMacro, hKeyword]
  have hKind : line.macroKind? = some .endIf := by
    simp [Instruction.macroKind?, hMacro, hKeyword]
  unfold pop
  cases hOpenings : survey.openings with
  | nil =>
      refine .misplaced rfl ?_
      simp only [openingsAfter, hKind, hOpenings]
  | cons opening rest =>
      refine reads_moved hParts hName ?_
      rw [hOpenings]
      exact openingsAfter_of_endIf hKind opening rest

theorem reads_defineTemplate
    {content : Line MacroKind}
    (hMacro : line.macroLine? = some content)
    (hKeyword : content.keyword = .definition) :
    Reads survey line
      (survey.defineTemplate file content line.macroBody?) := by
  have hParts :
      line.isComplete =
        (content.label.isSome && line.macroBody?.isSome) := by
    simp [Instruction.isComplete, hMacro, hKeyword]
  have hName : line.definedName? = content.label := by
    simp [Instruction.definedName?, hMacro, hKeyword]
  have hKind : line.macroKind? = some .definition := by
    simp [Instruction.macroKind?, hMacro, hKeyword]
  unfold defineTemplate
  cases hLabel : content.label with
  | none =>
      rw [hLabel] at hParts
      exact .incomplete rfl hParts
  | some name =>
      cases hBody : line.macroBody? with
      | none =>
          rw [hLabel, hBody] at hParts
          exact .incomplete rfl hParts
      | some body =>
          rw [hLabel, hBody] at hParts
          exact reads_define hParts (hName.trans hLabel)
            (Instruction.isBracket_eq_false_of_kind hKind
              (by simp))

theorem reads_constant
    {content : Line MacroKind}
    (hMacro : line.macroLine? = some content)
    (hKeyword : content.keyword = .constant) :
    Reads survey line
      (survey.readMacro file content line.macroBody?) := by
  have hParts :
      line.isComplete = (constantOf? content).isSome := by
    simp [Instruction.isComplete, hMacro, hKeyword]
  have hName :
      line.definedName? = (constantOf? content).map (·.1) := by
    simp [Instruction.definedName?, hMacro, hKeyword]
  have hKind : line.macroKind? = some .constant := by
    simp [Instruction.macroKind?, hMacro, hKeyword]
  simp only [readMacro, hKeyword]
  cases hConstant : constantOf? content with
  | none =>
      rw [hConstant] at hParts
      exact .incomplete rfl hParts
  | some constant =>
      rw [hConstant] at hParts hName
      exact reads_define hParts hName
        (Instruction.isBracket_eq_false_of_kind hKind (by simp))

theorem reads_step
    (file : String)
    (survey : Survey)
    (line : Instruction) :
    Reads survey line (step file survey line) := by
  unfold step
  cases hMacro : line.macroLine? with
  | none =>
      have hParts : line.isComplete = true := by
        simp [Instruction.isComplete, hMacro]
      have hName : line.definedName? = none := by
        simp [Instruction.definedName?, hMacro]
      exact reads_moved hParts hName (openingsAfter_of_plain
        (Instruction.isBracket_eq_false_of_macroLine? hMacro) _)
  | some content =>
      have hKind : line.macroKind? = some content.keyword := by
        simp [Instruction.macroKind?, hMacro]
      -- Five kinds need a parameter and differ only in what
      -- they open.
      have hParameter : ∀ openings,
          content.keyword ∈ [.inclusion, .application,
            .ifDefined, .ifUndefined, .ifCondition] →
          openingsAfter survey.openings line = some openings →
            Reads survey line
              (({ survey with openings } : Survey).needParameter
                file content) :=
        fun _ => reads_needParameter hMacro
      unfold openingsAfter at hParameter
      rw [hKind] at hParameter
      cases hKeyword : content.keyword with
      | definition =>
          simp only [readMacro, hKeyword]
          exact reads_defineTemplate hMacro hKeyword
      | constant => exact reads_constant hMacro hKeyword
      | otherwise =>
          simp only [readMacro, hKeyword]
          exact reads_turn hMacro hKeyword
      | endIf =>
          simp only [readMacro, hKeyword]
          exact reads_pop hMacro hKeyword
      | _ =>
          simp only [readMacro, hKeyword]
          rw [hKeyword] at hParameter
          exact hParameter _ (by simp) rfl

end Survey

end MmixAsm

------------------------------------------------------------
-- Accepted Files
------------------------------------------------------------

namespace MmixAsm

/- The names that lines define, in their order. -/
def definedNames (lines : List Instruction) : List String :=
  lines.filterMap Instruction.definedName?

/- No line misses a part and no name is defined twice. -/
structure PartsInOrder (lines : List Instruction) : Prop where
  complete : ∀ line ∈ lines, line.isComplete = true
  distinct : (definedNames lines).Nodup

namespace Survey

variable {file : String}
variable {survey last : Survey}
variable {lines : List Instruction}

/- What is known behind lines that pass. -/
structure Passed
    (survey : Survey)
    (lines : List Instruction)
    (last : Survey) : Prop where
  complete : ∀ line ∈ lines, line.isComplete = true
  names :
    last.names = (definedNames lines).reverse ++ survey.names
  distinct : survey.names.Nodup → last.names.Nodup
  openings :
    lines.foldlM openingsAfter survey.openings =
      some last.openings

theorem passed_of_foldlM
    (hRun : lines.foldlM (step file) survey = .ok last) :
    Passed survey lines last := by
  induction lines generalizing survey with
  | nil =>
      cases hRun
      exact ⟨by simp, rfl, id, rfl⟩
  | cons line rest ih =>
      rw [List.foldlM_cons] at hRun
      rcases exists_of_bind_eq_ok hRun with
        ⟨next, hStep, hRest⟩
      have hReads := reads_step file survey line
      rw [hStep] at hReads
      cases hReads with
      | passes hParts hNew hOpenings =>
          have hPassed := ih hRest
          refine ⟨?_, ?_, ?_, ?_⟩
          · exact List.forall_mem_cons.mpr
              ⟨hParts, hPassed.complete⟩
          · rw [hPassed.names]
            unfold definedNames
            cases hName : line.definedName? <;>
              simp [hName]
          · intro hDistinct
            apply hPassed.distinct
            cases hName : line.definedName? with
            | none => exact hDistinct
            | some name =>
                exact List.nodup_cons.mpr
                  ⟨hNew name hName, hDistinct⟩
          · rw [foldlM_openingsAfter_cons hOpenings]
            exact hPassed.openings

/- A file that passes leaves no region open. -/
theorem ofLines_eq_ok_iff :
    ofLines file lines = .ok survey ↔
      lines.foldlM (step file) start = .ok survey ∧
        survey.openings = [] := by
  unfold ofLines
  cases hRun : lines.foldlM (step file) start with
  | error e => simp
  | ok last =>
      by_cases hOpen : last.openings = []
      · simp only [hOpen, List.isEmpty_nil, if_true,
          Except.ok.injEq]
        constructor
        · rintro rfl
          exact ⟨rfl, hOpen⟩
        · exact And.left
      · simp only [List.isEmpty_iff, hOpen, if_false,
          reduceCtorEq, false_iff, Except.ok.injEq, not_and]
        rintro rfl
        exact hOpen

/-
  Lines are rejected for a part or a name only if these are
  not in order, and for a bracket only if they do not balance.
-/
theorem foldlM_step_eq_error
    {e : MacroError}
    (hRun : lines.foldlM (step file) start = .error e) :
    (e.isOfParts = true ∧ ¬ PartsInOrder lines) ∨
      (e.isOfBrackets = true ∧ ¬ Balanced lines) := by
  rcases foldlM_eq_error_iff.mp hRun with
    ⟨front, line, back, state, rfl, hFront, hStep⟩
  have hPassed := passed_of_foldlM hFront
  have hReads := reads_step file state line
  rw [hStep] at hReads
  cases hReads with
  | incomplete hFault hParts =>
      refine Or.inl ⟨hFault, fun hOrder => ?_⟩
      rw [hOrder.complete line (by simp)] at hParts
      cases hParts
  | @repeats _ name hFault hName hOld =>
      refine Or.inl ⟨hFault, fun hOrder => ?_⟩
      have hFirst : name ∈ definedNames front := by
        simpa [hPassed.names, start] using hOld
      have hDistinct := hOrder.distinct
      unfold definedNames at hFirst hDistinct
      rw [List.filterMap_append,
        List.filterMap_cons_some hName] at hDistinct
      exact (List.nodup_append.mp hDistinct).2.2 name
        hFirst name List.mem_cons_self rfl
  | misplaced hFault hOpenings =>
      refine Or.inr ⟨hFault, fun hBalanced => ?_⟩
      have hAll :=
        hBalanced.foldlM_openingsAfter start.openings
      rw [foldlM_openingsAfter_append hPassed.openings,
        List.foldlM_cons, hOpenings] at hAll
      cases hAll

theorem ofLines_eq_error
    {e : MacroError}
    (h : ofLines file lines = .error e) :
    (e.isOfParts = true ∧ ¬ PartsInOrder lines) ∨
      (e.isOfBrackets = true ∧ ¬ Balanced lines) := by
  unfold ofLines at h
  cases hRun : lines.foldlM (step file) start with
  | error cause =>
      rw [hRun] at h
      cases h
      exact foldlM_step_eq_error hRun
  | ok last =>
      rw [hRun] at h
      by_cases hOpen : last.openings = []
      · simp [hOpen] at h
      · simp only [List.isEmpty_iff, hOpen, if_false] at h
        cases h
        refine Or.inr ⟨rfl, fun hBalanced => hOpen ?_⟩
        have hAll := (passed_of_foldlM hRun).openings
        rw [hBalanced.foldlM_openingsAfter] at hAll
        exact (Option.some.inj hAll).symm

/- The files that pass. -/
theorem exists_ofLines_iff
    (file : String)
    (lines : List Instruction) :
    (∃ survey, ofLines file lines = .ok survey) ↔
      Balanced lines ∧ PartsInOrder lines := by
  constructor
  · rintro ⟨survey, h⟩
    have hPassed := passed_of_foldlM (ofLines_eq_ok_iff.mp h).1
    refine ⟨balanced_of_ofLines h, hPassed.complete, ?_⟩
    have hDistinct := hPassed.distinct List.nodup_nil
    rw [hPassed.names] at hDistinct
    exact List.nodup_reverse.mp
      (List.nodup_append.mp hDistinct).1
  · rintro ⟨hBalanced, hOrder⟩
    cases h : ofLines file lines with
    | ok survey => exact ⟨survey, rfl⟩
    | error e =>
        rcases ofLines_eq_error h with
          ⟨_, hNot⟩ | ⟨_, hNot⟩
        · exact absurd hOrder hNot
        · exact absurd hBalanced hNot

end Survey

end MmixAsm

------------------------------------------------------------
-- Entries
------------------------------------------------------------

namespace MmixAsm

/- Whether a line makes an entry. -/
def Instruction.makesEntry (line : Instruction) : Bool :=
  match line.macroKind? with
  | none => false
  | some .otherwise => false
  | some .endIf => false
  | _ => true

/-
  The entry of a line at an offset, given the lines behind
  it.  A region runs to the line that closes it, with balanced
  lines in between, and the two parts of an IF meet at ELSE.
-/
inductive EntryOf
    (offset : Nat)
    (line : Instruction) :
    List Instruction → MacroDecl → Prop where
  | template
      {name : String}
      {formals : List String}
      {body : Instruction}
      {behind : List Instruction}
      (hLine : line.macroLine? =
        some ⟨some name, .definition, formals⟩)
      (hBody : line.macroBody? = some body) :
      EntryOf offset line behind
        (.template ⟨name, formals, body⟩)
  | inclusion
      {label : Option String}
      {file : String}
      {others : List String}
      {behind : List Instruction}
      (hLine : line.macroLine? =
        some ⟨label, .inclusion, file :: others⟩) :
      EntryOf offset line behind
        (.inclusion (fileNameOf file) offset)
  | site
      {label : Option String}
      {actuals : List String}
      {behind : List Instruction}
      (hLine : line.macroLine? =
        some ⟨label, .application, actuals⟩) :
      EntryOf offset line behind
        (.site ⟨label, offset, actuals⟩)
  | constant
      {content : Line MacroKind}
      {name value : String}
      {behind : List Instruction}
      (hLine : line.macroLine? = some content)
      (hKeyword : content.keyword = .constant)
      (hConstant : constantOf? content = some (name, value)) :
      EntryOf offset line behind (.constant name value)
  | ifDefined
      (wanted : Bool)
      {label : Option String}
      {name : String}
      {others : List String}
      {body rest : List Instruction}
      {closer : Instruction}
      (hLine : line.macroLine? =
        some ⟨label, if wanted then .ifDefined else .ifUndefined,
          name :: others⟩)
      (hBody : Balanced body)
      (hCloser : closer.macroKind? = some .endIf) :
      EntryOf offset line (body ++ closer :: rest)
        (.ifDefined wanted name
          ⟨offset, offset + 1 + body.length⟩)
  | ifAlone
      {label : Option String}
      {condition : String}
      {others : List String}
      {body rest : List Instruction}
      {closer : Instruction}
      (hLine : line.macroLine? =
        some ⟨label, .ifCondition, condition :: others⟩)
      (hBody : Balanced body)
      (hCloser : closer.macroKind? = some .endIf) :
      EntryOf offset line (body ++ closer :: rest)
        (.ifCondition condition
          ⟨offset, offset + 1 + body.length⟩ none)
  | ifElse
      {label : Option String}
      {condition : String}
      {others : List String}
      {body other rest : List Instruction}
      {divider closer : Instruction}
      (hLine : line.macroLine? =
        some ⟨label, .ifCondition, condition :: others⟩)
      (hBody : Balanced body)
      (hDivider : divider.macroKind? = some .otherwise)
      (hOther : Balanced other)
      (hCloser : closer.macroKind? = some .endIf) :
      EntryOf offset line
        (body ++ divider :: (other ++ closer :: rest))
        (.ifCondition condition
          ⟨offset, offset + 1 + body.length⟩
          (some ⟨offset + 1 + body.length,
            offset + 1 + body.length + 1 + other.length⟩))

/- A line has its entry, or makes none. -/
inductive Recorded
    (offset : Nat)
    (line : Instruction)
    (behind : List Instruction) :
    MacroTable → Prop where
  | none
      (hLine : line.makesEntry = false) :
      Recorded offset line behind []
  | one
      {entry : MacroDecl}
      (hLine : line.makesEntry = true)
      (hEntry : EntryOf offset line behind entry) :
      Recorded offset line behind [entry]

variable {line : Instruction}
variable {behind : List Instruction}

/- A complete line that opens a region has a parameter. -/
theorem Instruction.exists_of_opensRegion
    (hParts : line.isComplete = true)
    (hOpens : line.opensRegion = true) :
    ∃ label keyword first others,
      line.macroLine? =
          some ⟨label, keyword, first :: others⟩ ∧
        (keyword = .ifDefined ∨ keyword = .ifUndefined ∨
          keyword = .ifCondition) := by
  unfold isComplete at hParts
  unfold opensRegion macroKind? at hOpens
  cases hMacro : line.macroLine? with
  | none => simp [hMacro] at hOpens
  | some content =>
      rcases content with ⟨label, keyword, parameters⟩
      cases parameters with
      | nil => cases keyword <;> simp_all
      | cons first others =>
          refine ⟨label, keyword, first, others, rfl, ?_⟩
          cases keyword <;> simp_all

/- The entry of a region that is closed behind its line. -/
theorem recorded_of_closes
    {opening : Opening}
    {openings : List Opening}
    (hParts : line.isComplete = true)
    (hOpens : line.opensRegion = true)
    (hKind :
      opening = .condition false →
        line.macroKind? = some .ifCondition)
    (hCloses : Closes (opening :: openings) behind)
    (offset : Nat) :
    Recorded offset line behind
      (MacroTable.ofLine offset line behind) := by
  rcases Instruction.exists_of_opensRegion hParts hOpens with
    ⟨label, keyword, first, others, hMacro, hKeyword⟩
  have hMakes : line.makesEntry = true := by
    rcases hKeyword with rfl | rfl | rfl <;>
      simp [Instruction.makesEntry, Instruction.macroKind?,
        hMacro]
  rw [MacroTable.ofLine_of_opensRegion hOpens, hMacro,
    Option.bind_some]
  cases hCloses with
  | @close _ _ body rest closer hBody hCloser hRest =>
      rw [regionStop_region hBody hCloser,
        regionElse?_region hBody hCloser]
      rcases hKeyword with rfl | rfl | rfl
      · exact .one hMakes
          (.ifDefined true hMacro hBody hCloser)
      · exact .one hMakes
          (.ifDefined false hMacro hBody hCloser)
      · exact .one hMakes (.ifAlone hMacro hBody hCloser)
  | @divide _ body other rest divider closer hBody hDivider
      hOther hCloser hRest =>
      have hCondition : keyword = .ifCondition := by
        simpa [Instruction.macroKind?, hMacro] using hKind rfl
      subst hCondition
      rw [List.append_assoc, List.cons_append,
        regionStop_alternative hBody hDivider hOther hCloser,
        regionElse?_alternative hBody hDivider]
      exact .one hMakes
        (.ifElse hMacro hBody hDivider hOther hCloser)

/- The entry of a line that opens no region. -/
theorem recorded_of_not_opensRegion
    (hParts : line.isComplete = true)
    (hOpens : line.opensRegion = false)
    (offset : Nat)
    (behind : List Instruction) :
    Recorded offset line behind
      (MacroTable.ofLine offset line behind) := by
  unfold Instruction.isComplete at hParts
  unfold Instruction.opensRegion Instruction.macroKind? at hOpens
  unfold MacroTable.ofLine
  cases hMacro : line.macroLine? with
  | none =>
      exact .none (by simp [Instruction.makesEntry,
        Instruction.macroKind?, hMacro])
  | some content =>
      have hMakes : line.makesEntry =
          (content.keyword != .otherwise &&
            content.keyword != .endIf) := by
        simp only [Instruction.makesEntry,
          Instruction.macroKind?, hMacro, Option.map_some]
        cases content.keyword <;> rfl
      rcases content with ⟨label, keyword, parameters⟩
      rw [hMacro] at hParts hOpens
      cases keyword with
      | definition =>
          simp only [Bool.and_eq_true] at hParts
          rcases Option.isSome_iff_exists.mp hParts.1 with
            ⟨name, rfl⟩
          rcases Option.isSome_iff_exists.mp hParts.2 with
            ⟨body, hBody⟩
          rw [hBody]
          exact .one hMakes (.template hMacro hBody)
      | inclusion =>
          cases parameters with
          | nil => cases hParts
          | cons file others =>
              exact .one hMakes (.inclusion hMacro)
      | application => exact .one hMakes (.site hMacro)
      | constant =>
          rcases Option.isSome_iff_exists.mp hParts with
            ⟨⟨name, value⟩, hConstant⟩
          simp only [Option.bind_some, MacroDecl.ofLine?,
            hConstant]
          exact .one hMakes (.constant hMacro rfl hConstant)
      | otherwise => exact .none hMakes
      | endIf => exact .none hMakes
      | ifDefined => cases hOpens
      | ifUndefined => cases hOpens
      | ifCondition => cases hOpens

/- An entry defines the name that its line defines. -/
theorem EntryOf.definedName?_eq
    {offset : Nat}
    {entry : MacroDecl}
    (hEntry : EntryOf offset line behind entry) :
    entry.definedName? = line.definedName? := by
  unfold Instruction.definedName?
  cases hEntry with
  | template hLine hBody => rw [hLine]; rfl
  | inclusion hLine => rw [hLine]; rfl
  | site hLine => rw [hLine]; rfl
  | constant hLine hKeyword hConstant =>
      simp only [hLine, hKeyword, hConstant, Option.map_some]
      rfl
  | ifDefined wanted hLine hBody hCloser =>
      rw [hLine]
      cases wanted <;> rfl
  | ifAlone hLine hBody hCloser => rw [hLine]; rfl
  | ifElse hLine hBody hDivider hOther hCloser =>
      rw [hLine]; rfl

/- A line without entry defines no name. -/
theorem Instruction.definedName?_of_makesEntry
    (hLine : line.makesEntry = false) :
    line.definedName? = none := by
  unfold makesEntry macroKind? at hLine
  unfold definedName?
  cases hMacro : line.macroLine? with
  | none => rfl
  | some content =>
      rw [hMacro] at hLine
      rcases content with ⟨label, keyword, parameters⟩
      cases keyword with
      | otherwise => rfl
      | endIf => rfl
      | _ => cases hLine

end MmixAsm

------------------------------------------------------------
-- The Entries Of A File
------------------------------------------------------------

namespace MmixAsm

/- The lines that make an entry, with their offsets. -/
def entryLines
    (offset : Nat)
    (lines : List Instruction) : List (Instruction × Nat) :=
  (lines.zipIdx offset).filter (·.1.makesEntry)

/- The entry of one of several lines. -/
def EntryAmong
    (offset : Nat)
    (lines : List Instruction)
    (place : Instruction × Nat)
    (entry : MacroDecl) : Prop :=
  ∃ front behind,
    lines = front ++ place.1 :: behind ∧
      place.2 = offset + front.length ∧
      EntryOf place.2 place.1 behind entry

/- If every line is recorded, so are all, in their order. -/
theorem forall₂_ofLinesFrom
    {offset : Nat}
    {lines : List Instruction}
    (hLines : ∀ front line behind,
      lines = front ++ line :: behind →
        Recorded (offset + front.length) line behind
          (MacroTable.ofLine (offset + front.length) line
            behind)) :
    List.Forall₂ (EntryAmong offset lines)
      (entryLines offset lines)
      (MacroTable.ofLinesFrom offset lines) := by
  induction lines generalizing offset with
  | nil => exact .nil
  | cons line rest ih =>
      have hRest :
          List.Forall₂ (EntryAmong offset (line :: rest))
            (entryLines (offset + 1) rest)
            (MacroTable.ofLinesFrom (offset + 1) rest) := by
        refine List.Forall₂.imp ?_ (ih ?_)
        · rintro place entry ⟨front, behind, rfl, hPlace, hEntry⟩
          refine ⟨line :: front, behind, rfl, ?_, hEntry⟩
          rw [hPlace, List.length_cons]
          omega
        · rintro front other behind rfl
          have hOther := hLines (line :: front) other behind rfl
          rw [List.length_cons, Nat.add_comm front.length,
            ← Nat.add_assoc] at hOther
          exact hOther
      have hFirst := hLines [] line rest rfl
      rw [List.length_nil, Nat.add_zero] at hFirst
      rw [MacroTable.ofLinesFrom_cons]
      unfold entryLines at hRest ⊢
      rw [List.zipIdx_cons]
      generalize MacroTable.ofLine offset line rest = here
        at hFirst
      cases hFirst with
      | none hLine =>
          rw [List.filter_cons_of_neg (by simp [hLine])]
          exact hRest
      | one hLine hEntry =>
          rw [List.filter_cons_of_pos (by simp [hLine])]
          exact .cons ⟨[], rest, rfl, rfl, hEntry⟩ hRest

/- Every line of an accepted file is recorded. -/
theorem Survey.recorded_of_ofLines
    {file : String}
    {front behind : List Instruction}
    {line : Instruction}
    {survey : Survey}
    (h : ofLines file (front ++ line :: behind) = .ok survey)
    (offset : Nat) :
    Recorded offset line behind
      (MacroTable.ofLine offset line behind) := by
  have hOrder := ((exists_ofLines_iff _ _).mp ⟨survey, h⟩).2
  have hParts := hOrder.complete line (by simp)
  cases hOpens : line.opensRegion with
  | false =>
      exact recorded_of_not_opensRegion hParts hOpens offset
        behind
  | true =>
      -- The line opens a region, and the lines behind it leave
      -- none open.
      rcases ofLines_eq_ok_iff.mp h with ⟨hRun, hLast⟩
      rw [List.foldlM_append] at hRun
      rcases exists_of_bind_eq_ok hRun with ⟨state, _, hRun⟩
      rw [List.foldlM_cons] at hRun
      rcases exists_of_bind_eq_ok hRun with
        ⟨next, hStep, hBehind⟩
      have hCloses := closes_of_foldlM hBehind hLast
      have hPasses := passes_of_step hStep
      generalize next.openings = openings at hCloses hPasses
      cases hPasses with
      | plain hLine =>
          rw [Instruction.isBracket_of_opensRegion hOpens]
            at hLine
          cases hLine
      | opens opening hLine hKind =>
          exact recorded_of_closes hParts hOpens hKind hCloses
            offset
      | divides hLine hBefore =>
          rw [Instruction.opensRegion_of_otherwise hLine]
            at hOpens
          cases hOpens
      | closes hLine hBefore =>
          rw [Instruction.opensRegion_of_endIf hLine] at hOpens
          cases hOpens

/- The entries define the names that the lines define. -/
theorem definedNames_eq_of_forall₂
    {lines : List Instruction}
    {table : MacroTable}
    (h : List.Forall₂ (EntryAmong 0 lines) (entryLines 0 lines)
      table) :
    table.filterMap MacroDecl.definedName? =
      definedNames lines := by
  have hSame :
      List.Forall₂
        (fun (place : Instruction × Nat) entry =>
          place.1.definedName? = MacroDecl.definedName? entry)
        (entryLines 0 lines) table := by
    refine h.imp ?_
    rintro place entry ⟨front, behind, _, _, hEntry⟩
    exact hEntry.definedName?_eq.symm
  have hMap :
      (entryLines 0 lines).map (·.1.definedName?) =
        table.map MacroDecl.definedName? := by
    rw [← List.forall₂_eq_eq_eq, List.forall₂_map_left_iff,
      List.forall₂_map_right_iff]
    exact hSame
  have hLine : ∀ line : Instruction,
      (if line.makesEntry then line.definedName? else none) =
        line.definedName? := by
    intro line
    cases hMakes : line.makesEntry with
    | true => rfl
    | false =>
        rw [Instruction.definedName?_of_makesEntry hMakes]
        rfl
  calc table.filterMap MacroDecl.definedName?
    _ = (table.map MacroDecl.definedName?).filterMap id := by
        rw [List.filterMap_map, Function.id_comp]
    _ = (entryLines 0 lines).filterMap
          (·.1.definedName?) := by
        rw [← hMap, List.filterMap_map, Function.id_comp]
    _ = (lines.zipIdx 0).filterMap (·.1.definedName?) := by
        unfold entryLines
        rw [List.filterMap_filter]
        simp only [hLine]
    _ = ((lines.zipIdx 0).map (·.1)).filterMap
          Instruction.definedName? := by
        rw [List.filterMap_map]
        rfl
    _ = definedNames lines := by
        rw [List.zipIdx_map_fst]
        rfl

end MmixAsm

------------------------------------------------------------
-- Nested Regions
------------------------------------------------------------

namespace MmixAsm

/- The regions of an entry. -/
def MacroDecl.regions :
    MacroDecl → List Region
| .ifDefined _ _ region => [region]
| .ifCondition _ thenPart elsePart =>
    thenPart :: elsePart.toList
| _ => []

/- The regions of all entries. -/
def MacroTable.regions (table : MacroTable) : List Region :=
  table.flatMap MacroDecl.regions

namespace Region

/- Regions without a common line. -/
def Apart (a b : Region) : Prop :=
  a.stop ≤ b.start ∨ b.stop ≤ a.start

/- A region that lies inside another one. -/
def Inside (inner outer : Region) : Prop :=
  outer.start < inner.start ∧ inner.stop < outer.stop

/- A region that begins and ends between two offsets. -/
def Between
    (first last : Nat)
    (region : Region) : Prop :=
  first ≤ region.start ∧ region.start < region.stop ∧
    region.stop < last

end Region

/- Regions that nest, all of them between two offsets. -/
structure Nest
    (first last : Nat)
    (regions : List Region) : Prop where
  between : ∀ region ∈ regions, region.Between first last
  nested : regions.Pairwise fun a b =>
    a.Apart b ∨ b.Inside a

namespace Nest

variable {first middle last offset stop : Nat}
variable {left right : List Region}

theorem nil : Nest first last [] :=
  ⟨by simp, .nil⟩

theorem widen
    (h : Nest first last left)
    {before after : Nat}
    (hBefore : before ≤ first)
    (hAfter : last ≤ after) :
    Nest before after left := by
  refine ⟨fun region hMem => ?_, h.nested⟩
  have hRegion := h.between region hMem
  unfold Region.Between at hRegion ⊢
  omega

/- Regions in front of others lie apart from them. -/
theorem append
    (hLeft : Nest first middle left)
    (hRight : Nest middle last right)
    (hFirst : first ≤ middle)
    (hLast : middle ≤ last) :
    Nest first last (left ++ right) := by
  constructor
  · intro region hMem
    rcases List.mem_append.mp hMem with hMem | hMem
    · exact (hLeft.widen (Nat.le_refl _) hLast).between region
        hMem
    · exact (hRight.widen hFirst (Nat.le_refl _)).between region
        hMem
  · refine List.pairwise_append.mpr
      ⟨hLeft.nested, hRight.nested, fun a ha b hb => ?_⟩
    have hA := hLeft.between a ha
    have hB := hRight.between b hb
    unfold Region.Between at hA hB
    refine Or.inl (Or.inl ?_)
    omega

/- A region around others. -/
theorem enclose
    (h : Nest (offset + 1) stop left)
    (hStop : offset < stop) :
    Nest offset (stop + 1) (⟨offset, stop⟩ :: left) := by
  constructor
  · refine List.forall_mem_cons.mpr
      ⟨⟨Nat.le_refl _, hStop, Nat.lt_succ_self _⟩, ?_⟩
    exact (h.widen (Nat.le_succ _) (Nat.le_succ _)).between
  · refine List.pairwise_cons.mpr ⟨fun b hb => ?_, h.nested⟩
    have hB := h.between b hb
    exact Or.inr ⟨hB.1, hB.2.2⟩

/- Two regions that meet around others. -/
theorem enclose_divided
    (hLeft : Nest (offset + 1) middle left)
    (hRight : Nest (middle + 1) stop right)
    (hMiddle : offset < middle)
    (hStop : middle < stop) :
    Nest offset (stop + 1)
      (⟨offset, middle⟩ :: ⟨middle, stop⟩ ::
        (left ++ right)) := by
  have hInner : Nest (offset + 1) stop (left ++ right) :=
    hLeft.append (hRight.widen (Nat.le_succ _) (Nat.le_refl _))
      hMiddle (Nat.le_of_lt hStop)
  constructor
  · refine List.forall_mem_cons.mpr ⟨?_,
      List.forall_mem_cons.mpr ⟨?_, ?_⟩⟩
    · exact ⟨Nat.le_refl _, hMiddle, Nat.lt_succ_of_lt hStop⟩
    · exact ⟨Nat.le_of_lt hMiddle, hStop, Nat.lt_succ_self _⟩
    · exact (hInner.widen (Nat.le_succ _)
        (Nat.le_succ _)).between
  · refine List.pairwise_cons.mpr ⟨?_,
      List.pairwise_cons.mpr ⟨?_, hInner.nested⟩⟩
    · refine List.forall_mem_cons.mpr ⟨?_, fun b hb => ?_⟩
      · exact Or.inl (Or.inl (Nat.le_refl _))
      · rcases List.mem_append.mp hb with hb | hb
        · have hB := hLeft.between b hb
          exact Or.inr ⟨hB.1, hB.2.2⟩
        · have hB := hRight.between b hb
          exact Or.inl (Or.inl (Nat.le_of_lt hB.1))
    · intro b hb
      rcases List.mem_append.mp hb with hb | hb
      · have hB := hLeft.between b hb
        exact Or.inl (Or.inr (Nat.le_of_lt hB.2.2))
      · have hB := hRight.between b hb
        exact Or.inr ⟨hB.1, hB.2.2⟩

end Nest

/- The regions of an entry whose region has no ELSE. -/
theorem regions_ofRegion?_none
    (content : Line MacroKind)
    (offset stop : Nat) :
    MacroTable.regions
          (MacroDecl.ofRegion? content offset stop none).toList =
        [] ∨
      MacroTable.regions
          (MacroDecl.ofRegion? content offset stop none).toList =
        [⟨offset, stop⟩] := by
  unfold MacroDecl.ofRegion?
  cases content.keyword <;> cases content.parameters <;>
    simp [MacroTable.regions, MacroDecl.regions]

/- The regions of an entry whose region has both parts. -/
theorem regions_ofRegion?_some
    {content : Line MacroKind}
    (hContent : content.keyword = .ifCondition)
    (offset middle stop : Nat) :
    MacroTable.regions (MacroDecl.ofRegion? content offset stop
          (some middle)).toList =
        [] ∨
      MacroTable.regions (MacroDecl.ofRegion? content offset stop
          (some middle)).toList =
        [⟨offset, middle⟩, ⟨middle, stop⟩] := by
  unfold MacroDecl.ofRegion?
  rw [hContent]
  cases content.parameters <;>
    simp [MacroTable.regions, MacroDecl.regions]

theorem MacroTable.regions_append
    (left right : MacroTable) :
    MacroTable.regions (left ++ right) =
      left.regions ++ right.regions :=
  List.flatMap_append

/- A line that opens no region has none. -/
theorem regions_ofLine_of_not_opensRegion
    {line : Instruction}
    (hLine : line.opensRegion = false)
    (offset : Nat)
    (rest : List Instruction) :
    (MacroTable.ofLine offset line rest).regions = [] := by
  unfold Instruction.opensRegion Instruction.macroKind? at hLine
  unfold MacroTable.ofLine
  cases hMacro : line.macroLine? with
  | none => rfl
  | some content =>
      rcases content with ⟨label, keyword, parameters⟩
      rw [hMacro] at hLine
      cases keyword with
      | definition =>
          cases label <;> cases line.macroBody? <;> rfl
      | inclusion => cases parameters <;> rfl
      | application => rfl
      | constant =>
          simp only [Option.bind_some, MacroDecl.ofLine?]
          cases constantOf? ⟨label, .constant, parameters⟩ <;>
            rfl
      | otherwise => rfl
      | endIf => rfl
      | ifDefined => cases hLine
      | ifUndefined => cases hLine
      | ifCondition => cases hLine

/- The regions of balanced lines nest between their ends. -/
theorem Balanced.regions_ofLinesFrom
    {lines : List Instruction}
    (hLines : Balanced lines)
    (offset : Nat) :
    Nest offset (offset + lines.length)
      (MacroTable.ofLinesFrom offset lines).regions := by
  induction hLines generalizing offset with
  | nil => exact .nil
  | @plain line hLine =>
      have hOpens :=
        (Instruction.isBracket_eq_false_iff.mp hLine).1
      rw [MacroTable.ofLinesFrom_cons,
        MacroTable.ofLinesFrom_nil, List.append_nil,
        regions_ofLine_of_not_opensRegion hOpens]
      exact .nil
  | @append left right hLeft hRight ihLeft ihRight =>
      rw [hLeft.ofLinesFrom_append, MacroTable.regions_append,
        List.length_append, ← Nat.add_assoc]
      exact (ihLeft offset).append
        (ihRight (offset + left.length)) (Nat.le_add_right _ _)
        (Nat.le_add_right _ _)
  | @region opener closer body hOpener hBody hCloser ih =>
      rcases Instruction.exists_macroLine_of_opensRegion
        hOpener with ⟨content, hMacro⟩
      have hLength :
          offset + (opener :: body ++ [closer]).length =
            offset + 1 + body.length + 1 := by
        simp only [List.length_append, List.length_cons,
          List.length_nil]
        omega
      have hInner := ih (offset + 1)
      rw [hBody.ofLinesFrom_region hOpener hMacro hCloser,
        MacroTable.regions_append, hLength]
      -- Without its parameter the opener has no entry.
      rcases regions_ofRegion?_none content offset
        (offset + 1 + body.length) with hNone | hOne
      · rw [hNone]
        exact hInner.widen (Nat.le_succ _) (Nat.le_succ _)
      · rw [hOne]
        exact hInner.enclose (by omega)
  | @alternative opener divider closer body other hOpener hBody
      hDivider hOther hCloser ihBody ihOther =>
      have hOpens :=
        Instruction.opensRegion_of_kind hOpener (by simp)
      rcases Option.map_eq_some_iff.mp hOpener with
        ⟨content, hMacro, hContent⟩
      have hLength :
          offset + (opener :: body ++ divider :: other
              ++ [closer]).length =
            offset + 1 + body.length + 1 + other.length + 1 := by
        simp only [List.length_append, List.length_cons,
          List.length_nil]
        omega
      have hLeft := ihBody (offset + 1)
      have hRight := ihOther (offset + 1 + body.length + 1)
      rw [hBody.ofLinesFrom_alternative hOpens hMacro hDivider
        hOther hCloser, MacroTable.regions_append,
        MacroTable.regions_append, hLength]
      rcases regions_ofRegion?_some hContent offset
        (offset + 1 + body.length)
        (offset + 1 + body.length + 1 + other.length) with
        hNone | hTwo
      · rw [hNone]
        exact (hLeft.append
          (hRight.widen (Nat.le_succ _) (Nat.le_refl _))
          (Nat.le_add_right _ _) (by omega)).widen
            (Nat.le_succ _) (Nat.le_succ _)
      · rw [hTwo]
        exact hLeft.enclose_divided hRight (by omega) (by omega)

end MmixAsm

------------------------------------------------------------
-- Source Units
------------------------------------------------------------

namespace MmixAsm

namespace SourceUnit

/- What the unit of a file records of its lines. -/
structure Records
    (unit : SourceUnit)
    (lines : List Instruction) : Prop where
  slots : List.Forall₂
    (fun line slot =>
      slot = if line.isMacro then Slot.vacant
        else Slot.live line)
    lines unit.slots
  entries : List.Forall₂ (EntryAmong 0 lines)
    (entryLines 0 lines) unit.table
  regions : Nest 0 lines.length unit.table.regions
  names :
    (unit.table.filterMap MacroDecl.definedName?).Nodup

theorem records_ofFile
    {file : SourceFile}
    {unit : SourceUnit}
    (h : ofFile file = .ok unit) :
    unit.Records file.instructions := by
  rcases exists_of_map_eq_ok h with ⟨survey, hSurvey, rfl⟩
  rcases (Survey.exists_ofLines_iff _ _).mp ⟨survey, hSurvey⟩ with
    ⟨hBalanced, hOrder⟩
  have hEntries :
      List.Forall₂ (EntryAmong 0 file.instructions)
        (entryLines 0 file.instructions)
        (MacroTable.ofLines file.instructions) := by
    apply forall₂_ofLinesFrom
    intro front line behind hLines
    rw [hLines] at hSurvey
    exact Survey.recorded_of_ofLines hSurvey _
  refine ⟨?_, hEntries, ?_, ?_⟩
  · rw [List.forall₂_map_right_iff, List.forall₂_same]
    exact fun line _ => rfl
  · have hRegions := hBalanced.regions_ofLinesFrom 0
    rwa [Nat.zero_add] at hRegions
  · rw [definedNames_eq_of_forall₂ hEntries]
    exact hOrder.distinct

/- The files that have a unit. -/
theorem exists_ofFile_iff
    {file : SourceFile} :
    (∃ unit, ofFile file = .ok unit) ↔
      Balanced file.instructions ∧
        PartsInOrder file.instructions := by
  rw [← Survey.exists_ofLines_iff file.name]
  constructor
  · rintro ⟨unit, h⟩
    rcases exists_of_map_eq_ok h with ⟨survey, hSurvey, _⟩
    exact ⟨survey, hSurvey⟩
  · rintro ⟨survey, hSurvey⟩
    unfold ofFile
    rw [hSurvey]
    exact ⟨_, rfl⟩

/-
  Apart from missing parts and repeated names, the files that
  have a unit are those with balanced regions.  What decides
  is the same whether the table is built in one pass or by
  looking ahead, and the unit records the brackets.
-/
theorem ofFile_records_brackets
    (file : SourceFile) :
    build file = (ofFile file).mapError .rejected ∧
      ((∀ e, ofFile file = .error e → e.isOfParts = false) →
        ((∃ unit, ofFile file = .ok unit) ↔
          Balanced file.instructions)) ∧
      ((∃ unit, ofFile file = .ok unit) ↔
        Balanced file.instructions ∧
          PartsInOrder file.instructions) ∧
      (∀ e, ofFile file = .error e →
        (e.isOfParts = true ∧
            ¬ PartsInOrder file.instructions) ∨
          (e.isOfBrackets = true ∧
            ¬ Balanced file.instructions)) ∧
      ∀ unit, ofFile file = .ok unit →
        unit.Records file.instructions := by
  have hFault : ∀ e, ofFile file = .error e →
      (e.isOfParts = true ∧
          ¬ PartsInOrder file.instructions) ∨
        (e.isOfBrackets = true ∧
          ¬ Balanced file.instructions) :=
    fun e h => Survey.ofLines_eq_error (fails_of_map_eq_error h)
  refine ⟨build_eq_ofFile file, fun hOther => ?_,
    exists_ofFile_iff, hFault, fun unit => records_ofFile⟩
  refine ⟨fun h => (exists_ofFile_iff.mp h).1,
    fun hBalanced => ?_⟩
  cases h : ofFile file with
  | ok unit => exact ⟨unit, rfl⟩
  | error e =>
      rcases hFault e h with ⟨hParts, _⟩ | ⟨_, hNot⟩
      · rw [hOther e h] at hParts
        cases hParts
      · exact absurd hBalanced hNot

/- A region in each part of an IF, one of them with a name. -/
def twoPartFile : SourceFile where
  name := "a"
  instructions := [
    .macroLine ⟨none, .ifCondition, ["x==1"]⟩,
    .macroLine ⟨none, .ifDefined, ["y"]⟩,
    .op ⟨none, "SWYM", []⟩,
    .macroLine ⟨none, .endIf, []⟩,
    .macroLine ⟨none, .otherwise, []⟩,
    .macroLine ⟨none, .ifUndefined, ["y"]⟩,
    .macroLine ⟨some "y", .constant, ["2"]⟩,
    .macroLine ⟨none, .endIf, []⟩,
    .macroLine ⟨none, .endIf, []⟩]
  isEntry := false

theorem twoPartFile_records_brackets :
    ∃ unit, ofFile twoPartFile = .ok unit ∧
      unit.Records twoPartFile.instructions ∧
      unit.table = [
        .ifCondition "x==1" ⟨0, 4⟩ (some ⟨4, 8⟩),
        .ifDefined true "y" ⟨1, 3⟩,
        .ifDefined false "y" ⟨5, 7⟩,
        .constant "y" "2"] ∧
      unit.slots = [
        .vacant, .vacant, .live (.op ⟨none, "SWYM", []⟩),
        .vacant, .vacant, .vacant, .vacant, .vacant,
        .vacant] := by
  rcases ofFile_records_brackets twoPartFile with
    ⟨_, _, _, _, hRecords⟩
  exact ⟨_, rfl, hRecords _ rfl, rfl, rfl⟩

end SourceUnit

end MmixAsm
