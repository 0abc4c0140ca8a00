import MmixAsm.Macro.Program
import MmixAsm.Proofs.ExpandedLines
import MmixAsm.Proofs.WellFormed

/-
  What the macro layer hands on.

  A plain instruction belongs to no macro and has a mnemonic
  that is known.  From well-formed files the macro layer makes
  a program of plain instructions: lines outside the macro
  layer are kept as they are, and an instance of a template
  differs from the template in its label and parameters only.
  No definition of a well-formed file lacks its template.

  Key definitions include:
    * `MmixAsm.Instruction.IsPlain`
    * `MmixAsm.SourceUnit.Plain`
    * `MmixAsm.Library.Plain`
    * `MmixAsm.MacroError.lacksTemplate`

  Key theorems include:
    * `MmixAsm.isPlain_of_expandProgram`
    * `MmixAsm.lacksTemplate_of_expandProgram`
-/

------------------------------------------------------------
-- Plain Instructions
------------------------------------------------------------

namespace MmixAsm

namespace Instruction

/- An instruction that needs nothing more from the macros. -/
def IsPlain :
    Instruction → Prop
| .op line => (Mnemonic.opcode? line.keyword).isSome
| .alloc _ => True
| .control _ => True
| .macroLine _ => False
| .macroTemplate _ _ => False

theorem IsStatement.isPlain
    {instruction : Instruction}
    (hStatement : instruction.IsStatement) :
    instruction.IsPlain := by
  cases instruction with
  | op line => exact hStatement.2
  | alloc line => trivial
  | control line => trivial
  | macroLine line => exact hStatement
  | macroTemplate line body => exact hStatement

theorem IsPlain.isMacro_eq_false
    {instruction : Instruction}
    (hPlain : instruction.IsPlain) :
    instruction.isMacro = false := by
  cases instruction with
  | op line => rfl
  | alloc line => rfl
  | control line => rfl
  | macroLine line => exact hPlain.elim
  | macroTemplate line body => exact hPlain.elim

theorem IsPlain.withLabel
    {instruction : Instruction}
    (hPlain : instruction.IsPlain)
    (label : Option String) :
    (instruction.withLabel label).IsPlain := by
  cases instruction <;> exact hPlain

theorem IsPlain.withParameters
    {instruction : Instruction}
    (hPlain : instruction.IsPlain)
    (parameters : List String) :
    (instruction.withParameters parameters).IsPlain := by
  cases instruction <;> exact hPlain

theorem IsPlain.relabel
    {instruction : Instruction}
    (hPlain : instruction.IsPlain)
    (label : Option String) :
    (instruction.relabel label).IsPlain := by
  cases label with
  | none => exact hPlain
  | some name => exact hPlain.withLabel (some name)

/- Outside the macro layer the well-formed are plain. -/
theorem WellFormed.isPlain
    {instruction : Instruction}
    (hWellFormed : instruction.WellFormed)
    (hMacro : instruction.isMacro = false) :
    instruction.IsPlain := by
  cases instruction with
  | op line => exact hWellFormed.1.2
  | alloc line => trivial
  | control line => trivial
  | macroLine line => cases hMacro
  | macroTemplate line body => cases hMacro

/- The template of a well-formed definition is plain. -/
theorem WellFormed.isPlain_macroBody?
    {instruction body : Instruction}
    (hWellFormed : instruction.WellFormed)
    (hBody : instruction.macroBody? = some body) :
    body.IsPlain := by
  cases instruction with
  | op line => cases hBody
  | alloc line => cases hBody
  | control line => cases hBody
  | macroLine line => cases hBody
  | macroTemplate line template =>
      cases hBody
      exact hWellFormed.1.2.2.1.isPlain

end Instruction

end MmixAsm

------------------------------------------------------------
-- Plain Units
------------------------------------------------------------

namespace MmixAsm

/- Whatever is live or can become live is plain. -/
structure SourceUnit.Plain (unit : SourceUnit) : Prop where
  live : ∀ instruction, Slot.live instruction ∈ unit.slots →
    instruction.IsPlain
  templates : ∀ template ∈ unit.table.templates,
    template.body.IsPlain

theorem MacroDecl.eq_of_template?
    {entry : MacroDecl}
    {template : Template}
    (h : entry.template? = some template) :
    entry = .template template := by
  unfold MacroDecl.template? at h
  split at h
  · cases h
    rfl
  · cases h

/- Only MACRO lines with all their parts enter a template. -/
theorem MacroDecl.ofLine?_eq_template_iff
    {line : Line MacroKind}
    {body : Option Instruction}
    {offset : Nat}
    {rest : List Instruction}
    {template : Template} :
    ofLine? line body offset rest =
        some (.template template) ↔
      line = ⟨some template.name, .definition,
          template.formals⟩ ∧
        body = some template.body := by
  rcases line with ⟨label, keyword, parameters⟩
  rcases template with ⟨name, formals, text⟩
  unfold ofLine?
  cases keyword
  case definition =>
    cases label <;> cases body <;> simp [and_assoc]
  case constant => simp
  case ifCondition =>
    cases parameters with
    | nil => simp
    | cons condition others =>
        simp only [conditionEntry]
        cases regionElse? 0 (offset + 1) rest <;> simp
  all_goals cases parameters <;> simp

/- Every template of a file is the body of one of its lines. -/
theorem MacroTable.exists_of_mem_templates
    {offset : Nat}
    {lines : List Instruction}
    {template : Template}
    (hTemplate : template ∈
      (MacroTable.ofLinesFrom offset lines).templates) :
    ∃ line ∈ lines, line.macroBody? = some template.body := by
  induction lines generalizing offset with
  | nil => cases hTemplate
  | cons line rest ih =>
      rw [MacroTable.ofLinesFrom_cons, MacroTable.templates,
        List.filterMap_append, List.mem_append] at hTemplate
      rcases hTemplate with hHere | hRest
      · rcases List.mem_filterMap.mp hHere with
          ⟨entry, hEntry, hSome⟩
        have hTemplate := MacroDecl.eq_of_template? hSome
        rcases Option.bind_eq_some_iff.mp
          (Option.mem_toList.mp hEntry) with
          ⟨content, -, hContent⟩
        rw [hTemplate] at hContent
        exact ⟨line, List.mem_cons_self,
          (MacroDecl.ofLine?_eq_template_iff.mp hContent).2⟩
      · rcases ih hRest with ⟨other, hOther, hBody⟩
        exact ⟨other, List.mem_cons_of_mem line hOther, hBody⟩

/- The unit of well-formed lines is plain. -/
theorem SourceUnit.plain_ofLines
    {lines : List Instruction}
    (hLines : ∀ line ∈ lines, line.WellFormed) :
    (SourceUnit.ofLines lines).Plain := by
  constructor
  · intro instruction hLive
    rcases List.mem_map.mp hLive with ⟨line, hLine, hSlot⟩
    unfold Slot.ofInstruction at hSlot
    split at hSlot
    · cases hSlot
    · next hMacro =>
        cases hSlot
        exact (hLines instruction hLine).isPlain
          (Bool.eq_false_iff.mpr hMacro)
  · intro template hTemplate
    rcases MacroTable.exists_of_mem_templates hTemplate with
      ⟨line, hLine, hBody⟩
    exact (hLines line hLine).isPlain_macroBody? hBody

namespace SourceUnit

variable {unit : SourceUnit}

/- Dropping lines makes nothing live. -/
theorem Plain.dropRegion
    (hPlain : unit.Plain)
    (region : Region) :
    (unit.dropRegion region).Plain := by
  refine ⟨?_, hPlain.templates⟩
  intro instruction hLive
  rcases List.mem_mapIdx.mp hLive with
    ⟨offset, hOffset, hSlot⟩
  split at hSlot
  · cases hSlot
  · apply hPlain.live
    rw [← hSlot]
    exact List.getElem_mem hOffset

end SourceUnit

end MmixAsm

------------------------------------------------------------
-- Plain Libraries
------------------------------------------------------------

namespace MmixAsm

namespace Library

/- All files of a library are plain. -/
def Plain (library : Library) : Prop :=
  ∀ entry ∈ library.units, entry.2.Plain

variable {library : Library}

/- The library of well-formed files is plain. -/
theorem plain_of_ofFiles
    {files : List SourceFile}
    (hFiles : ∀ file ∈ files,
      ∀ line ∈ file.instructions, line.WellFormed)
    (hLibrary : ofFiles files = .ok library) :
    library.Plain := by
  intro entry hEntry
  have hHolds := holdsFiles_of_ofFiles hLibrary
  rcases List.mem_map.mp (hHolds.units.mem_iff.mp hEntry) with
    ⟨file, hFile, rfl⟩
  exact SourceUnit.plain_ofLines (hFiles file hFile)

/- Selection only drops lines. -/
theorem plain_selectEntries
    {unit : SourceUnit}
    (hPlain : unit.Plain)
    (file : String)
    (entries : List MacroDecl) :
    (library.selectEntries file unit entries).1.Plain := by
  induction entries generalizing unit with
  | nil => exact hPlain
  | cons entry rest ih =>
      unfold selectEntries
      split
      · exact hPlain
      · next changed hNext =>
          apply ih
          unfold selectEntry at hNext
          split at hNext
          · cases hNext
          · cases hNext
            exact hPlain
          · cases hNext
            exact hPlain.dropRegion _

theorem plain_of_selected
    {selected : Library}
    (hPlain : library.Plain)
    (hSelected : library.selected = .ok selected) :
    selected.Plain := by
  intro entry hEntry
  rw [(units_of_selected hSelected).1] at hEntry
  rcases List.mem_map.mp hEntry with ⟨old, hOld, rfl⟩
  exact plain_selectEntries (hPlain old hOld) old.1 _

theorem mem_units_of_unit?
    {name : String}
    {unit : SourceUnit}
    (hUnit : library.unit? name = some unit) :
    (name, unit) ∈ library.units := by
  rcases List.lookup_eq_some_iff.mp hUnit with
    ⟨front, rest, hUnits, -⟩
  rw [hUnits]
  exact List.mem_append_right _ List.mem_cons_self

/- A table in which names are looked up has plain templates. -/
theorem isPlain_of_template?
    {table : MacroTable}
    {name : String}
    {template : Template}
    (hPlain : library.Plain)
    (hTable : ∀ template ∈ table.templates,
      template.body.IsPlain)
    (hTemplate : library.template? table name =
      some template) :
    template.body.IsPlain := by
  rcases List.exists_of_findSome?_eq_some hTemplate with
    ⟨found, hFound, hSome⟩
  have hMem : template ∈ found.templates :=
    List.mem_of_find?_eq_some hSome
  rcases List.mem_cons.mp hFound with rfl | hFound
  · exact hTable template hMem
  · rcases List.mem_filterMap.mp hFound with ⟨file, -, hTable⟩
    rcases Option.map_eq_some_iff.mp hTable with
      ⟨unit, hUnit, rfl⟩
    exact (hPlain _ (mem_units_of_unit? hUnit)).templates
      template hMem

/- An instance of a plain template is plain. -/
theorem isPlain_of_expandSite
    {file : String}
    {table : MacroTable}
    {site : Site}
    {instruction : Instruction}
    (hPlain : library.Plain)
    (hTable : ∀ template ∈ table.templates,
      template.body.IsPlain)
    (hSite : library.expandSite file table site =
      .ok instruction) :
    instruction.IsPlain := by
  unfold expandSite at hSite
  split at hSite
  · cases hSite
  · split at hSite
    · cases hSite
    · next template hTemplate =>
        split at hSite
        · cases hSite
          have hBody :=
            isPlain_of_template? hPlain hTable hTemplate
          exact (hBody.withParameters _).relabel site.label
        · cases hSite

/- Filled slots hold old instructions or new ones. -/
theorem live_of_mem_fillSlots
    {slots : List Slot}
    {instructions : List (Nat × Instruction)}
    {instruction : Instruction}
    (hLive : Slot.live instruction ∈
      fillSlots slots instructions) :
    Slot.live instruction ∈ slots ∨
      ∃ entry ∈ instructions, entry.2 = instruction := by
  induction instructions generalizing slots with
  | nil => exact Or.inl hLive
  | cons entry rest ih =>
      rcases ih hLive with hOld | ⟨other, hOther, hEq⟩
      · rcases List.mem_or_eq_of_mem_set hOld with hOld | hNew
        · exact Or.inl hOld
        · cases hNew
          exact Or.inr ⟨entry, List.mem_cons_self, rfl⟩
      · exact Or.inr
          ⟨other, List.mem_cons_of_mem entry hOther, hEq⟩

theorem plain_of_expandUnit
    {file : String}
    {unit result : SourceUnit}
    (hPlain : library.Plain)
    (hUnit : unit.Plain)
    (hExpand : library.expandUnit file unit = .ok result) :
    result.Plain := by
  rcases exists_of_map_eq_ok hExpand with
    ⟨instructions, hInstructions, rfl⟩
  refine ⟨?_, hUnit.templates⟩
  intro instruction hLive
  rcases live_of_mem_fillSlots hLive with
    hOld | ⟨entry, hEntry, rfl⟩
  · exact hUnit.live instruction hOld
  · have hSites := forall₂_of_mapM_eq_ok hInstructions
    rcases exists_mem_of_forall₂ hSites.flip hEntry with
      ⟨site, -, hSite⟩
    rcases exists_of_map_eq_ok hSite with
      ⟨instruction, hExpanded, hPair⟩
    rw [← hPair]
    exact isPlain_of_expandSite hPlain hUnit.templates
      hExpanded

theorem plain_of_expanded
    {expanded : Library}
    (hPlain : library.Plain)
    (hExpanded : library.expanded = .ok expanded) :
    expanded.Plain := by
  intro entry hEntry
  have hUnits := forall₂_of_expanded hExpanded
  rcases exists_mem_of_forall₂ hUnits.flip hEntry with
    ⟨old, hOld, -, hUnit⟩
  exact plain_of_expandUnit hPlain (hPlain old hOld) hUnit

/- A program consists of live instructions of its files. -/
theorem isPlain_of_flatten
    {entry : String}
    {instructions : List Instruction}
    (hPlain : library.Plain)
    (hFlatten : library.flatten entry = .ok instructions) :
    ∀ instruction ∈ instructions, instruction.IsPlain := by
  rcases exists_of_map_eq_ok hFlatten with ⟨files, -, rfl⟩
  intro instruction hMem
  rcases List.mem_flatMap.mp hMem with ⟨file, -, hMem⟩
  unfold instructionsOf at hMem
  split at hMem
  · next unit hUnit =>
      rcases List.mem_filterMap.mp hMem with
        ⟨slot, hSlot, hLive⟩
      have hEntry := hPlain _ (mem_units_of_unit? hUnit)
      cases slot with
      | live found =>
          cases hLive
          exact hEntry.live instruction hSlot
      | vacant => cases hLive
      | dropped => cases hLive
  · cases hMem

end Library

/- The macro layer makes plain programs of well-formed files. -/
theorem isPlain_of_expandProgram
    {files : List SourceFile}
    {instructions : List Instruction}
    (hFiles : ∀ file ∈ files,
      ∀ line ∈ file.instructions, line.WellFormed)
    (hProgram : expandProgram files = .ok instructions) :
    ∀ instruction ∈ instructions, instruction.IsPlain := by
  rcases exists_of_bind_eq_ok hProgram with
    ⟨entry, -, hProgram⟩
  rcases exists_of_bind_eq_ok hProgram with
    ⟨library, hLibrary, hProgram⟩
  rcases exists_of_bind_eq_ok hProgram with
    ⟨selected, hSelected, hProgram⟩
  rcases exists_of_bind_eq_ok hProgram with
    ⟨expanded, hExpanded, hFlatten⟩
  have hPlain := Library.plain_of_ofFiles hFiles hLibrary
  have hKept := Library.plain_of_selected hPlain hSelected
  have hFilled := Library.plain_of_expanded hKept hExpanded
  exact Library.isPlain_of_flatten hFilled hFlatten

end MmixAsm

------------------------------------------------------------
-- No Template Is Missing
------------------------------------------------------------

namespace MmixAsm

namespace MacroError

/- Whether an error says that a template is missing. -/
def lacksTemplate :
    MacroError → Bool
| .missingTemplate _ _ => true
| _ => false

end MacroError

/- A well-formed definition carries a template. -/
theorem Instruction.WellFormed.macroBody?_ne_none
    {line : Instruction}
    {content : Line MacroKind}
    (hLine : line.WellFormed)
    (hContent : line.macroLine? = some content)
    (hKeyword : content.keyword = .definition) :
    line.macroBody? ≠ none := by
  cases line with
  | op line => cases hContent
  | alloc line => cases hContent
  | control line => cases hContent
  | macroLine line =>
      cases hContent
      exact absurd hKeyword hLine.1.2
  | macroTemplate line body => exact Option.some_ne_none body

theorem lacksTemplate_of_define
    {file name : String}
    {survey : Survey}
    {e : MacroError}
    (hDefine : survey.define file name = .error e) :
    e.lacksTemplate = false := by
  unfold Survey.define at hDefine
  split at hDefine
  · cases hDefine
    rfl
  · cases hDefine

theorem lacksTemplate_of_needParameter
    {file : String}
    {survey : Survey}
    {line : Line MacroKind}
    {e : MacroError}
    (hNeed : survey.needParameter file line = .error e) :
    e.lacksTemplate = false := by
  unfold Survey.needParameter at hNeed
  split at hNeed
  · cases hNeed
    rfl
  · cases hNeed

/- Only a MACRO line without a template lacks one. -/
theorem lacksTemplate_of_step
    {file : String}
    {survey : Survey}
    {line : Instruction}
    {e : MacroError}
    (hLine : line.WellFormed)
    (hStep : Survey.step file survey line = .error e) :
    e.lacksTemplate = false := by
  unfold Survey.step at hStep
  split at hStep
  · next content hContent =>
      unfold Survey.readMacro at hStep
      split at hStep
      · next hKeyword =>
          -- A line of this kind carries its template.
          unfold Survey.defineTemplate at hStep
          split at hStep
          · cases hStep
            rfl
          · next hBody =>
              exact absurd hBody
                (hLine.macroBody?_ne_none hContent hKeyword)
          · exact lacksTemplate_of_define hStep
      · exact lacksTemplate_of_needParameter hStep
      · exact lacksTemplate_of_needParameter hStep
      · split at hStep
        · exact lacksTemplate_of_define hStep
        · cases hStep
          rfl
      · exact lacksTemplate_of_needParameter hStep
      · exact lacksTemplate_of_needParameter hStep
      · exact lacksTemplate_of_needParameter hStep
      · unfold Survey.turn at hStep
        split at hStep
        · cases hStep
          rfl
        · cases hStep
        · cases hStep
          rfl
      · unfold Survey.pop at hStep
        split at hStep
        · cases hStep
          rfl
        · cases hStep
  · cases hStep

/- The unit of well-formed lines lacks no template. -/
theorem lacksTemplate_of_ofFile
    {file : SourceFile}
    {e : MacroError}
    (hLines : ∀ line ∈ file.instructions, line.WellFormed)
    (hUnit : SourceUnit.ofFile file = .error e) :
    e.lacksTemplate = false := by
  have hSurvey := fails_of_map_eq_error hUnit
  unfold Survey.ofLines at hSurvey
  split at hSurvey
  · next hFold =>
      cases hSurvey
      rcases fails_of_foldlM_eq_error hFold with
        ⟨survey, line, hLine, hStep⟩
      exact lacksTemplate_of_step (hLines line hLine) hStep
  · split at hSurvey
    · cases hSurvey
    · cases hSurvey
      rfl

namespace Library

variable {library : Library}
variable {e : MacroError}

theorem lacksTemplate_of_ofFiles
    {files : List SourceFile}
    (hFiles : ∀ file ∈ files,
      ∀ line ∈ file.instructions, line.WellFormed)
    (hLibrary : ofFiles files = .error e) :
    e.lacksTemplate = false := by
  rcases fails_of_foldlM_eq_error hLibrary with
    ⟨library, file, hFile, hAdd⟩
  unfold add at hAdd
  split at hAdd
  · next hUnit =>
      cases hAdd
      exact lacksTemplate_of_ofFile (hFiles file hFile) hUnit
  · split at hAdd
    · cases hAdd
      rfl
    · cases hAdd

/- Selection can only fail at a condition. -/
theorem lacksTemplate_of_selectEntry
    {file : String}
    {unit : SourceUnit}
    {entry : MacroDecl}
    (hEntry : library.selectEntry file unit entry = .error e) :
    e.lacksTemplate = false := by
  have hEvaluate : ∀ table text,
      library.evaluate file table text = .error e →
        e.lacksTemplate = false := by
    intro table text hFail
    unfold evaluate at hFail
    split at hFail
    · cases hFail
      rfl
    · split at hFail
      · cases hFail
        rfl
      · cases hFail
  unfold selectEntry at hEntry
  split at hEntry
  · next hDropped =>
      cases hEntry
      unfold dropped? at hDropped
      split at hDropped
      · split at hDropped
        · cases hDropped
        · split at hDropped <;> cases hDropped
      · split at hDropped
        · cases hDropped
        · split at hDropped
          · next hFail =>
              cases hDropped
              exact hEvaluate _ _ hFail
          · cases hDropped
          · cases hDropped
      · cases hDropped
  · cases hEntry
  · cases hEntry

theorem lacksTemplate_of_selectEntries
    {file : String}
    {unit : SourceUnit}
    {entries : List MacroDecl}
    (hEntries : (library.selectEntries file unit entries).2 =
      some e) :
    e.lacksTemplate = false := by
  induction entries generalizing unit with
  | nil => cases hEntries
  | cons entry rest ih =>
      unfold selectEntries at hEntries
      split at hEntries
      · next hFail =>
          cases hEntries
          exact lacksTemplate_of_selectEntry hFail
      · exact ih hEntries

theorem lacksTemplate_of_selected
    (hSelected : library.selected = .error e) :
    e.lacksTemplate = false := by
  rcases exists_of_selected_error hSelected with
    ⟨entry, -, hUnit⟩
  exact lacksTemplate_of_selectEntries hUnit

theorem lacksTemplate_of_expandSite
    {file : String}
    {table : MacroTable}
    {site : Site}
    (hSite : library.expandSite file table site = .error e) :
    e.lacksTemplate = false := by
  unfold expandSite at hSite
  split at hSite
  · cases hSite
    rfl
  · split at hSite
    · cases hSite
      rfl
    · split at hSite
      · cases hSite
      · cases hSite
        rfl

theorem lacksTemplate_of_expanded
    (hExpanded : library.expanded = .error e) :
    e.lacksTemplate = false := by
  rcases fails_of_mapM_eq_error
    (fails_of_map_eq_error hExpanded) with ⟨entry, -, hUnit⟩
  have hSites :=
    fails_of_map_eq_error (fails_of_map_eq_error hUnit)
  rcases fails_of_mapM_eq_error hSites with ⟨site, -, hSite⟩
  exact lacksTemplate_of_expandSite
    (fails_of_map_eq_error hSite)

/- Putting files in order fails at inclusions only. -/
theorem lacksTemplate_of_orderFrom
    {path files done : List String}
    (hOrder : library.orderFrom path files done = .error e) :
    e.lacksTemplate = false := by
  fun_induction orderFrom library path files done with
  | case1 => cases hOrder
  | case2 =>
      cases hOrder
      rfl
  | case3 path done file rest hPath hDone ih => exact ih hOrder
  | case4 =>
      cases hOrder
      rfl
  | case5 path done file rest hPath hDone unit hUnit fault
      hFault ih =>
      cases hOrder
      exact ih hFault
  | case6 path done file rest hPath hDone unit hUnit inner
      hInner ihInner ihRest =>
      exact ihRest hOrder

end Library

/- The macro layer never misses a template. -/
theorem lacksTemplate_of_expandProgram
    {files : List SourceFile}
    {e : MacroError}
    (hFiles : ∀ file ∈ files,
      ∀ line ∈ file.instructions, line.WellFormed)
    (hProgram : expandProgram files = .error e) :
    e.lacksTemplate = false := by
  rcases fails_of_bind_eq_error hProgram with
    hEntry | ⟨entry, -, hProgram⟩
  · unfold entryFile at hEntry
    split at hEntry
    · cases hEntry
      rfl
    · cases hEntry
    · cases hEntry
      rfl
  rcases fails_of_bind_eq_error hProgram with
    hLibrary | ⟨library, -, hProgram⟩
  · exact Library.lacksTemplate_of_ofFiles hFiles hLibrary
  rcases fails_of_bind_eq_error hProgram with
    hSelected | ⟨selected, -, hProgram⟩
  · exact Library.lacksTemplate_of_selected hSelected
  rcases fails_of_bind_eq_error hProgram with
    hExpanded | ⟨expanded, -, hFlatten⟩
  · exact Library.lacksTemplate_of_expanded hExpanded
  · exact Library.lacksTemplate_of_orderFrom
      (fails_of_map_eq_error hFlatten)

end MmixAsm
