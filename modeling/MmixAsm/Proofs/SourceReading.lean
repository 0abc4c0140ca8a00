import Mathlib.Data.List.Forall2
import MmixAsm.Proofs.FilesApart
import MmixAsm.Proofs.PlainPrograms
import MmixAsm.Proofs.RecordedRegions
import MmixAsm.Proofs.SourceOrder
import MmixAsm.Proofs.WrittenConditions

/-
  What files say, read from their lines alone.

  Here a name is visible in a file if some line of a file that
  can be met from it defines the name, and a condition holds
  if the first such line that sets its constant gives a value
  the condition accepts.  No table, no search and no reader
  of conditions occurs in this rule, and the two passes over
  the tables are shown to follow it.

  Key definitions include:
    * `MmixAsm.SourceFile.filesAt`
    * `MmixAsm.SourceFile.FirstOffered`
    * `MmixAsm.SourceFile.Sees`
    * `MmixAsm.SourceFile.ConditionHolds`
    * `MmixAsm.SourceFile.ConditionFaulty`
    * `MmixAsm.Part.Selected`
    * `MmixAsm.EnclosedLine.Active`
    * `MmixAsm.EnclosedLine.Says`
    * `MmixAsm.SourceFile.ReadsAs`

  Key theorems include:
    * `MmixAsm.Library.isDefined_iff_sees`
    * `MmixAsm.Library.constant?_eq_some_iff`
    * `MmixAsm.Library.template?_eq_some_iff`
    * `MmixAsm.Library.keepsPart_iff_selected`
    * `MmixAsm.Library.isActive_iff_active`
    * `MmixAsm.Library.isFaulty_iff_faulty`
    * `MmixAsm.Library.reading?_eq_some_iff`
    * `MmixAsm.Library.selected_expanded_refine_reading`
-/

------------------------------------------------------------
-- What Lines Define
------------------------------------------------------------

namespace MmixAsm

/-
  A DEFINE line sets a constant.  Its name is the label or the
  first parameter, and the value may then be left out.
-/
inductive Line.Sets :
    Line MacroKind → String → String → Prop
  | labelled
      (name value : String) :
      Sets ⟨some name, .constant, [value]⟩ name value
  | listed
      (name value : String) :
      Sets ⟨none, .constant, [name, value]⟩ name value
  | bare
      (name : String) :
      Sets ⟨none, .constant, [name]⟩ name ""

namespace Instruction

/- The line sets a constant. -/
def Sets
    (instruction : Instruction)
    (name value : String) : Prop :=
  ∃ line, instruction.macroLine? = some line ∧
    line.Sets name value

/- The line is the MACRO line of a template. -/
def Provides
    (instruction : Instruction)
    (template : Template) : Prop :=
  instruction = .macroTemplate
    ⟨some template.name, .definition, template.formals⟩
    template.body

end Instruction

namespace SourceFile

def Sets
    (file : SourceFile)
    (name value : String) : Prop :=
  ∃ line ∈ file.instructions, line.Sets name value

def Provides
    (file : SourceFile)
    (template : Template) : Prop :=
  ∃ line ∈ file.instructions, line.Provides template

/- A line of the file defines the name, as either kind. -/
def Defines
    (file : SourceFile)
    (name : String) : Prop :=
  (∃ value, file.Sets name value) ∨
    ∃ template, file.Provides template ∧ template.name = name

end SourceFile

theorem Line.sets_iff
    {line : Line MacroKind}
    {name value : String} :
    line.Sets name value ↔
      line.keyword = .constant ∧
        constantOf? line = some (name, value) := by
  constructor
  · intro h
    cases h with
    | labelled => exact ⟨rfl, rfl⟩
    | listed => exact ⟨rfl, rfl⟩
    | bare => exact ⟨rfl, rfl⟩
  · rcases line with ⟨label, keyword, parameters⟩
    rintro ⟨hKeyword, hConstant⟩
    cases hKeyword
    unfold constantOf? at hConstant
    split at hConstant
    · rename_i hLabel hParameters
      cases hLabel
      cases hParameters
      cases hConstant
      exact .labelled _ _
    · rename_i hLabel hParameters
      cases hLabel
      cases hParameters
      cases hConstant
      exact .bare _
    · rename_i hLabel hParameters
      cases hLabel
      cases hParameters
      cases hConstant
      exact .listed _ _
    · cases hConstant

/- Only DEFINE lines enter a constant. -/
theorem MacroDecl.ofLine?_eq_constant_iff
    {line : Line MacroKind}
    {body : Option Instruction}
    {offset : Nat}
    {rest : List Instruction}
    {name value : String} :
    ofLine? line body offset rest =
        some (.constant name value) ↔
      line.Sets name value := by
  rw [Line.sets_iff]
  unfold ofLine?
  cases hKeyword : line.keyword
  case constant => simp
  case definition =>
    cases line.label <;> cases body <;> simp
  case ifCondition =>
    cases line.parameters with
    | nil => simp
    | cons condition others =>
        simp only [conditionEntry]
        cases regionElse? 0 (offset + 1) rest <;> simp
  all_goals cases line.parameters <;> simp

namespace MacroTable

theorem constant_mem_ofLine_iff
    {name value : String}
    (offset : Nat)
    (line : Instruction)
    (rest : List Instruction) :
    .constant name value ∈ ofLine offset line rest ↔
      line.Sets name value := by
  unfold ofLine Instruction.Sets
  rw [Option.mem_toList, Option.bind_eq_some_iff]
  simp only [MacroDecl.ofLine?_eq_constant_iff]

theorem template_mem_ofLine_iff
    {template : Template}
    (offset : Nat)
    (line : Instruction)
    (rest : List Instruction) :
    .template template ∈ ofLine offset line rest ↔
      line.Provides template := by
  unfold ofLine Instruction.Provides
  rw [Option.mem_toList, Option.bind_eq_some_iff]
  simp only [MacroDecl.ofLine?_eq_template_iff]
  cases line with
  | macroTemplate content body =>
      simp [Instruction.macroLine?, Instruction.macroBody?]
  | macroLine content => simp [Instruction.macroBody?]
  | op content => simp [Instruction.macroLine?]
  | alloc content => simp [Instruction.macroLine?]
  | control content => simp [Instruction.macroLine?]

/- The entries of lines are those that single lines enter. -/
theorem mem_ofLinesFrom_iff
    {entry : MacroDecl}
    {enters : Instruction → Prop}
    (hLine : ∀ offset line rest,
      entry ∈ ofLine offset line rest ↔ enters line)
    (offset : Nat)
    (lines : List Instruction) :
    entry ∈ ofLinesFrom offset lines ↔
      ∃ line ∈ lines, enters line := by
  induction lines generalizing offset with
  | nil => simp
  | cons line rest ih =>
      rw [ofLinesFrom_cons, List.mem_append, hLine, ih]
      simp

end MacroTable

namespace SourceFile

theorem constant_mem_table_iff
    {file : SourceFile}
    {name value : String} :
    .constant name value ∈ file.table ↔
      file.Sets name value :=
  MacroTable.mem_ofLinesFrom_iff
    MacroTable.constant_mem_ofLine_iff 0 file.instructions

theorem template_mem_table_iff
    {file : SourceFile}
    {template : Template} :
    .template template ∈ file.table ↔
      file.Provides template :=
  MacroTable.mem_ofLinesFrom_iff
    MacroTable.template_mem_ofLine_iff 0 file.instructions

end SourceFile

end MmixAsm

------------------------------------------------------------
-- Tables With Distinct Names
------------------------------------------------------------

namespace MmixAsm

namespace MacroTable

variable {table : MacroTable}
variable {name value : String}
variable {template : Template}

/- A name is defined by an entry of either kind. -/
theorem defines_iff :
    table.defines name = true ↔
      (∃ value, .constant name value ∈ table) ∨
        ∃ template, .template template ∈ table ∧
          template.name = name := by
  unfold defines entry?
  rw [List.find?_isSome]
  constructor
  · rintro ⟨entry, hEntry, hName⟩
    have hName := eq_of_beq hName
    cases entry with
    | template t =>
        exact .inr ⟨t, hEntry, Option.some.inj hName⟩
    | constant other value =>
        cases hName
        exact .inl ⟨value, hEntry⟩
    | site _ => cases hName
    | inclusion _ _ => cases hName
    | ifDefined _ _ _ => cases hName
    | ifCondition _ _ _ => cases hName
  · rintro (⟨value, hEntry⟩ | ⟨t, hEntry, hName⟩)
    · exact ⟨_, hEntry, beq_self_eq_true _⟩
    · refine ⟨_, hEntry, ?_⟩
      rw [← hName]
      exact beq_self_eq_true _

/- With distinct names one entry at most defines a name. -/
theorem under_eq_singleton
    (hNames : (table.filterMap MacroDecl.definedName?).Nodup)
    {entry : MacroDecl}
    (hEntry : entry ∈ table)
    (hName : entry.definedName? = some name) :
    table.under name = [entry] := by
  rcases List.append_of_mem hEntry with ⟨front, back, rfl⟩
  rw [List.filterMap_append, List.filterMap_cons_some hName,
    List.nodup_middle, List.nodup_cons,
    ← List.filterMap_append] at hNames
  have hOthers : ∀ other ∈ front ++ back,
      ¬ (other.definedName? == some name) = true := by
    intro other hMem hOther
    exact hNames.1 (List.mem_filterMap.mpr
      ⟨other, hMem, eq_of_beq hOther⟩)
  rcases List.forall_mem_append.mp hOthers with
    ⟨hFront, hBack⟩
  rw [under_append, under_cons, hName,
    if_pos (beq_self_eq_true _)]
  unfold under
  rw [List.filter_eq_nil_iff.mpr hFront,
    List.filter_eq_nil_iff.mpr hBack]
  rfl

theorem constant?_eq_some_iff
    (hNames :
      (table.filterMap MacroDecl.definedName?).Nodup) :
    table.constant? name = some value ↔
      .constant name value ∈ table := by
  constructor
  · intro h
    rcases List.lookup_eq_some_iff.mp h with
      ⟨front, back, hConstants, _⟩
    have hMem : (name, value) ∈ table.constants := by
      rw [hConstants]
      exact List.mem_append_right _ List.mem_cons_self
    rcases List.mem_filterMap.mp hMem with
      ⟨entry, hEntry, hSome⟩
    cases entry with
    | constant other value =>
        cases hSome
        exact hEntry
    | template _ => cases hSome
    | site _ => cases hSome
    | inclusion _ _ => cases hSome
    | ifDefined _ _ _ => cases hSome
    | ifCondition _ _ _ => cases hSome
  · intro hEntry
    rw [← constant?_under, under_eq_singleton hNames hEntry rfl]
    simp [constant?, constants, MacroDecl.constant?]

theorem template?_eq_some_iff
    (hNames :
      (table.filterMap MacroDecl.definedName?).Nodup) :
    table.template? name = some template ↔
      .template template ∈ table ∧ template.name = name := by
  constructor
  · intro h
    rcases List.mem_filterMap.mp
      (List.mem_of_find?_eq_some h) with
      ⟨entry, hEntry, hSome⟩
    have hName := List.find?_some h
    rw [MacroDecl.eq_of_template? hSome] at hEntry
    exact ⟨hEntry, eq_of_beq hName⟩
  · rintro ⟨hEntry, rfl⟩
    rw [← template?_under, under_eq_singleton hNames hEntry rfl]
    simp [template?, templates, MacroDecl.template?]

end MacroTable

end MmixAsm

------------------------------------------------------------
-- Files Met From A File
------------------------------------------------------------

namespace MmixAsm

namespace SourceFile

/- The files that the lines of a file include. -/
def links
    (files : List SourceFile)
    (file : SourceFile) : List SourceFile :=
  file.instructions.filterMap fun line =>
    line.includedFile?.bind (fileNamed? files)

/- The files at a distance, in the order of the lines. -/
def filesAt
    (files : List SourceFile) :
    Nat → SourceFile → List SourceFile
| 0, file => [file]
| distance + 1, file =>
    (file.links files).flatMap (filesAt files distance)

/- A file can be met from another by INCLUDE lines. -/
def Meets
    (files : List SourceFile)
    (file other : SourceFile) : Prop :=
  ∃ distance, other ∈ filesAt files distance file

/-
  Something is offered first if no nearer file offers any such
  thing, nor one in front at the same distance.
-/
def FirstOffered
    {α : Type}
    (files : List SourceFile)
    (offers : SourceFile → α → Prop)
    (file : SourceFile)
    (found : α) : Prop :=
  ∃ distance front other back,
    filesAt files distance file = front ++ other :: back ∧
      offers other found ∧
      (∀ earlier ∈ front, ∀ value, ¬ offers earlier value) ∧
      ∀ nearer < distance,
        ∀ earlier ∈ filesAt files nearer file,
          ∀ value, ¬ offers earlier value

variable {files : List SourceFile}
variable {file other : SourceFile}

theorem mem_of_mem_links
    (hOther : other ∈ file.links files) :
    other ∈ files := by
  rcases List.mem_filterMap.mp hOther with ⟨line, _, hNamed⟩
  rcases Option.bind_eq_some_iff.mp hNamed with
    ⟨name, _, hName⟩
  exact (fileNamed?_eq_some hName).1

/- Only given files are met. -/
theorem mem_of_mem_filesAt
    {distance : Nat}
    (hFile : file ∈ files)
    (hOther : other ∈ filesAt files distance file) :
    other ∈ files := by
  induction distance generalizing file with
  | zero =>
      rw [List.mem_singleton.mp hOther]
      exact hFile
  | succ distance ih =>
      rcases List.mem_flatMap.mp hOther with
        ⟨next, hNext, hOther⟩
      exact ih (mem_of_mem_links hNext) hOther

/- What is offered first is offered by a file that is met. -/
theorem FirstOffered.exists_offer
    {α : Type}
    {offers : SourceFile → α → Prop}
    {found : α}
    (h : file.FirstOffered files offers found) :
    ∃ other, file.Meets files other ∧ offers other found := by
  rcases h with ⟨distance, front, other, back, hLevel, hOffers, _⟩
  refine ⟨other, ⟨distance, ?_⟩, hOffers⟩
  rw [hLevel]
  exact List.mem_append_right front List.mem_cons_self

end SourceFile

namespace Library

variable {files : List SourceFile}
variable {library : Library}

theorem HoldsFiles.table?_eq
    (hHolds : library.HoldsFiles files)
    (name : String) :
    library.table? name =
      (fileNamed? files name).map SourceFile.table := by
  rw [table?, hHolds.unit?_eq, Option.map_map]
  rfl

theorem HoldsFiles.includedTables_eq
    (hHolds : library.HoldsFiles files)
    (file : SourceFile) :
    library.includedTables file.table =
      (file.links files).map SourceFile.table := by
  unfold includedTables SourceFile.links
  rw [file.includedFiles_table, List.filterMap_filterMap,
    List.map_filterMap]
  refine List.filterMap_congr fun line _ => ?_
  cases line.includedFile? with
  | none => rfl
  | some name => exact hHolds.table?_eq name

/- Tables are met as the files are that they belong to. -/
theorem HoldsFiles.tablesAt_eq
    (hHolds : library.HoldsFiles files)
    (distance : Nat)
    (file : SourceFile) :
    library.tablesAt distance file.table =
      (file.filesAt files distance).map SourceFile.table := by
  induction distance generalizing file with
  | zero => rfl
  | succ distance ih =>
      rw [tablesAt, hHolds.includedTables_eq, List.flatMap_map,
        SourceFile.filesAt, List.map_flatMap]
      exact List.flatMap_congr fun next _ => ih next

variable {α : Type}
variable {find : MacroTable → Option α}
variable {offers : SourceFile → α → Prop}
variable {file : SourceFile}

theorem HoldsFiles.findFrom_eq_none_iff
    (hHolds : library.HoldsFiles files) :
    library.findFrom file.table find = none ↔
      ∀ other, file.Meets files other →
        find other.table = none := by
  rw [Library.findFrom_eq_none_iff]
  constructor
  · rintro h other ⟨distance, hOther⟩
    apply h
    apply exists_mem_tablesAt_iff.mp
    refine ⟨distance, ?_⟩
    rw [hHolds.tablesAt_eq]
    exact List.mem_map_of_mem hOther
  · intro h table hReaches
    rcases exists_mem_tablesAt_iff.mpr hReaches with
      ⟨distance, hTable⟩
    rw [hHolds.tablesAt_eq] at hTable
    rcases List.mem_map.mp hTable with ⟨other, hOther, rfl⟩
    exact h other ⟨distance, hOther⟩

/- What the tables of some files have, the files offer. -/
theorem findSome?_map_table_eq_none_iff
    {level : List SourceFile}
    (hFind : ∀ other ∈ level, ∀ found,
      find other.table = some found ↔ offers other found) :
    (level.map SourceFile.table).findSome? find = none ↔
      ∀ other ∈ level, ∀ value, ¬ offers other value := by
  rw [List.findSome?_map, List.findSome?_eq_none_iff]
  refine forall₂_congr fun other hOther => ?_
  rw [Option.eq_none_iff_forall_ne_some]
  exact forall_congr' fun value =>
    not_congr (hFind other hOther value)

theorem findSome?_map_table_eq_some_iff
    {level : List SourceFile}
    (hFind : ∀ other ∈ level, ∀ found,
      find other.table = some found ↔ offers other found)
    {found : α} :
    (level.map SourceFile.table).findSome? find =
        some found ↔
      ∃ front other back,
        level = front ++ other :: back ∧
          offers other found ∧
          ∀ earlier ∈ front, ∀ value,
            ¬ offers earlier value := by
  rw [List.findSome?_map, List.findSome?_eq_some_iff]
  refine exists_congr fun front => exists_congr fun other =>
    exists_congr fun back => and_congr_right fun hLevel => ?_
  have hFront : ∀ earlier ∈ front, ∀ found,
      find earlier.table = some found ↔
        offers earlier found := by
    intro earlier hEarlier
    apply hFind
    rw [hLevel]
    exact List.mem_append_left _ hEarlier
  refine and_congr (hFind other (by simp [hLevel]) found) ?_
  rw [← findSome?_map_table_eq_none_iff hFront,
    List.findSome?_map, List.findSome?_eq_none_iff]

/- A search finds what the met files offer first. -/
theorem HoldsFiles.findFrom_eq_some_iff
    (hHolds : library.HoldsFiles files)
    (hFile : file ∈ files)
    (hFind : ∀ other ∈ files, ∀ found,
      find other.table = some found ↔ offers other found)
    {found : α} :
    library.findFrom file.table find = some found ↔
      file.FirstOffered files offers found := by
  have hMet : ∀ distance,
      ∀ other ∈ file.filesAt files distance, ∀ found,
        find other.table = some found ↔ offers other found :=
    fun _ other hOther =>
      hFind other (SourceFile.mem_of_mem_filesAt hFile hOther)
  rw [Library.findFrom_eq_some_iff, firstFound_iff]
  unfold findAt
  simp only [hHolds.tablesAt_eq]
  constructor
  · rintro ⟨distance, hFound, hNear⟩
    rcases (findSome?_map_table_eq_some_iff
      (hMet distance)).mp hFound with
      ⟨front, other, back, hLevel, hOffers, hFront⟩
    refine ⟨distance, front, other, back, hLevel, hOffers,
      hFront, fun nearer hNearer => ?_⟩
    exact (findSome?_map_table_eq_none_iff (hMet nearer)).mp
      (hNear nearer hNearer)
  · rintro ⟨distance, front, other, back, hLevel, hOffers,
      hFront, hNear⟩
    refine ⟨distance, ?_, fun nearer hNearer => ?_⟩
    · exact (findSome?_map_table_eq_some_iff
        (hMet distance)).mpr
          ⟨front, other, back, hLevel, hOffers, hFront⟩
    · exact (findSome?_map_table_eq_none_iff
        (hMet nearer)).mpr (hNear nearer hNearer)

end Library

end MmixAsm

------------------------------------------------------------
-- Answers
------------------------------------------------------------

namespace MmixAsm

namespace SourceFile

/- A name is visible if a file defines it that can be met. -/
def Sees
    (files : List SourceFile)
    (file : SourceFile)
    (name : String) : Prop :=
  ∃ other, file.Meets files other ∧ other.Defines name

/- A condition holds for the first value of its constant. -/
def ConditionHolds
    (files : List SourceFile)
    (file : SourceFile)
    (text : String) : Prop :=
  ∃ condition value,
    Condition.Written text condition ∧
      file.FirstOffered files (·.Sets condition.name) value ∧
      condition.Accepts value

/-
  A condition has no answer if it is written without a sign,
  or if no file sets its constant that can be met.
-/
def ConditionFaulty
    (files : List SourceFile)
    (file : SourceFile)
    (text : String) : Prop :=
  (¬ ['=', '='] <:+: text.toList ∧
      ¬ ['!', '='] <:+: text.toList) ∨
    ∃ condition,
      Condition.Written text condition ∧
        ∀ other, file.Meets files other →
          ∀ value, ¬ other.Sets condition.name value

end SourceFile

namespace Library

variable {files : List SourceFile}
variable {library : Library}
variable {file : SourceFile}
variable {name value text : String}
variable {template : Template}

/- No file of a library defines a name twice. -/
theorem nodup_definedNames
    (hLibrary : ofFiles files = .ok library)
    (hFile : file ∈ files) :
    (file.table.filterMap MacroDecl.definedName?).Nodup := by
  rcases (exists_ofFiles_iff.mp ⟨library, hLibrary⟩).1 file
    hFile with ⟨unit, hUnit⟩
  have hNames := (SourceUnit.records_ofFile hUnit).names
  rwa [(SourceUnit.eq_ofLines_of_ofFile hUnit).1] at hNames

theorem isDefined_iff_sees
    (hHolds : library.HoldsFiles files) :
    library.isDefined file.table name = true ↔
      file.Sees files name := by
  rw [isDefined_eq_isSome, Option.isSome_iff_ne_none, Ne,
    hHolds.findFrom_eq_none_iff]
  unfold SourceFile.Sees SourceFile.Defines
  simp only [← SourceFile.constant_mem_table_iff,
    ← SourceFile.template_mem_table_iff,
    ← MacroTable.defines_iff]
  simp

variable (hLibrary : ofFiles files = .ok library)
variable (hFile : file ∈ files)
include hLibrary hFile

theorem constant?_eq_some_iff :
    library.constant? file.table name = some value ↔
      file.FirstOffered files (·.Sets name) value := by
  apply (holdsFiles_of_ofFiles hLibrary).findFrom_eq_some_iff
    hFile
  intro other hOther found
  rw [MacroTable.constant?_eq_some_iff
    (nodup_definedNames hLibrary hOther),
    SourceFile.constant_mem_table_iff]

theorem constant?_eq_none_iff :
    library.constant? file.table name = none ↔
      ∀ other, file.Meets files other →
        ∀ value, ¬ other.Sets name value := by
  unfold constant?
  rw [(holdsFiles_of_ofFiles hLibrary).findFrom_eq_none_iff]
  refine forall₂_congr fun other hMeets => ?_
  rcases hMeets with ⟨distance, hOther⟩
  have hNames := nodup_definedNames hLibrary
    (SourceFile.mem_of_mem_filesAt hFile hOther)
  simp only [← SourceFile.constant_mem_table_iff,
    ← MacroTable.constant?_eq_some_iff hNames]
  exact Option.eq_none_iff_forall_ne_some

theorem template?_eq_some_iff :
    library.template? file.table name = some template ↔
      file.FirstOffered files
        (fun other found =>
          other.Provides found ∧ found.name = name)
        template := by
  apply (holdsFiles_of_ofFiles hLibrary).findFrom_eq_some_iff
    hFile
  intro other hOther found
  rw [MacroTable.template?_eq_some_iff
    (nodup_definedNames hLibrary hOther),
    SourceFile.template_mem_table_iff]

theorem conditionHolds_iff :
    library.conditionHolds file.table text = true ↔
      file.ConditionHolds files text := by
  unfold conditionHolds SourceFile.ConditionHolds
  simp only [← Condition.ofText?_eq_some_iff,
    ← constant?_eq_some_iff hLibrary hFile,
    ← Condition.holds_iff]
  cases Condition.ofText? text with
  | none => simp
  | some condition => simp [Option.any_eq_true]

theorem conditionFails_iff :
    library.conditionFails file.table text = true ↔
      file.ConditionFaulty files text := by
  unfold conditionFails SourceFile.ConditionFaulty
  simp only [← Condition.ofText?_eq_some_iff,
    ← Condition.ofText?_eq_none_iff,
    ← constant?_eq_none_iff hLibrary hFile]
  cases Condition.ofText? text with
  | none => simp
  | some condition => simp

end Library

end MmixAsm

------------------------------------------------------------
-- What Lines Say
------------------------------------------------------------

namespace MmixAsm

/- A part is selected by what stands in the files. -/
def Part.Selected
    (files : List SourceFile)
    (file : SourceFile)
    (part : Part) : Prop :=
  match part.opener.keyword, part.opener.parameters with
  | .ifDefined, name :: _ => file.Sees files name
  | .ifUndefined, name :: _ => ¬ file.Sees files name
  | .ifCondition, text :: _ =>
      if part.behindElse then
        ¬ file.ConditionHolds files text
      else
        file.ConditionHolds files text
  | _, _ => True

namespace EnclosedLine

/- A line is active if every part around it is selected. -/
def Active
    (files : List SourceFile)
    (file : SourceFile)
    (enclosed : EnclosedLine) : Prop :=
  ∀ part ∈ enclosed.parts, part.Selected files file

/- A line is an active IF whose condition has no answer. -/
def Faulty
    (files : List SourceFile)
    (file : SourceFile)
    (enclosed : EnclosedLine) : Prop :=
  enclosed.Active files file ∧
    ∃ line, enclosed.line.macroLine? = some line ∧
      line.keyword = .ifCondition ∧
      ∃ text others, line.parameters = text :: others ∧
        file.ConditionFaulty files text

/-
  What a line says: nothing where it is not active, itself if
  it belongs to no macro, and one instance for USEMACRO.  The
  other macro lines say nothing.
-/
inductive Says
    (files : List SourceFile)
    (file : SourceFile)
    (enclosed : EnclosedLine) : List Instruction → Prop
  | inactive
      (hActive : ¬ enclosed.Active files file) :
      Says files file enclosed []
  | plain
      (hActive : enclosed.Active files file)
      (hLine : enclosed.line.macroLine? = none) :
      Says files file enclosed [enclosed.line]
  | application
      {line : Line MacroKind}
      {template : Template}
      {actuals : List String}
      (hActive : enclosed.Active files file)
      (hLine : enclosed.line.macroLine? = some line)
      (hKeyword : line.keyword = .application)
      (hParameters : line.parameters =
        template.name :: actuals)
      (hTemplate : file.FirstOffered files
        (fun other found => other.Provides found ∧
          found.name = template.name) template)
      (hActuals : template.formals.length = actuals.length) :
      Says files file enclosed
        [(template.instantiate actuals).relabel line.label]
  | silent
      {line : Line MacroKind}
      (hActive : enclosed.Active files file)
      (hLine : enclosed.line.macroLine? = some line)
      (hKeyword : line.keyword ≠ .application) :
      Says files file enclosed []

end EnclosedLine

/- A file reads as what its lines say, one after the other. -/
def SourceFile.ReadsAs
    (files : List SourceFile)
    (file : SourceFile)
    (instructions : List Instruction) : Prop :=
  ∃ said,
    List.Forall₂ (EnclosedLine.Says files file)
        file.enclosed said ∧
      said.flatten = instructions

namespace Library

variable {files : List SourceFile}
variable {library : Library}
variable {file : SourceFile}
variable {enclosed : EnclosedLine}
variable (hLibrary : ofFiles files = .ok library)
variable (hFile : file ∈ files)
include hLibrary hFile

/- Parts are kept by the tables if the files select them. -/
theorem keepsPart_iff_selected
    {part : Part} :
    library.keepsPart file.table part = true ↔
      part.Selected files file := by
  have hSees : ∀ name, library.isDefined file.table name = true
      ↔ file.Sees files name := fun name =>
    isDefined_iff_sees (holdsFiles_of_ofFiles hLibrary)
  have hHolds : ∀ text, library.conditionHolds file.table text
      = true ↔ file.ConditionHolds files text := fun text =>
    conditionHolds_iff hLibrary hFile
  rcases part with ⟨⟨label, keyword, parameters⟩, behindElse⟩
  unfold keepsPart Part.Selected
  cases keyword
  case ifDefined =>
    cases parameters with
    | nil => simp
    | cons name _ => exact hSees name
  case ifUndefined =>
    cases parameters with
    | nil => simp
    | cons name _ => simp [← hSees]
  case ifCondition =>
    cases parameters with
    | nil => simp
    | cons text _ =>
        cases behindElse with
        | true => simp [← hHolds]
        | false => simp [← hHolds]
  all_goals simp

theorem isActive_iff_active :
    library.isActive file.table enclosed = true ↔
      enclosed.Active files file := by
  unfold isActive EnclosedLine.Active
  rw [List.all_eq_true]
  simp only [keepsPart_iff_selected hLibrary hFile]

theorem isUndecided_iff
    {line : Line MacroKind} :
    library.isUndecided file.table line = true ↔
      line.keyword = .ifCondition ∧
        ∃ text others, line.parameters = text :: others ∧
          file.ConditionFaulty files text := by
  simp only [← conditionFails_iff hLibrary hFile]
  rcases line with ⟨label, keyword, parameters⟩
  unfold isUndecided
  cases keyword
  case ifCondition =>
    cases parameters with
    | nil => simp
    | cons text others => simp
  all_goals simp

theorem isFaulty_iff_faulty :
    library.isFaulty file.table enclosed = true ↔
      enclosed.Faulty files file := by
  unfold isFaulty EnclosedLine.Faulty
  rw [Bool.and_eq_true, isActive_iff_active hLibrary hFile,
    Option.any_eq_true]
  simp only [isUndecided_iff hLibrary hFile]

/- What the tables give a line to say, the files do. -/
theorem says_iff
    {said : List Instruction} :
    enclosed.Says files file said ↔
      if library.isActive file.table enclosed then
        library.meaning? file.table enclosed.line = some said
      else
        said = [] := by
  have hIff : library.isActive file.table enclosed = true ↔
      enclosed.Active files file :=
    isActive_iff_active hLibrary hFile
  constructor
  · intro h
    cases h with
    | inactive hActive => rw [if_neg (mt hIff.mp hActive)]
    | plain hActive hLine =>
        rw [if_pos (hIff.mpr hActive), meaning?, hLine]
    | application hActive hLine hKeyword hParameters hTemplate
        hActuals =>
        have hFound :=
          (template?_eq_some_iff hLibrary hFile).mpr hTemplate
        rw [if_pos (hIff.mpr hActive), meaning?, hLine]
        simp [hKeyword, instance?, hParameters, hFound, hActuals]
    | silent hActive hLine hKeyword =>
        rw [if_pos (hIff.mpr hActive), meaning?, hLine]
        simp [hKeyword]
  · intro h
    by_cases hActive :
        library.isActive file.table enclosed = true
    · rw [if_pos hActive] at h
      have hActive := hIff.mp hActive
      unfold meaning? at h
      cases hLine : enclosed.line.macroLine? with
      | none =>
          rw [hLine] at h
          cases h
          exact .plain hActive hLine
      | some line =>
          simp only [hLine] at h
          by_cases hKeyword : line.keyword = .application
          · rw [if_pos hKeyword] at h
            rcases Option.map_eq_some_iff.mp h with
              ⟨instruction, hInstance, rfl⟩
            unfold instance? at hInstance
            cases hParameters : line.parameters with
            | nil =>
                rw [hParameters] at hInstance
                cases hInstance
            | cons name actuals =>
                rw [hParameters] at hInstance
                rcases Option.map_eq_some_iff.mp hInstance with
                  ⟨template, hFound, rfl⟩
                rcases Option.filter_eq_some_iff.mp hFound with
                  ⟨hFound, hLength⟩
                have hTemplate := (template?_eq_some_iff
                  hLibrary hFile).mp hFound
                -- It has the name that was asked for.
                rcases hTemplate.exists_offer with
                  ⟨_, _, _, rfl⟩
                exact .application hActive hLine hKeyword
                  hParameters hTemplate (eq_of_beq hLength)
          · rw [if_neg hKeyword] at h
            cases h
            exact .silent hActive hLine hKeyword
    · rw [if_neg hActive] at h
      rw [h]
      exact .inactive (mt hIff.mpr hActive)

/- What the tables give the lines to say, the files do. -/
theorem mapM_meaning?_eq_some_iff
    {lines : List EnclosedLine}
    {instructions : List Instruction} :
    ((lines.filter (library.isActive file.table)).mapM
        fun enclosed =>
          library.meaning? file.table enclosed.line).map
        List.flatten = some instructions ↔
      ∃ said,
        List.Forall₂ (EnclosedLine.Says files file) lines
            said ∧
          said.flatten = instructions := by
  constructor
  · intro h
    induction lines generalizing instructions with
    | nil =>
        cases h
        exact ⟨[], .nil, rfl⟩
    | cons enclosed rest ih =>
        by_cases hActive :
            library.isActive file.table enclosed = true
        · rw [List.filter_cons_of_pos hActive, List.mapM_cons]
            at h
          rcases Option.map_eq_some_iff.mp h with
            ⟨parts, hParts, rfl⟩
          rcases Option.bind_eq_some_iff.mp hParts with
            ⟨here, hHere, hParts⟩
          rcases Option.bind_eq_some_iff.mp hParts with
            ⟨others, hOthers, hEq⟩
          cases hEq
          rcases ih (Option.map_eq_some_iff.mpr
            ⟨others, hOthers, rfl⟩) with ⟨said, hSaid, hFlat⟩
          refine ⟨here :: said, .cons ?_ hSaid, ?_⟩
          · rw [says_iff hLibrary hFile, if_pos hActive, hHere]
          · rw [List.flatten_cons, List.flatten_cons, hFlat]
        · rw [List.filter_cons_of_neg hActive] at h
          rcases ih h with ⟨said, hSaid, hFlat⟩
          refine ⟨[] :: said, .cons ?_ hSaid, hFlat⟩
          rw [says_iff hLibrary hFile, if_neg hActive]
  · rintro ⟨said, hSaid, rfl⟩
    induction hSaid with
    | nil => rfl
    | @cons enclosed here rest said hHere _ ih =>
        rw [says_iff hLibrary hFile] at hHere
        by_cases hActive :
            library.isActive file.table enclosed = true
        · rcases Option.map_eq_some_iff.mp ih with
            ⟨parts, hParts, hFlat⟩
          rw [if_pos hActive] at hHere
          rw [List.filter_cons_of_pos hActive, List.mapM_cons,
            hHere, hParts, List.flatten_cons, ← hFlat]
          rfl
        · rw [if_neg hActive] at hHere
          rw [List.filter_cons_of_neg hActive, ih, hHere]
          rfl

theorem reading?_eq_some_iff
    {instructions : List Instruction} :
    library.reading? file.table file.instructions =
        some instructions ↔
      file.ReadsAs files instructions :=
  mapM_meaning?_eq_some_iff hLibrary hFile

end Library

end MmixAsm

------------------------------------------------------------
-- Refinement
------------------------------------------------------------

namespace MmixAsm

namespace Library

/-
  Selection and expansion do what reading every file line by
  line says.  Selection fails exactly if some active IF line
  has a condition that is malformed or about an undefined
  constant.  If both succeed, then the instructions of every
  file are what its lines say, in their order.
-/
theorem selected_expanded_refine_reading
    {files : List SourceFile}
    {library : Library}
    (hLibrary : Library.ofFiles files = .ok library) :
    ((∃ e, library.selected = .error e) ↔
      ∃ file ∈ files, ∃ enclosed ∈ file.enclosed,
        enclosed.Faulty files file) ∧
    ∀ selected expanded : Library,
      library.selected = .ok selected →
      selected.expanded = .ok expanded →
      ∀ file ∈ files,
        ∃ unit : SourceUnit,
          expanded.unit? file.name = some unit ∧
          ∀ instructions,
            file.ReadsAs files instructions ↔
              instructions = unit.instructions := by
  have hHolds := holdsFiles_of_ofFiles hLibrary
  constructor
  · rw [selected_fails_iff hHolds]
    refine exists_congr fun file => and_congr_right
      fun hFile => exists_congr fun enclosed =>
        and_congr_right fun _ => ?_
    exact isFaulty_iff_faulty hLibrary hFile
  · intro selected expanded hSelected hExpanded file hFile
    have hExpands : ExpandsTo files library expanded :=
      ⟨hHolds, selected, hSelected, hExpanded⟩
    rcases hExpands.exists_unit hFile with
      ⟨unit, hUnit, hReading, _⟩
    refine ⟨unit, hUnit, fun instructions => ?_⟩
    rw [← reading?_eq_some_iff hLibrary hFile, hReading,
      Option.some.injEq, eq_comm]

end Library

/- A file that sets a constant and provides a template. -/
def definingFile : SourceFile where
  name := "defs"
  instructions := [
    .macroLine ⟨some "level", .constant, ["1"]⟩,
    .macroTemplate ⟨some "inc", .definition, ["x"]⟩
      (.op ⟨none, "ADD", ["&x", "&x", "1"]⟩)]
  isEntry := false

/-
  A file with regions of all kinds.  It asks for names of its
  own, of the file that it includes and of no file, and has a
  condition without sign where nothing is selected.
-/
def selectingFile : SourceFile where
  name := "main"
  instructions := [
    .macroLine ⟨none, .inclusion, ["\"defs\""]⟩,
    .macroLine ⟨none, .constant, ["mode", "fast"]⟩,
    .macroLine ⟨none, .ifCondition, ["mode==fast"]⟩,
    .op ⟨none, "SETL", ["$1", "1"]⟩,
    .macroLine ⟨none, .otherwise, []⟩,
    .macroLine ⟨none, .ifCondition, ["nothing"]⟩,
    .macroLine ⟨none, .endIf, []⟩,
    .macroLine ⟨none, .endIf, []⟩,
    .macroLine ⟨none, .ifCondition, ["level != 2"]⟩,
    .macroLine ⟨some "go", .application, ["inc", "$1"]⟩,
    .macroLine ⟨none, .endIf, []⟩,
    .macroLine ⟨none, .ifCondition, ["level!=1"]⟩,
    .op ⟨none, "SETL", ["$1", "2"]⟩,
    .macroLine ⟨none, .otherwise, []⟩,
    .op ⟨none, "SETL", ["$1", "3"]⟩,
    .macroLine ⟨none, .endIf, []⟩,
    .macroLine ⟨none, .ifDefined, ["inc"]⟩,
    .op ⟨none, "SETL", ["$2", "1"]⟩,
    .macroLine ⟨none, .endIf, []⟩,
    .macroLine ⟨none, .ifUndefined, ["inc"]⟩,
    .op ⟨none, "SETL", ["$2", "2"]⟩,
    .macroLine ⟨none, .endIf, []⟩,
    .macroLine ⟨none, .ifDefined, ["gone"]⟩,
    .op ⟨none, "SETL", ["$2", "3"]⟩,
    .macroLine ⟨none, .endIf, []⟩,
    .macroLine ⟨none, .ifUndefined, ["gone"]⟩,
    .op ⟨none, "SETL", ["$2", "4"]⟩,
    .macroLine ⟨none, .endIf, []⟩]
  isEntry := true

namespace Library

def selectingLibrary : Library :=
  ⟨[definingFile.entry, selectingFile.entry]⟩

/- Where the selecting file looks names up. -/
theorem tablesFrom_selectingFile :
    selectingLibrary.tablesFrom selectingFile.table =
      [selectingFile.table, definingFile.table] := by
  have hLinks : selectingFile.table.inclusions.map (·.1) =
      ["defs"] := by
    decide +kernel
  have hUnit : selectingLibrary.unit? "defs" =
      some (.ofLines definingFile.instructions) := by
    decide +kernel
  have hEnd : (SourceUnit.ofLines
      definingFile.instructions).table.includedFiles = [] := by
    decide +kernel
  rw [tablesFrom, hLinks, reachable_cons]
  simp only [List.contains_nil, Bool.false_eq_true, if_false,
    hUnit, Option.map_some, hEnd, List.nil_append]
  rw [reachable, List.filterMap_cons, hUnit]
  rfl

/- Four of its regions are left out. -/
def keptUnit : SourceUnit :=
  (SourceUnit.ofLines selectingFile.instructions
    |>.dropRegion ⟨4, 7⟩
    |>.dropRegion ⟨11, 13⟩
    |>.dropRegion ⟨19, 21⟩
    |>.dropRegion ⟨22, 24⟩)

theorem selectUnit_selectingFile :
    selectingLibrary.selectUnit "main"
        (.ofLines selectingFile.instructions) =
      (keptUnit, none) := by
  -- Searches do not evaluate, so their answers come first.
  let table := selectingFile.table
  have hEntries :
      (SourceUnit.ofLines selectingFile.instructions).table = [
        .inclusion "defs" 0,
        .constant "mode" "fast",
        .ifCondition "mode==fast" ⟨2, 4⟩ (some ⟨4, 7⟩),
        .ifCondition "nothing" ⟨5, 6⟩ none,
        .ifCondition "level != 2" ⟨8, 10⟩ none,
        .site ⟨some "go", 9, ["inc", "$1"]⟩,
        .ifCondition "level!=1" ⟨11, 13⟩ (some ⟨13, 15⟩),
        .ifDefined true "inc" ⟨16, 18⟩,
        .ifDefined false "inc" ⟨19, 21⟩,
        .ifDefined true "gone" ⟨22, 24⟩,
        .ifDefined false "gone" ⟨25, 27⟩] := by
    decide +kernel
  have hDefined :
      selectingLibrary.isDefined table "inc" = true ∧
        selectingLibrary.isDefined table "gone" = false := by
    unfold isDefined
    rw [tablesFrom_selectingFile]
    decide +kernel
  have hConditions :
      selectingLibrary.evaluate "main" table "mode==fast" =
          .ok true ∧
        selectingLibrary.evaluate "main" table "level != 2" =
          .ok true ∧
        selectingLibrary.evaluate "main" table "level!=1" =
          .ok false := by
    unfold evaluate constant? findFrom
    simp only [tablesFrom_selectingFile, table]
    decide +kernel
  have hTable : ∀ (unit : SourceUnit) (region : Region),
      (unit.dropRegion region).table = unit.table :=
    fun _ _ => rfl
  have hStart : (SourceUnit.ofLines
      selectingFile.instructions).table = table := rfl
  unfold selectUnit keptUnit
  rw [hEntries]
  simp +decide only [selectEntries, selectEntry, dropped?,
    hTable, hStart, hDefined, hConditions, ↓reduceIte,
    Bool.false_eq_true, reduceCtorEq]

def keptLibrary : Library :=
  ⟨[definingFile.entry, ("main", keptUnit)]⟩

theorem selected_selectingLibrary :
    selectingLibrary.selected = .ok keptLibrary := by
  have hUnits : selectingLibrary.units =
      [("defs", .ofLines definingFile.instructions),
        ("main", .ofLines selectingFile.instructions)] := rfl
  have hFirst : selectingLibrary.selectUnit "defs"
      (.ofLines definingFile.instructions) =
        (.ofLines definingFile.instructions, none) := rfl
  unfold selected selectParts
  rw [hUnits]
  simp only [selectUnits, hFirst, selectUnit_selectingFile]
  rfl

/- Its USEMACRO line is replaced. -/
def filledUnit : SourceUnit where
  slots := keptUnit.slots.set 9
    (.live (.op ⟨some "go", "ADD", ["$1", "$1", "1"]⟩))
  table := selectingFile.table

def filledLibrary : Library :=
  ⟨[definingFile.entry, ("main", filledUnit)]⟩

theorem expanded_keptLibrary :
    keptLibrary.expanded = .ok filledLibrary := by
  have hTemplate :
      keptLibrary.template? selectingFile.table "inc" =
        some ⟨"inc", ["x"],
          .op ⟨none, "ADD", ["&x", "&x", "1"]⟩⟩ := by
    rw [← template?_congr
      (sameTables_of_selected selected_selectingLibrary)]
    unfold template? findFrom
    rw [tablesFrom_selectingFile]
    decide +kernel
  have hTable : keptUnit.table = selectingFile.table := rfl
  have hSites : keptUnit.liveSites =
      [⟨some "go", 9, ["inc", "$1"]⟩] := by
    decide +kernel
  have hMain : keptLibrary.expandUnit "main" keptUnit =
      .ok filledUnit := by
    unfold expandUnit expansions
    rw [hSites]
    simp only [List.mapM_cons, List.mapM_nil, expandSite,
      hTable, hTemplate]
    decide +kernel
  have hFirst : keptLibrary.expandUnit "defs"
      (.ofLines definingFile.instructions) =
        .ok (.ofLines definingFile.instructions) := rfl
  have hUnits : keptLibrary.units =
      [("defs", .ofLines definingFile.instructions),
        ("main", keptUnit)] := rfl
  unfold expanded
  rw [hUnits]
  simp only [List.mapM_cons, List.mapM_nil, hFirst, hMain]
  rfl

end Library

/- A file that asks for a constant no file sets. -/
def undecidedFile : SourceFile where
  name := "main"
  instructions := [
    .macroLine ⟨none, .ifCondition, ["gone!=1"]⟩,
    .macroLine ⟨none, .endIf, []⟩]
  isEntry := true

theorem undecidedFile_faulty :
    EnclosedLine.Faulty [undecidedFile] undecidedFile
      ⟨[], .macroLine ⟨none, .ifCondition, ["gone!=1"]⟩⟩ := by
  have hWritten : Condition.Written "gone!=1"
      ⟨"gone", "1", false⟩ :=
    Condition.ofText?_eq_some_iff.mp (by decide +kernel)
  refine ⟨fun part hPart => ?_, _, rfl, rfl, "gone!=1", [], rfl,
    .inr ⟨_, hWritten, ?_⟩⟩
  · cases hPart
  · rintro other ⟨distance, hOther⟩ value
      ⟨line, hLine, content, hMacro, hSets⟩
    cases distance with
    | zero =>
        cases List.mem_singleton.mp hOther
        rcases List.mem_cons.mp hLine with rfl | hLine
        · cases hMacro
          cases hSets
        · cases List.mem_singleton.mp hLine
          cases hMacro
          cases hSets
    | succ distance => cases hOther

theorem Library.selectingFile_reading :
    Library.ofFiles [selectingFile, definingFile] =
        .ok selectingLibrary ∧
      selectingLibrary.selected = .ok keptLibrary ∧
      keptLibrary.expanded = .ok filledLibrary ∧
      (∀ instructions,
        selectingFile.ReadsAs [selectingFile, definingFile]
            instructions ↔
          instructions = [
            .op ⟨none, "SETL", ["$1", "1"]⟩,
            .op ⟨some "go", "ADD", ["$1", "$1", "1"]⟩,
            .op ⟨none, "SETL", ["$1", "3"]⟩,
            .op ⟨none, "SETL", ["$2", "1"]⟩,
            .op ⟨none, "SETL", ["$2", "4"]⟩]) ∧
      ∃ library,
        Library.ofFiles [undecidedFile] = .ok library ∧
          ∃ e, library.selected = .error e := by
  have hLibrary :
      Library.ofFiles [selectingFile, definingFile] =
        .ok selectingLibrary := by
    decide +kernel
  have hUndecided : Library.ofFiles [undecidedFile] =
      .ok ⟨[undecidedFile.entry]⟩ := by
    decide +kernel
  have hFails :=
    (selected_expanded_refine_reading hUndecided).1.mpr
      ⟨undecidedFile, List.mem_cons_self, _,
        List.mem_cons_self, undecidedFile_faulty⟩
  rcases (selected_expanded_refine_reading hLibrary).2
    keptLibrary filledLibrary selected_selectingLibrary
    expanded_keptLibrary selectingFile List.mem_cons_self with
    ⟨unit, hUnit, hReads⟩
  have hMain : unit = filledUnit :=
    Option.some.inj (hUnit.symm.trans rfl)
  have hInstructions : filledUnit.instructions = [
      .op ⟨none, "SETL", ["$1", "1"]⟩,
      .op ⟨some "go", "ADD", ["$1", "$1", "1"]⟩,
      .op ⟨none, "SETL", ["$1", "3"]⟩,
      .op ⟨none, "SETL", ["$2", "1"]⟩,
      .op ⟨none, "SETL", ["$2", "4"]⟩] := by
    decide +kernel
  rw [hMain, hInstructions] at hReads
  exact ⟨hLibrary, selected_selectingLibrary,
    expanded_keptLibrary, hReads, _, hUndecided, hFails⟩

end MmixAsm
