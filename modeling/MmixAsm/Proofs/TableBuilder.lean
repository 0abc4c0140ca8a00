import MmixAsm.Macro.SourceUnit
import MmixAsm.Proofs.Balance

/-
  Building the table of a file in one pass.

  A builder never looks ahead.  It enters a region with its
  end unknown, remembers the entry as waiting, and fills in
  the end when ENDIF comes.  Filling in supposes that every
  waiting entry is a region; a builder that meets another one
  is stuck.

  The builder gives the same tables and errors as the survey
  with its look-ahead, so it is never stuck.

  Key definitions include:
    * `MmixAsm.BuildFault`
    * `MmixAsm.TableBuilder`
    * `MmixAsm.SourceUnit.build`
    * `MmixAsm.TableBuilder.finished`

  Key theorems include:
    * `MmixAsm.TableBuilder.stepAgrees`
    * `MmixAsm.SourceUnit.build_eq_ofFile`
-/

------------------------------------------------------------
-- Builders
------------------------------------------------------------

namespace MmixAsm

namespace MacroDecl

/- The entry of a condition whose ELSE has come. -/
def divided?
    (offset : Nat) :
    MacroDecl → Option MacroDecl
| .ifCondition condition part none =>
    some (.ifCondition condition { part with stop := offset }
      (some ⟨offset, offset⟩))
| _ => none

/- The entry of a region whose ENDIF has come. -/
def closed?
    (offset : Nat) :
    MacroDecl → Option MacroDecl
| .ifDefined wanted name region =>
    some (.ifDefined wanted name { region with stop := offset })
| .ifCondition condition part none =>
    some (.ifCondition condition { part with stop := offset }
      none)
| .ifCondition condition part (some other) =>
    some (.ifCondition condition part
      (some { other with stop := offset }))
| _ => none

end MacroDecl

/-
  Why a builder gives no table: an error of the file, or an
  entry among those waiting that is no region.
-/
inductive BuildFault where
  | rejected (error : MacroError)
  | notBranching
deriving DecidableEq

/-
  The entries so far and the positions of those that wait for
  their end, the innermost first.
-/
structure TableBuilder where
  entries : MacroTable
  waiting : List Nat

namespace TableBuilder

/- Nothing is entered yet. -/
def start : TableBuilder where
  entries := []
  waiting := []

/- Enter something that is complete. -/
def enter
    (builder : TableBuilder)
    (entry : MacroDecl) : TableBuilder :=
  { builder with entries := builder.entries ++ [entry] }

/- Enter something under a name that is new. -/
def enterNamed
    (builder : TableBuilder)
    (file name : String)
    (entry : MacroDecl) : Except BuildFault TableBuilder :=
  if builder.entries.defines name then
    .error (.rejected (.duplicateName file name))
  else
    .ok (builder.enter entry)

/- Enter a region, which waits for its end. -/
def enterRegion
    (builder : TableBuilder)
    (entry : MacroDecl) : TableBuilder where
  entries := builder.entries ++ [entry]
  waiting := builder.entries.length :: builder.waiting

/- Divide the innermost region that is waiting. -/
def divide
    (builder : TableBuilder)
    (file : String)
    (offset : Nat) : Except BuildFault TableBuilder :=
  match builder.waiting.head?.bind
      (fun index => builder.entries[index]?.map (index, ·)) with
  | none => .error (.rejected (.unmatched file .otherwise))
  | some (index, entry) =>
      match entry.divided? offset with
      | none => .error (.rejected (.unexpectedElse file))
      | some divided =>
          .ok { builder with
            entries := builder.entries.set index divided }

/- Close the innermost region that is waiting. -/
def close
    (builder : TableBuilder)
    (file : String)
    (offset : Nat) : Except BuildFault TableBuilder :=
  match builder.waiting.head?.bind
      (fun index => builder.entries[index]?.map (index, ·)) with
  | none => .error (.rejected (.unmatched file .endIf))
  | some (index, entry) =>
      match entry.closed? offset with
      | none => .error .notBranching
      | some closed =>
          .ok {
            entries := builder.entries.set index closed
            waiting := builder.waiting.tail }

/- Read one macro line. -/
def readMacro
    (builder : TableBuilder)
    (file : String)
    (offset : Nat)
    (line : Line MacroKind)
    (body : Option Instruction) :
    Except BuildFault TableBuilder :=
  match line.keyword, line.parameters with
  | .definition, formals =>
      match line.label, body with
      | none, _ =>
          .error (.rejected (.missingLabel file line.keyword))
      | some name, none =>
          .error (.rejected (.missingTemplate file name))
      | some name, some body =>
          builder.enterNamed file name
            (.template ⟨name, formals, body⟩)
  | .constant, _ =>
      match constantOf? line with
      | none =>
          .error (.rejected
            (.missingParameter file line.keyword))
      | some (name, value) =>
          builder.enterNamed file name (.constant name value)
  | .otherwise, _ => builder.divide file offset
  | .endIf, _ => builder.close file offset
  | keyword, [] =>
      .error (.rejected (.missingParameter file keyword))
  | .inclusion, name :: _ =>
      .ok (builder.enter (.inclusion (fileNameOf name) offset))
  | .application, name :: others =>
      .ok (builder.enter
        (.site ⟨line.label, offset, name :: others⟩))
  | .ifDefined, name :: _ =>
      .ok (builder.enterRegion
        (.ifDefined true name ⟨offset, offset⟩))
  | .ifUndefined, name :: _ =>
      .ok (builder.enterRegion
        (.ifDefined false name ⟨offset, offset⟩))
  | .ifCondition, condition :: _ =>
      .ok (builder.enterRegion
        (.ifCondition condition ⟨offset, offset⟩ none))

/- Read one line, which need not be a macro line. -/
def step
    (builder : TableBuilder)
    (file : String)
    (offset : Nat)
    (line : Instruction) : Except BuildFault TableBuilder :=
  match line.macroLine? with
  | none => .ok builder
  | some content =>
      builder.readMacro file offset content line.macroBody?

/- Read lines of which the first has the given offset. -/
def run
    (builder : TableBuilder)
    (file : String)
    (offset : Nat) :
    List Instruction → Except BuildFault TableBuilder
| [] => .ok builder
| line :: rest =>
    match builder.step file offset line with
    | .error fault => .error fault
    | .ok next => next.run file (offset + 1) rest

/- The table of all lines; no region may be left waiting. -/
def tableOf
    (file : String)
    (lines : List Instruction) : Except BuildFault MacroTable :=
  match start.run file 0 lines with
  | .error fault => .error fault
  | .ok builder =>
      if builder.waiting.isEmpty then
        .ok builder.entries
      else
        .error (.rejected (.unterminatedRegion file))

end TableBuilder

/- The unit of a file, built in one pass. -/
def SourceUnit.build
    (file : SourceFile) : Except BuildFault SourceUnit :=
  (TableBuilder.tableOf file.name file.instructions).map
    fun table => {
      slots := file.instructions.map Slot.ofInstruction
      table }

end MmixAsm

------------------------------------------------------------
-- Filling In Ends
------------------------------------------------------------

namespace MmixAsm

namespace MacroDecl

/-
  A waiting entry with the end that the lines to come give
  it, if it is closed behind `depth` other regions.
-/
def finish
    (offset : Nat)
    (rest : List Instruction)
    (depth : Nat) :
    MacroDecl → MacroDecl
| .ifDefined wanted name region =>
    .ifDefined wanted name
      { region with stop := regionStop depth offset rest }
| .ifCondition condition part none =>
    match regionElse? depth offset rest with
    | some middle =>
        .ifCondition condition { part with stop := middle }
          (some ⟨middle, regionStop depth offset rest⟩)
    | none =>
        .ifCondition condition
          { part with stop := regionStop depth offset rest } none
| .ifCondition condition part (some other) =>
    .ifCondition condition part
      (some { other with stop := regionStop depth offset rest })
| entry => entry

/- A line that is no bracket gives no end. -/
theorem finish_plain
    {line : Instruction}
    (hLine : line.isBracket = false)
    (offset : Nat)
    (rest : List Instruction) :
    finish offset (line :: rest) = finish (offset + 1) rest := by
  rcases Instruction.isBracket_eq_false_iff.mp hLine with
    ⟨hOpens, hElse, hEnd⟩
  funext depth entry
  unfold finish
  simp [regionStop, regionElse?, hOpens, hElse, hEnd]

/- A line that opens a region puts the ends one deeper. -/
theorem finish_opener
    {line : Instruction}
    (hLine : line.opensRegion = true)
    (offset : Nat)
    (rest : List Instruction) :
    finish offset (line :: rest) =
      fun depth => finish (offset + 1) rest (depth + 1) := by
  funext depth entry
  unfold finish
  simp [regionStop, regionElse?, hLine]

/- ELSE divides the innermost region and no other. -/
theorem finish_divider
    {line : Instruction}
    (hLine : line.macroKind? = some .otherwise)
    (offset : Nat)
    (rest : List Instruction)
    (depth : Nat) :
    finish offset (line :: rest) (depth + 1) =
      finish (offset + 1) rest (depth + 1) := by
  have hOpens := Instruction.opensRegion_of_otherwise hLine
  funext entry
  unfold finish
  simp [regionStop, regionElse?, hOpens, hLine]

theorem finish_divided
    {line : Instruction}
    {entry divided : MacroDecl}
    {offset : Nat}
    (hLine : line.macroKind? = some .otherwise)
    (hDivided : entry.divided? offset = some divided)
    (rest : List Instruction) :
    finish offset (line :: rest) 0 entry =
      finish (offset + 1) rest 0 divided := by
  have hOpens := Instruction.opensRegion_of_otherwise hLine
  unfold divided? at hDivided
  split at hDivided
  · cases hDivided
    simp [finish, regionStop, regionElse?, hOpens, hLine]
  · cases hDivided

/- ENDIF ends the innermost region and no other. -/
theorem finish_closer
    {line : Instruction}
    (hLine : line.macroKind? = some .endIf)
    (offset : Nat)
    (rest : List Instruction)
    (depth : Nat) :
    finish offset (line :: rest) (depth + 1) =
      finish (offset + 1) rest depth := by
  have hOpens := Instruction.opensRegion_of_endIf hLine
  funext entry
  unfold finish
  simp [regionStop, regionElse?, hOpens, hLine]

theorem finish_closed
    {line : Instruction}
    {entry closed : MacroDecl}
    {offset : Nat}
    (hLine : line.macroKind? = some .endIf)
    (hClosed : entry.closed? offset = some closed)
    (rest : List Instruction) :
    finish offset (line :: rest) 0 entry = closed := by
  have hOpens := Instruction.opensRegion_of_endIf hLine
  unfold closed? at hClosed
  split at hClosed
  · cases hClosed
    simp [finish, regionStop, hOpens, hLine]
  · cases hClosed
    simp [finish, regionStop, regionElse?, hOpens, hLine]
  · cases hClosed
    simp [finish, regionStop, hOpens, hLine]
  · cases hClosed

end MacroDecl

namespace TableBuilder

/-
  Change the waiting entries, each by what is given for the
  number of regions inside it.
-/
def changeWaiting
    (change : Nat → MacroDecl → MacroDecl) :
    List Nat → MacroTable → MacroTable
| [], entries => entries
| index :: waiting, entries =>
    changeWaiting (fun depth => change (depth + 1)) waiting
      (entries.modify index (change 0))

/- The entries with the ends that the lines to come give. -/
def finished
    (builder : TableBuilder)
    (offset : Nat)
    (rest : List Instruction) : MacroTable :=
  changeWaiting (MacroDecl.finish offset rest) builder.waiting
    builder.entries

/- Changing an entry that is there. -/
theorem modify_eq_set_of_getElem?
    {entries : MacroTable}
    {index : Nat}
    {entry : MacroDecl}
    (hEntry : entries[index]? = some entry)
    (change : MacroDecl → MacroDecl) :
    entries.modify index change =
      entries.set index (change entry) := by
  rcases List.getElem?_eq_some_iff.mp hEntry with
    ⟨hIndex, rfl⟩
  apply List.ext_getElem?
  intro other
  rw [List.getElem?_modify, List.getElem?_set]
  by_cases hOther : index = other
  · subst hOther
    simp [hIndex]
  · simp [hOther]

/- Changing an entry in front of others. -/
theorem modify_append
    {entries : MacroTable}
    {index : Nat}
    (hIndex : index < entries.length)
    (change : MacroDecl → MacroDecl)
    (more : MacroTable) :
    (entries ++ more).modify index change =
      entries.modify index change ++ more := by
  have hEntry := List.getElem?_eq_getElem hIndex
  rw [modify_eq_set_of_getElem? hEntry,
    modify_eq_set_of_getElem? (List.getElem?_append_left hIndex
      |>.trans hEntry), List.set_append_left _ _ hIndex]

/- Complete entries behind the waiting ones stay. -/
theorem changeWaiting_append
    {waiting : List Nat}
    {entries : MacroTable}
    (change : Nat → MacroDecl → MacroDecl)
    (hWaiting : ∀ index ∈ waiting, index < entries.length)
    (more : MacroTable) :
    changeWaiting change waiting (entries ++ more) =
      changeWaiting change waiting entries ++ more := by
  induction waiting generalizing change entries with
  | nil => rfl
  | cons index waiting ih =>
      have hIndex := hWaiting index List.mem_cons_self
      rw [changeWaiting, changeWaiting,
        modify_append hIndex (change 0) more]
      apply ih
      intro other hOther
      rw [List.length_modify]
      exact hWaiting other (List.mem_cons_of_mem index hOther)

end TableBuilder

end MmixAsm

------------------------------------------------------------
-- Builders Follow Surveys
------------------------------------------------------------

namespace MmixAsm

namespace MacroDecl

/- The kind of region that an entry waits to be closed as. -/
def opening? :
    MacroDecl → Option Opening
| .ifDefined _ _ _ => some .definedness
| .ifCondition _ _ none => some (.condition false)
| .ifCondition _ _ (some _) => some (.condition true)
| _ => none

/- Dividing is possible in the first part of an IF. -/
theorem divided?_of_opening?
    {entry : MacroDecl}
    {opening : Opening}
    (hOpening : entry.opening? = some opening)
    (offset : Nat) :
    (opening = .condition false ∧
      ∃ divided, entry.divided? offset = some divided ∧
        divided.opening? = some (.condition true) ∧
        divided.definedName? = none) ∨
    (opening ≠ .condition false ∧
      entry.divided? offset = none) := by
  unfold opening? at hOpening
  split at hOpening
  · cases hOpening
    exact Or.inr ⟨by simp, rfl⟩
  · cases hOpening
    exact Or.inl ⟨rfl, _, rfl, rfl, rfl⟩
  · cases hOpening
    exact Or.inr ⟨by simp, rfl⟩
  · cases hOpening

/- Closing is possible at every region. -/
theorem closed?_of_opening?
    {entry : MacroDecl}
    {opening : Opening}
    (hOpening : entry.opening? = some opening)
    (offset : Nat) :
    ∃ closed, entry.closed? offset = some closed ∧
      closed.opening? = some opening ∧
      closed.definedName? = none := by
  unfold opening? at hOpening
  split at hOpening
  · cases hOpening
    exact ⟨_, rfl, rfl, rfl⟩
  · cases hOpening
    exact ⟨_, rfl, rfl, rfl⟩
  · cases hOpening
    exact ⟨_, rfl, rfl, rfl⟩
  · cases hOpening

/- A region defines no name. -/
theorem definedName?_of_opening?
    {entry : MacroDecl}
    {opening : Opening}
    (hOpening : entry.opening? = some opening) :
    entry.definedName? = none := by
  cases entry with
  | ifDefined wanted name region => rfl
  | ifCondition condition part other => rfl
  | template template => cases hOpening
  | site site => cases hOpening
  | inclusion file offset => cases hOpening
  | constant name value => cases hOpening

end MacroDecl

namespace MacroTable

theorem defines_eq_any
    (table : MacroTable)
    (name : String) :
    table.defines name =
      table.any (fun entry =>
        entry.definedName? == some name) := by
  unfold MacroTable.defines MacroTable.entry?
  rw [Bool.eq_iff_iff, List.find?_isSome, List.any_eq_true]

/- What one more entry defines. -/
theorem defines_append_singleton
    (table : MacroTable)
    (entry : MacroDecl)
    (name : String) :
    MacroTable.defines (table ++ [entry]) name =
      (table.defines name ||
        entry.definedName? == some name) := by
  rw [defines_eq_any, defines_eq_any, List.any_append,
    List.any_cons, List.any_nil, Bool.or_false]

/- Changing an entry that defines no name. -/
theorem defines_set
    {table : MacroTable}
    {index : Nat}
    {entry other : MacroDecl}
    (hEntry : table[index]? = some entry)
    (hName : entry.definedName? = none)
    (hOther : other.definedName? = none)
    (name : String) :
    MacroTable.defines (table.set index other) name =
      table.defines name := by
  rw [defines_eq_any, defines_eq_any]
  induction table generalizing index with
  | nil => rfl
  | cons first table ih =>
      cases index with
      | zero =>
          cases hEntry
          simp [hName, hOther]
      | succ index =>
          rw [List.getElem?_cons_succ] at hEntry
          rw [List.set_cons_succ, List.any_cons, List.any_cons,
            ih hEntry]

end MacroTable

namespace TableBuilder

/-
  The builder has defined the names of the survey, and its
  waiting entries are the regions that are open there.
-/
structure Follows
    (builder : TableBuilder)
    (survey : Survey) : Prop where
  names : ∀ name,
    survey.names.contains name = builder.entries.defines name
  openings :
    builder.waiting.map (fun index =>
        builder.entries[index]?.bind MacroDecl.opening?) =
      survey.openings.map some
  distinct : builder.waiting.Nodup

namespace Follows

variable {builder : TableBuilder}
variable {survey : Survey}

theorem start_start : Follows start Survey.start :=
  ⟨fun _ => rfl, rfl, List.nodup_nil⟩

/- Every waiting position holds an entry. -/
theorem waiting_lt
    (h : Follows builder survey) :
    ∀ index ∈ builder.waiting,
      index < builder.entries.length := by
  intro index hIndex
  have hMem :
      builder.entries[index]?.bind MacroDecl.opening? ∈
        survey.openings.map some := by
    rw [← h.openings]
    exact List.mem_map_of_mem hIndex
  rcases List.mem_map.mp hMem with ⟨opening, -, hSome⟩
  rcases Option.bind_eq_some_iff.mp hSome.symm with
    ⟨entry, hEntry, -⟩
  exact (List.getElem?_eq_some_iff.mp hEntry).1

/- The innermost waiting entry is the innermost region. -/
theorem head
    (h : Follows builder survey)
    {opening : Opening}
    {rest : List Opening}
    (hOpenings : survey.openings = opening :: rest) :
    ∃ index waiting entry,
      builder.waiting = index :: waiting ∧
        builder.entries[index]? = some entry ∧
        entry.opening? = some opening ∧
        waiting.map (fun index =>
            builder.entries[index]?.bind MacroDecl.opening?) =
          rest.map some := by
  have hMap := h.openings
  rw [hOpenings] at hMap
  cases hWaiting : builder.waiting with
  | nil =>
      rw [hWaiting] at hMap
      cases hMap
  | cons index waiting =>
      rw [hWaiting, List.map_cons, List.map_cons,
        List.cons.injEq] at hMap
      rcases Option.bind_eq_some_iff.mp hMap.1 with
        ⟨entry, hEntry, hOpening⟩
      exact ⟨index, waiting, entry, rfl, hEntry, hOpening,
        hMap.2⟩

/- No region is waiting if none is open. -/
theorem waiting_eq_nil
    (h : Follows builder survey) :
    builder.waiting = [] ↔ survey.openings = [] := by
  have hLength := congrArg List.length h.openings
  rw [List.length_map, List.length_map] at hLength
  rw [← List.length_eq_zero_iff, hLength,
    List.length_eq_zero_iff]

/- Entries behind the waiting ones leave them alone. -/
theorem openings_append
    (h : Follows builder survey)
    (entry : MacroDecl) :
    builder.waiting.map (fun index =>
        (builder.entries ++ [entry])[index]?.bind
          MacroDecl.opening?) =
      survey.openings.map some := by
  rw [← h.openings]
  apply List.map_congr_left
  intro index hIndex
  rw [List.getElem?_append_left (h.waiting_lt index hIndex)]

/- Entering something that defines no name. -/
theorem enter
    (h : Follows builder survey)
    {entry : MacroDecl}
    (hName : entry.definedName? = none) :
    Follows (builder.enter entry) survey := by
  refine ⟨?_, h.openings_append entry, h.distinct⟩
  intro name
  have hDefines := MacroTable.defines_append_singleton
    builder.entries entry name
  rw [hName] at hDefines
  rw [h.names name]
  exact (hDefines.trans (Bool.or_false _)).symm

/- Entering something under a name. -/
theorem enter_named
    (h : Follows builder survey)
    {entry : MacroDecl}
    {name : String}
    (hName : entry.definedName? = some name) :
    Follows (builder.enter entry)
      { survey with names := name :: survey.names } := by
  refine ⟨?_, h.openings_append entry, h.distinct⟩
  intro other
  have hDefines := MacroTable.defines_append_singleton
    builder.entries entry other
  rw [hName] at hDefines
  have hSame : (other == name) = (some name == some other) := by
    rw [Bool.eq_iff_iff, beq_iff_eq, beq_iff_eq,
      Option.some.injEq]
    exact eq_comm
  calc
    List.contains (name :: survey.names) other =
        (builder.entries.defines other ||
          some name == some other) := by
      rw [List.contains_cons, h.names other, hSame,
        Bool.or_comm]
    _ = (builder.enter entry).entries.defines other :=
      hDefines.symm

/- Entering a region opens it. -/
theorem enterRegion
    (h : Follows builder survey)
    {entry : MacroDecl}
    {opening : Opening}
    (hOpening : entry.opening? = some opening) :
    Follows (builder.enterRegion entry)
      (survey.push opening) := by
  have hEntered :=
    h.enter (MacroDecl.definedName?_of_opening? hOpening)
  refine ⟨hEntered.names, ?_, ?_⟩
  · have hLast : (builder.entries ++ [entry])[
        builder.entries.length]? = some entry := by
      simp
    simp only [TableBuilder.enterRegion, Survey.push,
      List.map_cons, hLast, Option.bind_some, hOpening]
    exact congrArg (some opening :: ·) hEntered.openings
  · refine List.nodup_cons.mpr ⟨?_, h.distinct⟩
    intro hMem
    exact Nat.lt_irrefl _ (h.waiting_lt _ hMem)

/- Changing the innermost waiting entry. -/
theorem set_head
    (h : Follows builder survey)
    {index : Nat}
    {waiting : List Nat}
    {entry changed : MacroDecl}
    {opening : Opening}
    (hWaiting : builder.waiting = index :: waiting)
    (hEntry : builder.entries[index]? = some entry)
    (hOpening : entry.opening? = some opening)
    (hName : changed.definedName? = none) :
    (∀ name,
      survey.names.contains name =
        MacroTable.defines
          (builder.entries.set index changed) name) ∧
      waiting.map (fun other =>
          (builder.entries.set index changed)[other]?.bind
            MacroDecl.opening?) =
        waiting.map (fun other =>
          builder.entries[other]?.bind MacroDecl.opening?) := by
  constructor
  · intro name
    rw [MacroTable.defines_set hEntry
      (MacroDecl.definedName?_of_opening? hOpening) hName]
    exact h.names name
  · have hDistinct := h.distinct
    rw [hWaiting, List.nodup_cons] at hDistinct
    apply List.map_congr_left
    intro other hOther
    have hNe : index ≠ other := by
      rintro rfl
      exact hDistinct.1 hOther
    rw [List.getElem?_set_ne hNe]

end Follows

end TableBuilder

end MmixAsm

------------------------------------------------------------
-- One Line
------------------------------------------------------------

namespace MmixAsm

namespace TableBuilder

/-
  Reading a line keeps the table that the builder ends with:
  its entries, finished by the lines to come, and the entries
  of these lines.
-/
def Advances
    (offset : Nat)
    (line : Instruction)
    (before after : TableBuilder) : Prop :=
  ∀ rest,
    before.finished offset (line :: rest)
        ++ MacroTable.ofLinesFrom offset (line :: rest) =
      after.finished (offset + 1) rest
        ++ MacroTable.ofLinesFrom (offset + 1) rest

/- The builder and the survey read a line alike. -/
inductive StepAgrees
    (offset : Nat)
    (line : Instruction)
    (before : TableBuilder) :
    Except MacroError Survey →
      Except BuildFault TableBuilder → Prop where
  | fails
      (e : MacroError) :
      StepAgrees offset line before (.error e)
        (.error (.rejected e))
  | passes
      {survey : Survey}
      {after : TableBuilder}
      (hFollows : Follows after survey)
      (hAdvances : Advances offset line before after) :
      StepAgrees offset line before (.ok survey) (.ok after)

variable {builder : TableBuilder}
variable {survey : Survey}
variable {offset : Nat}
variable {line : Instruction}

/- A line without an entry. -/
theorem advances_silent
    (hLine : line.isBracket = false)
    (hEntry : ∀ rest, MacroTable.ofLine offset line rest = []) :
    Advances offset line builder builder := by
  intro rest
  rw [MacroTable.ofLinesFrom_cons, hEntry, List.nil_append,
    finished, MacroDecl.finish_plain hLine]
  rfl

/- A line with an entry that is complete. -/
theorem advances_enter
    (h : Follows builder survey)
    {entry : MacroDecl}
    (hLine : line.isBracket = false)
    (hEntry : ∀ rest,
      MacroTable.ofLine offset line rest = [entry]) :
    Advances offset line builder (builder.enter entry) := by
  intro rest
  rw [MacroTable.ofLinesFrom_cons, hEntry, finished, finished,
    MacroDecl.finish_plain hLine, enter,
    changeWaiting_append _ h.waiting_lt, List.append_assoc]

/- A line that opens a region. -/
theorem advances_enterRegion
    (h : Follows builder survey)
    {entry : MacroDecl}
    (hLine : line.opensRegion = true)
    (hEntry : ∀ rest,
      MacroTable.ofLine offset line rest =
        [entry.finish (offset + 1) rest 0]) :
    Advances offset line builder (builder.enterRegion entry) := by
  intro rest
  have hModify :
      (builder.entries ++ [entry]).modify builder.entries.length
          (MacroDecl.finish (offset + 1) rest 0) =
        builder.entries
          ++ [entry.finish (offset + 1) rest 0] := by
    have hLast : (builder.entries ++ [entry])[
        builder.entries.length]? = some entry := by
      simp
    rw [modify_eq_set_of_getElem? hLast]
    simp
  rw [MacroTable.ofLinesFrom_cons, hEntry, finished, finished,
    MacroDecl.finish_opener hLine, enterRegion, changeWaiting,
    hModify, changeWaiting_append _ h.waiting_lt,
    List.append_assoc]

/- ELSE keeps the table, its region being divided. -/
theorem advances_divide
    {index : Nat}
    {waiting : List Nat}
    {entry divided : MacroDecl}
    (hLine : line.macroKind? = some .otherwise)
    (hWaiting : builder.waiting = index :: waiting)
    (hEntry : builder.entries[index]? = some entry)
    (hDivided : entry.divided? offset = some divided) :
    Advances offset line builder
      { builder with
        entries := builder.entries.set index divided } := by
  intro rest
  have hIndex := (List.getElem?_eq_some_iff.mp hEntry).1
  have hChanged :
      (builder.entries.set index divided)[index]? =
        some divided :=
    List.getElem?_set_self hIndex
  have hDeeper :
      (fun depth =>
          MacroDecl.finish offset (line :: rest) (depth + 1)) =
        fun depth =>
          MacroDecl.finish (offset + 1) rest (depth + 1) := by
    funext depth
    exact MacroDecl.finish_divider hLine offset rest depth
  simp only [finished, hWaiting, changeWaiting]
  rw [MacroTable.ofLinesFrom_cons,
    MacroTable.ofLine_of_otherwise hLine, List.nil_append,
    hDeeper, modify_eq_set_of_getElem? hEntry,
    modify_eq_set_of_getElem? hChanged, List.set_set,
    MacroDecl.finish_divided hLine hDivided]

/- ENDIF keeps the table, its region being closed. -/
theorem advances_close
    {index : Nat}
    {waiting : List Nat}
    {entry closed : MacroDecl}
    (hLine : line.macroKind? = some .endIf)
    (hWaiting : builder.waiting = index :: waiting)
    (hEntry : builder.entries[index]? = some entry)
    (hClosed : entry.closed? offset = some closed) :
    Advances offset line builder
      ⟨builder.entries.set index closed, waiting⟩ := by
  intro rest
  have hDeeper :
      (fun depth =>
          MacroDecl.finish offset (line :: rest) (depth + 1)) =
        MacroDecl.finish (offset + 1) rest := by
    funext depth
    exact MacroDecl.finish_closer hLine offset rest depth
  simp only [finished, hWaiting, changeWaiting]
  rw [MacroTable.ofLinesFrom_cons,
    MacroTable.ofLine_of_endIf hLine, List.nil_append,
    hDeeper, modify_eq_set_of_getElem? hEntry,
    MacroDecl.finish_closed hLine hClosed]

/- ELSE divides the region that is waiting. -/
theorem stepAgrees_divide
    (h : Follows builder survey)
    (file : String)
    (hLine : line.macroKind? = some .otherwise) :
    StepAgrees offset line builder (survey.turn file)
      (builder.divide file offset) := by
  unfold Survey.turn divide
  cases hOpenings : survey.openings with
  | nil =>
      rw [h.waiting_eq_nil.mpr hOpenings]
      exact .fails _
  | cons opening rest =>
      rcases h.head hOpenings with
        ⟨index, waiting, entry, hWaiting, hEntry, hOpening,
          hRest⟩
      simp only [hWaiting, List.head?_cons, Option.bind_some,
        hEntry, Option.map_some]
      rcases MacroDecl.divided?_of_opening? hOpening offset with
        ⟨rfl, divided, hDivided, hTurned, hName⟩ |
        ⟨hOther, hDivided⟩
      · have hSet := h.set_head hWaiting hEntry hOpening hName
        have hIndex := (List.getElem?_eq_some_iff.mp hEntry).1
        rw [hDivided]
        refine .passes ⟨hSet.1, ?_, hWaiting ▸ h.distinct⟩ ?_
        · simp only [List.map_cons,
            List.getElem?_set_self hIndex, Option.bind_some,
            hTurned, hSet.2, hRest]
        · exact hWaiting ▸ advances_divide hLine hWaiting
            hEntry hDivided
      · rw [hDivided]
        cases opening with
        | definedness => exact .fails _
        | condition elseSeen =>
            cases elseSeen with
            | false => exact absurd rfl hOther
            | true => exact .fails _

/- ENDIF closes the region that is waiting. -/
theorem stepAgrees_close
    (h : Follows builder survey)
    (file : String)
    (hLine : line.macroKind? = some .endIf) :
    StepAgrees offset line builder (survey.pop file)
      (builder.close file offset) := by
  unfold Survey.pop close
  cases hOpenings : survey.openings with
  | nil =>
      rw [h.waiting_eq_nil.mpr hOpenings]
      exact .fails _
  | cons opening rest =>
      rcases h.head hOpenings with
        ⟨index, waiting, entry, hWaiting, hEntry, hOpening,
          hRest⟩
      rcases MacroDecl.closed?_of_opening? hOpening offset with
        ⟨closed, hClosed, -, hName⟩
      have hSet := h.set_head hWaiting hEntry hOpening hName
      have hDistinct := h.distinct
      rw [hWaiting, List.nodup_cons] at hDistinct
      simp only [hWaiting, List.head?_cons, Option.bind_some,
        hEntry, Option.map_some, hClosed, List.tail_cons]
      exact .passes
        ⟨hSet.1, hSet.2.trans hRest, hDistinct.2⟩
        (advances_close hLine hWaiting hEntry hClosed)

/- A definition is entered under a name that is new. -/
theorem stepAgrees_enterNamed
    (h : Follows builder survey)
    (file : String)
    {name : String}
    {entry : MacroDecl}
    (hName : entry.definedName? = some name)
    (hLine : line.isBracket = false)
    (hEntry : ∀ rest,
      MacroTable.ofLine offset line rest = [entry]) :
    StepAgrees offset line builder (survey.define file name)
      (builder.enterNamed file name entry) := by
  unfold Survey.define enterNamed
  rw [h.names name]
  split
  · exact .fails _
  · exact .passes (h.enter_named hName)
      (advances_enter h hLine hEntry)

/- The builder reads every line as the survey does. -/
theorem stepAgrees
    (h : Follows builder survey)
    (file : String)
    (offset : Nat)
    (line : Instruction) :
    StepAgrees offset line builder (Survey.step file survey line)
      (builder.step file offset line) := by
  unfold Survey.step step
  cases hMacro : line.macroLine? with
  | none =>
      have hLine :=
        Instruction.isBracket_eq_false_of_macroLine? hMacro
      exact .passes h (advances_silent hLine
        fun rest => by simp [MacroTable.ofLine, hMacro])
  | some content =>
      rcases content with ⟨label, keyword, parameters⟩
      have hKind : line.macroKind? = some keyword := by
        simp [Instruction.macroKind?, hMacro]
      have hEntry : ∀ rest,
          MacroTable.ofLine offset line rest =
            (MacroDecl.ofLine? ⟨label, keyword, parameters⟩
              line.macroBody? offset rest).toList := by
        intro rest
        rw [MacroTable.ofLine, hMacro, Option.bind_some]
      cases keyword with
      | definition =>
          have hLine :=
            Instruction.isBracket_eq_false_of_kind hKind
              (by simp)
          cases label with
          | none => exact .fails _
          | some name =>
              cases hBody : line.macroBody? with
              | none => exact .fails _
              | some body =>
                  rw [hBody] at hEntry
                  exact stepAgrees_enterNamed h file rfl hLine
                    hEntry
      | constant =>
          have hLine :=
            Instruction.isBracket_eq_false_of_kind hKind
              (by simp)
          simp only [Survey.readMacro, readMacro]
          simp only [MacroDecl.ofLine?] at hEntry
          cases hConstant : constantOf?
              ⟨label, .constant, parameters⟩ with
          | none => exact .fails _
          | some pair =>
              rw [hConstant] at hEntry
              exact stepAgrees_enterNamed h file rfl hLine
                hEntry
      | otherwise => exact stepAgrees_divide h file hKind
      | endIf => exact stepAgrees_close h file hKind
      | inclusion =>
          have hLine :=
            Instruction.isBracket_eq_false_of_kind hKind
              (by simp)
          cases parameters with
          | nil => exact .fails _
          | cons name others =>
              exact .passes (h.enter rfl)
                (advances_enter h hLine hEntry)
      | application =>
          have hLine :=
            Instruction.isBracket_eq_false_of_kind hKind
              (by simp)
          cases parameters with
          | nil => exact .fails _
          | cons name others =>
              exact .passes (h.enter rfl)
                (advances_enter h hLine hEntry)
      | ifDefined =>
          have hLine :=
            Instruction.opensRegion_of_kind hKind (by simp)
          cases parameters with
          | nil => exact .fails _
          | cons name others =>
              exact .passes (h.enterRegion rfl)
                (advances_enterRegion h hLine hEntry)
      | ifUndefined =>
          have hLine :=
            Instruction.opensRegion_of_kind hKind (by simp)
          cases parameters with
          | nil => exact .fails _
          | cons name others =>
              exact .passes (h.enterRegion rfl)
                (advances_enterRegion h hLine hEntry)
      | ifCondition =>
          have hLine :=
            Instruction.opensRegion_of_kind hKind (by simp)
          cases parameters with
          | nil => exact .fails _
          | cons condition others =>
              refine .passes (h.enterRegion rfl)
                (advances_enterRegion h hLine ?_)
              intro rest
              rw [hEntry rest]
              simp only [MacroDecl.ofLine?, conditionEntry,
                MacroDecl.finish]
              cases regionElse? 0 (offset + 1) rest <;> rfl

end TableBuilder

end MmixAsm

------------------------------------------------------------
-- Whole Files
------------------------------------------------------------

namespace MmixAsm

namespace TableBuilder

/- The builder reads lines as the survey does. -/
theorem run_agrees
    {builder : TableBuilder}
    {survey : Survey}
    (h : Follows builder survey)
    (file : String)
    (offset : Nat)
    (lines : List Instruction) :
    (∃ e,
      lines.foldlM (Survey.step file) survey = .error e ∧
        builder.run file offset lines =
          .error (.rejected e)) ∨
    (∃ last after,
      lines.foldlM (Survey.step file) survey = .ok last ∧
        builder.run file offset lines = .ok after ∧
        Follows after last ∧
        builder.finished offset lines
            ++ MacroTable.ofLinesFrom offset lines =
          after.finished (offset + lines.length) []) := by
  induction lines generalizing builder survey offset with
  | nil =>
      exact Or.inr ⟨survey, builder, rfl, rfl, h, by simp⟩
  | cons line rest ih =>
      have hStep := stepAgrees h file offset line
      rw [List.foldlM_cons, run]
      generalize hSurvey : Survey.step file survey line =
        surveyed at hStep
      generalize hBuilder : builder.step file offset line =
        built at hStep
      cases hStep with
      | fails e => exact Or.inl ⟨e, rfl, rfl⟩
      | @passes next after hFollows hAdvances =>
          rcases ih hFollows (offset + 1) with
            ⟨e, hFold, hRun⟩ |
            ⟨last, final, hFold, hRun, hLast, hFinished⟩
          · exact Or.inl ⟨e, hFold, hRun⟩
          · refine Or.inr
              ⟨last, final, hFold, hRun, hLast, ?_⟩
            rw [hAdvances rest, hFinished, List.length_cons,
              Nat.add_right_comm, Nat.add_assoc]

/- The builder gives the table that looking ahead gives. -/
theorem tableOf_eq
    (file : String)
    (lines : List Instruction) :
    tableOf file lines =
      match Survey.ofLines file lines with
      | .error e => .error (.rejected e)
      | .ok _ => .ok (MacroTable.ofLines lines) := by
  unfold tableOf Survey.ofLines
  rcases run_agrees Follows.start_start file 0 lines with
    ⟨e, hFold, hRun⟩ |
    ⟨last, after, hFold, hRun, hLast, hFinished⟩
  · rw [hFold, hRun]
  · rw [hFold, hRun]
    by_cases hOpen : last.openings = []
    · -- Nothing is waiting, so the entries are finished.
      have hWaiting := hLast.waiting_eq_nil.mpr hOpen
      have hEntries :
          MacroTable.ofLinesFrom 0 lines = after.entries := by
        simpa [finished, start, hWaiting, changeWaiting]
          using hFinished
      simp [hOpen, hWaiting, MacroTable.ofLines, hEntries]
    · have hWaiting : after.waiting ≠ [] :=
        fun h => hOpen (hLast.waiting_eq_nil.mp h)
      simp [hOpen, hWaiting]

end TableBuilder

/- Building in one pass gives the unit of the file. -/
theorem SourceUnit.build_eq_ofFile
    (file : SourceFile) :
    SourceUnit.build file =
      (SourceUnit.ofFile file).mapError .rejected := by
  unfold SourceUnit.build SourceUnit.ofFile
  rw [TableBuilder.tableOf_eq]
  cases Survey.ofLines file.name file.instructions with
  | error e => rfl
  | ok survey => rfl

end MmixAsm
