import MmixAsm.Proofs.SlotChanges

/-
  Selection and expansion done twice.

  A unit is settled at an entry if deciding the entry changes
  nothing.  Selection settles every entry that it decides, and
  a settled entry stays settled when more slots are dropped:
  either its own line is dropped too, so that it is not looked
  at again, or it is answered as before and its region is
  dropped already.  Expansion keeps the sites that are live
  and writes the same instructions again.

  Key definitions include:
    * `MmixAsm.Library.Settled`

  Key theorems include:
    * `MmixAsm.Library.settled_of_selectEntry`
    * `MmixAsm.Library.Settled.of_dropsTo`
    * `MmixAsm.Library.settled_of_selectEntries`
    * `MmixAsm.Library.expandUnit_of_expandUnit`
    * `MmixAsm.Library.passes_idempotent`
-/

------------------------------------------------------------
-- Settled Entries
------------------------------------------------------------

namespace MmixAsm

namespace SourceUnit

/- Dropping a region changes nothing just if it is dropped. -/
theorem dropRegion_eq_self_iff
    {unit : SourceUnit}
    {region : Region} :
    unit.dropRegion region = unit ↔
      ∀ offset slot, region.start ≤ offset →
        offset < region.stop →
        unit.slots[offset]? = some slot → slot = .dropped := by
  constructor
  · intro hSame offset slot hStart hStop hSlot
    have hNow := unit.getElem?_dropRegion region offset
    rw [hSame, hSlot, Option.map_some,
      if_pos ⟨hStart, hStop⟩] at hNow
    exact Option.some.inj hNow
  · intro hDropped
    have hSlots : (unit.dropRegion region).slots =
        unit.slots := by
      apply List.ext_getElem?
      intro offset
      rw [getElem?_dropRegion]
      cases hSlot : unit.slots[offset]? with
      | none => rfl
      | some slot =>
          rw [Option.map_some]
          split
          · rename_i hIn
            rw [hDropped offset slot hIn.1 hIn.2 hSlot]
          · rfl
    exact congrArg (SourceUnit.mk · unit.table) hSlots

/- A region that is dropped stays dropped. -/
theorem DropsTo.dropRegion_eq_self
    {before after : SourceUnit}
    (h : before.DropsTo after)
    {region : Region}
    (hBefore : before.dropRegion region = before) :
    after.dropRegion region = after := by
  rw [dropRegion_eq_self_iff] at hBefore ⊢
  intro offset slot hStart hStop hSlot
  rcases h.slots offset with hSame | hDropped
  · exact hBefore offset slot hStart hStop
      (hSame.symm.trans hSlot)
  · rw [hDropped] at hSlot
    exact (Option.some.inj hSlot).symm

theorem dropRegion_dropRegion
    (unit : SourceUnit)
    (region : Region) :
    (unit.dropRegion region).dropRegion region =
      unit.dropRegion region := by
  rw [dropRegion_eq_self_iff]
  intro offset slot hStart hStop hSlot
  rw [getElem?_dropRegion] at hSlot
  rcases Option.map_eq_some_iff.mp hSlot with ⟨old, -, hNow⟩
  rw [if_pos ⟨hStart, hStop⟩] at hNow
  exact hNow.symm

end SourceUnit

namespace Library

/- Deciding the entry leaves the unit as it is. -/
def Settled
    (library : Library)
    (file : String)
    (unit : SourceUnit)
    (entry : MacroDecl) : Prop :=
  library.selectEntry file unit entry = .ok unit

variable {library : Library}
variable {file : String}

/-
  With more slots dropped an entry is passed over, or it has
  the answer that it had before.
-/
theorem dropped?_of_dropsTo
    {before after : SourceUnit}
    (h : before.DropsTo after)
    (entry : MacroDecl) :
    library.dropped? file after entry = .ok none ∨
      library.dropped? file after entry =
        library.dropped? file before entry := by
  have hOffset : ∀ offset,
      after.isDropped offset = true ∨
        after.isDropped offset = before.isDropped offset := by
    intro offset
    cases hBefore : before.isDropped offset with
    | true => exact .inl (h.isDropped hBefore)
    | false =>
        cases after.isDropped offset with
        | true => exact .inl rfl
        | false => exact .inr rfl
  cases entry with
  | ifDefined wanted name region =>
      rcases hOffset region.start with hDropped | hSame
      · exact .inl (by simp only [dropped?, hDropped, if_true])
      · exact .inr (by simp only [dropped?, hSame, h.table])
  | ifCondition condition thenPart elsePart =>
      rcases hOffset thenPart.start with hDropped | hSame
      · exact .inl (by simp only [dropped?, hDropped, if_true])
      · exact .inr (by simp only [dropped?, hSame, h.table])
  | _ => exact .inl rfl

theorem settled_of_dropped?_none
    {unit : SourceUnit}
    {entry : MacroDecl}
    (h : library.dropped? file unit entry = .ok none) :
    library.Settled file unit entry := by
  rw [Settled, selectEntry, h]

/- Deciding an entry settles it. -/
theorem settled_of_selectEntry
    {unit next : SourceUnit}
    {entry : MacroDecl}
    (h : library.selectEntry file unit entry = .ok next) :
    library.Settled file next entry := by
  rcases dropped?_of_dropsTo (dropsTo_of_selectEntry h) entry
    with hNone | hSame
  · exact settled_of_dropped?_none hNone
  · rcases selectEntry_cases h with
      ⟨-, rfl⟩ | ⟨region, hRegion, rfl⟩
    · exact h
    · rw [Settled, selectEntry, hSame, hRegion]
      exact congrArg Except.ok
        (unit.dropRegion_dropRegion region)

/- A settled entry stays settled. -/
theorem Settled.of_dropsTo
    {before after : SourceUnit}
    {entry : MacroDecl}
    (hSettled : library.Settled file before entry)
    (h : before.DropsTo after) :
    library.Settled file after entry := by
  rcases dropped?_of_dropsTo h entry with hNone | hSame
  · exact settled_of_dropped?_none hNone
  · rcases selectEntry_cases hSettled with
      ⟨hNone, -⟩ | ⟨region, hRegion, hBefore⟩
    · exact settled_of_dropped?_none (hSame.trans hNone)
    · rw [Settled, selectEntry, hSame, hRegion]
      exact congrArg Except.ok
        (h.dropRegion_eq_self hBefore.symm)

/- A run that succeeds settles all its entries. -/
theorem settled_of_selectEntries
    {unit final : SourceUnit}
    {entries : List MacroDecl}
    (h :
      library.selectEntries file unit entries =
        (final, none)) :
    ∀ entry ∈ entries, library.Settled file final entry := by
  induction entries generalizing unit with
  | nil => simp
  | cons entry rest ih =>
      unfold selectEntries at h
      cases hNext : library.selectEntry file unit entry with
      | error e =>
          rw [hNext] at h
          cases h
      | ok next =>
          simp only [hNext] at h
          have hDrops :=
            library.dropsTo_selectEntries file next rest
          rw [h] at hDrops
          exact List.forall_mem_cons.mpr
            ⟨(settled_of_selectEntry hNext).of_dropsTo hDrops,
              ih h⟩

/- A unit that is settled everywhere is not changed. -/
theorem selectEntries_of_settled
    {unit : SourceUnit}
    {entries : List MacroDecl}
    (h : ∀ entry ∈ entries, library.Settled file unit entry) :
    library.selectEntries file unit entries =
      (unit, none) := by
  induction entries with
  | nil => rfl
  | cons entry rest ih =>
      rcases List.forall_mem_cons.mp h with ⟨hEntry, hRest⟩
      rw [selectEntries, hEntry]
      exact ih hRest

theorem selectUnit_of_selectUnit
    {unit next : SourceUnit}
    (h : library.selectUnit file unit = (next, none)) :
    library.selectUnit file next = (next, none) := by
  have hTable := library.table_selectEntries file unit
    unit.table
  rw [selectUnit] at h
  rw [h] at hTable
  rw [selectUnit, hTable]
  exact selectEntries_of_settled (settled_of_selectEntries h)

end Library

end MmixAsm

------------------------------------------------------------
-- Settled Sites
------------------------------------------------------------

namespace MmixAsm

namespace SourceUnit

/- Filling the slots of live sites drops none of them. -/
theorem FillsTo.isDropped
    {before after : SourceUnit}
    (h : before.FillsTo after)
    (offset : Nat) :
    after.isDropped offset = before.isDropped offset := by
  by_cases hLive :
      ∃ site ∈ before.liveSites, site.offset = offset
  · rcases hLive with ⟨site, hSite, rfl⟩
    have hBefore := (List.mem_filter.mp hSite).2
    rw [Bool.not_eq_true'] at hBefore
    rw [hBefore, SourceUnit.isDropped]
    cases hSlot : after.slots[site.offset]? with
    | none => rfl
    | some slot =>
        rcases h.filled site hSite slot hSlot with
          ⟨instruction, rfl⟩
        rfl
  · unfold SourceUnit.isDropped
    rw [h.elsewhere offset fun site hSite hOffset =>
      hLive ⟨site, hSite, hOffset⟩]

theorem FillsTo.liveSites
    {before after : SourceUnit}
    (h : before.FillsTo after) :
    after.liveSites = before.liveSites := by
  unfold SourceUnit.liveSites
  simp only [h.table, h.isDropped]

end SourceUnit

namespace Library

variable {library : Library}
variable {file : String}

/- The same instructions are written a second time. -/
theorem expandUnit_of_expandUnit
    {unit next : SourceUnit}
    (h : library.expandUnit file unit = .ok next) :
    library.expandUnit file next = .ok next := by
  have hFills := fillsTo_of_expandUnit h
  have hSame : library.expansions file next =
      library.expansions file unit := by
    unfold expansions
    rw [hFills.liveSites, hFills.table]
  rcases exists_of_map_eq_ok h with
    ⟨instructions, hInstructions, rfl⟩
  rw [expandUnit, hSame, hInstructions]
  simp only [Except.map, fillSlots_fillSlots]

end Library

end MmixAsm

------------------------------------------------------------
-- Settled Libraries
------------------------------------------------------------

namespace MmixAsm

namespace Library

variable {library next : Library}

theorem selectUnits_of_selectUnit
    {units : List (String × SourceUnit)}
    (h : ∀ entry ∈ units,
      library.selectUnit entry.1 entry.2 = (entry.2, none)) :
    library.selectUnits units = (units, none) := by
  induction units with
  | nil => rfl
  | cons entry rest ih =>
      rcases entry with ⟨file, unit⟩
      rcases List.forall_mem_cons.mp h with ⟨hEntry, hRest⟩
      simp only [selectUnits, hEntry, ih hRest]

/- The same tables select the same lines. -/
theorem selectUnit_congr
    {left right : Library}
    (h : left.SameTables right)
    (file : String)
    (unit : SourceUnit) :
    left.selectUnit file unit = right.selectUnit file unit :=
  selectEntries_congr (answer_congr h unit.table) file
    unit.table

theorem selected_of_selected
    (h : library.selected = .ok next) :
    next.selectParts = (next, none) := by
  have hTables := sameTables_of_selected h
  rcases units_of_selected h with ⟨hUnits, hNone⟩
  have hSettled : ∀ entry ∈ next.units,
      next.selectUnit entry.1 entry.2 = (entry.2, none) := by
    intro entry hEntry
    rw [hUnits] at hEntry
    rcases List.mem_map.mp hEntry with ⟨old, hOld, rfl⟩
    rw [← selectUnit_congr hTables]
    exact selectUnit_of_selectUnit
      (Prod.ext rfl (hNone old hOld))
  unfold selectParts
  rw [selectUnits_of_selectUnit hSettled]

theorem sameTables_of_expanded
    (h : library.expanded = .ok next) :
    library.SameTables next := by
  apply sameTables_of_map_eq
  have hUnits := forall₂_of_expanded h
  generalize library.units = units at hUnits
  generalize next.units = results at hUnits
  induction hUnits with
  | nil => rfl
  | cons hHead _ ih =>
      rw [List.map_cons, List.map_cons, ih, hHead.1,
        (fillsTo_of_expandUnit hHead.2).table]

/- The same tables expand the same sites. -/
theorem expandUnit_congr
    {left right : Library}
    (h : left.SameTables right)
    (file : String)
    (unit : SourceUnit) :
    left.expandUnit file unit = right.expandUnit file unit := by
  unfold expandUnit expansions
  rw [expandSite_congr h]

theorem expanded_of_expanded
    (h : library.expanded = .ok next) :
    next.expanded = .ok next := by
  have hTables := sameTables_of_expanded h
  have hSettled : ∀ entry ∈ next.units,
      (next.expandUnit entry.1 entry.2).map (entry.1, ·) =
        .ok entry := by
    intro entry hEntry
    rcases exists_mem_of_forall₂ (forall₂_of_expanded h).flip
      hEntry with ⟨old, -, hName, hUnit⟩
    rw [← expandUnit_congr hTables, hName,
      expandUnit_of_expandUnit hUnit, ← hName]
    rfl
  unfold expanded
  rw [mapM_eq_ok_of_forall₂ (List.forall₂_same.mpr hSettled)]
  rfl

/-
  Selection and expansion are idempotent.  Where one of them
  succeeds it succeeds on its own result too, and the result
  is the same, whatever entries the tables hold and whatever
  was dropped before.
-/
theorem passes_idempotent (library : Library) :
    (∀ next, library.selectParts = (next, none) →
      next.selectParts = (next, none)) ∧
    (∀ next, library.expand = (next, none) →
      next.expand = (next, none)) := by
  constructor
  · intro next hParts
    have hSelected : library.selected = .ok next := by
      rw [selected, hParts]
    exact selected_of_selected hSelected
  · intro next hExpand
    rw [expand_eq_ok_iff] at hExpand ⊢
    exact expanded_of_expanded hExpand

/- A region in each part of another one. -/
def revisitedLines : List Instruction := [
  .macroLine ⟨none, .constant, ["mode", "1"]⟩,
  .macroTemplate ⟨some "inc", .definition, ["x"]⟩
    (.op ⟨none, "ADD", ["&x", "&x", "1"]⟩),
  .macroLine ⟨none, .ifCondition, ["mode==1"]⟩,
  .op ⟨none, "SWYM", []⟩,
  .macroLine ⟨none, .ifUndefined, ["mode"]⟩,
  .op ⟨none, "TRAP", ["0"]⟩,
  .macroLine ⟨none, .endIf, []⟩,
  .macroLine ⟨none, .otherwise, []⟩,
  .macroLine ⟨none, .ifCondition, ["nothing"]⟩,
  .macroLine ⟨none, .endIf, []⟩,
  .macroLine ⟨none, .endIf, []⟩,
  .macroLine ⟨none, .application, ["inc", "$1"]⟩]

/-
  The lines with some of them dropped before, up to the first
  line of the inner region, and with sites on a dropped line,
  twice on a line of its own and behind the last line.
-/
def revisitedLibrary : Library where
  units := [("a", {
    slots := ((SourceUnit.ofLines revisitedLines).dropRegion
      ⟨3, 5⟩).slots
    table := MacroTable.ofLines revisitedLines ++ [
      .site ⟨none, 3, ["inc"]⟩,
      .site ⟨none, 5, ["inc", "$2"]⟩,
      .site ⟨some "last", 5, ["inc", "$3"]⟩,
      .site ⟨none, 99, ["inc", "$4"]⟩] })]

theorem revisitedLibrary_idempotent :
    SourceUnit.ofFile ⟨"a", revisitedLines, true⟩ =
        .ok (.ofLines revisitedLines) ∧
      ∃ selected expanded,
        revisitedLibrary.selectParts = (selected, none) ∧
        selected ≠ revisitedLibrary ∧
        selected.selectParts = (selected, none) ∧
        selected.expand = (expanded, none) ∧
        expanded ≠ selected ∧
        expanded.expand = (expanded, none) := by
  let selected := revisitedLibrary.selectParts.1
  let expanded := selected.expand.1
  have hSelected : revisitedLibrary.selectParts =
      (selected, none) := by
    decide +kernel
  have hExpanded : selected.expand = (expanded, none) := by
    decide +kernel
  exact ⟨by decide +kernel, selected, expanded, hSelected,
    by decide +kernel,
    (passes_idempotent revisitedLibrary).1 selected hSelected,
    hExpanded, by decide +kernel,
    (passes_idempotent selected).2 expanded hExpanded⟩

end Library

end MmixAsm
