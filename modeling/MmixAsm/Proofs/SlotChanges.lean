import MmixAsm.Proofs.FilesApart

/-
  What selection and expansion do to the slots of a file.

  Selection turns slots into dropped ones and changes nothing
  else, wherever it ends.  Expansion overwrites the slots at
  the offsets of live sites, and where several sites have one
  offset the last of them stays.

  Key definitions include:
    * `MmixAsm.SourceUnit.DropsTo`
    * `MmixAsm.SourceUnit.FillsTo`
    * `MmixAsm.Library.ChangesBy`

  Key theorems include:
    * `MmixAsm.Library.selectEntry_cases`
    * `MmixAsm.Library.dropsTo_selectEntries`
    * `MmixAsm.Library.changesBy_selectParts`
    * `MmixAsm.Library.getElem?_fillSlots`
    * `MmixAsm.Library.fillsTo_of_expandUnit`
    * `MmixAsm.Library.changesBy_of_expanded`
-/

------------------------------------------------------------
-- Dropped Slots
------------------------------------------------------------

namespace MmixAsm

namespace SourceUnit

/- Every slot is as it was, or it is dropped now. -/
structure DropsTo (before after : SourceUnit) : Prop where
  table : after.table = before.table
  length : after.slots.length = before.slots.length
  slots : ∀ offset : Nat,
    after.slots[offset]? = before.slots[offset]? ∨
      after.slots[offset]? = some .dropped

namespace DropsTo

theorem refl (unit : SourceUnit) : unit.DropsTo unit :=
  ⟨rfl, rfl, fun _ => .inl rfl⟩

theorem trans
    {first second third : SourceUnit}
    (hFirst : first.DropsTo second)
    (hSecond : second.DropsTo third) :
    first.DropsTo third := by
  refine ⟨hSecond.table.trans hFirst.table,
    hSecond.length.trans hFirst.length, fun offset => ?_⟩
  rcases hSecond.slots offset with hSame | hDropped
  · rw [hSame]
    exact hFirst.slots offset
  · exact .inr hDropped

/- What is dropped stays dropped. -/
theorem isDropped
    {before after : SourceUnit}
    (h : before.DropsTo after)
    {offset : Nat}
    (hDropped : before.isDropped offset = true) :
    after.isDropped offset = true := by
  unfold SourceUnit.isDropped at hDropped ⊢
  rcases h.slots offset with hSame | hNow
  · rwa [hSame]
  · rw [hNow]
    rfl

end DropsTo

theorem getElem?_dropRegion
    (unit : SourceUnit)
    (region : Region)
    (offset : Nat) :
    (unit.dropRegion region).slots[offset]? =
      unit.slots[offset]?.map fun slot =>
        if region.start ≤ offset ∧ offset < region.stop then
          .dropped
        else
          slot := by
  rw [dropRegion, List.getElem?_mapIdx]

theorem dropsTo_dropRegion
    (unit : SourceUnit)
    (region : Region) :
    unit.DropsTo (unit.dropRegion region) := by
  refine ⟨rfl, List.length_mapIdx, fun offset => ?_⟩
  rw [getElem?_dropRegion]
  cases unit.slots[offset]? with
  | none => exact .inl rfl
  | some slot =>
      rw [Option.map_some]
      split
      · exact .inr rfl
      · exact .inl rfl

end SourceUnit

namespace Library

variable {library : Library}
variable {file : String}

/- An entry drops a region, or it leaves the unit alone. -/
theorem selectEntry_cases
    {unit next : SourceUnit}
    {entry : MacroDecl}
    (h : library.selectEntry file unit entry = .ok next) :
    (library.dropped? file unit entry = .ok none ∧
        next = unit) ∨
      ∃ region,
        library.dropped? file unit entry =
            .ok (some region) ∧
          next = unit.dropRegion region := by
  unfold selectEntry at h
  cases hDropped : library.dropped? file unit entry with
  | error e =>
      simp only [hDropped] at h
      cases h
  | ok region =>
      simp only [hDropped] at h
      cases region with
      | none => exact .inl ⟨rfl, (Except.ok.inj h).symm⟩
      | some region =>
          exact .inr ⟨region, rfl, (Except.ok.inj h).symm⟩

/- Deciding one entry drops slots at most. -/
theorem dropsTo_of_selectEntry
    {unit next : SourceUnit}
    {entry : MacroDecl}
    (h : library.selectEntry file unit entry = .ok next) :
    unit.DropsTo next := by
  rcases selectEntry_cases h with
    ⟨-, rfl⟩ | ⟨region, -, rfl⟩
  · exact .refl next
  · exact unit.dropsTo_dropRegion region

/- So does deciding some of them, wherever it ends. -/
theorem dropsTo_selectEntries
    (library : Library)
    (file : String)
    (unit : SourceUnit)
    (entries : List MacroDecl) :
    unit.DropsTo
      (library.selectEntries file unit entries).1 := by
  induction entries generalizing unit with
  | nil => exact .refl unit
  | cons entry rest ih =>
      unfold selectEntries
      cases hNext : library.selectEntry file unit entry with
      | error e => exact .refl unit
      | ok next =>
          exact (dropsTo_of_selectEntry hNext).trans (ih next)

end Library

end MmixAsm

------------------------------------------------------------
-- Filled Slots
------------------------------------------------------------

namespace MmixAsm

namespace SourceUnit

/-
  Only slots at the offsets of live sites may differ, and
  these are live now.
-/
structure FillsTo (before after : SourceUnit) : Prop where
  table : after.table = before.table
  length : after.slots.length = before.slots.length
  elsewhere : ∀ offset : Nat,
    (∀ site ∈ before.liveSites, site.offset ≠ offset) →
      after.slots[offset]? = before.slots[offset]?
  filled : ∀ site ∈ before.liveSites, ∀ slot,
    after.slots[site.offset]? = some slot →
      ∃ instruction, slot = .live instruction

end SourceUnit

namespace Library

/- The last instruction for an offset is what stays there. -/
theorem getElem?_fillSlots
    (slots : List Slot)
    (instructions : List (Nat × Instruction))
    (offset : Nat) :
    (fillSlots slots instructions)[offset]? =
      slots[offset]?.map fun slot =>
        ((instructions.reverse.lookup offset).map
          Slot.live).getD slot := by
  induction instructions generalizing slots with
  | nil =>
      change slots[offset]? = slots[offset]?.map fun slot => slot
      rw [Option.map_id']
  | cons entry rest ih =>
      rcases entry with ⟨place, instruction⟩
      have hStep : fillSlots slots ((place, instruction) :: rest) =
          fillSlots (slots.set place (.live instruction)) rest :=
        rfl
      rw [hStep, ih, List.reverse_cons, List.lookup_append,
        List.lookup_cons, List.getElem?_set]
      by_cases hPlace : place = offset
      · subst hPlace
        by_cases hIn : place < slots.length
        · cases rest.reverse.lookup place <;> simp [hIn]
        · simp [hIn]
      · have hBeq : (offset == place) = false := by
          simpa using Ne.symm hPlace
        simp only [hPlace, if_false, hBeq, List.lookup_nil,
          Option.or_none]

@[simp] theorem length_fillSlots
    (slots : List Slot)
    (instructions : List (Nat × Instruction)) :
    (fillSlots slots instructions).length = slots.length := by
  induction instructions generalizing slots with
  | nil => rfl
  | cons entry rest ih =>
      exact (ih (slots.set entry.1 (.live entry.2))).trans
        List.length_set

/- Filling again what is filled changes nothing. -/
theorem fillSlots_fillSlots
    (slots : List Slot)
    (instructions : List (Nat × Instruction)) :
    fillSlots (fillSlots slots instructions) instructions =
      fillSlots slots instructions := by
  apply List.ext_getElem?
  intro offset
  rw [getElem?_fillSlots, getElem?_fillSlots]
  cases slots[offset]? with
  | none => rfl
  | some slot =>
      cases instructions.reverse.lookup offset <;> rfl

variable {library : Library}
variable {file : String}

/- There is one instruction for every live site. -/
theorem offsets_of_expansions
    {unit : SourceUnit}
    {instructions : List (Nat × Instruction)}
    (h : library.expansions file unit = .ok instructions) :
    instructions.map (·.1) =
      unit.liveSites.map (·.offset) := by
  have hSites := forall₂_of_mapM_eq_ok h
  clear h
  generalize unit.liveSites = sites at hSites
  induction hSites with
  | nil => rfl
  | cons hSite _ ih =>
      rcases exists_of_map_eq_ok hSite with
        ⟨instruction, -, rfl⟩
      rw [List.map_cons, List.map_cons, ih]

theorem lookup_of_expansions
    {unit : SourceUnit}
    {instructions : List (Nat × Instruction)}
    (h : library.expansions file unit = .ok instructions)
    (offset : Nat) :
    instructions.reverse.lookup offset = none ↔
      ∀ site ∈ unit.liveSites, site.offset ≠ offset := by
  have hOffsets := offsets_of_expansions h
  rw [List.lookup_eq_none_iff]
  constructor
  · intro hNone site hSite hOffset
    have hMem : offset ∈ instructions.map (·.1) := by
      rw [hOffsets]
      exact List.mem_map.mpr ⟨site, hSite, hOffset⟩
    rcases List.mem_map.mp hMem with ⟨entry, hEntry, rfl⟩
    have hBeq := hNone entry (List.mem_reverse.mpr hEntry)
    simp at hBeq
  · intro hSites entry hEntry
    have hMem : entry.1 ∈ unit.liveSites.map (·.offset) := by
      rw [← hOffsets]
      exact List.mem_map_of_mem (List.mem_reverse.mp hEntry)
    rcases List.mem_map.mp hMem with ⟨site, hSite, hOffset⟩
    have hNe := hSites site hSite
    rw [hOffset] at hNe
    simpa using Ne.symm hNe

/- Expansion fills the slots of live sites and no others. -/
theorem fillsTo_of_expandUnit
    {unit next : SourceUnit}
    (h : library.expandUnit file unit = .ok next) :
    unit.FillsTo next := by
  rcases exists_of_map_eq_ok h with
    ⟨instructions, hInstructions, rfl⟩
  refine ⟨rfl, length_fillSlots _ _, ?_, ?_⟩
  · intro offset hSites
    have hNone :=
      (lookup_of_expansions hInstructions offset).mpr hSites
    simp only [getElem?_fillSlots, hNone, Option.map_none,
      Option.getD_none, Option.map_id']
  · intro site hSite slot hSlot
    simp only [getElem?_fillSlots] at hSlot
    rcases Option.map_eq_some_iff.mp hSlot with
      ⟨old, -, rfl⟩
    cases hLast :
        instructions.reverse.lookup site.offset with
    | none =>
        exact absurd rfl
          ((lookup_of_expansions hInstructions
            site.offset).mp hLast site hSite)
    | some instruction => exact ⟨instruction, rfl⟩

end Library

end MmixAsm

------------------------------------------------------------
-- Changed Libraries
------------------------------------------------------------

namespace MmixAsm

namespace Library

/- The same files, each of them changed in the given way. -/
structure ChangesBy
    (change : SourceUnit → SourceUnit → Prop)
    (before after : Library) : Prop where
  names : after.names = before.names
  units : ∀ name unit, before.unit? name = some unit →
    ∃ changed, after.unit? name = some changed ∧
      change unit changed

/- Libraries are changed entry by entry. -/
theorem changesBy_of_forall₂
    {change : SourceUnit → SourceUnit → Prop}
    {before after : Library}
    (h : List.Forall₂
      (fun entry changed =>
        changed.1 = entry.1 ∧ change entry.2 changed.2)
      before.units after.units) :
    ChangesBy change before after := by
  constructor
  · unfold names
    generalize before.units = old at h
    generalize after.units = new at h
    induction h with
    | nil => rfl
    | cons hHead _ ih =>
        rw [List.map_cons, List.map_cons, hHead.1, ih]
  · intro name unit hUnit
    unfold unit? at hUnit ⊢
    generalize before.units = old at h hUnit
    generalize after.units = new at h
    induction h with
    | nil => cases hUnit
    | @cons entry changed _ _ hHead _ ih =>
        rw [List.lookup_cons] at hUnit ⊢
        rw [hHead.1]
        cases hName : name == entry.1 with
        | true =>
            simp only [hName] at hUnit
            cases hUnit
            exact ⟨changed.2, rfl, hHead.2⟩
        | false =>
            simp only [hName] at hUnit
            exact ih hUnit

/- Selection drops slots of files, also where it fails. -/
theorem forall₂_selectUnits
    (library : Library)
    (units : List (String × SourceUnit)) :
    List.Forall₂
      (fun entry changed =>
        changed.1 = entry.1 ∧ entry.2.DropsTo changed.2)
      units (library.selectUnits units).1 := by
  induction units with
  | nil => exact .nil
  | cons entry rest ih =>
      rcases entry with ⟨file, unit⟩
      have hUnit :=
        library.dropsTo_selectEntries file unit unit.table
      unfold selectUnits
      rcases hResult : library.selectUnit file unit with
        ⟨next, _ | e⟩
      · rw [selectUnit] at hResult
        rw [hResult] at hUnit
        exact .cons ⟨rfl, hUnit⟩ ih
      · rw [selectUnit] at hResult
        rw [hResult] at hUnit
        refine .cons ⟨rfl, hUnit⟩ (List.forall₂_same.mpr ?_)
        exact fun other _ => ⟨rfl, .refl other.2⟩

theorem changesBy_selectParts (library : Library) :
    ChangesBy SourceUnit.DropsTo library
      library.selectParts.1 :=
  changesBy_of_forall₂
    (library.forall₂_selectUnits library.units)

theorem expand_eq_ok_iff
    {library next : Library} :
    library.expand = (next, none) ↔
      library.expanded = .ok next := by
  unfold expand
  cases library.expanded with
  | error e => simp
  | ok result => simp

theorem expand_eq_error_iff
    {library next : Library}
    {e : MacroError} :
    library.expand = (next, some e) ↔
      next = library ∧ library.expanded = .error e := by
  unfold expand
  cases library.expanded with
  | error cause => simp [eq_comm]
  | ok result => simp

theorem changesBy_of_expanded
    {library expanded : Library}
    (h : library.expanded = .ok expanded) :
    ChangesBy SourceUnit.FillsTo library expanded :=
  changesBy_of_forall₂
    ((forall₂_of_expanded h).imp fun _ _ hEntry =>
      ⟨hEntry.1, fillsTo_of_expandUnit hEntry.2⟩)

end Library

end MmixAsm
