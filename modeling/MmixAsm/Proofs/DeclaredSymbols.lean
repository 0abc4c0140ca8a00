import Mathlib.Data.List.Induction
import Mathlib.Data.List.Nodup
import MmixAsm.Layout.Padding
import MmixAsm.Layout.Symbols
import MmixAsm.Proofs.FirstMentions
import MmixAsm.Proofs.Outcome

/-
  What the directives of a program declare, said without a
  table.

  The table of symbols is filled line by line.  Here its
  content is read off the whole list of directives.  A label
  has the meaning that the first IS or GREG line gives it, a
  block has the ends and the place that the last lines about
  it give it, and blocks stand in the order in which they are
  first mentioned.

  Key definitions include:
    * `MmixAsm.declaredFrom`
    * `MmixAsm.Marker`
    * `MmixAsm.blockNames`
    * `MmixAsm.Block.ofMarkers`
    * `MmixAsm.declaredBlocks`

  Key theorems include:
    * `MmixAsm.Symbols.declare_cases`
    * `MmixAsm.Symbols.labels_of_collect`
    * `MmixAsm.Symbols.blocks_of_collect`
    * `MmixAsm.Symbols.registersExhausted_iff`
-/

------------------------------------------------------------
-- Markers
------------------------------------------------------------

namespace MmixAsm

/- The directive that an item is. -/
def Item.directive? :
    Item → Option (Line Directive)
| .statement _ => none
| .control line => some line

/- The directive that an instruction is. -/
def Instruction.directive? :
    Instruction → Option (Line Directive)
| .control line => some line
| _ => none

/- A directive and the number of statements in front of it. -/
structure Marker where
  position : Nat
  line : Line Directive

namespace Marker

/- The directives of some items, from a position on. -/
def ofItems
    (position : Nat) :
    List Item → List Marker
| [] => []
| .statement _ :: rest => ofItems (position + 1) rest
| .control line :: rest =>
    ⟨position, line⟩ :: ofItems position rest

/- The block that a directive is about. -/
def blockName? (marker : Marker) : Option String :=
  match marker.line.keyword with
  | .block => marker.line.parameters.head?
  | .endBlock => marker.line.parameters.head?
  | .place => marker.line.parameters.head?
  | _ => none

/- A directive about a block binds no label itself. -/
theorem keyword_ne_of_blockName?
    {marker : Marker}
    {name : String}
    (h : marker.blockName? = some name) :
    marker.line.keyword ≠ .greg ∧
      marker.line.keyword ≠ .equate := by
  constructor
  · intro hKeyword
    simp [blockName?, hKeyword] at h
  · intro hKeyword
    simp [blockName?, hKeyword] at h

/- Whether a directive is of a kind and about a block. -/
def mentions
    (marker : Marker)
    (keyword : Directive)
    (name : String) : Bool :=
  marker.line.keyword = keyword &&
    marker.blockName? = some name

/- What a directive does to the block it is about. -/
def change
    (marker : Marker)
    (block : Block) : Block :=
  match marker.line.keyword with
  | .block => block.openAt marker.position
  | .endBlock => { block with last := some (marker.position - 1) }
  | .place => block.wantAt marker.position marker.line.label
  | _ => block

end Marker

end MmixAsm

------------------------------------------------------------
-- Declared Labels
------------------------------------------------------------

namespace MmixAsm

/- Whether a line gives its label a meaning. -/
def Line.declares
    (line : Line Directive)
    (label : String) : Bool :=
  (line.keyword = .equate || line.keyword = .greg) &&
    line.label = some label

/-
  The meaning that a line gives its label, if it is the given
  GREG line of the program, counted from one: the parameter
  of IS, or the register of GREG.
-/
def Line.meaning?
    (line : Line Directive)
    (greg : Nat) : Option String :=
  match line.keyword with
  | .equate => line.parameters.head?
  | .greg => some ("$" ++ toString (255 - greg))
  | _ => none

/- The number of GREG lines. -/
def gregCount (lines : List (Line Directive)) : Nat :=
  lines.countP (·.keyword = .greg)

theorem gregCount_cons
    (line : Line Directive)
    (rest : List (Line Directive)) :
    gregCount (line :: rest) =
      gregCount [line] + gregCount rest := by
  unfold gregCount
  rw [← List.countP_append, List.singleton_append]

/-
  The meaning of a label that the first IS or GREG line with
  this label gives it.  The next GREG line has the number
  `greg`.
-/
def declaredFrom
    (greg : Nat)
    (label : String) :
    List (Line Directive) → Option String
| [] => none
| line :: rest =>
    if line.declares label then
      line.meaning? greg
    else
      declaredFrom (greg + gregCount [line]) label rest

/- LOC lines declare nothing. -/
theorem declaredFrom_without_loc
    (greg : Nat)
    (label : String)
    (lines : List (Line Directive)) :
    declaredFrom greg label (lines.filter (·.keyword ≠ .loc)) =
      declaredFrom greg label lines := by
  induction lines generalizing greg with
  | nil => rfl
  | cons line rest ih =>
      by_cases hLoc : line.keyword = .loc
      · have hSilent : line.declares label = false := by
          simp [Line.declares, hLoc]
        have hCount : gregCount [line] = 0 := by
          simp [gregCount, hLoc]
        rw [List.filter_cons_of_neg (by simp [hLoc]), ih,
          declaredFrom, hSilent, hCount]
        rfl
      · rw [List.filter_cons_of_pos (by simp [hLoc]),
          declaredFrom, declaredFrom, ih]

/- A label that no line declares has no declared meaning. -/
theorem declaredFrom_eq_none
    {label : String}
    {instructions : List Instruction}
    (h : ∀ line, .control line ∈ instructions →
      line.declares label = false)
    (greg : Nat) :
    declaredFrom greg label
      (instructions.filterMap Instruction.directive?) = none := by
  induction instructions generalizing greg with
  | nil => rfl
  | cons instruction rest ih =>
      have hRest := ih fun line hLine =>
        h line (List.mem_cons_of_mem _ hLine)
      cases instruction with
      | op line => exact hRest greg
      | alloc line => exact hRest greg
      | macroLine line => exact hRest greg
      | macroTemplate line body => exact hRest greg
      | control line =>
          have hLines :
              (Instruction.control line :: rest).filterMap
                  Instruction.directive? =
                line :: rest.filterMap Instruction.directive? :=
            rfl
          rw [hLines, declaredFrom, h line List.mem_cons_self]
          exact hRest _

end MmixAsm

------------------------------------------------------------
-- Declared Blocks
------------------------------------------------------------

namespace MmixAsm

/- The blocks of a program in the order of first mention. -/
def blockNames (markers : List Marker) : List String :=
  (markers.filterMap Marker.blockName?).eraseDups

/- The last directive of some kind about a block. -/
def lastMention?
    (markers : List Marker)
    (keywords : List Directive)
    (name : String) : Option Marker :=
  markers.reverse.find?
    fun marker => keywords.any (marker.mentions · name)

/-
  A block as the directives describe it.  It is wanted where
  the last USE stands and begins where the last BLOCK stands,
  and it ends in front of the last ENDBLOCK unless it is
  opened again behind that.
-/
def Block.ofMarkers
    (markers : List Marker)
    (name : String) : Block where
  name := name
  label := (lastMention? markers [.place] name).bind (·.line.label)
  origin := (lastMention? markers [.place] name).map (·.position)
  start := (lastMention? markers [.block] name).map (·.position)
  last :=
    (lastMention? markers [.block, .endBlock] name).bind
      fun marker =>
        if marker.line.keyword = .endBlock then
          some (marker.position - 1)
        else
          none

/- The blocks that the directives of a program describe. -/
def declaredBlocks (items : List Item) : List Block :=
  (blockNames (Marker.ofItems 0 items)).map
    (Block.ofMarkers (Marker.ofItems 0 items))

end MmixAsm

------------------------------------------------------------
-- Lookup In Label Tables
------------------------------------------------------------

namespace MmixAsm

namespace LabelTable

/- Binding a label changes nothing that is bound already. -/
theorem get?_bind
    (table : LabelTable)
    (label expression name : String) :
    (table.bind label expression).get? name =
      (table.get? name).or
        (if label = name then some expression else none) := by
  unfold bind
  split
  · next bound hBound =>
      by_cases hName : label = name
      · rw [← hName, hBound]
        rfl
      · rw [if_neg hName, Option.or_none]
  · next hFree =>
      by_cases hName : label = name
      · subst hName
        rw [hFree, if_pos rfl]
        simp [get?]
      · have hBeq : (name == label) = false := by
          simpa using Ne.symm hName
        rw [if_neg hName, Option.or_none]
        simp [get?, List.lookup_cons, hBeq]

theorem get?_bindOptional
    (table : LabelTable)
    (label : Option String)
    (expression name : String) :
    (table.bindOptional label expression).get? name =
      (table.get? name).or
        (if label = some name then some expression
          else none) := by
  cases label with
  | none => simp [bindOptional]
  | some label => simp [bindOptional, get?_bind]

end LabelTable

end MmixAsm

------------------------------------------------------------
-- Reading One Directive
------------------------------------------------------------

namespace MmixAsm

namespace Symbols

variable {symbols next : Symbols}
variable {position : Nat}
variable {line : Line Directive}

/-
  A directive takes a register, binds a label, or changes the
  block that it is about.  LOC is read elsewhere.
-/
theorem declare_cases
    (h : symbols.declare position line = .ok next) :
    (line.keyword = .greg ∧
      lowestGlobal ≤ symbols.nextGlobal ∧
      next = { symbols with
        labels :=
          symbols.labels.bindOptional line.label
            symbols.register
        nextGlobal := symbols.nextGlobal - 1 }) ∨
    (line.keyword = .equate ∧
      ∃ name parameter, line.label = some name ∧
        line.parameters.head? = some parameter ∧
        next = { symbols with
          labels := symbols.labels.bind name parameter }) ∨
    (∃ name, Marker.blockName? ⟨position, line⟩ = some name ∧
      next = { symbols with
        blocks := Block.update name
          (Marker.change ⟨position, line⟩)
          symbols.blocks }) ∨
    (line.keyword = .loc ∧ next = symbols) := by
  rcases line with ⟨label, keyword, parameters⟩
  cases keyword with
  | greg =>
      left
      change symbols.takeRegister label = .ok next at h
      unfold takeRegister at h
      split at h
      · cases h
      · next hLeft =>
          cases h
          exact ⟨rfl, Nat.le_of_not_lt hLeft, rfl⟩
  | equate =>
      right; left
      cases parameters with
      | nil => cases h
      | cons parameter rest =>
          cases label with
          | none => cases h
          | some name =>
              cases h
              exact ⟨rfl, name, parameter, rfl, rfl, rfl⟩
  | block =>
      right; right; left
      cases parameters with
      | nil => cases h
      | cons parameter rest =>
          cases h
          exact ⟨parameter, rfl, rfl⟩
  | place =>
      right; right; left
      cases parameters with
      | nil => cases h
      | cons parameter rest =>
          cases h
          exact ⟨parameter, rfl, rfl⟩
  | endBlock =>
      right; right; left
      cases parameters with
      | nil => cases h
      | cons parameter rest =>
          rcases exists_of_map_eq_ok h with
            ⟨blocks, hClose, rfl⟩
          refine ⟨parameter, rfl, ?_⟩
          unfold Block.close at hClose
          split at hClose
          · cases hClose
          · split at hClose
            · cases hClose
              rfl
            · cases hClose
  | loc =>
      right; right; right
      cases parameters with
      | nil => cases h
      | cons parameter rest =>
          cases h
          exact ⟨rfl, rfl⟩

/-
  The next GREG line is the given one, counted from one.  At
  the last number there is no register left.
-/
def AwaitsGreg
    (symbols : Symbols)
    (greg : Nat) : Prop :=
  symbols.nextGlobal + greg = 255 ∧ greg ≤ 224

theorem AwaitsGreg.declare
    {greg : Nat}
    (hGreg : symbols.AwaitsGreg greg)
    (h : symbols.declare position line = .ok next) :
    next.AwaitsGreg (greg + gregCount [line]) := by
  rcases declare_cases h with
    ⟨hKeyword, hLeft, rfl⟩ | ⟨hKeyword, _, _, _, _, rfl⟩ |
      ⟨name, hName, rfl⟩ | ⟨hKeyword, rfl⟩
  · have hCount : gregCount [line] = 1 := by
      simp [gregCount, hKeyword]
    have hLowest : 32 ≤ symbols.nextGlobal := hLeft
    rcases hGreg with ⟨hNext, _⟩
    constructor
    · change symbols.nextGlobal - 1 + _ = 255
      omega
    · omega
  · simpa [AwaitsGreg, gregCount, hKeyword] using hGreg
  · have hNot := Marker.keyword_ne_of_blockName? hName
    simpa [AwaitsGreg, gregCount, hNot.1] using hGreg
  · simpa [AwaitsGreg, gregCount, hKeyword] using hGreg

/- An accepted IS or GREG line has a meaning. -/
theorem exists_meaning_of_declare
    {label : String}
    (hDeclares : line.declares label)
    (h : symbols.declare position line = .ok next)
    (greg : Nat) :
    ∃ meaning, line.meaning? greg = some meaning := by
  rcases declare_cases h with
    ⟨hKeyword, _, _⟩ |
      ⟨hKeyword, _, parameter, _, hParameter, _⟩ |
      ⟨blockName, hBlock, _⟩ | ⟨hKeyword, _⟩
  · refine ⟨"$" ++ toString (255 - greg), ?_⟩
    simp [Line.meaning?, hKeyword]
  · exact ⟨parameter, by
      simp [Line.meaning?, hKeyword, hParameter]⟩
  · have hNot := Marker.keyword_ne_of_blockName? hBlock
    simp [Line.declares, hNot.1, hNot.2] at hDeclares
  · simp [Line.declares, hKeyword] at hDeclares

/- A directive gives a meaning to its own label only. -/
theorem labels_of_declare
    {greg : Nat}
    (hGreg : symbols.AwaitsGreg greg)
    (h : symbols.declare position line = .ok next)
    (label : String) :
    next.labels.get? label =
      (symbols.labels.get? label).or
        (if line.declares label then line.meaning? greg
          else none) := by
  rcases declare_cases h with
    ⟨hKeyword, _, rfl⟩ |
      ⟨hKeyword, name, parameter, hName, hParameter, rfl⟩ |
      ⟨blockName, hBlock, rfl⟩ | ⟨hKeyword, rfl⟩
  · have hRegister : symbols.register =
        "$" ++ toString (255 - greg) := by
      have hNext : symbols.nextGlobal = 255 - greg := by
        have hSum := hGreg.1
        omega
      rw [register, hNext]
    rw [LabelTable.get?_bindOptional, hRegister]
    simp [Line.declares, Line.meaning?, hKeyword]
  · rw [LabelTable.get?_bind]
    simp [Line.declares, Line.meaning?, hKeyword, hName,
      hParameter]
  · have hNot := Marker.keyword_ne_of_blockName? hBlock
    simp [Line.declares, hNot.1, hNot.2]
  · simp [Line.declares, hKeyword]

end Symbols

end MmixAsm

------------------------------------------------------------
-- Reading All Directives
------------------------------------------------------------

namespace MmixAsm

/- The directives among some items. -/
def directivesOf (items : List Item) : List (Line Directive) :=
  items.filterMap Item.directive?

namespace Symbols

variable {items : List Item}
variable {position greg : Nat}
variable {symbols : Symbols}
variable {final : Nat × Symbols}

theorem awaitsGreg_empty : empty.AwaitsGreg 1 :=
  ⟨rfl, by decide⟩

theorem AwaitsGreg.steps
    (hGreg : symbols.AwaitsGreg greg)
    (h : items.foldlM step (position, symbols) = .ok final) :
    final.2.AwaitsGreg
      (greg + gregCount (directivesOf items)) := by
  induction items generalizing position symbols greg with
  | nil =>
      cases h
      exact hGreg
  | cons item rest ih =>
      rw [List.foldlM_cons] at h
      rcases exists_of_bind_eq_ok h with ⟨next, hStep, hRest⟩
      cases item with
      | statement content =>
          cases hStep
          exact ih hGreg hRest
      | control line =>
          rcases exists_of_map_eq_ok hStep with
            ⟨declared, hDeclare, rfl⟩
          have hLines : directivesOf (.control line :: rest) =
              line :: directivesOf rest := rfl
          rw [hLines, gregCount_cons, ← Nat.add_assoc greg]
          exact ih (hGreg.declare hDeclare) hRest

/- The labels that a list of items adds to a table. -/
theorem labels_of_steps
    (hGreg : symbols.AwaitsGreg greg)
    (h : items.foldlM step (position, symbols) = .ok final)
    (label : String) :
    final.2.labels.get? label =
      (symbols.labels.get? label).or
        (declaredFrom greg label (directivesOf items)) := by
  induction items generalizing position symbols greg with
  | nil =>
      cases h
      exact Option.or_none.symm
  | cons item rest ih =>
      rw [List.foldlM_cons] at h
      rcases exists_of_bind_eq_ok h with ⟨next, hStep, hRest⟩
      cases item with
      | statement content =>
          cases hStep
          exact ih hGreg hRest
      | control line =>
          rcases exists_of_map_eq_ok hStep with
            ⟨declared, hDeclare, rfl⟩
          have hLines : directivesOf (.control line :: rest) =
              line :: directivesOf rest := rfl
          rw [ih (hGreg.declare hDeclare) hRest,
            labels_of_declare hGreg hDeclare, hLines,
            declaredFrom]
          split
          · next hDeclares =>
              -- What stands behind the first declaration of
              -- the label does not matter.
              rcases exists_meaning_of_declare hDeclares
                hDeclare greg with ⟨meaning, hMeaning⟩
              rw [hMeaning, Option.or_assoc, Option.some_or]
          · rw [Option.or_none]

/- The label table holds the first declarations. -/
theorem labels_of_collect
    (h : collect items = .ok symbols)
    (label : String) :
    symbols.labels.get? label =
      declaredFrom 1 label (directivesOf items) := by
  rcases exists_of_map_eq_ok h with ⟨final, hSteps, rfl⟩
  rw [labels_of_steps awaitsGreg_empty hSteps label]
  rfl

end Symbols

end MmixAsm

------------------------------------------------------------
-- Running Out Of Registers
------------------------------------------------------------

namespace MmixAsm

namespace Symbols

/- Only GREG can fail for want of a register. -/
theorem declare_eq_registersExhausted_iff
    (symbols : Symbols)
    (position : Nat)
    (line : Line Directive) :
    symbols.declare position line = .error .registersExhausted ↔
      line.keyword = .greg ∧
        symbols.nextGlobal < lowestGlobal := by
  rcases line with ⟨label, keyword, parameters⟩
  by_cases hGreg : keyword = .greg
  · subst hGreg
    simp [declare, takeRegister]
  · simp only [hGreg, false_and, iff_false]
    intro h
    rw [declare, if_neg hGreg] at h
    cases parameters with
    | nil => cases h
    | cons parameter rest =>
        cases keyword with
        | greg => exact hGreg rfl
        | block => cases h
        | place => cases h
        | loc => cases h
        | equate =>
            cases label with
            | none => cases h
            | some name => cases h
        | endBlock =>
            have hClose := fails_of_map_eq_error h
            unfold Block.close at hClose
            split at hClose
            · cases hClose
            · split at hClose
              · cases hClose
              · cases hClose

/-
  Registers run out exactly when a GREG line is reached that
  has 223 others in front of it.
-/
theorem registersExhausted_iff
    {items : List Item} :
    collect items = .error .registersExhausted ↔
      ∃ front line back symbols,
        items = front ++ .control line :: back ∧
          collect front = .ok symbols ∧
          line.keyword = .greg ∧
          gregCount (directivesOf front) = 223 := by
  constructor
  · intro h
    rcases foldlM_eq_error_iff.mp (fails_of_map_eq_error h) with
      ⟨front, item, back, state, rfl, hFront, hFail⟩
    cases item with
    | statement content => cases hFail
    | control line =>
        rcases (declare_eq_registersExhausted_iff _ _ _).mp
          (fails_of_map_eq_error hFail) with
          ⟨hKeyword, hNext⟩
        rcases awaitsGreg_empty.steps hFront with
          ⟨hSum, hCount⟩
        have hLowest : state.2.nextGlobal < 32 := hNext
        refine ⟨front, line, back, state.2, rfl, ?_, hKeyword,
          by omega⟩
        rw [collect, hFront]
        rfl
  · rintro ⟨front, line, back, symbols, rfl, hFront, hKeyword,
      hCount⟩
    rcases exists_of_map_eq_ok hFront with ⟨state, hSteps, rfl⟩
    have hFail : step state (.control line) =
        .error .registersExhausted := by
      have hNext : state.2.nextGlobal < 32 := by
        have hSum := (awaitsGreg_empty.steps hSteps).1
        omega
      have hDeclare := (declare_eq_registersExhausted_iff
        state.2 state.1 line).mpr ⟨hKeyword, hNext⟩
      rw [step, hDeclare]
      rfl
    rw [collect, foldlM_eq_error_iff.mpr
      ⟨front, .control line, back, state, rfl, hSteps, hFail⟩]
    rfl

end Symbols

end MmixAsm

------------------------------------------------------------
-- Reading The Blocks
------------------------------------------------------------

namespace MmixAsm

theorem lastMention?_concat
    (markers : List Marker)
    (marker : Marker)
    (keywords : List Directive)
    (name : String) :
    lastMention? (markers ++ [marker]) keywords name =
      if keywords.any (marker.mentions · name) then
        some marker
      else
        lastMention? markers keywords name := by
  unfold lastMention?
  rw [List.reverse_append, List.reverse_singleton,
    List.singleton_append, List.find?_cons]
  split
  · next hMentions => rw [if_pos hMentions]
  · next hMentions =>
      rw [if_neg (by rw [hMentions]; exact Bool.false_ne_true)]

/- A new directive changes the block that it is about. -/
theorem Block.ofMarkers_concat
    (markers : List Marker)
    (marker : Marker)
    (name : String) :
    ofMarkers (markers ++ [marker]) name =
      if marker.blockName? = some name then
        marker.change (ofMarkers markers name)
      else
        ofMarkers markers name := by
  by_cases hName : marker.blockName? = some name
  · rw [if_pos hName]
    rcases marker with ⟨position, ⟨label, keyword, parameters⟩⟩
    cases keyword with
    | block =>
        simp [ofMarkers, lastMention?_concat, Marker.mentions,
          hName, Marker.change, openAt]
    | endBlock =>
        simp [ofMarkers, lastMention?_concat, Marker.mentions,
          hName, Marker.change]
    | place =>
        simp [ofMarkers, lastMention?_concat, Marker.mentions,
          hName, Marker.change, wantAt]
    | loc => cases hName
    | greg => cases hName
    | equate => cases hName
  · rw [if_neg hName]
    simp [ofMarkers, lastMention?_concat, Marker.mentions,
      hName]

theorem blockNames_concat
    (markers : List Marker)
    (marker : Marker) :
    blockNames (markers ++ [marker]) =
      match marker.blockName? with
      | none => blockNames markers
      | some name =>
          if name ∈ blockNames markers then
            blockNames markers
          else
            blockNames markers ++ [name] := by
  unfold blockNames
  rw [List.filterMap_append, List.filterMap_cons,
    List.filterMap_nil]
  cases marker.blockName? with
  | none => rw [List.append_nil]
  | some name => simp only [eraseDups_concat, List.mem_eraseDups]

/- No block is listed twice. -/
theorem nodup_blockNames (markers : List Marker) :
    (blockNames markers).Nodup :=
  nodup_eraseDups _

/- A block that is not mentioned has a name and no more. -/
theorem Block.ofMarkers_of_notMem
    {markers : List Marker}
    {name : String}
    (hName : name ∉ blockNames markers) :
    ofMarkers markers name = named name := by
  have hNone : ∀ keywords,
      lastMention? markers keywords name = none := by
    intro keywords
    apply List.find?_eq_none.mpr
    intro marker hMarker hMentions
    rcases List.any_eq_true.mp hMentions with
      ⟨keyword, _, hMention⟩
    have hAbout : marker.blockName? = some name := by
      simpa using (Bool.and_eq_true_iff.mp hMention).2
    apply hName
    unfold blockNames
    rw [List.mem_eraseDups]
    exact List.mem_filterMap.mpr
      ⟨marker, List.mem_reverse.mp hMarker, hAbout⟩
  simp [ofMarkers, hNone, named]

namespace Block

/- Changing a block in a table that is listed by names. -/
theorem update_map
    {names : List String}
    {describe : String → Block}
    (hNames : names.Nodup)
    (hDescribe : ∀ other, (describe other).name = other)
    (name : String)
    (hNew : name ∉ names → describe name = named name)
    (change : Block → Block) :
    update name change (names.map describe) =
      (if name ∈ names then names else names ++ [name]).map
        fun other =>
          if other = name then change (describe other)
          else describe other := by
  induction names with
  | nil => simp [update, hNew]
  | cons head rest ih =>
      rcases List.nodup_cons.mp hNames with ⟨hHead, hRest⟩
      rw [List.map_cons, update, hDescribe]
      by_cases hEq : head = name
      · subst hEq
        have hOthers : rest.map describe = rest.map
            fun other =>
              if other = head then change (describe other)
              else describe other := by
          apply List.map_congr_left
          intro other hOther
          rw [if_neg]
          rintro rfl
          exact hHead hOther
        rw [if_pos rfl, if_pos List.mem_cons_self,
          List.map_cons, if_pos rfl, hOthers]
      · have hTail := ih hRest (by
          intro hNot
          apply hNew
          simp [hNot, Ne.symm hEq])
        rw [if_neg hEq, hTail]
        by_cases hMem : name ∈ rest
        · simp [hMem, hEq]
        · simp [hMem, hEq, Ne.symm hEq]

end Block

namespace Symbols

variable {items : List Item}
variable {symbols next : Symbols}
variable {markers : List Marker}
variable {marker : Marker}

/- Only directives about a block change the blocks. -/
theorem update_of_declare
    (h : symbols.declare marker.position marker.line =
      .ok next) :
    next.blocks =
      match marker.blockName? with
      | none => symbols.blocks
      | some name =>
          Block.update name marker.change symbols.blocks := by
  rcases declare_cases h with
    ⟨hKeyword, _, rfl⟩ | ⟨hKeyword, _, _, _, _, rfl⟩ |
      ⟨name, hName, rfl⟩ | ⟨hKeyword, rfl⟩
  · simp [Marker.blockName?, hKeyword]
  · simp [Marker.blockName?, hKeyword]
  · rw [hName]
  · simp [Marker.blockName?, hKeyword]

/- One more directive is one more description. -/
theorem blocks_of_declare
    (marker : Marker)
    (hBlocks : symbols.blocks =
      (blockNames markers).map (Block.ofMarkers markers))
    (h : symbols.declare marker.position marker.line =
      .ok next) :
    next.blocks =
      (blockNames (markers ++ [marker])).map
        (Block.ofMarkers (markers ++ [marker])) := by
  have hDescribe : Block.ofMarkers (markers ++ [marker]) =
      fun name =>
        if marker.blockName? = some name then
          marker.change (Block.ofMarkers markers name)
        else
          Block.ofMarkers markers name :=
    funext (Block.ofMarkers_concat markers marker)
  rw [update_of_declare h, blockNames_concat, hDescribe,
    hBlocks]
  cases marker.blockName? with
  | none => simp
  | some name =>
      simp only [Option.some.injEq, eq_comm (a := name)]
      exact Block.update_map (nodup_blockNames markers)
        (fun _ => rfl) name Block.ofMarkers_of_notMem
        marker.change

/- The blocks behind a list of items. -/
theorem blocks_of_steps
    {position : Nat}
    {final : Nat × Symbols}
    (hBlocks : symbols.blocks =
      (blockNames markers).map (Block.ofMarkers markers))
    (h : items.foldlM step (position, symbols) = .ok final) :
    final.2.blocks =
      (blockNames
        (markers ++ Marker.ofItems position items)).map
          (Block.ofMarkers
            (markers ++ Marker.ofItems position items)) := by
  induction items generalizing position symbols markers with
  | nil =>
      cases h
      rw [Marker.ofItems, List.append_nil]
      exact hBlocks
  | cons item rest ih =>
      rw [List.foldlM_cons] at h
      rcases exists_of_bind_eq_ok h with ⟨next, hStep, hRest⟩
      cases item with
      | statement content =>
          cases hStep
          exact ih hBlocks hRest
      | control line =>
          rcases exists_of_map_eq_ok hStep with
            ⟨declared, hDeclare, rfl⟩
          have hNext := blocks_of_declare ⟨position, line⟩
            hBlocks hDeclare
          rw [Marker.ofItems, List.append_cons]
          exact ih hNext hRest

/- The block table lists what the directives describe. -/
theorem blocks_of_collect
    (h : collect items = .ok symbols) :
    symbols.blocks = declaredBlocks items := by
  rcases exists_of_map_eq_ok h with ⟨final, hSteps, rfl⟩
  have hStart : empty.blocks =
      (blockNames []).map (Block.ofMarkers []) := rfl
  exact blocks_of_steps hStart hSteps

end Symbols

end MmixAsm
