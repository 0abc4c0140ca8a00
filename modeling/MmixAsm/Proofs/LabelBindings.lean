import MmixAsm.Proofs.BlockUnits
import MmixAsm.Proofs.DeclaredSymbols
import MmixAsm.Proofs.PaddedItems

/-
  What the labels of a program stand for.

  Labels are bound in three passes over one table, in which
  the first binding counts: when directives are read, when
  blocks are placed, and when all operations have reached
  their positions.  Together the passes give every label one
  meaning, and each parameter that is a bound label is
  replaced by that meaning once.

  Key definitions include:
    * `MmixAsm.Block.splice?`
    * `MmixAsm.codePosition?`
    * `MmixAsm.bindingOf`
    * `MmixAsm.Placed.bindings`

  Key theorems include:
    * `MmixAsm.Placed.labels_of_places`
    * `MmixAsm.LabelTable.get?_bindCode`
    * `MmixAsm.directivesOf_of_pad`
    * `MmixAsm.get?_bindings`
    * `MmixAsm.layOut_binds_labels`
-/

------------------------------------------------------------
-- Labels Of Placed Blocks
------------------------------------------------------------

namespace MmixAsm

namespace Block

/-
  The position at which a block that is moved is spliced in
  among the given number of statements.
-/
def splice?
    (count : Nat)
    (block : Block) : Option Nat :=
  match block.plan with
  | .ok (.move first last origin) =>
      some (min origin (count - (last + 1 - first)))
  | _ => none

/- A block that is not moved is not spliced in. -/
theorem splice?_eq_none
    {block : Block}
    (h : ¬ block.IsMoved)
    (count : Nat) :
    block.splice? count = none := by
  unfold splice?
  split
  · next first last origin hPlan =>
      exact (h ⟨first, last, origin, hPlan⟩).elim
  · rfl

/- The position of a block whose last USE has the label. -/
def spliceUnder?
    (count : Nat)
    (label : String)
    (block : Block) : Option Nat :=
  if block.label = some label then block.splice? count
  else none

end Block

namespace Placed

variable {statements : List Statement}
variable {blocks : List Block}
variable {start final : Placed}

/- Placing a block only changes the order of statements. -/
theorem perm_of_place
    {placed next : Placed}
    {block : Block}
    (h : placed.place block = .ok next) :
    next.stream.Perm placed.stream := by
  rcases eq_of_place h with
    ⟨_, rfl⟩ | ⟨first, last, origin, _, rfl⟩
  · exact .refl _
  · exact Stream.move_perm _ _ _ _

theorem perm_of_places
    (h : blocks.foldlM place start = .ok final) :
    final.stream.Perm start.stream := by
  refine invariant_of_foldlM_eq_ok
    (motive := fun state =>
      state.stream.Perm start.stream) (.refl _) ?_ h
  intro state block next _ hPerm hPlace
  exact (perm_of_place hPlace).trans hPerm

/- One block binds its label to where it is spliced in. -/
theorem labels_of_place
    {placed next : Placed}
    {block : Block}
    (hPerm : placed.stream.Perm (Stream.ofStatements statements))
    (hBlock : block.Bounded statements.length)
    (h : placed.place block = .ok next)
    (label : String) :
    next.labels.get? label =
      (placed.labels.get? label).or
        ((block.spliceUnder? statements.length label).map
          toString) := by
  rcases eq_of_place h with
    ⟨hNot, rfl⟩ | ⟨first, last, origin, hPlan, rfl⟩
  · simp [Block.spliceUnder?, Block.splice?_eq_none hNot]
  · have hSpans := Block.spans_of_plan hPlan
    rcases hBlock last hSpans.2 with
      ⟨start, hStart, hOrder, hLast⟩
    cases hSpans.1.symm.trans hStart
    rw [LabelTable.get?_bindOptional,
      Stream.landing_of_perm hPerm hOrder hLast]
    unfold Block.spliceUnder? Block.splice?
    rw [hPlan]
    split
    · rfl
    · rfl

/- The labels that placing some blocks adds to a table. -/
theorem labels_of_places
    (hPerm : start.stream.Perm (Stream.ofStatements statements))
    (hBlocks : ∀ block ∈ blocks,
      block.Bounded statements.length)
    (h : blocks.foldlM place start = .ok final)
    (label : String) :
    final.labels.get? label =
      (start.labels.get? label).or
        ((blocks.findSome?
          (Block.spliceUnder? statements.length label)).map
            toString) := by
  induction blocks generalizing start with
  | nil =>
      cases h
      exact Option.or_none.symm
  | cons block rest ih =>
      rw [List.foldlM_cons] at h
      rcases exists_of_bind_eq_ok h with ⟨next, hPlace, hRest⟩
      rcases List.forall_mem_cons.mp hBlocks with
        ⟨hHead, hTail⟩
      rw [ih ((perm_of_place hPlace).trans hPerm) hTail hRest,
        labels_of_place hPerm hHead hPlace, Option.or_assoc,
        List.findSome?_cons]
      cases block.spliceUnder? statements.length label with
      | none => rfl
      | some position => rfl

end Placed

end MmixAsm

------------------------------------------------------------
-- Labels Of Operations
------------------------------------------------------------

namespace MmixAsm

/- The label that names the position of an operation. -/
def Statement.codeLabel? :
    Statement → Option String
| .op line => line.label
| _ => none

theorem Statement.codeLabel?_mapParameters
    (statement : Statement)
    (f : String → String) :
    (statement.mapParameters f).codeLabel? =
      statement.codeLabel? := by
  cases statement with
  | op line => rfl
  | alloc line => rfl
  | padding => rfl

/- The position of the first operation with a label. -/
def codePosition?
    (program : List Statement)
    (label : String) : Option Nat :=
  program.findIdx? (·.codeLabel? = some label)

namespace LabelTable

theorem get?_bindStatement
    (table : LabelTable)
    (position : Nat)
    (statement : Statement)
    (label : String) :
    (table.bindStatement position statement).get? label =
      (table.get? label).or
        (if statement.codeLabel? = some label then
          some (toString position)
        else
          none) := by
  cases statement with
  | op line => exact get?_bindOptional _ _ _ _
  | alloc line => simp [bindStatement, Statement.codeLabel?]
  | padding => simp [bindStatement, Statement.codeLabel?]

/- Operations bind their labels to their positions. -/
theorem get?_bindCode
    (table : LabelTable)
    (statements : List Statement)
    (label : String) :
    (table.bindCode statements).get? label =
      (table.get? label).or
        ((codePosition? statements label).map toString) := by
  -- The positions of the statements that are left begin
  -- anywhere.
  have hFrom : ∀ position,
      ((statements.zipIdx position).foldl
        (fun acc entry => acc.bindStatement entry.2 entry.1)
        table).get? label =
      (table.get? label).or
        ((codePosition? statements label).map
          fun index => toString (index + position)) := by
    induction statements generalizing table with
    | nil => simp [codePosition?]
    | cons statement rest ih =>
        intro position
        rw [List.zipIdx_cons, List.foldl_cons, ih,
          get?_bindStatement, Option.or_assoc]
        unfold codePosition?
        rw [List.findIdx?_cons]
        by_cases hLabel : statement.codeLabel? = some label
        · simp [hLabel]
        · simp [hLabel, Function.comp_def, Nat.add_comm,
            Nat.add_left_comm]
  exact hFrom 0

end LabelTable

end MmixAsm

------------------------------------------------------------
-- All Bindings Of A Program
------------------------------------------------------------

namespace MmixAsm

/-
  What a label of a program stands for: what the first IS or
  GREG line with this label says, or else where the first
  moved block with this label is spliced in, or else the
  position of the first operation with this label.
-/
def bindingOf
    (instructions : List Instruction)
    (items : List Item)
    (program : List Statement)
    (label : String) : Option String :=
  (declaredFrom 1 label
      (instructions.filterMap Instruction.directive?)).or
    ((((declaredBlocks items).findSome?
        (Block.spliceUnder? (statementsOf items).length
          label)).map toString).or
      ((codePosition? program label).map toString))

/- The label table of a program whose blocks are placed. -/
def Placed.bindings (placed : Placed) : LabelTable :=
  placed.labels.bindCode placed.stream.statements

/- The passes of a layout. -/
theorem layOut_cases
    {limit : Nat}
    {instructions : List Instruction}
    {program : List Statement}
    (h : layOut limit instructions = .ok program) :
    ∃ items symbols placed,
      pad limit instructions = .ok items ∧
        Symbols.collect items = .ok symbols ∧
        Placed.ofBlocks (statementsOf items) symbols.labels
          symbols.blocks = .ok placed ∧
        program = placed.resolve := by
  rcases exists_of_bind_eq_ok h with ⟨items, hItems, h⟩
  rcases exists_of_bind_eq_ok h with ⟨symbols, hSymbols, h⟩
  rcases exists_of_bind_eq_ok h with ⟨placed, hPlaced, h⟩
  cases h
  exact ⟨items, symbols, placed, hItems, hSymbols, hPlaced, rfl⟩

/- Padding leaves all directives but LOC. -/
theorem directivesOf_of_pad
    {limit : Nat}
    {instructions : List Instruction}
    {items : List Item}
    (h : pad limit instructions = .ok items) :
    directivesOf items =
      (instructions.filterMap Instruction.directive?).filter
        (·.keyword ≠ .loc) := by
  have hItems := congrArg (List.filterMap Item.directive?)
    (items_of_padFrom h)
  rw [List.filterMap_filter, List.filterMap_filterMap]
    at hItems
  unfold directivesOf
  rw [List.filter_filterMap]
  refine Eq.trans ?_ (hItems.trans ?_)
  · apply List.filterMap_congr
    intro item _
    cases item with
    | statement content => simp [Item.directive?]
    | control line => simp
  · apply List.filterMap_congr
    intro instruction _
    cases instruction with
    | op line => rfl
    | alloc line => rfl
    | control line =>
        by_cases hLoc : line.keyword = .loc
        · simp [Instruction.item?, Instruction.directive?,
            Option.filter, hLoc]
        · simp [Instruction.item?, Instruction.directive?,
            Item.directive?, Option.filter, hLoc]
    | macroLine line => rfl
    | macroTemplate line body => rfl

theorem codePosition?_map
    (statements : List Statement)
    (f : String → String)
    (label : String) :
    codePosition? (statements.map (Statement.mapParameters f))
        label =
      codePosition? statements label := by
  unfold codePosition?
  rw [List.findIdx?_map]
  congr 1
  funext statement
  rw [Function.comp_apply, Statement.codeLabel?_mapParameters]

/- The label table of a program holds all its bindings. -/
theorem get?_bindings
    {limit : Nat}
    {instructions : List Instruction}
    {items : List Item}
    {symbols : Symbols}
    {placed : Placed}
    (hItems : pad limit instructions = .ok items)
    (hSymbols : Symbols.collect items = .ok symbols)
    (hPlaced : Placed.ofBlocks (statementsOf items)
      symbols.labels symbols.blocks = .ok placed)
    (label : String) :
    placed.bindings.get? label =
      bindingOf instructions items placed.resolve label := by
  have hBlocks := Placed.labels_of_places (.refl _)
    (Symbols.bounded_of_collect hSymbols) hPlaced label
  rw [Symbols.labels_of_collect hSymbols,
    directivesOf_of_pad hItems, declaredFrom_without_loc,
    Symbols.blocks_of_collect hSymbols] at hBlocks
  unfold Placed.bindings bindingOf Placed.resolve
    LabelTable.apply
  rw [LabelTable.get?_bindCode, hBlocks, Option.or_assoc,
    codePosition?_map]

end MmixAsm

------------------------------------------------------------
-- Layouts Without A Register Left
------------------------------------------------------------

namespace MmixAsm

theorem ofBlocks_ne_registersExhausted
    (statements : List Statement)
    (labels : LabelTable)
    (blocks : List Block) :
    Placed.ofBlocks statements labels blocks ≠
      .error .registersExhausted := by
  intro h
  rcases fails_of_foldlM_eq_error h with
    ⟨state, block, _, hPlace⟩
  have hPlan := fails_of_map_eq_error hPlace
  unfold Block.plan at hPlan
  split at hPlan
  · cases hPlan
  · cases hPlan
  · split at hPlan
    · cases hPlan
    · split at hPlan
      · cases hPlan
      · cases hPlan

/- Only reading the directives can want a register. -/
theorem layOut_eq_registersExhausted_iff
    (limit : Nat)
    (instructions : List Instruction) :
    layOut limit instructions = .error .registersExhausted ↔
      ∃ items, pad limit instructions = .ok items ∧
        Symbols.collect items = .error .registersExhausted := by
  constructor
  · intro h
    rcases fails_of_bind_eq_error h with
      hPad | ⟨items, hItems, h⟩
    · exact (padFrom_ne_registersExhausted _ _ _ hPad).elim
    rcases fails_of_bind_eq_error h with
      hSymbols | ⟨symbols, _, h⟩
    · exact ⟨items, hItems, hSymbols⟩
    rcases fails_of_bind_eq_error h with
      hPlaced | ⟨placed, _, h⟩
    · exact (ofBlocks_ne_registersExhausted _ _ _ hPlaced).elim
    · cases h
  · rintro ⟨items, hItems, hSymbols⟩
    unfold layOut
    rw [hItems]
    simp only [Except.bind, bind, hSymbols]

/-
  In every accepted program each label stands for what IS and
  GREG declare, else for where a block is spliced in, else
  for the position of an operation.  The statements are put
  into a new order, and every parameter that is a bound label
  is replaced by its meaning once.  A program fails for want
  of a register exactly when its 224th GREG is reached.
-/
theorem layOut_binds_labels
    (limit : Nat)
    (instructions : List Instruction) :
    (∀ program, layOut limit instructions = .ok program →
      ∃ items symbols placed,
        pad limit instructions = .ok items ∧
          Symbols.collect items = .ok symbols ∧
          Placed.ofBlocks (statementsOf items) symbols.labels
            symbols.blocks = .ok placed ∧
          placed.stream.Perm
            (Stream.ofStatements (statementsOf items)) ∧
          (∀ label, placed.bindings.get? label =
            bindingOf instructions items program label) ∧
          program = placed.stream.statements.map
            (Statement.mapParameters fun parameter =>
              (bindingOf instructions items program
                parameter).getD parameter)) ∧
    (layOut limit instructions = .error .registersExhausted ↔
      ∃ items front line back symbols,
        pad limit instructions = .ok items ∧
          items = front ++ .control line :: back ∧
          Symbols.collect front = .ok symbols ∧
          line.keyword = .greg ∧
          gregCount (directivesOf front) = 223) := by
  constructor
  · intro program hProgram
    rcases layOut_cases hProgram with
      ⟨items, symbols, placed, hItems, hSymbols, hPlaced, rfl⟩
    have hBindings := get?_bindings hItems hSymbols hPlaced
    refine ⟨items, symbols, placed, hItems, hSymbols, hPlaced,
      Placed.perm_of_places hPlaced, hBindings, ?_⟩
    simp only [← hBindings]
    rfl
  · rw [layOut_eq_registersExhausted_iff]
    constructor
    · rintro ⟨items, hItems, hSymbols⟩
      rcases Symbols.registersExhausted_iff.mp hSymbols with
        ⟨front, line, back, symbols, hFront⟩
      exact ⟨items, front, line, back, symbols, hItems, hFront⟩
    · rintro ⟨items, front, line, back, symbols, hItems, hFront⟩
      exact ⟨items, hItems,
        Symbols.registersExhausted_iff.mpr
          ⟨front, line, back, symbols, hFront⟩⟩

/-
  Labels that several lines share.  The first IS wins over a
  USE and an operation, USE wins over an operation, and the
  block `v` is wanted inside itself and binds nothing.
-/
def sharedLabels : List Instruction := [
  .control ⟨some "a", .equate, ["9"]⟩,
  .control ⟨some "a", .equate, ["8"]⟩,
  .control ⟨none, .greg, []⟩,
  .control ⟨some "r", .greg, ["0"]⟩,
  .control ⟨none, .block, ["u"]⟩,
  .op ⟨some "a", "SETL", ["$1", "a"]⟩,
  .op ⟨some "b", "SETL", ["$1", "b"]⟩,
  .control ⟨none, .endBlock, ["u"]⟩,
  .op ⟨some "c", "SETL", ["r", "c"]⟩,
  .op ⟨some "c", "SETL", ["$2", "d"]⟩,
  .control ⟨some "b", .place, ["u"]⟩,
  .control ⟨some "d", .place, ["v"]⟩,
  .control ⟨none, .block, ["v"]⟩,
  .alloc ⟨some "d", .byte, ["1"]⟩,
  .control ⟨none, .endBlock, ["v"]⟩]

def sharedProgram : List Statement := [
  .op ⟨some "c", "SETL", ["$253", "0"]⟩,
  .op ⟨some "c", "SETL", ["$2", "d"]⟩,
  .alloc ⟨some "d", .byte, ["1"]⟩,
  .op ⟨some "a", "SETL", ["$1", "9"]⟩,
  .op ⟨some "b", "SETL", ["$1", "3"]⟩]

theorem sharedLabels_binding :
    layOut 0 sharedLabels = .ok sharedProgram ∧
      ∃ items symbols placed,
        pad 0 sharedLabels = .ok items ∧
          Symbols.collect items = .ok symbols ∧
          Placed.ofBlocks (statementsOf items) symbols.labels
            symbols.blocks = .ok placed ∧
          (∀ label, placed.bindings.get? label =
            bindingOf sharedLabels items sharedProgram label) ∧
          ["a", "b", "c", "d", "r"].map
              (bindingOf sharedLabels items sharedProgram) =
            [some "9", some "3", some "0", none,
              some "$253"] := by
  let shown : List Item :=
    (pad 0 sharedLabels).toOption.getD []
  have hProgram : layOut 0 sharedLabels = .ok sharedProgram := by
    decide +kernel
  have hShown : pad 0 sharedLabels = .ok shown := by
    decide +kernel
  refine ⟨hProgram, ?_⟩
  rcases (layOut_binds_labels 0 sharedLabels).1 _ hProgram with
    ⟨items, symbols, placed, hItems, hSymbols, hPlaced, _,
      hBindings, _⟩
  refine ⟨items, symbols, placed, hItems, hSymbols, hPlaced,
    hBindings, ?_⟩
  cases hShown.symm.trans hItems
  decide +kernel

end MmixAsm
