import MmixAsm.Assembly
import MmixAsm.Proofs.IncludedFiles
import MmixAsm.Proofs.PaddedItems
import MmixAsm.Proofs.PlainPrograms
import MmixAsm.Proofs.RoundTrip
import MmixAsm.Proofs.TableBuilder

/-
  What each stage may rely on.

  Reading gives well-formed files, the macro layer gives plain
  programs, padding leaves no LOC, and the layout keeps every
  mnemonic.  So no stage ever meets something that the stages
  in front of it are there to remove.

  Key definitions include:
    * `MmixAsm.Statement.IsKnown`
    * `MmixAsm.Item.IsOrderly`
    * `MmixAsm.Symbols.collectGuarded`

  Key theorems include:
    * `MmixAsm.isOrderly_of_padFrom`
    * `MmixAsm.Symbols.collectGuarded_eq`
    * `MmixAsm.isKnown_of_layOut`
    * `MmixAsm.stages_meet_contracts`
-/

------------------------------------------------------------
-- Padding
------------------------------------------------------------

namespace MmixAsm

/- A statement whose mnemonic, if any, is known. -/
def Statement.IsKnown :
    Statement → Prop
| .op line => (Mnemonic.opcode? line.keyword).isSome
| .alloc _ => True
| .padding => True

/- What padding leaves: known statements and no LOC. -/
def Item.IsOrderly :
    Item → Prop
| .statement content => content.IsKnown
| .control line => line.keyword ≠ .loc

/- Padding a plain program leaves orderly items. -/
theorem isOrderly_of_padFrom
    {limit position : Nat}
    {instructions : List Instruction}
    {items : List Item}
    (hPlain : ∀ instruction ∈ instructions,
      instruction.IsPlain)
    (hPad : padFrom limit position instructions = .ok items) :
    ∀ item ∈ items, item.IsOrderly := by
  fun_induction padFrom limit position instructions
    generalizing items with
  | case1 =>
      cases hPad
      intro item hItem
      cases hItem
  | case2 position line rest ih =>
      rcases exists_of_map_eq_ok hPad with
        ⟨others, hOthers, rfl⟩
      have hRest :=
        ih (List.forall_mem_cons.mp hPlain).2 hOthers
      have hLine := hPlain (.op line) List.mem_cons_self
      exact List.forall_mem_cons.mpr ⟨hLine, hRest⟩
  | case3 position line rest ih =>
      rcases exists_of_map_eq_ok hPad with
        ⟨others, hOthers, rfl⟩
      have hRest :=
        ih (List.forall_mem_cons.mp hPlain).2 hOthers
      exact List.forall_mem_cons.mpr ⟨trivial, hRest⟩
  | case4 => cases hPad
  | case5 position line rest hLoc padding hPadding ih =>
      rcases exists_of_map_eq_ok hPad with
        ⟨others, hOthers, rfl⟩
      have hRest :=
        ih (List.forall_mem_cons.mp hPlain).2 hOthers
      intro item hItem
      rcases List.mem_append.mp hItem with hPadded | hItem
      · rw [List.eq_of_mem_replicate hPadded]
        trivial
      · exact hRest item hItem
  | case6 position line rest hLoc ih =>
      rcases exists_of_map_eq_ok hPad with
        ⟨others, hOthers, rfl⟩
      have hRest :=
        ih (List.forall_mem_cons.mp hPlain).2 hOthers
      exact List.forall_mem_cons.mpr ⟨hLoc, hRest⟩
  | case7 => cases hPad

namespace LayoutError

/- Whether an error says that a macro is left. -/
def blamesMacro :
    LayoutError → Bool
| .unexpectedMacro _ => true
| _ => false

end LayoutError

theorem blamesMacro_of_paddingOf
    {limit position : Nat}
    {line : Line Directive}
    {e : LayoutError}
    (hPadding : paddingOf limit position line = .error e) :
    e.blamesMacro = false := by
  unfold paddingOf at hPadding
  split at hPadding
  · cases hPadding
    rfl
  · split at hPadding
    · cases hPadding
      rfl
    · simp only at hPadding
      split at hPadding
      · cases hPadding
        rfl
      · cases hPadding

/- Padding a plain program meets no macro. -/
theorem blamesMacro_of_padFrom
    {limit position : Nat}
    {instructions : List Instruction}
    {e : LayoutError}
    (hPlain : ∀ instruction ∈ instructions,
      instruction.IsPlain)
    (hPad : padFrom limit position instructions = .error e) :
    e.blamesMacro = false := by
  fun_induction padFrom limit position instructions with
  | case1 => cases hPad
  | case2 position line rest ih =>
      exact ih (List.forall_mem_cons.mp hPlain).2
        (fails_of_map_eq_error hPad)
  | case3 position line rest ih =>
      exact ih (List.forall_mem_cons.mp hPlain).2
        (fails_of_map_eq_error hPad)
  | case4 position line rest hLoc fault hPadding =>
      cases hPad
      exact blamesMacro_of_paddingOf hPadding
  | case5 position line rest hLoc padding hPadding ih =>
      exact ih (List.forall_mem_cons.mp hPlain).2
        (fails_of_map_eq_error hPad)
  | case6 position line rest hLoc ih =>
      exact ih (List.forall_mem_cons.mp hPlain).2
        (fails_of_map_eq_error hPad)
  | case7 position instruction rest hOp hAlloc hControl =>
      have hFirst := hPlain instruction List.mem_cons_self
      cases instruction with
      | op line => exact (hOp line rfl).elim
      | alloc line => exact (hAlloc line rfl).elim
      | control line => exact (hControl line rfl).elim
      | macroLine line => exact hFirst.elim
      | macroTemplate line body => exact hFirst.elim

end MmixAsm

------------------------------------------------------------
-- Directives
------------------------------------------------------------

namespace MmixAsm

/-
  Why directives cannot be read: an error of the program, or
  a directive that is dealt with elsewhere.
-/
inductive DirectiveFault where
  | rejected (error : LayoutError)
  | dealtWith (directive : Directive)
deriving DecidableEq

namespace Symbols

/-
  Read one directive.  LOC is replaced by padding before, and
  GREG does not come to the directives with a parameter.
-/
def declareGuarded
    (symbols : Symbols)
    (position : Nat)
    (line : Line Directive) : Except DirectiveFault Symbols :=
  if line.keyword = .greg then
    (symbols.takeRegister line.label).mapError .rejected
  else
    match line.parameters with
    | [] => .error (.rejected (.missingParameter line.keyword))
    | parameter :: _ =>
        match line.keyword with
        | .loc => .error (.dealtWith .loc)
        | .greg => .error (.dealtWith .greg)
        | directive =>
            (symbols.declareWith position line.label parameter
              directive).mapError .rejected

/- Read one item; the first component is the position. -/
def stepGuarded
    (state : Nat × Symbols) :
    Item → Except DirectiveFault (Nat × Symbols)
| .statement _ => .ok (state.1 + 1, state.2)
| .control line =>
    (state.2.declareGuarded state.1 line).map (state.1, ·)

/- Read all directives of a program in order. -/
def collectGuarded
    (items : List Item) : Except DirectiveFault Symbols :=
  (items.foldlM stepGuarded (0, empty)).map (·.2)

theorem declareGuarded_eq
    {line : Line Directive}
    (hLoc : line.keyword ≠ .loc)
    (symbols : Symbols)
    (position : Nat) :
    symbols.declareGuarded position line =
      (symbols.declare position line).mapError .rejected := by
  unfold declareGuarded declare
  split
  · rfl
  · next hGreg =>
      cases line.parameters with
      | nil => rfl
      | cons parameter others =>
          cases hKeyword : line.keyword with
          | loc => exact absurd hKeyword hLoc
          | greg => exact absurd hKeyword hGreg
          | equate => rfl
          | place => rfl
          | block => rfl
          | endBlock => rfl

/- Among orderly items every directive can be read. -/
theorem collectGuarded_eq
    {items : List Item}
    (hItems : ∀ item ∈ items, item.IsOrderly) :
    collectGuarded items =
      (collect items).mapError .rejected := by
  have hStep : ∀ state, ∀ item ∈ items,
      stepGuarded state item =
        (step state item).mapError .rejected := by
    intro state item hItem
    cases item with
    | statement content => rfl
    | control line =>
        have hLoc := hItems _ hItem
        rw [stepGuarded, step, declareGuarded_eq hLoc]
        cases state.2.declare state.1 line <;> rfl
  unfold collectGuarded collect
  rw [foldlM_mapError hStep]
  cases items.foldlM step (0, empty) <;> rfl

end Symbols

end MmixAsm

------------------------------------------------------------
-- Layout
------------------------------------------------------------

namespace MmixAsm

/- Reading directives meets no macro. -/
theorem blamesMacro_of_declare
    {symbols : Symbols}
    {position : Nat}
    {line : Line Directive}
    {e : LayoutError}
    (hDeclare : symbols.declare position line = .error e) :
    e.blamesMacro = false := by
  unfold Symbols.declare at hDeclare
  split at hDeclare
  · unfold Symbols.takeRegister at hDeclare
    split at hDeclare
    · cases hDeclare
      rfl
    · cases hDeclare
  · split at hDeclare
    · cases hDeclare
      rfl
    · unfold Symbols.declareWith at hDeclare
      split at hDeclare
      · cases hDeclare
      · have hClose := fails_of_map_eq_error hDeclare
        unfold Block.close at hClose
        split at hClose
        · cases hClose
          rfl
        · split at hClose
          · cases hClose
          · cases hClose
            rfl
      · cases hDeclare
      · split at hDeclare
        · cases hDeclare
          rfl
        · cases hDeclare
      · cases hDeclare
      · cases hDeclare

theorem blamesMacro_of_collect
    {items : List Item}
    {e : LayoutError}
    (hCollect : Symbols.collect items = .error e) :
    e.blamesMacro = false := by
  rcases fails_of_foldlM_eq_error
    (fails_of_map_eq_error hCollect) with
    ⟨state, item, -, hStep⟩
  cases item with
  | statement content => cases hStep
  | control line =>
      exact blamesMacro_of_declare
        (fails_of_map_eq_error hStep)

theorem blamesMacro_of_ofBlocks
    {statements : List Statement}
    {labels : LabelTable}
    {blocks : List Block}
    {e : LayoutError}
    (hBlocks : Placed.ofBlocks statements labels blocks =
      .error e) :
    e.blamesMacro = false := by
  rcases fails_of_foldlM_eq_error hBlocks with
    ⟨placed, block, -, hPlace⟩
  have hPlan := fails_of_map_eq_error hPlace
  unfold Block.plan at hPlan
  split at hPlan
  · cases hPlan
    rfl
  · cases hPlan
    rfl
  · split at hPlan
    · cases hPlan
    · split at hPlan <;> cases hPlan

/- Laying out a plain program meets no macro. -/
theorem blamesMacro_of_layOut
    {limit : Nat}
    {instructions : List Instruction}
    {e : LayoutError}
    (hPlain : ∀ instruction ∈ instructions,
      instruction.IsPlain)
    (hLayOut : layOut limit instructions = .error e) :
    e.blamesMacro = false := by
  rcases fails_of_bind_eq_error hLayOut with
    hPad | ⟨items, -, hLayOut⟩
  · exact blamesMacro_of_padFrom hPlain hPad
  rcases fails_of_bind_eq_error hLayOut with
    hCollect | ⟨symbols, -, hLayOut⟩
  · exact blamesMacro_of_collect hCollect
  rcases fails_of_bind_eq_error hLayOut with
    hBlocks | ⟨placed, -, hLayOut⟩
  · exact blamesMacro_of_ofBlocks hBlocks
  · cases hLayOut

/- Replacing parameters leaves the mnemonic. -/
theorem Statement.IsKnown.mapParameters
    {statement : Statement}
    (hKnown : statement.IsKnown)
    (f : String → String) :
    (statement.mapParameters f).IsKnown := by
  cases statement <;> exact hKnown

/- Moving a range neither adds nor removes statements. -/
theorem Stream.mem_move
    {stream : Stream}
    {first last origin : Nat}
    {entry : Statement × Nat}
    (hEntry : entry ∈ stream.move first last origin) :
    entry ∈ stream := by
  rcases List.mem_append.mp hEntry with hEntry | hBehind
  · rcases List.mem_append.mp hEntry with hBefore | hInside
    · exact (List.mem_filter.mp (List.mem_of_mem_take hBefore)).1
    · exact (List.mem_filter.mp hInside).1
  · exact (List.mem_filter.mp (List.mem_of_mem_drop hBehind)).1

/- Placing blocks keeps the statements. -/
theorem isKnown_of_ofBlocks
    {statements : List Statement}
    {labels : LabelTable}
    {blocks : List Block}
    {placed : Placed}
    (hKnown : ∀ statement ∈ statements, statement.IsKnown)
    (hBlocks : Placed.ofBlocks statements labels blocks =
      .ok placed) :
    ∀ entry ∈ placed.stream, entry.1.IsKnown := by
  refine invariant_of_foldlM_eq_ok
    (motive := fun state =>
      ∀ entry ∈ state.stream, entry.1.IsKnown) ?_ ?_ hBlocks
  · intro entry hEntry
    exact hKnown _ (List.fst_mem_of_mem_zipIdx hEntry)
  · intro state block next _ hState hPlace
    rcases exists_of_map_eq_ok hPlace with ⟨plan, -, rfl⟩
    cases plan with
    | unused => exact hState
    | insideItself => exact hState
    | move first last origin =>
        intro entry hEntry
        exact hState entry (Stream.mem_move hEntry)

/- The layout of a plain program has known mnemonics only. -/
theorem isKnown_of_layOut
    {limit : Nat}
    {instructions : List Instruction}
    {statements : List Statement}
    (hPlain : ∀ instruction ∈ instructions,
      instruction.IsPlain)
    (hLayOut : layOut limit instructions = .ok statements) :
    ∀ statement ∈ statements, statement.IsKnown := by
  rcases exists_of_bind_eq_ok hLayOut with
    ⟨items, hPad, hLayOut⟩
  rcases exists_of_bind_eq_ok hLayOut with
    ⟨symbols, -, hLayOut⟩
  rcases exists_of_bind_eq_ok hLayOut with
    ⟨placed, hBlocks, hLayOut⟩
  cases hLayOut
  have hOrderly := isOrderly_of_padFrom hPlain hPad
  have hItems : ∀ statement ∈ statementsOf items,
      statement.IsKnown := by
    intro statement hStatement
    rcases List.mem_filterMap.mp hStatement with
      ⟨item, hItem, hSome⟩
    cases item with
    | statement content =>
        cases hSome
        exact hOrderly _ hItem
    | control line => cases hSome
  have hPlaced := isKnown_of_ofBlocks hItems hBlocks
  intro statement hStatement
  rcases List.mem_map.mp hStatement with ⟨old, hOld, rfl⟩
  rcases List.mem_map.mp hOld with ⟨entry, hEntry, rfl⟩
  exact (hPlaced entry hEntry).mapParameters _

end MmixAsm

------------------------------------------------------------
-- Machine Words
------------------------------------------------------------

namespace MmixAsm

/- Whether an error says that a mnemonic is unknown. -/
def CodeError.blamesMnemonic :
    CodeError → Bool
| .unknownMnemonic _ => true
| _ => false

theorem blamesMnemonic_of_operand
    {text : String}
    {e : CodeError}
    (hOperand : operand text = .error e) :
    e.blamesMnemonic = false := by
  rcases fails_of_mapError_eq_error hOperand with
    ⟨cause, -, rfl⟩
  rfl

/- A statement with a known mnemonic is not blamed for it. -/
theorem blamesMnemonic_of_words
    {statement : Statement}
    {e : CodeError}
    (hKnown : statement.IsKnown)
    (hWords : statement.words = .error e) :
    e.blamesMnemonic = false := by
  cases statement with
  | op line =>
      have hWord := fails_of_map_eq_error hWords
      unfold opWord at hWord
      split at hWord
      · next hNone =>
          have hSome : (Mnemonic.opcode? line.keyword).isSome :=
            hKnown
          rw [hNone] at hSome
          cases hSome
      · split at hWord
        · next hOperands =>
            cases hWord
            rcases fails_of_mapM_eq_error hOperands with
              ⟨text, -, hOperand⟩
            exact blamesMnemonic_of_operand hOperand
        · cases hWord
  | alloc line =>
      have hAlloc : allocWords line = .error e := hWords
      unfold allocWords at hAlloc
      split at hAlloc
      · cases hAlloc
        rfl
      · split at hAlloc
        · cases hAlloc
        · exact blamesMnemonic_of_operand
            (fails_of_map_eq_error hAlloc)
  | padding => cases hWords

theorem blamesMnemonic_of_assembleWords
    {statements : List Statement}
    {e : CodeError}
    (hKnown : ∀ statement ∈ statements, statement.IsKnown)
    (hWords : assembleWords statements = .error e) :
    e.blamesMnemonic = false := by
  rcases fails_of_mapM_eq_error
    (fails_of_map_eq_error hWords) with
    ⟨statement, hStatement, hFail⟩
  have hApplied := (hKnown statement hStatement).mapParameters
    (AddressTable.ofStatements statements).resolve
  exact blamesMnemonic_of_words hApplied hFail

end MmixAsm

------------------------------------------------------------
-- All Stages
------------------------------------------------------------

namespace MmixAsm

/- What is read from sources is well-formed. -/
theorem wellFormed_of_parseSources
    {sources : List Source}
    {files : List SourceFile}
    (hParse : parseSources sources = .ok files) :
    ∀ file ∈ files,
      ∀ line ∈ file.instructions, line.WellFormed := by
  intro file hFile
  rcases exists_mem_of_forall₂
    (forall₂_of_mapM_eq_ok hParse).flip hFile with
    ⟨source, -, hSource⟩
  exact SourceFile.wellFormed_of_parse
    (ok_of_mapError_eq_ok hSource)

/- Whether an error says that an earlier stage failed. -/
def AssemblyError.blamesEarlierStage :
    AssemblyError → Bool
| .parse _ _ => false
| .macros error => error.lacksTemplate
| .preprocess error => error.blamesMacro
| .compile error => error.blamesMnemonic

theorem blamesEarlierStage_of_assemble
    {limit : Nat}
    {stage : Stage}
    {sources : List Source}
    {e : AssemblyError}
    (hAssemble : assemble limit stage sources = .error e) :
    e.blamesEarlierStage = false := by
  unfold assemble at hAssemble
  rcases fails_of_bind_eq_error hAssemble with
    hParse | ⟨files, hParse, hAssemble⟩
  · rcases fails_of_mapM_eq_error hParse with
      ⟨source, -, hSource⟩
    rcases fails_of_mapError_eq_error hSource with
      ⟨cause, -, rfl⟩
    rfl
  have hFiles := wellFormed_of_parseSources hParse
  split at hAssemble
  · cases hAssemble
  rcases fails_of_bind_eq_error hAssemble with
    hProgram | ⟨instructions, hProgram, hAssemble⟩
  · rcases fails_of_mapError_eq_error hProgram with
      ⟨cause, hCause, rfl⟩
    exact lacksTemplate_of_expandProgram hFiles hCause
  have hPlain := isPlain_of_expandProgram hFiles
    (ok_of_mapError_eq_ok hProgram)
  split at hAssemble
  · cases hAssemble
  rcases fails_of_bind_eq_error hAssemble with
    hLayOut | ⟨statements, hLayOut, hAssemble⟩
  · rcases fails_of_mapError_eq_error hLayOut with
      ⟨cause, hCause, rfl⟩
    exact blamesMacro_of_layOut hPlain hCause
  have hKnown := isKnown_of_layOut hPlain
    (ok_of_mapError_eq_ok hLayOut)
  split at hAssemble
  · cases hAssemble
  rcases fails_of_bind_eq_error hAssemble with
    hWords | ⟨words, -, hAssemble⟩
  · rcases fails_of_mapError_eq_error hWords with
      ⟨cause, hCause, rfl⟩
    exact blamesMnemonic_of_assembleWords hKnown hCause
  · cases hAssemble

/-
  Each stage establishes what the next one relies on.  The
  program behind the macro layer holds no macro instruction.
  The work never fails with an error that says otherwise, or
  that a mnemonic is unknown or a template missing.  Building
  a table in one pass is never stuck, and neither is reading
  directives, since LOC and GREG do not come that far.
-/
theorem stages_meet_contracts
    (limit : Nat)
    (stage : Stage)
    (sources : List Source) :
    (∀ e, assemble limit stage sources = .error e →
      (∀ text, e ≠ .preprocess (.unexpectedMacro text)) ∧
      (∀ mnemonic,
        e ≠ .compile (.unknownMnemonic mnemonic)) ∧
      (∀ file name,
        e ≠ .macros (.missingTemplate file name))) ∧
    ∀ files, parseSources sources = .ok files →
      (∀ file ∈ files,
        SourceUnit.build file =
          (SourceUnit.ofFile file).mapError .rejected) ∧
      ∀ instructions,
        expandProgram files = .ok instructions →
        (∀ instruction ∈ instructions,
          instruction.isMacro = false) ∧
        ∀ items, pad limit instructions = .ok items →
          Symbols.collectGuarded items =
            (Symbols.collect items).mapError .rejected := by
  constructor
  · intro e hAssemble
    have hBlames := blamesEarlierStage_of_assemble hAssemble
    refine ⟨?_, ?_, ?_⟩
    · rintro text rfl
      cases hBlames
    · rintro mnemonic rfl
      cases hBlames
    · rintro file name rfl
      cases hBlames
  · intro files hParse
    refine ⟨fun file _ => SourceUnit.build_eq_ofFile file, ?_⟩
    intro instructions hProgram
    have hPlain := isPlain_of_expandProgram
      (wellFormed_of_parseSources hParse) hProgram
    refine ⟨fun instruction hMem =>
      (hPlain instruction hMem).isMacro_eq_false, ?_⟩
    intro items hPad
    exact Symbols.collectGuarded_eq
      (isOrderly_of_padFrom hPlain hPad)

/- A file with a template, a region, LOC and GREG. -/
def contractSource : Source where
  name := "main"
  text :=
    "inc MACRO r ADD &r,&r,1\nMain LOC 2\nbase GREG\n"
      ++ "USEMACRO inc,$1\nIFDEF inc\nSWYM\nENDIF"

def contractFile : SourceFile where
  name := "main"
  instructions := [
    .macroTemplate ⟨some "inc", .definition, ["r"]⟩
      (.op ⟨none, "ADD", ["&r", "&r", "1"]⟩),
    .control ⟨none, .loc, ["2"]⟩,
    .control ⟨some "base", .greg, []⟩,
    .macroLine ⟨none, .application, ["inc", "$1"]⟩,
    .macroLine ⟨none, .ifDefined, ["inc"]⟩,
    .op ⟨none, "SWYM", []⟩,
    .macroLine ⟨none, .endIf, []⟩]
  isEntry := true

def contractProgram : List Instruction := [
  .control ⟨none, .loc, ["2"]⟩,
  .control ⟨some "base", .greg, []⟩,
  .op ⟨none, "ADD", ["$1", "$1", "1"]⟩,
  .op ⟨none, "SWYM", []⟩]

theorem contractSource_meets_contracts :
    parseSources [contractSource] = .ok [contractFile] ∧
      expandProgram [contractFile] = .ok contractProgram ∧
      assemble 1 .compile [contractSource] =
        .error (.preprocess (.locOutOfRange 2 2 1)) ∧
      SourceUnit.build contractFile =
        (SourceUnit.ofFile contractFile).mapError .rejected ∧
      (∀ instruction ∈ contractProgram,
        instruction.isMacro = false) ∧
      ∃ items, pad 2 contractProgram = .ok items ∧
        Symbols.collectGuarded items =
          (Symbols.collect items).mapError .rejected := by
  let library :=
    (Library.ofFiles [contractFile]).toOption.getD .empty
  let selected := library.selected.toOption.getD .empty
  let expanded := selected.expanded.toOption.getD .empty
  let unit := (expanded.unit? "main").getD ⟨[], []⟩
  have hParse : parseSources [contractSource] =
      .ok [contractFile] := by
    decide +kernel
  have hEntry : entryFile [contractFile] = .ok "main" := by
    decide
  have hLibrary : Library.ofFiles [contractFile] =
      .ok library := by
    decide +kernel
  have hSelected : library.selected = .ok selected := by
    decide +kernel
  have hExpanded : selected.expanded = .ok expanded := by
    decide +kernel
  have hUnit : expanded.unit? "main" = some unit := by
    decide +kernel
  have hAlone : unit.liveInclusions = [] := by
    decide +kernel
  have hInstructions : unit.instructions =
      contractProgram := by
    decide +kernel
  have hFlatten :=
    Library.flatten_of_liveInclusions hUnit hAlone
  rw [hInstructions] at hFlatten
  have hProgram : expandProgram [contractFile] =
      .ok contractProgram := by
    unfold expandProgram
    rw [hEntry]
    simp only [Except.bind, bind, hLibrary, hSelected,
      hExpanded, hFlatten]
  have hLayOut : layOut 1 contractProgram =
      .error (.locOutOfRange 2 2 1) := by
    decide +kernel
  have hAssemble : assemble 1 .compile [contractSource] =
      .error (.preprocess (.locOutOfRange 2 2 1)) := by
    unfold assemble
    rw [hParse]
    simp [Except.bind, bind, hProgram, hLayOut,
      Except.mapError]
  have hMeets := stages_meet_contracts 2 .compile
    [contractSource]
  rcases hMeets.2 _ hParse with ⟨hBuild, hRest⟩
  rcases hRest _ hProgram with ⟨hMacro, hItems⟩
  exact ⟨hParse, hProgram, hAssemble,
    hBuild _ List.mem_cons_self, hMacro, _, rfl,
    hItems _ rfl⟩

end MmixAsm
