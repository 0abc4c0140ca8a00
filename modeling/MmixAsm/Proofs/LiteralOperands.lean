import MmixAsm.Proofs.LabelBindings
import MmixAsm.Proofs.OperationWords

/-
  What an operand is encoded as.

  A parameter is replaced as a text, first if it is a bound
  label and then if it is a data label, and what comes out is
  encoded.  Labels may be spelled like numbers and registers,
  so a literal is safe from being replaced only if no line
  has it as its label.

  Key definitions include:
    * `MmixAsm.isLabel`
    * `MmixAsm.Placed.meaning`
    * `MmixAsm.Line.KeepsLiterals`

  Key theorems include:
    * `MmixAsm.get?_bindings_eq_none`
    * `MmixAsm.AddressTable.resolve_eq_self`
    * `MmixAsm.Placed.opWord_of_words`
    * `MmixAsm.layOut_keeps_literals`
-/

------------------------------------------------------------
-- Labels Of A Program
------------------------------------------------------------

namespace MmixAsm

/-
  Whether an item gives the label a meaning: IS and GREG, USE,
  operations and allocations do.
-/
def Item.bindsLabel
    (label : String) :
    Item → Bool
| .statement (.op line) => line.label = some label
| .statement (.alloc line) => line.label = some label
| .statement .padding => false
| .control line =>
    line.declares label ||
      (line.keyword = .place && line.label = some label)

/- Whether some line of a program has the text as a label. -/
def isLabel
    (instructions : List Instruction)
    (text : String) : Bool :=
  instructions.any
    fun instruction => instruction.item?.any (·.bindsLabel text)

section Unlabelled

variable {limit : Nat}
variable {instructions : List Instruction}
variable {items : List Item}
variable {text : String}

/- An item of a program binds no text that is not a label. -/
theorem bindsLabel_eq_false
    (hText : isLabel instructions text = false)
    (hItems : pad limit instructions = .ok items)
    {item : Item}
    (hItem : item ∈ items) :
    item.bindsLabel text = false := by
  by_cases hPadding : item = .statement .padding
  · rw [hPadding]
    rfl
  · rcases exists_instruction_of_mem hItems hItem hPadding with
      ⟨instruction, hMem, hSome⟩
    have hNone := List.any_eq_false.mp hText instruction hMem
    rw [hSome] at hNone
    exact Bool.eq_false_iff.mpr hNone

/- A text that is not a label is declared by no directive. -/
theorem declares_eq_false
    (hText : isLabel instructions text = false)
    {line : Line Directive}
    (hLine : .control line ∈ instructions) :
    line.declares text = false := by
  by_cases hLoc : line.keyword = .loc
  · simp [Line.declares, hLoc]
  · have hNone := List.any_eq_false.mp hText _ hLine
    simp only [Instruction.item?, if_neg hLoc, Option.any_some,
      Item.bindsLabel, Bool.or_eq_true, not_or] at hNone
    exact Bool.eq_false_iff.mpr hNone.1

/- The label of a block stands on one of its USE lines. -/
theorem exists_place_of_label
    {markers : List Marker}
    {name label : String}
    (h : (Block.ofMarkers markers name).label = some label) :
    ∃ marker ∈ markers, marker.line.keyword = .place ∧
      marker.line.label = some label := by
  rcases Option.bind_eq_some_iff.mp h with
    ⟨marker, hFind, hLabel⟩
  refine ⟨marker, ?_, ?_, hLabel⟩
  · exact List.mem_reverse.mp (List.mem_of_find?_eq_some hFind)
  · have hMentions := List.find?_some hFind
    simp only [Marker.mentions, List.any_cons, List.any_nil,
      Bool.or_false, Bool.and_eq_true, decide_eq_true_eq]
      at hMentions
    exact hMentions.1

/- A marker stands for a directive among the items. -/
theorem mem_items_of_marker
    {position : Nat}
    {marker : Marker}
    (h : marker ∈ Marker.ofItems position items) :
    .control marker.line ∈ items := by
  induction items generalizing position with
  | nil => cases h
  | cons item rest ih =>
      cases item with
      | statement content =>
          exact List.mem_cons_of_mem _ (ih h)
      | control line =>
          rcases List.mem_cons.mp h with rfl | hRest
          · exact List.mem_cons_self
          · exact List.mem_cons_of_mem _ (ih hRest)

/- A block of a program has no text that is not a label. -/
theorem label_ne_of_mem_declaredBlocks
    (hText : isLabel instructions text = false)
    (hItems : pad limit instructions = .ok items)
    {block : Block}
    (hBlock : block ∈ declaredBlocks items) :
    block.label ≠ some text := by
  intro hLabel
  rcases List.mem_map.mp hBlock with ⟨name, _, rfl⟩
  rcases exists_place_of_label hLabel with
    ⟨marker, hMarker, hPlace, hUse⟩
  have hFree := bindsLabel_eq_false hText hItems
    (mem_items_of_marker hMarker)
  simp [Item.bindsLabel, hPlace, hUse] at hFree

/- A statement of a program has no text that is not a label. -/
theorem statement_label_ne
    (hText : isLabel instructions text = false)
    (hItems : pad limit instructions = .ok items)
    {statement : Statement}
    (hStatement : statement ∈ statementsOf items) :
    statement.codeLabel? ≠ some text ∧
      AddressTable.dataLabel? statement ≠ some text := by
  rcases List.mem_filterMap.mp hStatement with
    ⟨item, hItem, hSome⟩
  have hFree := bindsLabel_eq_false hText hItems hItem
  cases item with
  | control line => cases hSome
  | statement content =>
      cases hSome
      cases statement with
      | op line =>
          exact ⟨of_decide_eq_false hFree, nofun⟩
      | alloc line =>
          exact ⟨nofun, of_decide_eq_false hFree⟩
      | padding => exact ⟨nofun, nofun⟩

end Unlabelled

end MmixAsm

------------------------------------------------------------
-- Texts That Are Not Replaced
------------------------------------------------------------

namespace MmixAsm

/- The entries of an address table come from data labels. -/
theorem AddressTable.exists_of_mem_entriesFrom
    {cursor : Nat}
    {statements : List Statement}
    {entry : String × Nat}
    (h : entry ∈ entriesFrom cursor statements) :
    ∃ statement ∈ statements,
      dataLabel? statement = some entry.1 := by
  induction statements generalizing cursor with
  | nil => cases h
  | cons statement rest ih =>
      unfold entriesFrom at h
      split at h
      · next label hLabel =>
          rcases List.mem_cons.mp h with rfl | hRest
          · exact ⟨statement, List.mem_cons_self, hLabel⟩
          · rcases ih hRest with ⟨other, hOther, hSome⟩
            exact ⟨other, List.mem_cons_of_mem _ hOther, hSome⟩
      · rcases ih h with ⟨other, hOther, hSome⟩
        exact ⟨other, List.mem_cons_of_mem _ hOther, hSome⟩

/- A text that is no data label is not replaced. -/
theorem AddressTable.resolve_eq_self
    {statements : List Statement}
    {text : String}
    (h : ∀ statement ∈ statements,
      dataLabel? statement ≠ some text) :
    (ofStatements statements).resolve text = text := by
  have hNone : (ofStatements statements).address? text =
      none := by
    apply List.lookup_eq_none_iff.mpr
    intro entry hEntry
    rcases exists_of_mem_entriesFrom hEntry with
      ⟨statement, hStatement, hLabel⟩
    apply bne_iff_ne.mpr
    rintro rfl
    exact h statement hStatement hLabel
  rw [resolve, hNone]

theorem AddressTable.dataLabel?_mapParameters
    (statement : Statement)
    (f : String → String) :
    dataLabel? (statement.mapParameters f) =
      dataLabel? statement := by
  cases statement with
  | op line => rfl
  | alloc line => rfl
  | padding => rfl

/-
  What a parameter of a program is replaced by before it is
  encoded.
-/
def Placed.meaning
    (placed : Placed)
    (text : String) : String :=
  (AddressTable.ofStatements placed.resolve).resolve
    (placed.bindings.resolve text)

section Unlabelled

variable {limit : Nat}
variable {instructions : List Instruction}
variable {items : List Item}
variable {symbols : Symbols}
variable {placed : Placed}
variable {text : String}

/- The statements of a program stem from its items. -/
theorem mem_statementsOf_of_placed
    (hPlaced : Placed.ofBlocks (statementsOf items)
      symbols.labels symbols.blocks = .ok placed)
    {statement : Statement}
    (h : statement ∈ placed.stream.statements) :
    statement ∈ statementsOf items := by
  rcases List.mem_map.mp h with ⟨entry, hEntry, rfl⟩
  have hStart :=
    (Placed.perm_of_places hPlaced).mem_iff.mp hEntry
  exact List.fst_mem_of_mem_zipIdx hStart

/- A text that is not a label is not bound. -/
theorem get?_bindings_eq_none
    (hText : isLabel instructions text = false)
    (hItems : pad limit instructions = .ok items)
    (hSymbols : Symbols.collect items = .ok symbols)
    (hPlaced : Placed.ofBlocks (statementsOf items)
      symbols.labels symbols.blocks = .ok placed) :
    placed.bindings.get? text = none := by
  have hDeclared : declaredFrom 1 text
      (instructions.filterMap Instruction.directive?) = none :=
    declaredFrom_eq_none
      (fun line hLine => declares_eq_false hText hLine) 1
  have hBlocks : (declaredBlocks items).findSome?
      (Block.spliceUnder? (statementsOf items).length text) =
        none := by
    apply List.findSome?_eq_none_iff.mpr
    intro block hBlock
    exact if_neg
      (label_ne_of_mem_declaredBlocks hText hItems hBlock)
  have hCode : codePosition? placed.stream.statements text =
      none := by
    apply List.findIdx?_eq_none_iff.mpr
    intro statement hStatement
    apply decide_eq_false
    exact (statement_label_ne hText hItems
      (mem_statementsOf_of_placed hPlaced hStatement)).1
  rw [get?_bindings hItems hSymbols hPlaced, bindingOf,
    hDeclared, hBlocks, Placed.resolve, LabelTable.apply,
    codePosition?_map, hCode]
  rfl

/- A text that is not a label stands for itself. -/
theorem Placed.meaning_eq_self
    (hText : isLabel instructions text = false)
    (hItems : pad limit instructions = .ok items)
    (hSymbols : Symbols.collect items = .ok symbols)
    (hPlaced : ofBlocks (statementsOf items) symbols.labels
      symbols.blocks = .ok placed) :
    placed.meaning text = text := by
  have hBound :=
    get?_bindings_eq_none hText hItems hSymbols hPlaced
  unfold meaning LabelTable.resolve
  rw [hBound, Option.getD_none]
  apply AddressTable.resolve_eq_self
  intro statement hStatement
  rcases List.mem_map.mp hStatement with
    ⟨source, hSource, rfl⟩
  rw [AddressTable.dataLabel?_mapParameters]
  exact (statement_label_ne hText hItems
    (mem_statementsOf_of_placed hPlaced hSource)).2

end Unlabelled

end MmixAsm

------------------------------------------------------------
-- Encoded Operands
------------------------------------------------------------

namespace MmixAsm

/-
  The word holds every literal among the last six parameters
  of the operation that is not a label of the program.
-/
def Line.KeepsLiterals
    (instructions : List Instruction)
    (line : Line String)
    (word : UInt64) : Prop :=
  ∀ index text value,
    line.parameters[index]? = some text →
      operand text = .ok value →
        isLabel instructions text = false →
          line.parameters.length - index ≤ 6 →
            byteAt word (line.parameters.length - index) =
              value.toNat % 256

/- The words of a program belong to its statements. -/
theorem forall₂_of_assembleWords
    {statements : List Statement}
    {words : List UInt64}
    (h : assembleWords statements = .ok words) :
    ∃ chunks, words = chunks.flatten ∧
      List.Forall₂
        (fun statement chunk =>
          ((AddressTable.ofStatements statements).apply
            statement).words = .ok chunk)
        statements chunks := by
  rcases exists_of_map_eq_ok h with ⟨chunks, hChunks, rfl⟩
  exact ⟨chunks, rfl, forall₂_of_mapM_eq_ok hChunks⟩

/- An operation has one word, of what its parameters mean. -/
theorem Placed.opWord_of_words
    {placed : Placed}
    {line : Line String}
    {chunk : List UInt64}
    (h : ((AddressTable.ofStatements placed.resolve).apply
      ((Statement.op line).mapParameters
        placed.bindings.resolve)).words = .ok chunk) :
    ∃ word, chunk = [word] ∧
      opWord (line.mapParameters placed.meaning) =
        .ok word := by
  rcases exists_of_map_eq_ok h with ⟨word, hWord, rfl⟩
  have hTwice : line.mapParameters placed.meaning =
      (line.mapParameters
        placed.bindings.resolve).mapParameters
          (AddressTable.ofStatements placed.resolve).resolve := by
    simp only [Line.mapParameters, List.map_map]
    rfl
  refine ⟨word, rfl, ?_⟩
  rw [hTwice]
  exact hWord

/-
  In the words of an accepted program every operation has one
  word, which encodes what its parameters mean.  A literal
  that is not a label means itself, so that its low byte is
  in the word if it is among the last six parameters.
-/
theorem layOut_keeps_literals
    {limit : Nat}
    {instructions : List Instruction}
    {program : List Statement}
    {words : List UInt64}
    (hProgram : layOut limit instructions = .ok program)
    (hWords : assembleWords program = .ok words) :
    ∃ items symbols placed chunks,
      pad limit instructions = .ok items ∧
        items.filter (· ≠ .statement .padding) =
          instructions.filterMap Instruction.item? ∧
        Symbols.collect items = .ok symbols ∧
        Placed.ofBlocks (statementsOf items) symbols.labels
          symbols.blocks = .ok placed ∧
        placed.stream.Perm
          (Stream.ofStatements (statementsOf items)) ∧
        program = placed.resolve ∧
        words = chunks.flatten ∧
        List.Forall₂
          (fun entry chunk =>
            ∀ line, entry.1 = .op line →
              ∃ word, chunk = [word] ∧
                opWord (line.mapParameters placed.meaning) =
                  .ok word ∧
                line.KeepsLiterals instructions word)
          placed.stream chunks := by
  rcases layOut_cases hProgram with
    ⟨items, symbols, placed, hItems, hSymbols, hPlaced, rfl⟩
  rcases forall₂_of_assembleWords hWords with
    ⟨chunks, hFlatten, hChunks⟩
  refine ⟨items, symbols, placed, chunks, hItems,
    items_of_padFrom hItems, hSymbols, hPlaced,
    Placed.perm_of_places hPlaced, rfl, hFlatten, ?_⟩
  have hEntries := List.forall₂_map_left_iff.mp
    (List.forall₂_map_left_iff.mp hChunks)
  apply hEntries.imp
  intro entry chunk hChunk line hLine
  rw [hLine] at hChunk
  rcases Placed.opWord_of_words hChunk with
    ⟨word, hSingle, hWord⟩
  refine ⟨word, hSingle, hWord, ?_⟩
  intro index text value hText hValue hFree hPlace
  have hMeaning :=
    Placed.meaning_eq_self hFree hItems hSymbols hPlaced
  have hParameter :
      (line.mapParameters placed.meaning).parameters[index]? =
        some text := by
    rw [Line.mapParameters, List.getElem?_map, hText,
      Option.map_some, hMeaning]
  have hLength :
      (line.mapParameters placed.meaning).parameters.length =
        line.parameters.length :=
    List.length_map _
  rcases exists_operand_byte hWord hParameter with
    ⟨encoded, hEncoded, hByte⟩
  cases hValue.symm.trans hEncoded
  rw [hLength] at hByte
  exact hByte hPlace

/-
  The literal `1` is a label here, and what it stands for is a
  label of data at address zero.  The registers are no labels.
-/
def rewrittenTwice : List Instruction := [
  .alloc ⟨some "2", .byte, ["5"]⟩,
  .op ⟨none, "SETL", ["$1", "1"]⟩,
  .control ⟨some "1", .equate, ["2"]⟩,
  .op ⟨none, "SETL", ["$2", "$1"]⟩]

theorem rewrittenTwice_keeps_literals :
    isLabel rewrittenTwice "1" = true ∧
      isLabel rewrittenTwice "$1" = false ∧
      operand "$1" = .ok 1 ∧
      ∃ program words word,
        layOut 0 rewrittenTwice = .ok program ∧
          assembleWords program = .ok words ∧
          words = [5, 0xE300000000010000,
            0xE300000000020100] ∧
          word ∈ words ∧
          Line.KeepsLiterals rewrittenTwice
            ⟨none, "SETL", ["$1", "1"]⟩ word ∧
          byteAt word 2 = 1 := by
  let program := (layOut 0 rewrittenTwice).toOption.getD []
  let shown := (pad 0 rewrittenTwice).toOption.getD []
  let words : List UInt64 :=
    [5, 0xE300000000010000, 0xE300000000020100]
  have hProgram : layOut 0 rewrittenTwice = .ok program := by
    decide +kernel
  have hShown : pad 0 rewrittenTwice = .ok shown := by
    decide +kernel
  have hWords : assembleWords program = .ok words := by
    decide +kernel
  have hLabel : isLabel rewrittenTwice "$1" = false := by
    decide +kernel
  have hValue : operand "$1" = .ok 1 := by
    decide +kernel
  rcases layOut_keeps_literals hProgram hWords with
    ⟨items, _, placed, chunks, hItems, _, _, _, hPerm, _,
      hFlatten, hEntries⟩
  have hEntry : (.op ⟨none, "SETL", ["$1", "1"]⟩, 1) ∈
      placed.stream := by
    rw [hPerm.mem_iff,
      ← Except.ok.inj (hShown.symm.trans hItems)]
    decide +kernel
  rcases exists_mem_of_forall₂ hEntries hEntry with
    ⟨chunk, hChunk, hLine⟩
  rcases hLine _ rfl with ⟨word, rfl, _, hKeeps⟩
  have hWord : word ∈ words := by
    rw [hFlatten]
    exact List.mem_flatten.mpr
      ⟨[word], hChunk, List.mem_singleton_self word⟩
  exact ⟨by decide +kernel, hLabel, hValue, program, words,
    word, hProgram, hWords, rfl, hWord, hKeeps,
    hKeeps 0 "$1" 1 rfl hValue hLabel (by decide)⟩

/- A program in which one is called two. -/
def redefinedOne : SourceFile where
  name := "main"
  instructions := [
    .op ⟨none, "SETL", ["$1", "1"]⟩,
    .control ⟨some "1", .equate, ["2"]⟩]
  isEntry := false

/- A literal that is a label need not mean itself. -/
theorem redefinedOne_encodes_two :
    SourceFile.parse "main" "SETL $1,1\n1 IS 2" =
        .ok redefinedOne ∧
      ∃ program word,
        layOut 0 redefinedOne.instructions = .ok program ∧
          assembleWords program = .ok [word] ∧
          operand "1" = .ok 1 ∧
          byteAt word 1 = 2 :=
  ⟨by decide +kernel, [.op ⟨none, "SETL", ["$1", "2"]⟩],
    0xE300000000010200, by decide +kernel, by decide +kernel,
    by decide +kernel, by decide +kernel⟩

end MmixAsm
