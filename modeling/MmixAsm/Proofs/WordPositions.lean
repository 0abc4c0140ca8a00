import MmixAsm.Proofs.LiteralOperands
import MmixAsm.Proofs.OutputLines

/-
  Where statements stand among the words of a program.

  There are three measures of a place: the index of a
  statement, the address that data labels get, and the index
  of the first word.  They drift apart at allocations only.
  An address counts an allocation as one more than its width,
  and the words are as many as its width or, for a quoted
  text, as the text has bytes.  Labels of sources are words,
  so no address takes the place of a quoted text.

  Key definitions include:
    * `MmixAsm.Statement.wordCount`
    * `MmixAsm.wordIndex`
    * `MmixAsm.overAllocs`
    * `MmixAsm.dataIndex?`
    * `MmixAsm.AddressTable.encoded`

  Key theorems include:
    * `MmixAsm.length_of_words`
    * `MmixAsm.AddressTable.address?_eq`
    * `MmixAsm.totalWords_sub_length`
    * `MmixAsm.totalAdvance_eq_add`
    * `MmixAsm.assembleWords_drift`
    * `MmixAsm.AddressTable.keepsTexts_of_fitsLine`
    * `MmixAsm.compiled_words_as_written`
-/

------------------------------------------------------------
-- Words Of A Statement
------------------------------------------------------------

namespace MmixAsm

/- The quoted text that an allocation writes. -/
def Line.quotedText? (line : Line DataSize) : Option String :=
  line.parameters.head?.bind Literal.content?

/- The number of words of an allocation. -/
def Line.allocatedWords (line : Line DataSize) : Nat :=
  match line.quotedText? with
  | some text => text.utf8ByteSize
  | none => line.keyword.width

/- The number of words of a statement. -/
def Statement.wordCount :
    Statement → Nat
| .alloc line => line.allocatedWords
| _ => 1

theorem length_valueBytes
    (value : UInt64)
    (width : Nat) :
    (valueBytes value width).length = width := by
  induction width with
  | zero => rfl
  | succ width ih => simp [valueBytes, ih]

theorem length_textBytes (text : String) :
    (textBytes text).length = text.utf8ByteSize := by
  unfold textBytes String.utf8ByteSize
  rw [List.length_map, ← String.utf8Encode_toList,
    List.utf8Encode, List.size_toByteArray]

theorem length_of_allocWords
    {line : Line DataSize}
    {chunk : List UInt64}
    (h : allocWords line = .ok chunk) :
    chunk.length = line.allocatedWords := by
  unfold allocWords at h
  cases hParameters : line.parameters with
  | nil =>
      rw [hParameters] at h
      cases h
  | cons parameter others =>
      have hQuoted :
          line.quotedText? = Literal.content? parameter := by
        unfold Line.quotedText?
        rw [hParameters, List.head?_cons, Option.bind_some]
      unfold Line.allocatedWords
      rw [hQuoted]
      cases hText : Literal.content? parameter with
      | some text =>
          simp only [hParameters, hText] at h
          cases h
          exact length_textBytes text
      | none =>
          simp only [hParameters, hText] at h
          rcases exists_of_map_eq_ok h with ⟨value, _, rfl⟩
          exact length_valueBytes value _

/- A statement has as many words as it counts for. -/
theorem length_of_words
    {statement : Statement}
    {chunk : List UInt64}
    (h : statement.words = .ok chunk) :
    chunk.length = statement.wordCount := by
  cases statement with
  | op line =>
      rcases exists_of_map_eq_ok h with ⟨word, _, rfl⟩
      rfl
  | alloc line => exact length_of_allocWords h
  | padding =>
      cases h
      rfl

end MmixAsm

------------------------------------------------------------
-- Sums Over Statements
------------------------------------------------------------

namespace MmixAsm

/- The number of words of some statements. -/
def totalWords :
    List Statement → Nat
| [] => 0
| statement :: rest => statement.wordCount + totalWords rest

/- How far some statements move the cursor of addresses. -/
def totalAdvance :
    List Statement → Nat
| [] => 0
| statement :: rest =>
    AddressTable.advance statement + totalAdvance rest

/- The sum of a quantity over the allocations. -/
def overAllocs
    (quantity : Line DataSize → Int) :
    List Statement → Int
| [] => 0
| .alloc line :: rest =>
    quantity line + overAllocs quantity rest
| _ :: rest => overAllocs quantity rest

/- Does a statement allocate data? -/
def Statement.isAlloc :
    Statement → Bool
| .alloc _ => true
| _ => false

/- The index of the first word of a statement. -/
def wordIndex
    (statements : List Statement)
    (index : Nat) : Nat :=
  totalWords (statements.take index)

/- The words of an allocation beyond the first. -/
def Line.extraWords (line : Line DataSize) : Int :=
  line.allocatedWords - 1

/- How much more an address counts than there are words. -/
def Line.extraAddress (line : Line DataSize) : Int :=
  1 + line.keyword.width - line.allocatedWords

/- Words and indices drift apart at allocations only. -/
theorem totalWords_sub_length
    (statements : List Statement) :
    (totalWords statements : Int) - statements.length =
      overAllocs Line.extraWords statements := by
  induction statements with
  | nil => rfl
  | cons statement rest ih =>
      cases statement with
      | op line =>
          simp only [totalWords, Statement.wordCount,
            overAllocs, List.length_cons]
          omega
      | alloc line =>
          simp only [totalWords, Statement.wordCount,
            overAllocs, Line.extraWords, List.length_cons]
          omega
      | padding =>
          simp only [totalWords, Statement.wordCount,
            overAllocs, List.length_cons]
          omega

/- Addresses and words drift apart at allocations only. -/
theorem totalAdvance_eq_add
    (statements : List Statement) :
    (totalAdvance statements : Int) =
      totalWords statements
        + overAllocs Line.extraAddress statements := by
  induction statements with
  | nil => rfl
  | cons statement rest ih =>
      cases statement with
      | op line =>
          simp only [totalAdvance, totalWords,
            AddressTable.advance, Statement.wordCount,
            overAllocs]
          omega
      | alloc line =>
          simp only [totalAdvance, totalWords,
            AddressTable.advance, Statement.wordCount,
            overAllocs, Line.extraAddress]
          omega
      | padding =>
          simp only [totalAdvance, totalWords,
            AddressTable.advance, Statement.wordCount,
            overAllocs]
          omega

/- Without quoted texts every allocation counts one more. -/
theorem overAllocs_extraAddress
    {statements : List Statement}
    (h : ∀ line, Statement.alloc line ∈ statements →
      line.quotedText? = none) :
    overAllocs Line.extraAddress statements =
      statements.countP Statement.isAlloc := by
  induction statements with
  | nil => rfl
  | cons statement rest ih =>
      have hRest := ih fun line hLine =>
        h line (List.mem_cons_of_mem _ hLine)
      cases statement with
      | op line => exact hRest
      | alloc line =>
          have hWidth :
              line.allocatedWords = line.keyword.width := by
            simp [Line.allocatedWords,
              h line List.mem_cons_self]
          have hCount : (Statement.alloc line :: rest).countP
              Statement.isAlloc =
                rest.countP Statement.isAlloc + 1 :=
            List.countP_cons_of_pos rfl
          simp only [overAllocs, Line.extraAddress, hRest,
            hWidth, hCount]
          omega
      | padding => exact hRest

theorem totalAdvance_append
    (left right : List Statement) :
    totalAdvance (left ++ right) =
      totalAdvance left + totalAdvance right := by
  induction left with
  | nil => simp [totalAdvance]
  | cons statement rest ih =>
      rw [List.cons_append, totalAdvance, totalAdvance, ih,
        Nat.add_assoc]

/- The cursor moves at every statement, and never far. -/
theorem totalAdvance_bounds
    (statements : List Statement) :
    statements.length ≤ totalAdvance statements ∧
      totalAdvance statements ≤ 9 * statements.length := by
  induction statements with
  | nil => exact ⟨Nat.le_refl 0, Nat.le_refl 0⟩
  | cons statement rest ih =>
      have hAdvance : 1 ≤ AddressTable.advance statement ∧
          AddressTable.advance statement ≤ 9 := by
        cases statement with
        | op line =>
            exact ⟨Nat.le_refl 1, Nat.le_add_left 1 8⟩
        | alloc line =>
            rcases line with ⟨label, size, parameters⟩
            cases size <;> simp [AddressTable.advance,
              DataSize.width]
        | padding =>
            exact ⟨Nat.le_refl 1, Nat.le_add_left 1 8⟩
      rw [totalAdvance, List.length_cons]
      omega

/- The cursor is farther in front of a later statement. -/
theorem totalAdvance_take_lt
    {statements : List Statement}
    {index later : Nat}
    (hOrder : index < later)
    (hLater : later ≤ statements.length) :
    totalAdvance (statements.take index) <
      totalAdvance (statements.take later) := by
  have hSplit : statements.take later =
      statements.take index
        ++ (statements.drop index).take (later - index) := by
    rw [← List.take_add, Nat.add_sub_of_le (by omega)]
  have hBetween := (totalAdvance_bounds
    ((statements.drop index).take (later - index))).1
  rw [List.length_take, List.length_drop] at hBetween
  rw [hSplit, totalAdvance_append]
  omega

end MmixAsm

------------------------------------------------------------
-- Addresses
------------------------------------------------------------

namespace MmixAsm

/- The index of the first allocation with a label. -/
def dataIndex?
    (statements : List Statement)
    (label : String) : Option Nat :=
  statements.findIdx?
    (AddressTable.dataLabel? · = some label)

/- The statement at a data index exists and has the label. -/
theorem exists_of_dataIndex?
    {statements : List Statement}
    {label : String}
    {index : Nat}
    (h : dataIndex? statements label = some index) :
    ∃ statement, statements[index]? = some statement ∧
      AddressTable.dataLabel? statement = some label := by
  rcases List.findIdx?_eq_some_iff_getElem.mp h with
    ⟨hIndex, hLabel, _⟩
  exact ⟨statements[index], List.getElem?_eq_getElem hIndex,
    of_decide_eq_true hLabel⟩

namespace AddressTable

/- The statements with their data labels replaced. -/
def encoded (statements : List Statement) : List Statement :=
  statements.map (ofStatements statements).apply

@[simp]
theorem length_encoded (statements : List Statement) :
    (encoded statements).length = statements.length :=
  List.length_map _

theorem advance_apply
    (table : AddressTable)
    (statement : Statement) :
    advance (table.apply statement) = advance statement := by
  cases statement with
  | op line => rfl
  | alloc line => rfl
  | padding => rfl

theorem totalAdvance_map_apply
    (table : AddressTable)
    (statements : List Statement) :
    totalAdvance (statements.map table.apply) =
      totalAdvance statements := by
  induction statements with
  | nil => rfl
  | cons statement rest ih =>
      rw [List.map_cons, totalAdvance, totalAdvance, ih,
        advance_apply]

/- A label is where the cursor stands at its first bearer. -/
theorem lookup_entriesFrom
    (cursor : Nat)
    (statements : List Statement)
    (label : String) :
    (entriesFrom cursor statements).lookup label =
      (dataIndex? statements label).map fun index =>
        cursor + totalAdvance (statements.take index) := by
  induction statements generalizing cursor with
  | nil => rfl
  | cons statement rest ih =>
      have hTail :
          (entriesFrom (cursor + advance statement)
              rest).lookup label =
            ((dataIndex? rest label).map (· + 1)).map
              fun index => cursor + totalAdvance
                ((statement :: rest).take index) := by
        rw [ih, Option.map_map]
        congr 1
        funext index
        simp [totalAdvance, Nat.add_assoc]
      unfold entriesFrom dataIndex?
      rw [List.findIdx?_cons]
      split
      · rename_i name hName
        rw [List.lookup_cons]
        by_cases hLabel : label = name
        · simp [hName, hLabel, totalAdvance]
        · have hOther : (label == name) = false := by
            simpa using hLabel
          simp only [hOther, hName, Option.some.injEq,
            Ne.symm hLabel, decide_false, Bool.false_eq_true,
            if_false]
          exact hTail
      · rename_i hName
        simp only [hName, reduceCtorEq, decide_false,
          Bool.false_eq_true, if_false]
        exact hTail

/-
  The address of a label counts the statements in front of
  its first bearer and the widths of allocations among them.
-/
theorem address?_eq
    (statements : List Statement)
    (label : String) :
    (ofStatements statements).address? label =
      (dataIndex? statements label).map fun index =>
        totalAdvance ((encoded statements).take index) := by
  have hLookup := lookup_entriesFrom 0 statements label
  simp only [Nat.zero_add] at hLookup
  unfold encoded
  simp only [← List.map_take, totalAdvance_map_apply]
  exact hLookup

/- Addresses have the order of their first bearers. -/
theorem address?_lt
    {statements : List Statement}
    {label other : String}
    {index later address behind : Nat}
    (hIndex : dataIndex? statements label = some index)
    (hLater : dataIndex? statements other = some later)
    (hOrder : index < later)
    (hAddress :
      (ofStatements statements).address? label = some address)
    (hBehind :
      (ofStatements statements).address? other = some behind) :
    address < behind := by
  rw [address?_eq, hIndex, Option.map_some, Option.some.injEq]
    at hAddress
  rw [address?_eq, hLater, Option.map_some, Option.some.injEq]
    at hBehind
  rw [← hAddress, ← hBehind]
  apply totalAdvance_take_lt hOrder
  rcases exists_of_dataIndex? hLater with ⟨_, hBearer, _⟩
  have hLength := (List.getElem?_eq_some_iff.mp hBearer).1
  rw [length_encoded]
  omega

/- Different labels have different addresses. -/
theorem address?_inj
    {statements : List Statement}
    {label other : String}
    {address : Nat}
    (hLabel :
      (ofStatements statements).address? label = some address)
    (hOther :
      (ofStatements statements).address? other =
        some address) :
    label = other := by
  have hFirst := hLabel
  have hSecond := hOther
  rw [address?_eq] at hFirst hSecond
  rcases Option.map_eq_some_iff.mp hFirst with
    ⟨index, hIndex, _⟩
  rcases Option.map_eq_some_iff.mp hSecond with
    ⟨later, hLater, _⟩
  rcases Nat.lt_trichotomy index later with
    hLess | rfl | hGreater
  · exact absurd (address?_lt hIndex hLater hLess hLabel hOther)
      (Nat.lt_irrefl address)
  · rcases exists_of_dataIndex? hIndex with
      ⟨statement, hBearer, hName⟩
    rcases exists_of_dataIndex? hLater with
      ⟨statement', hBearer', hName'⟩
    cases hBearer.symm.trans hBearer'
    exact Option.some.inj (hName.symm.trans hName')
  · exact absurd
      (address?_lt hLater hIndex hGreater hOther hLabel)
      (Nat.lt_irrefl address)

end AddressTable

end MmixAsm

------------------------------------------------------------
-- Quoted Texts
------------------------------------------------------------

namespace MmixAsm

theorem Literal.content?_of_not_mem
    {text : String}
    (hText : '"' ∉ text.toList) :
    Literal.content? text = none := by
  unfold Literal.content?
  split
  · rename_i rest hQuote
    rw [hQuote] at hText
    exact absurd List.mem_cons_self hText
  · rfl

/- A number is not written in quotes. -/
theorem Literal.content?_toString (value : Nat) :
    Literal.content? (toString value) = none := by
  apply content?_of_not_mem
  intro hQuote
  rw [Nat.toString_eq_repr, Nat.toList_repr] at hQuote
  have hDigit := Nat.isDigit_of_mem_toDigits (by decide)
    (by decide) hQuote
  cases hDigit

theorem Literal.content?_of_isWord
    {text : String}
    (hWord : IsWord text) :
    Literal.content? text = none := by
  apply content?_of_not_mem
  intro hQuote
  have hSpecial := hWord.2.1 '"' hQuote
  cases hSpecial

/- No quoted text of the program is at once a data label. -/
def AddressTable.KeepsTexts
    (table : AddressTable)
    (statements : List Statement) : Prop :=
  ∀ line parameter text,
    .alloc line ∈ statements →
      line.parameters.head? = some parameter →
        Literal.content? parameter = some text →
          table.address? parameter = none

/- An address in place of a label does not quote a text. -/
theorem AddressTable.content?_resolve
    {table : AddressTable}
    {parameter : String}
    (h : ∀ text, Literal.content? parameter = some text →
      table.address? parameter = none) :
    Literal.content? (table.resolve parameter) =
      Literal.content? parameter := by
  unfold resolve
  split
  · rename_i address hAddress
    rw [Literal.content?_toString]
    cases hContent : Literal.content? parameter with
    | none => rfl
    | some text =>
        cases hAddress.symm.trans (h text hContent)
  · rfl

/- Then the words are those of the program as written. -/
theorem AddressTable.totalWords_map_apply
    {table : AddressTable}
    {statements : List Statement}
    (h : table.KeepsTexts statements) :
    totalWords (statements.map table.apply) =
      totalWords statements := by
  induction statements with
  | nil => rfl
  | cons statement rest ih =>
      have hRest := ih fun line parameter text hLine =>
        h line parameter text (List.mem_cons_of_mem _ hLine)
      have hCount : (table.apply statement).wordCount =
          statement.wordCount := by
        cases statement with
        | op line => rfl
        | padding => rfl
        | alloc line =>
            have hText : (line.mapParameters
                table.resolve).quotedText? =
                  line.quotedText? := by
              unfold Line.quotedText? Line.mapParameters
              rw [List.head?_map]
              cases hHead : line.parameters.head? with
              | none => rfl
              | some parameter =>
                  exact content?_resolve fun text =>
                    h line parameter text List.mem_cons_self
                      hHead
            change (line.mapParameters
              table.resolve).allocatedWords =
                line.allocatedWords
            unfold Line.allocatedWords
            rw [hText]
            rfl
      rw [List.map_cons, totalWords, totalWords, hCount, hRest]

theorem AddressTable.wordIndex_encoded
    {statements : List Statement}
    (hTexts : (ofStatements statements).KeepsTexts statements)
    (index : Nat) :
    wordIndex (encoded statements) index =
      wordIndex statements index := by
  unfold wordIndex encoded
  rw [← List.map_take]
  apply totalWords_map_apply
  intro line parameter text hLine
  exact hTexts line parameter text (List.mem_of_mem_take hLine)

/- A label that is a word is not a quoted text. -/
theorem AddressTable.keepsTexts_of_fitsLine
    {statements : List Statement}
    (hFits : ∀ statement ∈ statements, statement.FitsLine) :
    (ofStatements statements).KeepsTexts statements := by
  intro line parameter text _ _ hText
  apply Option.eq_none_iff_forall_ne_some.mpr
  intro address hAddress
  rw [address?_eq] at hAddress
  rcases Option.map_eq_some_iff.mp hAddress with
    ⟨index, hIndex, _⟩
  rcases exists_of_dataIndex? hIndex with
    ⟨bearer, hBearer, hLabel⟩
  have hBearer := hFits bearer (List.mem_of_getElem? hBearer)
  cases bearer with
  | op line => cases hLabel
  | padding => cases hLabel
  | alloc line =>
      have hWord := Line.FitsLine.label hBearer parameter hLabel
      rw [Literal.content?_of_isWord hWord] at hText
      cases hText

end MmixAsm

------------------------------------------------------------
-- Drift
------------------------------------------------------------

namespace MmixAsm

/- As many words as the statements count for. -/
theorem length_flatten_of_words
    {statements : List Statement}
    {chunks : List (List UInt64)}
    (h : List.Forall₂
      (fun statement chunk => statement.words = .ok chunk)
      statements chunks) :
    chunks.flatten.length = totalWords statements := by
  induction h with
  | nil => rfl
  | cons hChunk _ ih =>
      rw [List.flatten_cons, List.length_append, totalWords,
        length_of_words hChunk, ih]

/- The address of a label, from the word at its bearer. -/
theorem AddressTable.exists_address
    {statements : List Statement}
    {label : String}
    {index : Nat}
    (h : dataIndex? statements label = some index) :
    ∃ address,
      (ofStatements statements).address? label =
          some address ∧
        (address : Int) =
          wordIndex (encoded statements) index
            + overAllocs Line.extraAddress
              ((encoded statements).take index) ∧
        address ≤ 9 * statements.length := by
  refine ⟨totalAdvance ((encoded statements).take index),
    ?_, totalAdvance_eq_add _, ?_⟩
  · rw [address?_eq, h, Option.map_some]
  · have hBound := (totalAdvance_bounds
      ((encoded statements).take index)).2
    have hLength : ((encoded statements).take index).length ≤
        statements.length := by
      rw [List.length_take, length_encoded]
      exact Nat.min_le_right _ _
    omega

/-
  The words of a program are those of its statements, one
  after the other.  The first word of a statement stands as
  much behind the index of the statement as the allocations
  in front of it have words beyond their first.  A data label
  has the address of its first bearer, which counts every
  allocation in front of it as one more than its width; so
  the labels are in the order of their bearers, and no two
  of them share an address.  Unless a quoted text is at once
  a data label, the words can be counted in the program as
  written.
-/
theorem assembleWords_drift
    {statements : List Statement}
    {words : List UInt64}
    (hLength : statements.length < 0x1000000000000000)
    (hWords : assembleWords statements = .ok words) :
    let table := AddressTable.ofStatements statements
    let encoded := AddressTable.encoded statements
    ∃ chunks,
      words = chunks.flatten ∧
      List.Forall₂
        (fun statement chunk =>
          statement.words = .ok chunk ∧
            chunk.length = statement.wordCount)
        encoded chunks ∧
      words.length = totalWords encoded ∧
      (∀ index, index ≤ statements.length →
        (chunks.take index).flatten.length =
            wordIndex encoded index ∧
          (wordIndex encoded index : Int) - index =
            overAllocs Line.extraWords
              (encoded.take index)) ∧
      (∀ label index,
        dataIndex? statements label = some index →
          ∃ address,
            table.address? label = some address ∧
            address < UInt64.size ∧
            (address : Int) =
              wordIndex encoded index
                + overAllocs Line.extraAddress
                  (encoded.take index) ∧
            ((∀ line, .alloc line ∈ encoded.take index →
                line.quotedText? = none) →
              address = wordIndex encoded index
                + (encoded.take index).countP
                  Statement.isAlloc)) ∧
      (∀ label other index later address behind,
        dataIndex? statements label = some index →
          dataIndex? statements other = some later →
            index < later →
              table.address? label = some address →
                table.address? other = some behind →
                  address < behind) ∧
      (∀ label other address,
        table.address? label = some address →
          table.address? other = some address →
            label = other) ∧
      (table.KeepsTexts statements →
        ∀ index, wordIndex encoded index =
          wordIndex statements index) := by
  intro table encoded
  rcases forall₂_of_assembleWords hWords with
    ⟨chunks, rfl, hChunks⟩
  have hEncoded : List.Forall₂
      (fun statement chunk => statement.words = .ok chunk)
      encoded chunks :=
    List.forall₂_map_left_iff.mpr hChunks
  refine ⟨chunks, rfl,
    hEncoded.imp fun _ _ hChunk =>
      ⟨hChunk, length_of_words hChunk⟩,
    length_flatten_of_words hEncoded, ?_, ?_,
    fun _ _ _ _ _ _ => AddressTable.address?_lt,
    fun _ _ _ => AddressTable.address?_inj, ?_⟩
  · intro index hIndex
    have hTake : (encoded.take index).length = index := by
      rw [List.length_take, AddressTable.length_encoded]
      exact Nat.min_eq_left hIndex
    have hDrift := totalWords_sub_length (encoded.take index)
    rw [hTake] at hDrift
    exact ⟨length_flatten_of_words
      (List.forall₂_take index hEncoded), hDrift⟩
  · intro label index hIndex
    rcases AddressTable.exists_address hIndex with
      ⟨address, hAddress, hSum, hBound⟩
    refine ⟨address, hAddress, ?_, hSum, ?_⟩
    · have hSize : UInt64.size = 0x10000000000000000 := rfl
      omega
    · intro hValues
      have hCount := overAllocs_extraAddress hValues
      have hNumbers : (address : Int) =
          wordIndex encoded index
            + (encoded.take index).countP
              Statement.isAlloc := by
        rw [hSum, hCount]
      omega
  · exact AddressTable.wordIndex_encoded

/- A program with a text, a repeated label and padding. -/
def mixedData : List Statement := [
  .op ⟨none, "SETL", ["$1", "Sum"]⟩,
  .alloc ⟨some "Name", .byte, ["\"né\""]⟩,
  .alloc ⟨some "Sum", .wyde, ["Name"]⟩,
  .padding,
  .alloc ⟨some "Name", .octa, ["7"]⟩,
  .alloc ⟨some "Last", .tetra, ["Sum"]⟩]

/- Its last label is not at the index of its first word. -/
theorem mixedData_drifts :
    mixedData.length < 0x1000000000000000 ∧
      ∃ words : List UInt64,
        assembleWords mixedData = .ok words ∧
        words.length = 19 ∧
        dataIndex? mixedData "Last" = some 5 ∧
        wordIndex (AddressTable.encoded mixedData) 5 = 15 ∧
        (AddressTable.ofStatements mixedData).address? "Last" =
          some 16 := by
  let words : List UInt64 :=
    (assembleWords mixedData).toOption.getD []
  have hWords : assembleWords mixedData = .ok words := by
    decide +kernel
  have hIndex : dataIndex? mixedData "Last" = some 5 := by
    decide +kernel
  have hLength : mixedData.length < 0x1000000000000000 := by
    decide
  rcases assembleWords_drift hLength hWords with
    ⟨_, _, _, hTotal, _, hAddresses, _⟩
  rcases hAddresses "Last" 5 hIndex with
    ⟨address, hAddress, _, hSum, _⟩
  have hDrift : (address : Int) = 16 := by
    rw [hSum]
    decide +kernel
  refine ⟨hLength, words, hWords, ?_, hIndex,
    by decide +kernel, ?_⟩
  · rw [hTotal]
    decide +kernel
  · rw [hAddress, show address = 16 by omega]

end MmixAsm

------------------------------------------------------------
-- Words Of Sources
------------------------------------------------------------

namespace MmixAsm

variable {limit : Nat}
variable {sources : List Source}

/- How the words of sources come about. -/
theorem exists_of_assemble_compile
    {output : Output}
    (h : assemble limit .compile sources = .ok output) :
    ∃ statements words,
      assemble limit .preprocess sources =
          .ok (.resolved statements) ∧
        assembleWords statements = .ok words ∧
        output = .encoded words := by
  rcases exists_of_bind_eq_ok h with ⟨files, hParse, h⟩
  rcases exists_of_bind_eq_ok h with
    ⟨instructions, hProgram, h⟩
  rcases exists_of_bind_eq_ok h with
    ⟨statements, hLayOut, h⟩
  rcases exists_of_bind_eq_ok h with ⟨words, hWords, h⟩
  cases h
  refine ⟨statements, words, ?_, ok_of_mapError_eq_ok hWords,
    rfl⟩
  simp [assemble, hParse, hProgram, hLayOut, bind,
    Except.bind, pure, Except.pure]

/-
  The words of sources are counted in the program that the
  layout writes, without any condition on it.
-/
theorem compiled_words_as_written
    {output : Output}
    (h : assemble limit .compile sources = .ok output) :
    ∃ statements words,
      assemble limit .preprocess sources =
          .ok (.resolved statements) ∧
        output = .encoded words ∧
        words.length = totalWords statements ∧
        ∀ index,
          wordIndex (AddressTable.encoded statements) index =
            wordIndex statements index := by
  rcases exists_of_assemble_compile h with
    ⟨statements, words, hStatements, hWords, rfl⟩
  rcases exists_of_assemble_preprocess hStatements with
    ⟨files, instructions, program, hParse, hProgram, hLayOut,
      hEq⟩
  cases hEq
  have hTexts := AddressTable.keepsTexts_of_fitsLine
    (fitsLine_of_layOut
      (fitsLine_of_expandProgram
        (fitsLine_of_parseSources hParse) hProgram) hLayOut)
  rcases forall₂_of_assembleWords hWords with
    ⟨chunks, rfl, hChunks⟩
  refine ⟨statements, chunks.flatten, hStatements, rfl, ?_,
    AddressTable.wordIndex_encoded hTexts⟩
  rw [← AddressTable.totalWords_map_apply hTexts]
  exact length_flatten_of_words
    (List.forall₂_map_left_iff.mpr hChunks)

end MmixAsm
