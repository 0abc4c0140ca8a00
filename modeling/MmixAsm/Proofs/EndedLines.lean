import MmixAsm.Assembly
import MmixAsm.Proofs.LiteralGrammar
import MmixAsm.Proofs.RoundTrip

/-
  Texts of lines that are all ended, and words written so.

  A text can be taken apart into its lines if the last one is
  ended too, and this undoes writing lines that hold no line
  feed.  A word is written in sixteen digits, the most
  significant one first, from which it is read as a number
  behind the hexadecimal mark.  So the text of some words says
  exactly which words they are.

  Key definitions include:
    * `MmixAsm.Text.endedLines?`
    * `MmixAsm.Text.lowercaseDigits`
    * `MmixAsm.Text.IsWordLine`

  Key theorems include:
    * `MmixAsm.Text.endedLines?_eq_some_iff`
    * `MmixAsm.Text.spells_hexDigits`
    * `MmixAsm.Text.number_hexWord`
    * `MmixAsm.encoded_text_lossless`
-/

------------------------------------------------------------
-- Ended Lines
------------------------------------------------------------

namespace MmixAsm

namespace Text

/- The lines of a text in which every line is ended. -/
def endedLines? (text : String) : Option (List String) :=
  let parts := splitWhere (· == '\n') text.toList
  if parts.getLast? = some [] then
    some (parts.dropLast.map String.ofList)
  else
    none

theorem toList_endLines (lines : List String) :
    (endLines lines).toList =
      (lines.map String.toList).flatMap (· ++ ['\n']) := by
  rw [endLines, String.toList_join, List.flatMap_map,
    List.flatMap_map]
  simp only [String.toList_append]
  rfl

/- Ending parts is joining them with an empty one behind. -/
theorem intercalate_concat_nil
    {α : Type}
    (x : α)
    (parts : List (List α)) :
    [x].intercalate (parts ++ [[]]) =
      parts.flatMap (· ++ [x]) := by
  induction parts with
  | nil => rfl
  | cons part rest ih =>
      rw [List.flatMap_cons, ← ih]
      cases rest with
      | nil => simp [List.intercalate]
      | cons next others =>
          rw [List.cons_append, List.cons_append,
            List.intercalate_cons_cons]

/-
  Exactly the texts that were written as lines are taken
  apart, and into these lines.
-/
theorem endedLines?_eq_some_iff
    {text : String}
    {lines : List String} :
    endedLines? text = some lines ↔
      text = endLines lines ∧
        ∀ line ∈ lines, '\n' ∉ line.toList := by
  constructor
  · intro h
    unfold endedLines? at h
    simp only at h
    split at h
    · rename_i hLast
      rcases List.getLast?_eq_some_iff.mp hLast with
        ⟨parts, hParts⟩
      rw [hParts, List.dropLast_concat] at h
      cases h
      constructor
      · apply String.toList_injective
        rw [toList_endLines, List.map_map]
        have hIds : String.toList ∘ String.ofList =
            (id : List Char → List Char) :=
          funext fun _ => String.toList_ofList
        rw [hIds, List.map_id, ← intercalate_concat_nil,
          ← hParts, splitWhere_eq_splitOnP,
          ← List.splitOn_eq_splitOnP, List.intercalate_splitOn]
      · intro line hLine hFeed
        rcases List.mem_map.mp hLine with ⟨part, hPart, rfl⟩
        rw [String.toList_ofList] at hFeed
        have hMem : part ∈
            splitWhere (· == '\n') text.toList := by
          rw [hParts]
          exact List.mem_append_left _ hPart
        have hNot := (mem_of_mem_splitWhere hMem hFeed).2
        simp at hNot
    · cases h
  · rintro ⟨rfl, hLines⟩
    have hParts : splitWhere (· == '\n')
        (endLines lines).toList =
          lines.map String.toList ++ [[]] := by
      rw [toList_endLines, ← intercalate_concat_nil]
      refine splitWhere_intercalate ?_ (by simp)
      intro part hPart
      rcases List.mem_append.mp hPart with hPart | hPart
      · rcases List.mem_map.mp hPart with ⟨line, hLine, rfl⟩
        exact hLines line hLine
      · rw [List.mem_singleton.mp hPart]
        exact List.not_mem_nil
    unfold endedLines?
    simp only [hParts, List.getLast?_concat, if_true,
      List.dropLast_concat, List.map_map]
    rw [show String.ofList ∘ String.toList = id from
      funext fun _ => String.ofList_toList, List.map_id]

/- Written forms on one line each are taken apart again. -/
theorem endedLines?_map
    {α : Type}
    {write : α → String}
    {items : List α}
    (hItems : ∀ item ∈ items, '\n' ∉ (write item).toList) :
    endedLines? (endLines (items.map write)) =
      some (items.map write) :=
  endedLines?_eq_some_iff.mpr
    ⟨rfl, List.forall_mem_map.mpr hItems⟩

end Text

end MmixAsm

------------------------------------------------------------
-- Words In Sixteen Digits
------------------------------------------------------------

namespace MmixAsm

namespace Text

/- The sixteen digits, with letters in lowercase. -/
def lowercaseDigits : List Char :=
  "0123456789abcdef".toList

/- A line of sixteen lowercase digits. -/
def IsWordLine (line : String) : Prop :=
  line.length = 16 ∧
    ∀ c ∈ line.toList, c ∈ lowercaseDigits

theorem hexDigit_mem (n : Nat) :
    hexDigit n ∈ lowercaseDigits := by
  have hAll : ∀ d < 16,
      Nat.digitChar d ∈ lowercaseDigits := by
    decide
  exact hAll (n % 16) (Nat.mod_lt n (by decide))

theorem length_hexDigits (count n : Nat) :
    (hexDigits count n).length = count := by
  induction count generalizing n with
  | zero => rfl
  | succ count ih =>
      rw [hexDigits, List.length_append, ih]
      rfl

theorem mem_lowercaseDigits
    {count n : Nat}
    {c : Char}
    (hc : c ∈ hexDigits count n) :
    c ∈ lowercaseDigits := by
  induction count generalizing n with
  | zero => cases hc
  | succ count ih =>
      rcases List.mem_append.mp hc with hFront | hLast
      · exact ih hFront
      · rw [List.mem_singleton.mp hLast]
        exact hexDigit_mem n

/- The last digits of a number spell what is left of it. -/
theorem spells_hexDigits (count n : Nat) :
    Literal.Spells 16 (hexDigits (count + 1) n)
      (n % 16 ^ (count + 1)) := by
  induction count generalizing n with
  | zero =>
      refine ⟨List.cons_ne_nil _ _, [n % 16], ?_, ?_⟩
      · exact .cons ⟨Nat.mod_lt n (by decide), Or.inl rfl⟩ .nil
      · rw [List.reverse_singleton, Nat.ofDigits_singleton,
          Nat.zero_add, Nat.pow_one]
  | succ count ih =>
      have hLast := (ih (n / 16)).concat
        (Nat.mod_lt n (by decide : 0 < 16))
      have hValue : 16 * (n / 16 % 16 ^ (count + 1)) + n % 16 =
          n % 16 ^ (count + 1 + 1) := by
        rw [Nat.pow_succ' (n := count + 1), Nat.mod_mul,
          Nat.add_comm]
      rw [hValue] at hLast
      exact hLast

theorem isWordLine_hexWord (word : UInt64) :
    IsWordLine (hexWord word) := by
  constructor
  · rw [hexWord, String.length_ofList, length_hexDigits]
  · intro c hc
    rw [hexWord, String.toList_ofList] at hc
    exact mem_lowercaseDigits hc

/- A word is read back behind the hexadecimal mark. -/
theorem number_hexWord (word : UInt64) :
    Literal.number ("#" ++ hexWord word) = .ok word := by
  have hSize : word.toNat < UInt64.size := word.toNat_lt
  have hBound : word.toNat < 16 ^ 16 :=
    lt_of_lt_of_eq hSize (by decide)
  have hSpells :
      Literal.Spells 16 (hexDigits 16 word.toNat)
        (word.toNat % 16 ^ 16) :=
    spells_hexDigits 15 word.toNat
  rw [Nat.mod_eq_of_lt hBound] at hSpells
  have hMark : ['#'] ∈ Literal.hexMarks := by
    decide
  have hNumeral := Literal.Numeral.hexadecimal hMark
    (.plain hSpells) hSize
  rw [UInt64.ofNat_toNat] at hNumeral
  rw [Literal.number_eq_ok_iff, String.toList_append, hexWord,
    String.toList_ofList, String.toList_ofList]
  exact hNumeral

/- A line of digits holds no line feed. -/
theorem IsWordLine.feed_notMem
    {line : String}
    (h : IsWordLine line) :
    '\n' ∉ line.toList := by
  intro hFeed
  have hNot : '\n' ∉ lowercaseDigits := by
    decide
  exact hNot (h.2 _ hFeed)

end Text

end MmixAsm

------------------------------------------------------------
-- The Text Of Encoded Words
------------------------------------------------------------

namespace MmixAsm

/- The words that the lines of a text stand for. -/
def readWords
    (lines : List String) : Except NumberFault (List UInt64) :=
  lines.mapM fun line => Literal.number ("#" ++ line)

theorem readWords_hexWord (words : List UInt64) :
    readWords (words.map Text.hexWord) = .ok words := by
  refine mapM_eq_ok_of_forall₂ (List.forall₂_map_left_iff.mpr
    (List.forall₂_same.mpr ?_))
  exact fun word _ => Text.number_hexWord word

theorem endedLines?_encoded (words : List UInt64) :
    Text.endedLines? (Output.encoded words).text =
      some (words.map Text.hexWord) :=
  Text.endedLines?_map fun word _ =>
    (Text.isWordLine_hexWord word).feed_notMem

/-
  The text of encoded words is one ended line of sixteen
  lowercase digits for each word, in order.  Behind the
  hexadecimal mark the lines are read as these words, so the
  texts of different words differ.
-/
theorem encoded_text_lossless (words : List UInt64) :
    (∃ lines,
      Text.endedLines? (Output.encoded words).text =
          some lines ∧
        lines.length = words.length ∧
        (∀ line ∈ lines, Text.IsWordLine line) ∧
        readWords lines = .ok words) ∧
    ∀ others,
      (Output.encoded words).text =
          (Output.encoded others).text ↔
        words = others := by
  constructor
  · refine ⟨words.map Text.hexWord, endedLines?_encoded words,
      List.length_map _, ?_, readWords_hexWord words⟩
    intro line hLine
    rcases List.mem_map.mp hLine with ⟨word, -, rfl⟩
    exact Text.isWordLine_hexWord word
  · intro others
    constructor
    · intro hText
      have hLines := endedLines?_encoded words
      rw [hText, endedLines?_encoded others] at hLines
      have hRead := readWords_hexWord words
      rw [← Option.some.inj hLines, readWords_hexWord others]
        at hRead
      exact (Except.ok.inj hRead).symm
    · rintro rfl
      rfl

theorem boundaryWords_lossless :
    ∃ lines,
      Text.endedLines?
          (Output.encoded [0xE300000000000105, 0x48, 0]).text =
        some lines ∧
      lines = ["e300000000000105", "0000000000000048",
        "0000000000000000"] ∧
      Text.IsWordLine "0000000000000048" ∧
      readWords lines = .ok [0xE300000000000105, 0x48, 0] := by
  rcases (encoded_text_lossless
    [0xE300000000000105, 0x48, 0]).1 with
    ⟨lines, hLines, -, hDigits, hRead⟩
  have hWritten :
      Text.endedLines?
          (Output.encoded [0xE300000000000105, 0x48, 0]).text =
        some ["e300000000000105", "0000000000000048",
          "0000000000000000"] := by
    decide +kernel
  cases hLines.symm.trans hWritten
  exact ⟨_, hLines, rfl, hDigits _ (by decide), hRead⟩

end MmixAsm
