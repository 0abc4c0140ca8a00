import MmixAsm.Macro.Condition

/-
  How a condition is written, said without its reader.

  A condition is a name and a value with a sign between them,
  and any white space around the two.  The sign is the first
  `==` of the text, or the first `!=` of a text without `==`.

  Key definitions include:
    * `MmixAsm.Text.Trims`
    * `MmixAsm.DividesAt`
    * `MmixAsm.Condition.Written`
    * `MmixAsm.Condition.Accepts`

  Key theorems include:
    * `MmixAsm.Text.trim_eq_iff`
    * `MmixAsm.splitAtPair_eq_some_iff`
    * `MmixAsm.Condition.ofText?_eq_some_iff`
    * `MmixAsm.Condition.ofText?_eq_none_iff`
-/

------------------------------------------------------------
-- Trimmed Texts
------------------------------------------------------------

namespace MmixAsm

namespace Text

/-
  The text `core` is `text` without white space around it: it
  neither begins nor ends with any.
-/
structure Trims (text core : List Char) : Prop where
  exists_around : ∃ front back,
    text = front ++ (core ++ back) ∧
      (∀ c ∈ front, isWhiteSpace c = true) ∧
      ∀ c ∈ back, isWhiteSpace c = true
  head : ∀ c ∈ core.head?, isWhiteSpace c = false
  last : ∀ c ∈ core.getLast?, isWhiteSpace c = false

/- Nothing is dropped in front of another character. -/
theorem dropWhile_eq_self
    {text : List Char}
    (hHead : ∀ c ∈ text.head?, isWhiteSpace c = false) :
    text.dropWhile isWhiteSpace = text := by
  cases text with
  | nil => rfl
  | cons c rest =>
      rw [List.dropWhile_cons_of_neg]
      rw [hHead c rfl]
      exact Bool.false_ne_true

theorem trimEnd_append
    {core back : List Char}
    (hBack : ∀ c ∈ back, isWhiteSpace c = true)
    (hLast : ∀ c ∈ core.getLast?, isWhiteSpace c = false) :
    trimEnd (core ++ back) = core := by
  have hReverse : ∀ c ∈ back.reverse,
      isWhiteSpace c = true :=
    fun c hc => hBack c (List.mem_reverse.mp hc)
  have hHead : ∀ c ∈ core.reverse.head?,
      isWhiteSpace c = false := by
    rwa [List.head?_reverse]
  unfold trimEnd
  rw [List.reverse_append,
    List.dropWhile_append_of_pos hReverse,
    dropWhile_eq_self hHead, List.reverse_reverse]

theorem trim_of_trims
    {text core : List Char}
    (h : Trims text core) :
    trim text = core := by
  rcases h.exists_around with
    ⟨front, back, rfl, hFront, hBack⟩
  unfold trim
  rw [List.dropWhile_append_of_pos hFront]
  cases hCore : core with
  | nil =>
      rw [List.nil_append, ← List.append_nil back,
        List.dropWhile_append_of_pos hBack]
      rfl
  | cons c rest =>
      rw [← hCore, dropWhile_eq_self, trimEnd_append hBack h.last]
      rw [hCore]
      rw [hCore] at h
      exact h.head

/- What is left begins with another character, if at all. -/
theorem isWhiteSpace_head?_dropWhile
    {text : List Char}
    {c : Char}
    (hHead : c ∈ (text.dropWhile isWhiteSpace).head?) :
    isWhiteSpace c = false := by
  have hNot := List.head?_dropWhile_not isWhiteSpace text
  rwa [hHead] at hNot

/- Every text can be trimmed. -/
theorem trims_trim (text : List Char) :
    Trims text (trim text) := by
  let rest := text.dropWhile isWhiteSpace
  let back := (rest.reverse.takeWhile isWhiteSpace).reverse
  have hRest : rest = trim text ++ back := by
    change rest = trimEnd rest ++ back
    unfold trimEnd
    rw [← List.reverse_append,
      List.takeWhile_append_dropWhile, List.reverse_reverse]
  refine ⟨⟨text.takeWhile isWhiteSpace, back, ?_, ?_, ?_⟩,
    ?_, ?_⟩
  · rw [← hRest, List.takeWhile_append_dropWhile]
  · exact List.all_eq_true.mp List.all_takeWhile
  · intro c hc
    exact List.all_eq_true.mp List.all_takeWhile c
      (List.mem_reverse.mp hc)
  · intro c hHead
    have hFirst : rest.head? = some c := by
      rw [hRest, List.head?_append, hHead]
      rfl
    exact isWhiteSpace_head?_dropWhile hFirst
  · intro c hLast
    unfold trim trimEnd at hLast
    rw [List.getLast?_reverse] at hLast
    exact isWhiteSpace_head?_dropWhile hLast

/- Trimming gives the text without white space around it. -/
theorem trim_eq_iff
    {text core : List Char} :
    trim text = core ↔ Trims text core := by
  constructor
  · rintro rfl
    exact trims_trim text
  · exact trim_of_trims

end Text

end MmixAsm

------------------------------------------------------------
-- Divided Texts
------------------------------------------------------------

namespace MmixAsm

/-
  The text is divided at the first place where the two
  characters stand beside each other.
-/
structure DividesAt
    (a b : Char)
    (text left right : List Char) : Prop where
  text_eq : text = left ++ a :: b :: right
  first : ¬ [a, b] <:+: left ++ [a]

variable {a b : Char}
variable {text left right : List Char}

/- No pair begins at a character with another one behind. -/
theorem pair_infix_cons_iff
    {c d : Char}
    (hPair : ¬ (c = a ∧ d = b))
    (hHead : text.head? = some d) :
    [a, b] <:+: c :: text ↔ [a, b] <:+: text := by
  rw [List.infix_cons_iff]
  constructor
  · rintro (hPrefix | hInfix)
    · rcases hPrefix with ⟨rest, hText⟩
      rcases List.cons.inj hText with ⟨rfl, rfl⟩
      exact absurd ⟨rfl, (Option.some.inj hHead).symm⟩ hPair
    · exact hInfix
  · exact Or.inr

theorem not_pair_infix_singleton (c : Char) :
    ¬ [a, b] <:+: [c] := by
  intro hInfix
  have hLength := hInfix.length_le
  simp at hLength

theorem splitAtPair_eq_none_iff :
    splitAtPair a b text = none ↔ ¬ [a, b] <:+: text := by
  fun_induction splitAtPair a b text with
  | case1 => simp
  | case2 c =>
      simp [not_pair_infix_singleton]
  | case3 c d rest hPair =>
      rcases hPair with ⟨rfl, rfl⟩
      have hInfix : [c, d] <:+: c :: d :: rest :=
        (List.prefix_append [c, d] rest).isInfix
      simp [hInfix]
  | case4 c d rest hPair ih =>
      rw [Option.map_eq_none_iff, ih,
        pair_infix_cons_iff hPair rfl]

/- A text that begins with the pair is divided there. -/
theorem dividesAt_cons_iff_of_pair
    {rest : List Char} :
    DividesAt a b (a :: b :: rest) left right ↔
      left = [] ∧ right = rest := by
  constructor
  · rintro ⟨hText, hFirst⟩
    cases left with
    | nil =>
        simp only [List.nil_append, List.cons.injEq, true_and]
          at hText
        exact ⟨rfl, hText.symm⟩
    | cons c others =>
        -- The pair would stand in front of the division.
        exfalso
        apply hFirst
        rw [List.cons_append, List.cons.injEq] at hText
        rcases hText with ⟨rfl, hText⟩
        cases others with
        | nil =>
            rcases List.cons.inj hText with ⟨rfl, _⟩
            exact List.infix_rfl
        | cons d others =>
            rcases List.cons.inj hText with ⟨rfl, _⟩
            exact (List.prefix_append [a, b] _).isInfix
  · rintro ⟨rfl, rfl⟩
    exact ⟨rfl, not_pair_infix_singleton a⟩

/- Other texts are divided behind their first character. -/
theorem dividesAt_cons_iff
    {c d : Char}
    {rest : List Char}
    (hPair : ¬ (c = a ∧ d = b)) :
    DividesAt a b (c :: d :: rest) left right ↔
      ∃ others, left = c :: others ∧
        DividesAt a b (d :: rest) others right := by
  constructor
  · rintro ⟨hText, hFirst⟩
    cases left with
    | nil =>
        rcases List.cons.inj hText with ⟨hLeft, hRest⟩
        exact absurd ⟨hLeft, (List.cons.inj hRest).1⟩ hPair
    | cons e others =>
        rcases List.cons.inj hText with ⟨rfl, hRest⟩
        refine ⟨others, rfl, hRest, fun hInfix => hFirst ?_⟩
        exact List.infix_cons hInfix
  · rintro ⟨others, rfl, hText, hFirst⟩
    have hHead : (others ++ [a]).head? = some d := by
      cases others with
      | nil => exact congrArg List.head? hText.symm
      | cons e others => exact congrArg List.head? hText.symm
    refine ⟨congrArg (c :: ·) hText, ?_⟩
    rwa [List.cons_append, pair_infix_cons_iff hPair hHead]

/- The parts of a text are those around its first pair. -/
theorem splitAtPair_eq_some_iff :
    splitAtPair a b text = some (left, right) ↔
      DividesAt a b text left right := by
  fun_induction splitAtPair a b text generalizing left with
  | case1 =>
      refine iff_of_false (by simp) ?_
      rintro ⟨hText, _⟩
      simp at hText
  | case2 c =>
      refine iff_of_false (by simp) ?_
      rintro ⟨hText, _⟩
      have hLength := congrArg List.length hText
      simp at hLength
      omega
  | case3 c d rest hPair =>
      rcases hPair with ⟨rfl, rfl⟩
      rw [dividesAt_cons_iff_of_pair]
      simp [eq_comm]
  | case4 c d rest hPair ih =>
      rw [dividesAt_cons_iff hPair, Option.map_eq_some_iff]
      constructor
      · rintro ⟨parts, hParts, hEq⟩
        cases hEq
        exact ⟨parts.1, rfl, ih.mp hParts⟩
      · rintro ⟨others, rfl, hDivides⟩
        exact ⟨(others, right), ih.mpr hDivides, rfl⟩

end MmixAsm

------------------------------------------------------------
-- Written Conditions
------------------------------------------------------------

namespace MmixAsm

namespace Condition

/- How a text writes a condition. -/
inductive Written (text : String) :
    Condition → Prop
  | equal
      {name value : String}
      {left right : List Char}
      (hText : DividesAt '=' '=' text.toList left right)
      (hName : Text.Trims left name.toList)
      (hValue : Text.Trims right value.toList) :
      Written text ⟨name, value, true⟩
  | different
      {name value : String}
      {left right : List Char}
      (hOther : ¬ ['=', '='] <:+: text.toList)
      (hText : DividesAt '!' '=' text.toList left right)
      (hName : Text.Trims left name.toList)
      (hValue : Text.Trims right value.toList) :
      Written text ⟨name, value, false⟩

/- What a condition asks of the value of its constant. -/
def Accepts
    (condition : Condition)
    (value : String) : Prop :=
  if condition.equal then
    value = condition.value
  else
    value ≠ condition.value

theorem holds_iff
    {condition : Condition}
    {value : String} :
    condition.holds value = true ↔ condition.Accepts value := by
  rcases condition with ⟨name, wanted, equal⟩
  cases equal with
  | true => simp [holds, Accepts]
  | false => simp [holds, Accepts]

variable {text : String}
variable {condition : Condition}

theorem ofParts_eq_iff
    {equal : Bool}
    {parts : List Char × List Char} :
    ofParts equal parts = condition ↔
      Text.Trims parts.1 condition.name.toList ∧
        Text.Trims parts.2 condition.value.toList ∧
        equal = condition.equal := by
  have hOfList : ∀ (cs : List Char) (s : String),
      String.ofList cs = s ↔ cs = s.toList := by
    intro cs s
    rw [← String.toList_inj, String.toList_ofList]
  rcases condition with ⟨name, value, wanted⟩
  rw [← Text.trim_eq_iff, ← Text.trim_eq_iff, ← hOfList,
    ← hOfList]
  simp only [ofParts, Condition.mk.injEq]

/- The reader finds what a text writes. -/
theorem ofText?_eq_some_iff :
    ofText? text = some condition ↔
      Written text condition := by
  unfold ofText?
  constructor
  · intro h
    cases hEqual : splitAtPair '=' '=' text.toList with
    | some parts =>
        rw [hEqual] at h
        rcases ofParts_eq_iff.mp (Option.some.inj h) with
          ⟨hName, hValue, hSign⟩
        rcases condition with ⟨name, value, equal⟩
        cases hSign
        exact .equal (splitAtPair_eq_some_iff.mp hEqual) hName
          hValue
    | none =>
        rw [hEqual] at h
        rcases Option.map_eq_some_iff.mp h with
          ⟨parts, hParts, hCondition⟩
        rcases ofParts_eq_iff.mp hCondition with
          ⟨hName, hValue, hSign⟩
        rcases condition with ⟨name, value, equal⟩
        cases hSign
        exact .different (splitAtPair_eq_none_iff.mp hEqual)
          (splitAtPair_eq_some_iff.mp hParts) hName hValue
  · intro h
    cases h with
    | equal hText hName hValue =>
        rw [splitAtPair_eq_some_iff.mpr hText]
        exact congrArg some
          (ofParts_eq_iff.mpr ⟨hName, hValue, rfl⟩)
    | different hOther hText hName hValue =>
        rw [splitAtPair_eq_none_iff.mpr hOther,
          splitAtPair_eq_some_iff.mpr hText]
        exact congrArg some
          (ofParts_eq_iff.mpr ⟨hName, hValue, rfl⟩)

/- A text that is no condition has neither sign. -/
theorem ofText?_eq_none_iff :
    ofText? text = none ↔
      ¬ ['=', '='] <:+: text.toList ∧
        ¬ ['!', '='] <:+: text.toList := by
  unfold ofText?
  rw [← splitAtPair_eq_none_iff, ← splitAtPair_eq_none_iff]
  simp

end Condition

end MmixAsm
