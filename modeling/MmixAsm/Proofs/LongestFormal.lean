import Mathlib.Data.List.Forall2
import MmixAsm.Proofs.Holes

/-
  Which formal an ampersand belongs to.

  Several formals may begin the text behind an ampersand.  The
  longest of them in bytes has the hole, and the one that was
  declared first among equals.  This is decided by the order
  in which formals are replaced, which is a stable sort.

  Key definitions include:
    * `MmixAsm.Wins`
    * `MmixAsm.FilledBy`

  Key theorems include:
    * `MmixAsm.filter_mergeSort`
    * `MmixAsm.find?_mergeSort_eq_some_iff`
    * `MmixAsm.fillAll_of_find?`
    * `MmixAsm.filledBy_fillAll`
    * `MmixAsm.Library.expandSite_fills_longest`
-/

------------------------------------------------------------
-- The First Of The Largest
------------------------------------------------------------

namespace MmixAsm

section Sorting

variable {α : Type}

/- Largest first. -/
def bySize
    (size : α → Nat)
    (a b : α) : Bool :=
  size b ≤ size a

theorem bySize_trans
    (size : α → Nat)
    (a b c : α)
    (hFirst : bySize size a b = true)
    (hSecond : bySize size b c = true) :
    bySize size a c = true := by
  simp only [bySize, decide_eq_true_eq] at hFirst hSecond ⊢
  omega

theorem bySize_total
    (size : α → Nat)
    (a b : α) :
    (bySize size a b || bySize size b a) = true := by
  simp only [bySize, Bool.or_eq_true, decide_eq_true_eq]
  omega

variable {size : α → Nat}
variable {p : α → Bool}
variable {xs : List α}
variable {x : α}

/- Elements of one size stay in their order. -/
theorem filter_mergeSort
    {q : α → Bool}
    (hSize : ∀ a b, q a = true → q b = true →
      size a = size b) :
    (xs.mergeSort (bySize size)).filter q = xs.filter q := by
  have hOrdered :
      (xs.filter q).Pairwise
        fun a b => bySize size a b = true := by
    apply List.pairwise_of_forall_mem_list
    intro a ha b hb
    have hSame := hSize a b (List.mem_filter.mp ha).2
      (List.mem_filter.mp hb).2
    simp [bySize, hSame]
  have hSublist := (List.sublist_mergeSort (bySize_trans size)
    (bySize_total size) hOrdered List.filter_sublist).filter q
  rw [List.filter_filter] at hSublist
  simp only [Bool.and_self] at hSublist
  refine (hSublist.eq_of_length ?_).symm
  exact ((List.mergeSort_perm xs _).filter q).length_eq.symm

/- What is found first among the sorted is a largest. -/
theorem size_le_of_find?_mergeSort
    (h : (xs.mergeSort (bySize size)).find? p = some x) :
    ∀ y ∈ xs, p y = true → size y ≤ size x := by
  intro y hy hpy
  have hSorted := List.pairwise_mergeSort (bySize_trans size)
    (bySize_total size) xs
  rcases List.find?_eq_some_iff_append.mp h with
    ⟨_, front, back, hSplit, hFront⟩
  have hMem : y ∈ xs.mergeSort (bySize size) :=
    List.mem_mergeSort.mpr hy
  rw [hSplit] at hSorted hMem
  rcases List.mem_append.mp hMem with hMem | hMem
  · have hNot := hFront y hMem
    rw [hpy] at hNot
    cases hNot
  · rcases List.mem_cons.mp hMem with rfl | hMem
    · exact Nat.le_refl _
    · have hBehind := (List.pairwise_append.mp hSorted).2.1
      have hSize := (List.pairwise_cons.mp hBehind).1 y hMem
      simpa only [bySize, decide_eq_true_eq] using hSize

/- Among the largest, the first in the given order is found. -/
theorem find?_mergeSort
    (hMem : x ∈ xs)
    (hp : p x = true)
    (hLargest : ∀ y ∈ xs, p y = true → size y ≤ size x) :
    (xs.mergeSort (bySize size)).find? p =
      xs.find? fun y => p y && size y == size x := by
  have hSome :
      ((xs.mergeSort (bySize size)).find? p).isSome := by
    rw [List.find?_isSome]
    exact ⟨x, List.mem_mergeSort.mpr hMem, hp⟩
  rcases Option.isSome_iff_exists.mp hSome with ⟨z, hz⟩
  have hzMem := List.mem_mergeSort.mp
    (List.mem_of_find?_eq_some hz)
  have hzSize : size z = size x := by
    have hzLe := hLargest z hzMem (List.find?_some hz)
    have hxLe := size_le_of_find?_mergeSort hz x hMem hp
    omega
  have hFilter :
      (xs.mergeSort (bySize size)).filter
          (fun y => p y && size y == size x) =
        xs.filter fun y => p y && size y == size x := by
    apply filter_mergeSort
    intro a b ha hb
    simp only [Bool.and_eq_true, beq_iff_eq] at ha hb
    rw [ha.2, hb.2]
  rw [hz, ← List.head?_filter, ← hFilter, List.head?_filter]
  rcases List.find?_eq_some_iff_append.mp hz with
    ⟨hpz, front, back, hSplit, hFront⟩
  symm
  refine List.find?_eq_some_iff_append.mpr
    ⟨by simp [hpz, hzSize], front, back, hSplit, ?_⟩
  intro y hy
  have hNot := hFront y hy
  rw [Bool.not_eq_true'] at hNot
  rw [hNot]
  rfl

/-
  The element found first among the sorted is as large as any
  other, and larger than those in front of it.
-/
theorem find?_mergeSort_eq_some_iff :
    (xs.mergeSort (bySize size)).find? p = some x ↔
      p x = true ∧
        ∃ before after,
          xs = before ++ x :: after ∧
            (∀ y ∈ before, p y = true → size y < size x) ∧
            ∀ y ∈ after, p y = true → size y ≤ size x := by
  constructor
  · intro h
    have hMem := List.mem_mergeSort.mp
      (List.mem_of_find?_eq_some h)
    have hp := List.find?_some h
    have hLargest := size_le_of_find?_mergeSort h
    rw [find?_mergeSort hMem hp hLargest] at h
    rcases List.find?_eq_some_iff_append.mp h with
      ⟨_, before, after, rfl, hBefore⟩
    refine ⟨hp, before, after, rfl, ?_, ?_⟩
    · intro y hy hpy
      have hLe := hLargest y (List.mem_append_left _ hy) hpy
      have hNot := hBefore y hy
      simp only [hpy, Bool.true_and, Bool.not_eq_true',
        beq_eq_false_iff_ne] at hNot
      omega
    · intro y hy hpy
      exact hLargest y (List.mem_append_right _
        (List.mem_cons_of_mem _ hy)) hpy
  · rintro ⟨hp, before, after, rfl, hBefore, hAfter⟩
    have hLargest : ∀ y ∈ before ++ x :: after,
        p y = true → size y ≤ size x := by
      intro y hy hpy
      rcases List.mem_append.mp hy with hy | hy
      · exact Nat.le_of_lt (hBefore y hy hpy)
      · rcases List.mem_cons.mp hy with rfl | hy
        · exact Nat.le_refl _
        · exact hAfter y hy hpy
    rw [find?_mergeSort (by simp) hp hLargest]
    refine List.find?_eq_some_iff_append.mpr
      ⟨by simp [hp], before, after, rfl, ?_⟩
    intro y hy
    cases hpy : p y with
    | false => rfl
    | true =>
        have hLt := hBefore y hy hpy
        simp only [Bool.true_and, Bool.not_eq_true',
          beq_eq_false_iff_ne]
        omega

end Sorting

end MmixAsm

------------------------------------------------------------
-- The Winner
------------------------------------------------------------

namespace MmixAsm

/-
  The binding to which an ampersand in front of a text
  belongs.  Its formal begins the text and is the longest in
  bytes that does, and the first of that length.
-/
def Wins
    (bindings : List (String × String))
    (text : List Char)
    (winner : String × String) : Prop :=
  winner.1.toList <+: text ∧
    ∃ before after,
      bindings = before ++ winner :: after ∧
        (∀ other ∈ before, other.1.toList <+: text →
          other.1.utf8ByteSize < winner.1.utf8ByteSize) ∧
        ∀ other ∈ after, other.1.toList <+: text →
          other.1.utf8ByteSize ≤ winner.1.utf8ByteSize

/- Whether the formal of a binding begins a text. -/
def begins
    (text : List Char)
    (binding : String × String) : Bool :=
  binding.1.toList.isPrefixOf text

theorem begins_iff
    {text : List Char}
    {binding : String × String} :
    begins text binding = true ↔
      binding.1.toList <+: text :=
  List.isPrefixOf_iff_prefix

/- The winner is the first to be replaced. -/
theorem find?_bindFormals
    {formals actuals : List String}
    {text : List Char}
    {winner : String × String} :
    (bindFormals formals actuals).find? (begins text) =
        some winner ↔
      Wins (formals.zip actuals) text winner := by
  have hSorted : bindFormals formals actuals =
      (formals.zip actuals).mergeSort
        (bySize fun binding => binding.1.utf8ByteSize) :=
    rfl
  rw [hSorted, find?_mergeSort_eq_some_iff]
  simp only [begins_iff, Wins]

/- There is a winner if any formal begins the text. -/
theorem exists_wins_iff
    {formals actuals : List String}
    {text : List Char}
    (hLength : formals.length = actuals.length) :
    (∃ winner, Wins (formals.zip actuals) text winner) ↔
      ∃ formal ∈ formals, formal.toList <+: text := by
  simp only [← find?_bindFormals]
  rw [← Option.isSome_iff_exists, List.find?_isSome]
  constructor
  · rintro ⟨binding, hMem, hBegins⟩
    have hZip : binding ∈ formals.zip actuals :=
      List.mem_mergeSort.mp hMem
    exact ⟨binding.1, (List.of_mem_zip hZip).1,
      begins_iff.mp hBegins⟩
  · rintro ⟨formal, hMem, hBegins⟩
    rw [← List.map_fst_zip (Nat.le_of_eq hLength)] at hMem
    rcases List.mem_map.mp hMem with ⟨binding, hZip, rfl⟩
    exact ⟨binding, List.mem_mergeSort.mpr hZip,
      begins_iff.mpr hBegins⟩

end MmixAsm

------------------------------------------------------------
-- One Hole
------------------------------------------------------------

namespace MmixAsm

variable {parameter : String}
variable {front rest : List Char}
variable {binding : String × String}
variable {bindings : List (String × String)}

/- Text without ampersands is left by every formal. -/
theorem fillParameter_of_notMem
    (binding : String × String)
    (hText : '&' ∉ parameter.toList) :
    fillParameter parameter binding = parameter := by
  rw [fillParameter, fillHole_of_notMem _ hText,
    String.ofList_toList]

theorem fillAll_of_notMem
    (bindings : List (String × String))
    (hText : '&' ∉ parameter.toList) :
    fillAll bindings parameter = parameter := by
  induction bindings with
  | nil => rfl
  | cons binding bindings ih =>
      rw [fillAll, List.foldl_cons,
        fillParameter_of_notMem binding hText]
      exact ih

/- The only hole of a parameter, and a formal that fits. -/
theorem fillParameter_hole
    {remains : List Char}
    (hText : parameter.toList =
      front ++ '&' :: (binding.1.toList ++ remains))
    (hFront : '&' ∉ front)
    (hRemains : '&' ∉ remains) :
    (fillParameter parameter binding).toList =
      front ++ (binding.2.toList ++ remains) := by
  rw [fillParameter, String.toList_ofList, hText,
    fillHole_append _ _ hFront, fillHole_hole,
    fillHole_of_notMem _ hRemains]

/- The only hole of a parameter, and a formal that does not. -/
theorem fillParameter_other
    (hText : parameter.toList = front ++ '&' :: rest)
    (hFront : '&' ∉ front)
    (hRest : '&' ∉ rest)
    (hOther : begins rest binding = false) :
    fillParameter parameter binding = parameter := by
  have hNot : ¬ ('&' = '&' ∧ binding.1.toList <+: rest) := by
    rw [← begins_iff, hOther]
    simp
  rw [fillParameter, hText, fillHole_append _ _ hFront,
    fillHole_cons _ hNot, fillHole_of_notMem _ hRest, ← hText,
    String.ofList_toList]

/- Formals that do not fit leave the parameter. -/
theorem fillAll_of_begins_eq_false
    (hText : parameter.toList = front ++ '&' :: rest)
    (hFront : '&' ∉ front)
    (hRest : '&' ∉ rest)
    (hOthers : ∀ binding ∈ bindings,
      begins rest binding = false) :
    fillAll bindings parameter = parameter := by
  induction bindings with
  | nil => rfl
  | cons binding bindings ih =>
      rw [List.forall_mem_cons] at hOthers
      rw [fillAll, List.foldl_cons,
        fillParameter_other hText hFront hRest hOthers.1]
      exact ih hOthers.2

/-
  The first formal that fits takes the hole.  Its actual has
  no ampersand, so nothing is left for those behind it.
-/
theorem fillAll_of_find?
    {winner : String × String}
    {remains : List Char}
    (hText : parameter.toList =
      front ++ '&' :: (winner.1.toList ++ remains))
    (hFront : '&' ∉ front)
    (hRest : '&' ∉ winner.1.toList ++ remains)
    (hActual : '&' ∉ winner.2.toList)
    (hWinner :
      bindings.find? (begins (winner.1.toList ++ remains)) =
        some winner) :
    (fillAll bindings parameter).toList =
      front ++ (winner.2.toList ++ remains) := by
  rcases List.find?_eq_some_iff_append.mp hWinner with
    ⟨_, before, after, rfl, hBefore⟩
  have hOthers : ∀ binding ∈ before,
      begins (winner.1.toList ++ remains) binding = false := by
    intro binding hMem
    exact (Bool.not_eq_true' _).mp (hBefore binding hMem)
  have hRemains : '&' ∉ remains := fun h =>
    hRest (List.mem_append_right _ h)
  have hFilled := fillParameter_hole hText hFront hRemains
  have hPlain :
      '&' ∉ (fillParameter parameter winner).toList := by
    rw [hFilled, List.mem_append, List.mem_append]
    rintro (h | h | h)
    · exact hFront h
    · exact hActual h
    · exact hRemains h
  calc (fillAll (before ++ winner :: after) parameter).toList
    _ = (fillAll after (fillParameter
          (fillAll before parameter) winner)).toList := by
        simp only [fillAll, List.foldl_append, List.foldl_cons]
    _ = (fillParameter parameter winner).toList := by
        rw [fillAll_of_begins_eq_false hText hFront hRest
          hOthers, fillAll_of_notMem after hPlain]
    _ = front ++ (winner.2.toList ++ remains) := hFilled

end MmixAsm

------------------------------------------------------------
-- Filled Parameters
------------------------------------------------------------

namespace MmixAsm

/-
  What becomes of a parameter with at most one ampersand.  It
  is replaced with the formal that wins the text behind it,
  and everything else stays.
-/
structure FilledBy
    (bindings : List (String × String))
    (parameter result : String) : Prop where
  plain : '&' ∉ parameter.toList → result = parameter
  hole : ∀ front winner remains,
    parameter.toList =
        front ++ '&' :: (winner.1.toList ++ remains) →
      '&' ∉ front →
      '&' ∉ winner.1.toList ++ remains →
      Wins bindings (winner.1.toList ++ remains) winner →
        result.toList =
          front ++ (winner.2.toList ++ remains)
  other : ∀ front rest,
    parameter.toList = front ++ '&' :: rest →
      '&' ∉ front →
      '&' ∉ rest →
      (∀ binding ∈ bindings, ¬ binding.1.toList <+: rest) →
        result = parameter

theorem filledBy_fillAll
    {formals actuals : List String}
    (hActuals : ∀ actual ∈ actuals, '&' ∉ actual.toList)
    (parameter : String) :
    FilledBy (formals.zip actuals) parameter
      (fillAll (bindFormals formals actuals) parameter) where
  plain := fillAll_of_notMem _
  hole := by
    intro front winner remains hText hFront hRest hWins
    have hFind := find?_bindFormals.mpr hWins
    have hMem : winner ∈ formals.zip actuals :=
      List.mem_mergeSort.mp (List.mem_of_find?_eq_some hFind)
    have hActual := hActuals winner.2 (List.of_mem_zip hMem).2
    exact fillAll_of_find? hText hFront hRest hActual hFind
  other := by
    intro front rest hText hFront hRest hNone
    refine fillAll_of_begins_eq_false hText hFront hRest ?_
    intro binding hMem
    rw [← Bool.not_eq_true, begins_iff]
    exact hNone binding (List.mem_mergeSort.mp hMem)

end MmixAsm

------------------------------------------------------------
-- Expanded Sites
------------------------------------------------------------

namespace MmixAsm

namespace Instruction

/- The keyword of an instruction. -/
def keyword :
    Instruction → Keyword
| .op line => .op line.keyword
| .alloc line => .alloc line.keyword
| .control line => .control line.keyword
| .macroLine line => .macroKind line.keyword
| .macroTemplate line _ => .macroKind line.keyword

/-
  An instruction made from a template.  The keyword stays, as
  does a nested template, and the label of the site is taken
  if there is one.
-/
structure MadeFrom
    (result body : Instruction)
    (label : Option String) : Prop where
  keyword : result.keyword = body.keyword
  nested : result.macroBody? = body.macroBody?
  label : result.label? = label.or body.label?

end Instruction

theorem Template.madeFrom_instantiate
    (template : Template)
    (actuals : List String)
    (label : Option String) :
    ((template.instantiate actuals).relabel label).MadeFrom
      template.body label := by
  unfold Template.instantiate
  cases template.body <;> cases label <;>
    exact ⟨rfl, rfl, rfl⟩

theorem Instruction.parameters_relabel
    (instruction : Instruction)
    (label : Option String) :
    (instruction.relabel label).parameters =
      instruction.parameters := by
  cases instruction <;> cases label <;> rfl

namespace Library

/-
  Wherever a site finds a template with as many formals as it
  has actuals, it becomes the body of the template with every
  ampersand filled by the longest formal.
-/
theorem expandSite_fills_longest
    (library : Library)
    (file : String)
    (table : MacroTable)
    (site : Site)
    (template : Template)
    (name : String)
    (actuals : List String)
    (hSite : site.actuals = name :: actuals)
    (hTemplate : library.template? table name = some template)
    (hLength : template.formals.length = actuals.length)
    (hActuals : ∀ actual ∈ actuals, '&' ∉ actual.toList) :
    ∃ result,
      library.expandSite file table site = .ok result ∧
        result.MadeFrom template.body site.label ∧
        List.Forall₂
          (FilledBy (template.formals.zip actuals))
          template.body.parameters result.parameters ∧
        ∀ rest,
          (∃ winner,
              Wins (template.formals.zip actuals) rest winner) ↔
            ∃ formal ∈ template.formals,
              formal.toList <+: rest := by
  refine ⟨(template.instantiate actuals).relabel site.label,
    ?_, template.madeFrom_instantiate actuals site.label, ?_,
    fun rest => exists_wins_iff hLength⟩
  · simp only [expandSite, hSite, hTemplate, hLength, if_true]
  · rw [Instruction.parameters_relabel,
      Template.parameters_instantiate, List.forall₂_map_right_iff,
      List.forall₂_same]
    exact fun parameter _ => filledBy_fillAll hActuals parameter

/- Formals that begin one another, and one that is repeated. -/
def chainTemplate : Template where
  name := "m"
  formals := ["é", "éta", "é", "étage"]
  body := .op ⟨some "here", "ADD", ["&éta", "r&étal", "&é", "&x"]⟩

def chainSite : Site where
  label := some "there"
  offset := 3
  actuals := ["m", "1", "2", "3", "4"]

theorem chainTemplate_fills_longest :
    (∃ result,
      empty.expandSite "a" [.template chainTemplate] chainSite =
          .ok result ∧
        result.MadeFrom chainTemplate.body (some "there") ∧
        List.Forall₂
          (FilledBy (chainTemplate.formals.zip
            ["1", "2", "3", "4"]))
          chainTemplate.body.parameters result.parameters ∧
        ∀ rest,
          (∃ winner,
              Wins (chainTemplate.formals.zip
                ["1", "2", "3", "4"]) rest winner) ↔
            ∃ formal ∈ chainTemplate.formals,
              formal.toList <+: rest) ∧
      empty.expandSite "a" [.template chainTemplate] chainSite =
        .ok (.op ⟨some "there", "ADD",
          ["2", "r2l", "1", "&x"]⟩) := by
  have hTemplate :
      empty.template? [.template chainTemplate] "m" =
        some chainTemplate := by
    decide +kernel
  have hSizes :
      "é".utf8ByteSize = 2 ∧ "éta".utf8ByteSize = 4 ∧
        "étage".utf8ByteSize = 6 := by
    decide +kernel
  have hTurns :
      bindFormals chainTemplate.formals ["1", "2", "3", "4"] =
        [("étage", "4"), ("éta", "2"), ("é", "1"),
          ("é", "3")] := by
    simp [bindFormals, chainTemplate, List.mergeSort,
      List.MergeSort.Internal.splitInTwo, hSizes]
  refine ⟨expandSite_fills_longest empty "a" _ chainSite
    chainTemplate "m" ["1", "2", "3", "4"] rfl hTemplate rfl
    (by simp), ?_⟩
  simp only [expandSite, chainSite, hTemplate,
    Template.instantiate, hTurns]
  decide +kernel

end Library

end MmixAsm
