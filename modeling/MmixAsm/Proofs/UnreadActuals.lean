import Mathlib.Data.List.Induction
import MmixAsm.Proofs.Holes

/-
  What the text of an actual can do to a template.

  A mark is a character that stands for an actual and occurs
  nowhere else.  Filling a template with marks and replacing
  the marks at the end shows what it means that actuals are
  never read.  Formals are replaced one after the other, so
  this is not always what happens: an ampersand in an actual,
  or one of the template in front of an actual, may be read
  as a hole of a formal whose turn comes later.

  Key definitions include:
    * `MmixAsm.Marking`
    * `MmixAsm.Marking.meaning`
    * `MmixAsm.Marking.fillBy`
    * `MmixAsm.Marking.FindsSameHoles`
    * `MmixAsm.Marking.AmpersandsApart`

  Key theorems include:
    * `MmixAsm.Marking.unread_of_findsSameHoles`
    * `MmixAsm.Marking.findsSameHoles_iff`
    * `MmixAsm.Marking.findsSameHoles_of_apart`
    * `MmixAsm.Template.instantiate_by_marks`
-/

------------------------------------------------------------
-- Marks
------------------------------------------------------------

namespace MmixAsm

/- A formal, its actual and the mark of the actual. -/
structure Marking where
  formal : String
  mark : Char
  actual : String
deriving DecidableEq

namespace Marking

/- The formals in the order in which they are replaced. -/
def inTurn (markings : List Marking) : List Marking :=
  markings.mergeSort
    (fun a b => b.formal.utf8ByteSize ≤ a.formal.utf8ByteSize)

/- Fill the holes of all formals, each by its own value. -/
def fillBy
    (value : Marking → List Char)
    (markings : List Marking)
    (text : List Char) : List Char :=
  markings.foldl
    (fun filled marking =>
      fillHole marking.formal.toList (value marking) 0 filled)
    text

/- The text with a mark in each hole. -/
def marked
    (markings : List Marking)
    (text : List Char) : List Char :=
  fillBy (fun marking => [marking.mark]) markings text

/- The text with the actuals in its holes. -/
def filled
    (markings : List Marking)
    (text : List Char) : List Char :=
  fillBy (fun marking => marking.actual.toList) markings text

/- What a character stands for, if marks have values. -/
def meaning
    (value : Marking → List Char)
    (markings : List Marking)
    (c : Char) : List Char :=
  match markings.find? (fun marking => marking.mark == c) with
  | some marking => value marking
  | none => [c]

/- Replace the marks in a text by the actuals. -/
def unmark
    (markings : List Marking)
    (text : List Char) : List Char :=
  text.flatMap
    (meaning (fun marking => marking.actual.toList) markings)

variable {markings before : List Marking}
variable {marking : Marking}
variable {value : Marking → List Char}
variable {text : List Char}

/- Every mark stands for its own value. -/
theorem meaning_mark
    (value : Marking → List Char)
    (hDistinct : (markings.map (·.mark)).Nodup)
    (hMarking : marking ∈ markings) :
    meaning value markings marking.mark = value marking := by
  induction markings with
  | nil => cases hMarking
  | cons first others ih =>
      rw [List.map_cons, List.nodup_cons] at hDistinct
      unfold meaning
      rcases List.mem_cons.mp hMarking with rfl | hOthers
      · rw [List.find?_cons_of_pos (by simp)]
      · have hFirst : first.mark ≠ marking.mark := by
          intro hSame
          rw [hSame] at hDistinct
          exact hDistinct.1 (List.mem_map_of_mem hOthers)
        rw [List.find?_cons_of_neg (by simpa using hFirst)]
        exact ih hDistinct.2 hOthers

/- Any other character stands for itself. -/
theorem meaning_other
    {c : Char}
    (value : Marking → List Char)
    (hOther : c ∉ markings.map (·.mark)) :
    meaning value markings c = [c] := by
  have hNone : markings.find? (fun m => m.mark == c) = none := by
    rw [List.find?_eq_none]
    intro m hm hMark
    exact hOther (List.mem_map.mpr ⟨m, hm, eq_of_beq hMark⟩)
  rw [meaning, hNone]

/- Text without marks stands for itself. -/
theorem flatMap_meaning_other
    (value : Marking → List Char)
    (hText : ∀ c ∈ text, c ∉ markings.map (·.mark)) :
    text.flatMap (meaning value markings) = text := by
  induction text with
  | nil => rfl
  | cons c cs ih =>
      rcases List.forall_mem_cons.mp hText with ⟨hc, hcs⟩
      rw [List.flatMap_cons, meaning_other value hc, ih hcs]
      rfl

/- One more mark does not matter where it does not occur. -/
theorem flatMap_meaning_concat
    (value : Marking → List Char)
    (hText : marking.mark ∉ text) :
    text.flatMap (meaning value (before ++ [marking])) =
      text.flatMap (meaning value before) := by
  apply List.flatMap_congr
  intro c hc
  have hMark : marking.mark ≠ c := by
    rintro rfl
    exact hText hc
  unfold meaning
  rw [List.find?_append, List.find?_cons_of_neg
    (by simpa using hMark), List.find?_nil, Option.or_none]

/- The order of the markings does not matter. -/
theorem meaning_of_perm
    {others : List Marking}
    (value : Marking → List Char)
    (hDistinct : (markings.map (·.mark)).Nodup)
    (hPerm : others.Perm markings) :
    meaning value others = meaning value markings := by
  funext c
  by_cases hMark : c ∈ markings.map (·.mark)
  · rcases List.mem_map.mp hMark with ⟨m, hm, rfl⟩
    have hOthers : (others.map (·.mark)).Nodup :=
      ((hPerm.map _).nodup_iff).mpr hDistinct
    rw [meaning_mark value hDistinct hm,
      meaning_mark value hOthers (hPerm.mem_iff.mpr hm)]
  · rw [meaning_other value hMark, meaning_other value
      fun hOther => hMark ((hPerm.map _).mem_iff.mp hOther)]

/- Replacing characters in stretches and between them. -/
theorem flatMap_intercalate
    (replace : Char → List Char)
    (joint : List Char)
    (parts : List (List Char)) :
    (List.intercalate joint parts).flatMap replace =
      List.intercalate (joint.flatMap replace)
        (parts.map (List.flatMap replace)) := by
  induction parts with
  | nil => rfl
  | cons part parts ih =>
      cases parts with
      | nil =>
          rw [List.intercalate_singleton, List.map_singleton,
            List.intercalate_singleton]
      | cons next others =>
          rw [List.intercalate_cons_cons, List.map_cons,
            List.map_cons, List.intercalate_cons_cons,
            ← List.map_cons, ← ih, List.flatMap_append,
            List.flatMap_append]

end Marking

end MmixAsm

------------------------------------------------------------
-- Filling In Turn
------------------------------------------------------------

namespace MmixAsm

namespace Marking

variable {markings before : List Marking}
variable {marking : Marking}
variable {text : List Char}

/- The last formal is replaced in what the others left. -/
theorem fillBy_concat
    (value : Marking → List Char)
    (before : List Marking)
    (marking : Marking)
    (text : List Char) :
    fillBy value (before ++ [marking]) text =
      fillHole marking.formal.toList (value marking) 0
        (fillBy value before text) := by
  rw [fillBy, List.foldl_append]
  rfl

/- A hole holds the actual, and the rest is from the text. -/
theorem mem_of_mem_fillHole
    {formal actual : List Char}
    {c : Char}
    (h : c ∈ fillHole formal actual 0 text) :
    c ∈ actual ∨ c ∈ text := by
  induction text using hole_induction formal with
  | nil => cases h
  | hole back ih =>
      rw [fillHole_hole] at h
      rcases List.mem_append.mp h with h | h
      · exact Or.inl h
      · exact (ih h).imp_right fun hBack =>
          List.mem_cons_of_mem _ (List.mem_append_right _ hBack)
  | other d cs hOther ih =>
      rw [fillHole_cons actual hOther] at h
      rcases List.mem_cons.mp h with rfl | h
      · exact Or.inr List.mem_cons_self
      · exact (ih h).imp_right (List.mem_cons_of_mem _)

/- Marked text holds the text and marks of its formals. -/
theorem mem_of_mem_marked
    {c : Char}
    (h : c ∈ marked markings text) :
    c ∈ text ∨ c ∈ markings.map (·.mark) := by
  induction markings using List.reverseRecOn with
  | nil => exact Or.inl h
  | append_singleton before marking ih =>
      rw [marked, fillBy_concat] at h
      rw [List.map_append, List.mem_append]
      rcases mem_of_mem_fillHole h with h | h
      · exact Or.inr (Or.inr h)
      · exact (ih h).imp_right Or.inl

/- Text without an ampersand has no holes. -/
theorem fillBy_of_notMem
    (value : Marking → List Char)
    (markings : List Marking)
    (hText : '&' ∉ text) :
    fillBy value markings text = text := by
  induction markings with
  | nil => rfl
  | cons marking markings ih =>
      rw [fillBy, List.foldl_cons,
        fillHole_of_notMem _ hText]
      exact ih

end Marking

end MmixAsm

------------------------------------------------------------
-- The Same Holes
------------------------------------------------------------

namespace MmixAsm

namespace Marking

/-
  Whether a formal has the same holes in the text with the
  actuals of earlier formals as in the text with their marks.
  The stretches between the holes tell where these are.
-/
def SameHoles
    (before : List Marking)
    (formal : List Char)
    (text : List Char) : Prop :=
  stretches formal 0 (unmark before (marked before text)) =
    (stretches formal 0 (marked before text)).map
      (unmark before)

/- Every formal finds the same holes when its turn comes. -/
def FindsSameHoles
    (markings : List Marking)
    (text : List Char) : Prop :=
  ∀ before marking after,
    markings = before ++ marking :: after →
      SameHoles before marking.formal.toList text

/- Actuals are as good as marks that are replaced later. -/
def Unread
    (markings : List Marking)
    (text : List Char) : Prop :=
  filled markings text = unmark markings (marked markings text)

/- The marks differ and are new to formals and text. -/
structure Fresh
    (markings : List Marking)
    (text : List Char) : Prop where
  distinct : (markings.map (·.mark)).Nodup
  formals : ∀ marking ∈ markings,
    ∀ c ∈ marking.formal.toList, c ∉ markings.map (·.mark)
  text : ∀ c ∈ text, c ∉ markings.map (·.mark)

variable {markings before after : List Marking}
variable {marking : Marking}
variable {text : List Char}

/- Fewer marks are fresh as well. -/
theorem Fresh.left
    (h : Fresh (before ++ after) text) :
    Fresh before text := by
  rcases h with ⟨hDistinct, hFormals, hText⟩
  rw [List.map_append] at hDistinct hFormals hText
  have hMarks : ∀ c,
      c ∉ before.map (·.mark) ++ after.map (·.mark) →
        c ∉ before.map (·.mark) :=
    fun c hc hMark => hc (List.mem_append_left _ hMark)
  refine ⟨(List.nodup_append.mp hDistinct).1, ?_,
    fun c hc => hMarks c (hText c hc)⟩
  intro m hm c hc
  exact hMarks c (hFormals m (List.mem_append_left _ hm) c hc)

theorem Fresh.upTo
    (h : Fresh (before ++ marking :: after) text) :
    Fresh (before ++ [marking]) text := by
  rw [List.append_cons] at h
  exact h.left

/- A mark is not in the text before its turn. -/
theorem Fresh.mark_notMem_marked
    (h : Fresh (before ++ [marking]) text) :
    marking.mark ∉ marked before text := by
  rcases h with ⟨hDistinct, _, hText⟩
  rw [List.map_append, List.map_singleton] at hDistinct hText
  intro hMem
  rcases mem_of_mem_marked hMem with hMem | hMem
  · exact hText _ hMem (by simp)
  · exact (List.nodup_append.mp hDistinct).2.2 _ hMem _
      List.mem_cons_self rfl

/- What the marks stand for behind one more turn. -/
theorem Fresh.flatMap_marked_concat
    (h : Fresh (before ++ [marking]) text)
    (value : Marking → List Char) :
    (marked (before ++ [marking]) text).flatMap
        (meaning value (before ++ [marking])) =
      List.intercalate (value marking)
        ((stretches marking.formal.toList 0
          (marked before text)).map
            (List.flatMap (meaning value before))) := by
  have hMark :
      [marking.mark].flatMap
          (meaning value (before ++ [marking])) =
        value marking := by
    rw [List.flatMap_singleton,
      meaning_mark value h.distinct (by simp)]
  rw [marked, fillBy_concat, fillHole_eq_intercalate,
    flatMap_intercalate, hMark]
  apply congrArg
  apply List.map_congr_left
  intro part hPart
  apply flatMap_meaning_concat
  intro hMem
  exact h.mark_notMem_marked (mem_of_mem_stretches hPart hMem)

theorem Fresh.unmark_concat
    (h : Fresh (before ++ [marking]) text) :
    unmark (before ++ [marking])
        (marked (before ++ [marking]) text) =
      List.intercalate marking.actual.toList
        ((stretches marking.formal.toList 0
          (marked before text)).map (unmark before)) :=
  h.flatMap_marked_concat fun m => m.actual.toList

/- What the last formal makes of text that is unread. -/
theorem Unread.filled_concat
    (h : Unread before text)
    (marking : Marking) :
    filled (before ++ [marking]) text =
      List.intercalate marking.actual.toList
        (stretches marking.formal.toList 0
          (unmark before (marked before text))) := by
  rw [filled, fillBy_concat, fillHole_eq_intercalate]
  exact congrArg
    (fun behind => List.intercalate marking.actual.toList
      (stretches marking.formal.toList 0 behind)) h

/- The same holes at one more turn leave actuals unread. -/
theorem Unread.concat
    (hFresh : Fresh (before ++ [marking]) text)
    (hBefore : Unread before text)
    (hHoles :
      SameHoles before marking.formal.toList text) :
    Unread (before ++ [marking]) text := by
  rw [Unread, hBefore.filled_concat, hHoles,
    hFresh.unmark_concat]

theorem FindsSameHoles.left
    (h : FindsSameHoles (before ++ after) text) :
    FindsSameHoles before text := by
  rintro left middle right rfl
  exact h left middle (right ++ after) (by simp)

/- If all formals find the same holes, actuals are unread. -/
theorem unread_of_findsSameHoles
    (hFresh : Fresh markings text)
    (hSame : FindsSameHoles markings text) :
    Unread markings text := by
  induction markings using List.reverseRecOn with
  | nil => exact (flatMap_meaning_other _ hFresh.text).symm
  | append_singleton before marking ih =>
      exact Unread.concat hFresh (ih hFresh.left hSame.left)
        (hSame before marking [] rfl)

end Marking

end MmixAsm

------------------------------------------------------------
-- Holes That Are Found In Addition
------------------------------------------------------------

namespace MmixAsm

namespace Marking

variable {markings before after : List Marking}
variable {marking : Marking}
variable {text : List Char}

/- Only the formals and the marks decide what is fresh. -/
theorem Fresh.withActual
    (h : Fresh (before ++ [marking]) text)
    (actual : String) :
    Fresh (before ++ [{ marking with actual := actual }])
      text := by
  rcases h with ⟨hDistinct, hFormals, hText⟩
  rw [List.map_append] at hDistinct hFormals hText
  refine ⟨?_, ?_, ?_⟩
  · rw [List.map_append]
    exact hDistinct
  · rw [List.map_append]
    intro m hm c hc
    rcases List.mem_append.mp hm with hm | hm
    · exact hFormals m (List.mem_append_left _ hm) c hc
    · cases List.mem_singleton.mp hm
      exact hFormals marking (by simp) c hc
  · rw [List.map_append]
    exact hText

/- Replacing marks brings in characters of actuals only. -/
theorem notMem_unmark
    {c : Char}
    (hText : c ∉ text)
    (hActuals : ∀ m ∈ markings, c ∉ m.actual.toList) :
    c ∉ unmark markings text := by
  intro hMem
  rcases List.mem_flatMap.mp hMem with ⟨d, hd, hMem⟩
  unfold meaning at hMem
  cases hFind : markings.find? (fun m => m.mark == d) with
  | some m =>
      rw [hFind] at hMem
      exact hActuals m (List.mem_of_find?_eq_some hFind) hMem
  | none =>
      rw [hFind] at hMem
      rw [List.mem_singleton.mp hMem] at hText
      exact hText hd

/- What a new character joins can be told from the result. -/
theorem eq_of_intercalate_eq
    {c : Char}
    {parts others : List (List Char)}
    (hParts : ∀ part ∈ parts, c ∉ part)
    (hOthers : ∀ part ∈ others, c ∉ part)
    (hSome : parts ≠ [])
    (hSomeOthers : others ≠ [])
    (h : List.intercalate [c] parts =
      List.intercalate [c] others) :
    parts = others := by
  rw [← List.splitOn_intercalate c hParts hSome, h,
    List.splitOn_intercalate c hOthers hSomeOthers]

/- A turn at which a mark is unread has the same holes. -/
theorem sameHoles_of_unread
    (hFresh : Fresh (before ++ [marking]) text)
    (hActuals : ∀ m ∈ before,
      marking.mark ∉ m.actual.toList)
    (hBefore : Unread before text)
    (hUnread :
      Unread
        (before ++ [{ marking with
          actual := String.singleton marking.mark }]) text) :
    SameHoles before marking.formal.toList text := by
  have hMark := hFresh.mark_notMem_marked
  rw [Unread, hBefore.filled_concat,
    (hFresh.withActual _).unmark_concat] at hUnread
  simp only [String.toList_singleton] at hUnread
  refine eq_of_intercalate_eq ?_ ?_ ?_ ?_ hUnread
  · intro part hPart hMem
    exact notMem_unmark hMark hActuals
      (mem_of_mem_stretches hPart hMem)
  · intro part hPart
    rcases List.mem_map.mp hPart with ⟨stretch, hStretch, rfl⟩
    apply notMem_unmark _ hActuals
    intro hMem
    exact hMark (mem_of_mem_stretches hStretch hMem)
  · rcases exists_stretches_cons marking.formal.toList
      (unmark before (marked before text)) with
      ⟨first, others, hStretches⟩
    rw [hStretches]
    exact List.cons_ne_nil first others
  · rcases exists_stretches_cons marking.formal.toList
      (marked before text) with ⟨first, others, hStretches⟩
    rw [hStretches]
    exact List.cons_ne_nil _ _

/-
  The formals find the same holes if and only if the actuals
  are unread at every turn, whatever is put in at this turn.
  A hole that is found in addition shows in the result if its
  own mark is put in.
-/
theorem findsSameHoles_iff
    (hFresh : Fresh markings text)
    (hActuals : ∀ m ∈ markings,
      ∀ c ∈ m.actual.toList, c ∉ markings.map (·.mark)) :
    FindsSameHoles markings text ↔
      ∀ before marking after,
        markings = before ++ marking :: after →
          ∀ actual,
            Unread
              (before ++ [{ marking with actual := actual }])
              text := by
  constructor
  · rintro hSame before marking after rfl actual
    have hBefore : Unread before text :=
      unread_of_findsSameHoles hFresh.left hSame.left
    exact Unread.concat (hFresh.upTo.withActual actual)
      hBefore (hSame before marking after rfl)
  · rintro hUnread before marking after rfl
    have hBefore : Unread before text := by
      rcases List.eq_nil_or_concat' before with
        rfl | ⟨front, last, rfl⟩
      · exact (flatMap_meaning_other _
          hFresh.left.text).symm
      · exact hUnread front last (marking :: after) (by simp)
          last.actual
    refine sameHoles_of_unread hFresh.upTo ?_ hBefore
      (hUnread before marking after rfl _)
    intro m hm hMem
    exact hActuals m (List.mem_append_left _ hm) _ hMem
      (by simp)

end Marking

end MmixAsm

------------------------------------------------------------
-- Ampersands Apart
------------------------------------------------------------

namespace MmixAsm

namespace Marking

/-
  No stretch of text between two ampersands is the beginning
  of a formal that goes on.  So an ampersand that is not the
  beginning of a hole cannot become one by an actual behind.
-/
def AmpersandsApart
    (formals : List String)
    (text : List Char) : Prop :=
  ∀ front between back,
    text = front ++ '&' :: (between ++ '&' :: back) →
      ∀ formal ∈ formals,
        between <+: formal.toList → between = formal.toList

variable {markings before : List Marking}
variable {marking : Marking}
variable {text : List Char}

/- The hole that a mark has taken the place of. -/
def hole (marking : Marking) : List Char :=
  '&' :: marking.formal.toList

/- Putting the holes back gives the text. -/
theorem flatMap_hole_marked
    (hFresh : Fresh markings text)
    (hAmpersand : '&' ∉ markings.map (·.mark)) :
    (marked markings text).flatMap (meaning hole markings) =
      text := by
  induction markings using List.reverseRecOn with
  | nil => exact flatMap_meaning_other _ hFresh.text
  | append_singleton before marking ih =>
      have hFormal := hFresh.formals marking (by simp)
      rw [List.map_append] at hAmpersand hFormal
      have hBefore : '&' ∉ before.map (·.mark) :=
        fun h => hAmpersand (List.mem_append_left _ h)
      have hHole :
          (hole marking).flatMap (meaning hole before) =
            hole marking := by
        apply flatMap_meaning_other
        intro c hc hMark
        rcases List.mem_cons.mp hc with rfl | hc
        · exact hBefore hMark
        · exact hFormal c hc (List.mem_append_left _ hMark)
      rw [hFresh.flatMap_marked_concat, ← hHole,
        ← flatMap_intercalate, hole, intercalate_stretches]
      exact ih hFresh.left hBefore

/-
  An ampersand that is followed by a formal once the marks
  are replaced is followed by it before.  Otherwise the text
  up to the next mark is where the formal begins, and in the
  template an ampersand stands in the place of the mark.
-/
theorem prefix_of_prefix_unmark
    {formal left right : List Char}
    (hFresh : Fresh markings text)
    (hAmpersand : '&' ∉ markings.map (·.mark))
    (hApart : ∀ front between back,
      text = front ++ '&' :: (between ++ '&' :: back) →
        between <+: formal → between = formal)
    (hSplit : marked markings text = left ++ '&' :: right)
    (hPrefix : formal <+: unmark markings right) :
    formal <+: right := by
  let isText := fun c : Char => decide (c ∉ markings.map (·.mark))
  have hRight := List.takeWhile_append_dropWhile
    (p := isText) (l := right)
  have hFront : ∀ c ∈ right.takeWhile isText,
      c ∉ markings.map (·.mark) :=
    fun c hc => of_decide_eq_true
      (List.all_eq_true.mp List.all_takeWhile c hc)
  generalize right.takeWhile isText = between at hRight hFront
  cases hBack : right.dropWhile isText with
  | nil =>
      rw [hBack, List.append_nil] at hRight
      rw [← hRight] at hPrefix ⊢
      rwa [unmark, flatMap_meaning_other _ hFront] at hPrefix
  | cons c back =>
      have hMark : c ∈ markings.map (·.mark) := by
        have hHead := List.head?_dropWhile_not isText right
        rw [hBack] at hHead
        simpa [isText] using hHead
      rcases List.mem_map.mp hMark with ⟨m, hm, rfl⟩
      rw [hBack] at hRight
      rw [← hRight, unmark, List.flatMap_append,
        flatMap_meaning_other _ hFront] at hPrefix
      rcases Nat.lt_or_ge between.length formal.length with
        hShort | hLong
      · have hBegins : between <+: formal :=
          List.prefix_of_prefix_length_le
            (List.prefix_append _ _) hPrefix
            (Nat.le_of_lt hShort)
        have hText := flatMap_hole_marked hFresh hAmpersand
        rw [hSplit, ← hRight, List.flatMap_append,
          List.flatMap_cons, meaning_other _ hAmpersand,
          List.flatMap_append, flatMap_meaning_other _ hFront,
          List.flatMap_cons,
          meaning_mark _ hFresh.distinct hm] at hText
        have hSame := hApart _ _ _ hText.symm hBegins
        rw [hSame] at hShort
        exact absurd hShort (Nat.lt_irrefl _)
      · rw [← hRight]
        exact (List.prefix_of_prefix_length_le hPrefix
          (List.prefix_append _ _) hLong).trans
            (List.prefix_append _ _)

/- Text in front of the first of some parts, with marks. -/
theorem map_unmark_modifyHead
    (markings : List Marking)
    (c : Char)
    (parts : List (List Char)) :
    (parts.modifyHead (c :: ·)).map (unmark markings) =
      (parts.map (unmark markings)).modifyHead
        (unmark markings [c] ++ ·) := by
  cases parts with
  | nil => rfl
  | cons part parts =>
      simp [unmark]

/-
  Where every ampersand is followed by the same formals, the
  holes are the same.
-/
theorem stretches_unmark
    {formal : List Char}
    (hFormal : ∀ c ∈ formal, c ∉ markings.map (·.mark))
    (hAmpersand : '&' ∉ markings.map (·.mark))
    (hActuals : ∀ m ∈ markings, '&' ∉ m.actual.toList)
    (hPrefix : ∀ left right, text = left ++ '&' :: right →
      formal <+: unmark markings right → formal <+: right) :
    stretches formal 0 (unmark markings text) =
      (stretches formal 0 text).map (unmark markings) := by
  have hSelf : unmark markings ['&'] = ['&'] := by
    rw [unmark, List.flatMap_singleton,
      meaning_other _ hAmpersand]
  induction text using hole_induction formal with
  | nil => rfl
  | hole back ih =>
      have hUnmark :
          unmark markings ('&' :: (formal ++ back)) =
            '&' :: (formal ++ unmark markings back) := by
        rw [unmark, List.flatMap_cons, List.flatMap_append,
          meaning_other _ hAmpersand,
          flatMap_meaning_other _ hFormal]
        rfl
      rw [hUnmark, stretches_hole, stretches_hole,
        List.map_cons, ih]
      · rfl
      · rintro left right rfl
        exact hPrefix ('&' :: (formal ++ left)) right (by simp)
  | other c cs hOther ih =>
      have hUnmark : unmark markings (c :: cs) =
          unmark markings [c] ++ unmark markings cs := by
        rw [unmark, List.flatMap_cons, unmark,
          List.flatMap_singleton]
        rfl
      have hTail : ∀ left right, cs = left ++ '&' :: right →
          formal <+: unmark markings right →
            formal <+: right := by
        rintro left right rfl
        exact hPrefix (c :: left) right rfl
      rw [hUnmark, stretches_cons hOther,
        map_unmark_modifyHead, ← ih hTail]
      by_cases hc : c = '&'
      · subst hc
        rw [hSelf]
        apply stretches_cons
        rintro ⟨_, hBegins⟩
        exact hOther ⟨rfl, hPrefix [] cs rfl hBegins⟩
      · exact stretches_append _
          (notMem_unmark (by simpa using Ne.symm hc) hActuals)

/- Ampersands apart and none in actuals: nothing is added. -/
theorem findsSameHoles_of_apart
    (hFresh : Fresh markings text)
    (hActuals : ∀ m ∈ markings, '&' ∉ m.actual.toList)
    (hApart : AmpersandsApart (markings.map (·.formal)) text) :
    FindsSameHoles markings text := by
  rintro before marking after rfl
  have hBefore := hFresh.left
  by_cases hAmpersand :
      '&' ∈ (before ++ marking :: after).map (·.mark)
  · -- An ampersand as a mark leaves the text without holes.
    have hText : '&' ∉ text :=
      fun hMem => hFresh.text _ hMem hAmpersand
    have hMarked : marked before text = text :=
      fillBy_of_notMem _ before hText
    have hParts : ∀ part ∈ stretches marking.formal.toList 0
        text, unmark before part = part := by
      intro part hPart
      apply flatMap_meaning_other
      intro c hc
      exact hBefore.text c (mem_of_mem_stretches hPart hc)
    rw [SameHoles, hMarked, unmark,
      flatMap_meaning_other _ hBefore.text,
      List.map_congr_left hParts, List.map_id']
  · rw [List.map_append, List.mem_append, not_or] at hAmpersand
    apply stretches_unmark _ hAmpersand.1
    · exact fun m hm =>
        hActuals m (List.mem_append_left _ hm)
    · intro left right hSplit
      apply prefix_of_prefix_unmark hBefore hAmpersand.1 _
        hSplit
      intro front between back hText
      exact hApart front between back hText _ (by simp)
    · have hFormal := hFresh.formals marking (by simp)
      rw [List.map_append] at hFormal
      exact fun c hc hMark =>
        hFormal c hc (List.mem_append_left _ hMark)

end Marking

end MmixAsm

------------------------------------------------------------
-- Templates And Marks
------------------------------------------------------------

namespace MmixAsm

namespace Marking

variable {markings others : List Marking}
variable {text : List Char}

/- The formals are bound in the order of their turns. -/
theorem bindFormals_eq
    (value : Marking → String)
    (markings : List Marking) :
    bindFormals (markings.map (·.formal))
        (markings.map value) =
      (inTurn markings).map fun m => (m.formal, value m) := by
  rw [bindFormals, List.zip_map', inTurn]
  symm
  apply List.map_mergeSort
  intro a _ b _
  rfl

/- A parameter is filled turn by turn. -/
theorem fillAll_eq
    (value : Marking → String)
    (markings : List Marking)
    (parameter : String) :
    fillAll (markings.map fun m => (m.formal, value m))
        parameter =
      String.ofList
        (fillBy (fun m => (value m).toList) markings
          parameter.toList) := by
  induction markings generalizing parameter with
  | nil => simp [fillAll, fillBy]
  | cons marking markings ih =>
      rw [List.map_cons, fillAll, List.foldl_cons]
      refine (ih _).trans ?_
      rw [fillParameter, String.toList_ofList]
      rfl

/- Marks stay fresh in another order. -/
theorem Fresh.perm
    (h : Fresh markings text)
    (hPerm : others.Perm markings) :
    Fresh others text := by
  have hMarks := hPerm.map (·.mark)
  refine ⟨hMarks.nodup_iff.mpr h.distinct, ?_, ?_⟩
  · intro m hm c hc
    rw [hMarks.mem_iff]
    exact h.formals m (hPerm.mem_iff.mp hm) c hc
  · intro c hc
    rw [hMarks.mem_iff]
    exact h.text c hc

end Marking

/- Parameters with marks are unmarked to those with actuals. -/
def Template.UnreadActuals
    (template : Template)
    (markings : List Marking) : Prop :=
  (template.instantiate (markings.map (·.actual))).parameters =
    (template.instantiate (markings.map fun marking =>
      String.singleton marking.mark)).parameters.map
        fun parameter => String.ofList
          (Marking.unmark markings parameter.toList)

namespace Template

open Marking

/-
  Filling a template with actuals is filling it with fresh
  marks and replacing these at the end, if at every turn a
  formal finds the same holes with the actuals as with the
  marks.  It finds the same holes exactly if the result is as
  with marks whatever the formal's own actual is.  There are
  no other holes if no actual holds an ampersand and no text
  between two ampersands of a parameter is the beginning of a
  formal that goes on.
-/
theorem instantiate_by_marks
    (template : Template)
    (markings : List Marking)
    (hFormals : markings.map (·.formal) = template.formals)
    (hFresh : ∀ parameter ∈ template.body.parameters,
      Fresh markings parameter.toList)
    (hActuals : ∀ marking ∈ markings,
      ∀ c ∈ marking.actual.toList,
        c ∉ markings.map (·.mark)) :
    ((∀ parameter ∈ template.body.parameters,
        FindsSameHoles (inTurn markings) parameter.toList) →
      template.UnreadActuals markings) ∧
      (∀ parameter ∈ template.body.parameters,
        FindsSameHoles (inTurn markings) parameter.toList ↔
          ∀ before marking after,
            inTurn markings = before ++ marking :: after →
              ∀ actual,
                Unread
                  (before ++ [{ marking with
                    actual := actual }])
                  parameter.toList) ∧
      ((∀ marking ∈ markings, '&' ∉ marking.actual.toList) →
        ∀ parameter ∈ template.body.parameters,
          AmpersandsApart template.formals parameter.toList →
            FindsSameHoles (inTurn markings)
              parameter.toList) := by
  have hPerm : (inTurn markings).Perm markings :=
    List.mergeSort_perm _ _
  have hTurns : ∀ parameter ∈ template.body.parameters,
      Fresh (inTurn markings) parameter.toList :=
    fun parameter hMem => (hFresh parameter hMem).perm hPerm
  refine ⟨?_, ?_, ?_⟩
  · intro hSame
    rw [UnreadActuals, parameters_instantiate,
      parameters_instantiate, List.map_map, ← hFormals,
      bindFormals_eq, bindFormals_eq]
    apply List.map_congr_left
    intro parameter hMem
    have hUnread := unread_of_findsSameHoles
      (hTurns parameter hMem) (hSame parameter hMem)
    have hUnmark : unmark (inTurn markings) =
        unmark markings := by
      unfold unmark
      rw [meaning_of_perm _ (hFresh parameter hMem).distinct
        hPerm]
    rw [Function.comp_apply, fillAll_eq, fillAll_eq,
      String.toList_ofList, ← hUnmark]
    simp only [String.toList_singleton]
    exact congrArg String.ofList hUnread
  · intro parameter hMem
    apply findsSameHoles_iff (hTurns parameter hMem)
    intro m hm c hc
    rw [(hPerm.map _).mem_iff]
    exact hActuals m (hPerm.mem_iff.mp hm) c hc
  · intro hPlain parameter hMem hApart
    apply findsSameHoles_of_apart (hTurns parameter hMem)
    · exact fun m hm => hPlain m (hPerm.mem_iff.mp hm)
    · intro front between back hText formal hFormal
      rw [(hPerm.map _).mem_iff, hFormals] at hFormal
      exact hApart front between back hText formal hFormal

/- Two holes in one parameter, one formal inside the other. -/
def pairTemplate : Template where
  name := "pair"
  formals := ["n", "name"]
  body := .op ⟨none, "SETL", ["&name-&n", "$1"]⟩

def pairMarkings : List Marking :=
  [⟨"n", 'ä', "1"⟩, ⟨"name", 'ö', "n"⟩]

theorem pairTemplate_by_marks :
    pairTemplate.UnreadActuals pairMarkings ∧
      pairTemplate.instantiate ["1", "n"] =
        .op ⟨none, "SETL", ["n-1", "$1"]⟩ := by
  have hFresh : ∀ parameter ∈ pairTemplate.body.parameters,
      Fresh pairMarkings parameter.toList := by
    intro parameter hMem
    rcases List.mem_cons.mp hMem with rfl | hMem
    · exact ⟨by simp [pairMarkings], by simp [pairMarkings],
        by simp [pairMarkings]⟩
    · rw [List.mem_singleton.mp hMem]
      exact ⟨by simp [pairMarkings], by simp [pairMarkings],
        by simp [pairMarkings]⟩
  have hApart : ∀ parameter ∈ pairTemplate.body.parameters,
      AmpersandsApart pairTemplate.formals
        parameter.toList := by
    intro parameter hMem front between back hText
    rcases List.mem_cons.mp hMem with rfl | hMem
    · have hBetween : front = [] ∧
          between = "name-".toList ∧ back = "n".toList := by
        simpa [List.cons_eq_append_iff,
          List.append_eq_cons_iff] using hText
      rw [hBetween.2.1]
      simp [pairTemplate]
    · rw [List.mem_singleton.mp hMem] at hText
      simp [List.cons_eq_append_iff] at hText
  rcases instantiate_by_marks pairTemplate pairMarkings rfl
    hFresh (by simp [pairMarkings]) with ⟨hUnread, _, hSame⟩
  have hSizes :
      "n".utf8ByteSize = 1 ∧ "name".utf8ByteSize = 4 := by
    decide +kernel
  have hTurns :
      bindFormals pairTemplate.formals ["1", "n"] =
        [("name", "n"), ("n", "1")] := by
    simp [bindFormals, pairTemplate, List.mergeSort,
      List.MergeSort.Internal.splitInTwo, hSizes]
  constructor
  · exact hUnread fun parameter hMem =>
      hSame (by simp [pairMarkings]) parameter hMem
        (hApart parameter hMem)
  · rw [instantiate, hTurns]
    decide +kernel

/- An actual with an ampersand, and a shorter formal. -/
def lateTemplate : Template where
  name := "late"
  formals := ["long", "x"]
  body := .op ⟨none, "SETL", ["&long", "0"]⟩

def lateMarkings : List Marking :=
  [⟨"long", 'ä', "&x"⟩, ⟨"x", 'ö', "5"⟩]

/- The actual of the first formal is read by the second. -/
theorem lateTemplate_reads_actual :
    ¬ ∀ (template : Template) (markings : List Marking),
      markings.map (·.formal) = template.formals →
        (∀ parameter ∈ template.body.parameters,
          Fresh markings parameter.toList) →
        (∀ marking ∈ markings,
          ∀ c ∈ marking.actual.toList,
            c ∉ markings.map (·.mark)) →
          template.UnreadActuals markings := by
  intro hUnreadIfFresh
  have hFresh : ∀ parameter ∈ lateTemplate.body.parameters,
      Fresh lateMarkings parameter.toList := by
    intro parameter hMem
    rcases List.mem_cons.mp hMem with rfl | hMem
    · exact ⟨by simp [lateMarkings], by simp [lateMarkings],
        by simp [lateMarkings]⟩
    · rw [List.mem_singleton.mp hMem]
      exact ⟨by simp [lateMarkings], by simp [lateMarkings],
        by simp [lateMarkings]⟩
  have hUnread := hUnreadIfFresh lateTemplate lateMarkings rfl
    hFresh (by simp [lateMarkings])
  have hSizes :
      "x".utf8ByteSize = 1 ∧ "long".utf8ByteSize = 4 := by
    decide +kernel
  have hTurns : ∀ value : Marking → String,
      bindFormals lateTemplate.formals
          (lateMarkings.map value) =
        lateMarkings.map fun marking =>
          (marking.formal, value marking) := by
    intro value
    simp [bindFormals, lateTemplate, lateMarkings,
      List.mergeSort, List.MergeSort.Internal.splitInTwo,
      hSizes]
  have hActuals :
      (lateTemplate.instantiate
          (lateMarkings.map (·.actual))).parameters =
        ["5", "0"] := by
    rw [instantiate, hTurns]
    decide +kernel
  have hMarks :
      (lateTemplate.instantiate (lateMarkings.map fun marking =>
          String.singleton marking.mark)).parameters.map
          (fun parameter => String.ofList
            (unmark lateMarkings parameter.toList)) =
        ["&x", "0"] := by
    rw [instantiate, hTurns]
    decide +kernel
  rw [UnreadActuals, hActuals, hMarks] at hUnread
  revert hUnread
  decide

end Template

end MmixAsm
