import Mathlib.Data.List.Basic
import MmixAsm.Macro.Template

/-
  The holes of one formal in a text.

  Holes are found from left to right and do not overlap.  The
  text in between is left in stretches, and filling the holes
  joins the stretches with the actual.  What is put in is not
  read again by the same formal.

  Key definitions include:
    * `MmixAsm.stretches`

  Key theorems include:
    * `MmixAsm.hole_induction`
    * `MmixAsm.fillHole_eq_intercalate`
    * `MmixAsm.intercalate_stretches`
    * `MmixAsm.fillHole_of_notMem`
    * `MmixAsm.Template.parameters_instantiate`
-/

------------------------------------------------------------
-- Text By Its Holes
------------------------------------------------------------

namespace MmixAsm

/-
  The stretches of a text between the holes of a formal.  As
  in `fillHole`, the number counts the characters of a hole
  that are still to be passed over.
-/
def stretches
    (formal : List Char) :
    Nat → List Char → List (List Char)
| _, [] => [[]]
| skip + 1, _ :: cs => stretches formal skip cs
| 0, c :: cs =>
    if c = '&' ∧ formal.isPrefixOf cs then
      [] :: stretches formal formal.length cs
    else
      (stretches formal 0 cs).modifyHead (c :: ·)

/- A text is read hole by hole and else by characters. -/
@[elab_as_elim]
theorem hole_induction
    (formal : List Char)
    {motive : List Char → Prop}
    (nil : motive [])
    (hole : ∀ back,
      motive back → motive ('&' :: (formal ++ back)))
    (other : ∀ c cs,
      ¬ (c = '&' ∧ formal <+: cs) →
        motive cs → motive (c :: cs))
    (text : List Char) :
    motive text := by
  induction hLength : text.length using Nat.strongRecOn
    generalizing text with
  | ind length ih =>
      cases text with
      | nil => exact nil
      | cons c cs =>
          rw [List.length_cons] at hLength
          by_cases hHole : c = '&' ∧ formal <+: cs
          · rcases hHole with ⟨rfl, back, rfl⟩
            rw [List.length_append] at hLength
            exact hole back
              (ih back.length (by omega) back rfl)
          · exact other c cs hHole
              (ih cs.length (by omega) cs rfl)

variable {formal : List Char}

/- Passing over characters. -/
theorem fillHole_length
    (actual front back : List Char) :
    fillHole formal actual front.length (front ++ back) =
      fillHole formal actual 0 back := by
  induction front with
  | nil => rfl
  | cons c front ih => exact ih

theorem stretches_length
    (front back : List Char) :
    stretches formal front.length (front ++ back) =
      stretches formal 0 back := by
  induction front with
  | nil => rfl
  | cons c front ih => exact ih

/- A hole at the beginning of a text. -/
theorem fillHole_hole
    (actual back : List Char) :
    fillHole formal actual 0 ('&' :: (formal ++ back)) =
      actual ++ fillHole formal actual 0 back := by
  rw [fillHole, if_pos (by simp), fillHole_length]

theorem stretches_hole
    (back : List Char) :
    stretches formal 0 ('&' :: (formal ++ back)) =
      [] :: stretches formal 0 back := by
  rw [stretches, if_pos (by simp), stretches_length]

/- A character at which no hole begins. -/
theorem fillHole_cons
    {c : Char}
    {cs : List Char}
    (actual : List Char)
    (hOther : ¬ (c = '&' ∧ formal <+: cs)) :
    fillHole formal actual 0 (c :: cs) =
      c :: fillHole formal actual 0 cs := by
  rw [fillHole, if_neg (by simpa using hOther)]

theorem stretches_cons
    {c : Char}
    {cs : List Char}
    (hOther : ¬ (c = '&' ∧ formal <+: cs)) :
    stretches formal 0 (c :: cs) =
      (stretches formal 0 cs).modifyHead (c :: ·) := by
  rw [stretches, if_neg (by simpa using hOther)]

end MmixAsm

------------------------------------------------------------
-- Joining Stretches
------------------------------------------------------------

namespace MmixAsm

variable {formal : List Char}

/- There is a stretch in front of the first hole. -/
theorem exists_stretches_cons
    (formal text : List Char) :
    ∃ first others,
      stretches formal 0 text = first :: others := by
  induction text using hole_induction formal with
  | nil => exact ⟨_, _, rfl⟩
  | hole back _ => exact ⟨_, _, stretches_hole back⟩
  | other c cs hOther ih =>
      rcases ih with ⟨first, others, hStretches⟩
      rw [stretches_cons hOther, hStretches]
      exact ⟨_, _, rfl⟩

/- Joining behind an empty stretch. -/
theorem intercalate_nil_stretches
    (joint text : List Char) :
    List.intercalate joint ([] :: stretches formal 0 text) =
      joint ++ List.intercalate joint
        (stretches formal 0 text) := by
  rcases exists_stretches_cons formal text with
    ⟨first, others, hStretches⟩
  rw [hStretches, List.intercalate_cons_cons, List.nil_append]

/- Text in front of the first stretch is in front of all. -/
theorem intercalate_modifyHead
    (joint front text : List Char) :
    List.intercalate joint
        ((stretches formal 0 text).modifyHead (front ++ ·)) =
      front ++ List.intercalate joint
        (stretches formal 0 text) := by
  rcases exists_stretches_cons formal text with
    ⟨first, others, hStretches⟩
  rw [hStretches, List.modifyHead_cons]
  cases others with
  | nil =>
      rw [List.intercalate_singleton,
        List.intercalate_singleton]
  | cons second others =>
      simp only [List.intercalate_cons_cons,
        List.append_assoc]

/- Filling the holes joins the stretches with the actual. -/
theorem fillHole_eq_intercalate
    (formal actual text : List Char) :
    fillHole formal actual 0 text =
      List.intercalate actual (stretches formal 0 text) := by
  induction text using hole_induction formal with
  | nil => rfl
  | hole back ih =>
      rw [fillHole_hole, stretches_hole,
        intercalate_nil_stretches, ih]
  | other c cs hOther ih =>
      rw [fillHole_cons actual hOther, stretches_cons hOther,
        ih]
      exact (intercalate_modifyHead actual [c] cs).symm

/- Joining the stretches with the hole gives the text. -/
theorem intercalate_stretches
    (formal text : List Char) :
    List.intercalate ('&' :: formal)
        (stretches formal 0 text) =
      text := by
  induction text using hole_induction formal with
  | nil => rfl
  | hole back ih =>
      rw [stretches_hole, intercalate_nil_stretches, ih]
      rfl
  | other c cs hOther ih =>
      rw [stretches_cons hOther]
      exact (intercalate_modifyHead _ [c] cs).trans
        (congrArg (c :: ·) ih)

/- A character of a stretch is a character of the text. -/
theorem mem_of_mem_stretches
    {text stretch : List Char}
    {c : Char}
    (hStretch : stretch ∈ stretches formal 0 text)
    (hc : c ∈ stretch) :
    c ∈ text := by
  induction text using hole_induction formal
    generalizing stretch with
  | nil =>
      rw [List.mem_singleton.mp hStretch] at hc
      cases hc
  | hole back ih =>
      rw [stretches_hole] at hStretch
      rcases List.mem_cons.mp hStretch with rfl | hStretch
      · cases hc
      · exact List.mem_cons_of_mem _
          (List.mem_append_right _ (ih hStretch hc))
  | other d cs hOther ih =>
      rcases exists_stretches_cons formal cs with
        ⟨first, others, hStretches⟩
      rw [stretches_cons hOther, hStretches,
        List.modifyHead_cons] at hStretch
      rw [hStretches] at ih
      rcases List.mem_cons.mp hStretch with rfl | hStretch
      · rcases List.mem_cons.mp hc with rfl | hc
        · exact List.mem_cons_self
        · exact List.mem_cons_of_mem _
            (ih List.mem_cons_self hc)
      · exact List.mem_cons_of_mem _
          (ih (List.mem_cons_of_mem _ hStretch) hc)

end MmixAsm

------------------------------------------------------------
-- Text Without Ampersands
------------------------------------------------------------

namespace MmixAsm

variable {formal : List Char}

/- No hole begins in text that holds no ampersand. -/
theorem fillHole_append
    {front : List Char}
    (actual back : List Char)
    (hFront : '&' ∉ front) :
    fillHole formal actual 0 (front ++ back) =
      front ++ fillHole formal actual 0 back := by
  induction front with
  | nil => rfl
  | cons c front ih =>
      rw [List.mem_cons, not_or] at hFront
      rw [List.cons_append, List.cons_append,
        fillHole_cons actual fun h => hFront.1 h.1.symm,
        ih hFront.2]

theorem fillHole_of_notMem
    {text : List Char}
    (actual : List Char)
    (hText : '&' ∉ text) :
    fillHole formal actual 0 text = text := by
  have hFill :
      fillHole formal actual 0 (text ++ []) = text ++ [] :=
    fillHole_append actual [] hText
  rwa [List.append_nil] at hFill

theorem stretches_append
    {front : List Char}
    (back : List Char)
    (hFront : '&' ∉ front) :
    stretches formal 0 (front ++ back) =
      (stretches formal 0 back).modifyHead (front ++ ·) := by
  rcases exists_stretches_cons formal back with
    ⟨first, others, hStretches⟩
  rw [hStretches]
  induction front with
  | nil => exact hStretches
  | cons c front ih =>
      rw [List.mem_cons, not_or] at hFront
      rw [List.cons_append,
        stretches_cons fun h => hFront.1 h.1.symm,
        ih hFront.2]
      rfl

end MmixAsm

------------------------------------------------------------
-- Instances
------------------------------------------------------------

namespace MmixAsm

@[simp] theorem Instruction.parameters_withParameters
    (instruction : Instruction)
    (parameters : List String) :
    (instruction.withParameters parameters).parameters =
      parameters := by
  cases instruction <;> rfl

/- The parameters of an instance are filled one by one. -/
theorem Template.parameters_instantiate
    (template : Template)
    (actuals : List String) :
    (template.instantiate actuals).parameters =
      template.body.parameters.map
        (fillAll (bindFormals template.formals actuals)) :=
  Instruction.parameters_withParameters _ _

end MmixAsm
