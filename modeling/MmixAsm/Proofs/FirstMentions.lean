import Mathlib.Data.List.Induction
import Mathlib.Data.List.Nodup

/-
  Lists that keep the first mention of each name.

  `List.eraseDups` leaves out every name that was mentioned
  before.  Read from the back, a name is added to a list only
  if it is new.

  Key theorems include:
    * `MmixAsm.eraseDups_concat`
    * `MmixAsm.eraseDups_append_of_subset`
    * `MmixAsm.nodup_eraseDups`
    * `MmixAsm.pairwise_idxOf_eraseDups`
-/

------------------------------------------------------------
-- First Mentions
------------------------------------------------------------

namespace MmixAsm

/- One more mention counts if the name is new. -/
theorem eraseDups_concat
    (names : List String)
    (name : String) :
    (names ++ [name]).eraseDups =
      if name ∈ names then names.eraseDups
      else names.eraseDups ++ [name] := by
  rw [List.eraseDups_append]
  by_cases hMem : name ∈ names
  · have hRemoved : [name].removeAll names = [] := by
      simp [List.removeAll, hMem]
    rw [if_pos hMem, hRemoved, List.eraseDups_nil,
      List.append_nil]
  · have hKept : [name].removeAll names = [name] := by
      simp [List.removeAll, hMem]
    rw [if_neg hMem, hKept, List.eraseDups_cons,
      List.filter_nil, List.eraseDups_nil]

/- Names that are all known already change nothing. -/
theorem eraseDups_append_of_subset
    {names others : List String}
    (h : others ⊆ names) :
    (names ++ others).eraseDups = names.eraseDups := by
  have hRemoved : others.removeAll names = [] := by
    apply List.filter_eq_nil_iff.mpr
    intro name hName
    simp [h hName]
  rw [List.eraseDups_append, hRemoved, List.eraseDups_nil,
    List.append_nil]

/- No name is kept twice. -/
theorem nodup_eraseDups (names : List String) :
    names.eraseDups.Nodup := by
  induction names using List.reverseRecOn with
  | nil => exact List.nodup_nil
  | append_singleton front name ih =>
      rw [eraseDups_concat]
      split
      · exact ih
      · next hNew =>
          rw [← List.concat_eq_append]
          exact ih.concat (mt List.mem_eraseDups.mp hNew)

/- The names that are kept stand in the order of mention. -/
theorem pairwise_idxOf_eraseDups (names : List String) :
    names.eraseDups.Pairwise
      fun name other => names.idxOf name < names.idxOf other := by
  induction names using List.reverseRecOn with
  | nil => exact List.Pairwise.nil
  | append_singleton front last ih =>
      -- A name in front keeps the place of its first mention.
      have hPlace : ∀ name ∈ front,
          (front ++ [last]).idxOf name = front.idxOf name :=
        fun name hName => List.idxOf_append_of_mem hName
      have hOld : front.eraseDups.Pairwise fun name other =>
          (front ++ [last]).idxOf name <
            (front ++ [last]).idxOf other := by
        refine ih.imp_of_mem ?_
        intro name other hName hOther hLess
        rw [hPlace name (List.mem_eraseDups.mp hName),
          hPlace other (List.mem_eraseDups.mp hOther)]
        exact hLess
      rw [eraseDups_concat]
      by_cases hMem : last ∈ front
      · rw [if_pos hMem]
        exact hOld
      · rw [if_neg hMem]
        refine List.pairwise_append.mpr
          ⟨hOld, List.pairwise_singleton _ _, ?_⟩
        intro name hName other hOther
        have hFront := List.mem_eraseDups.mp hName
        rw [List.mem_singleton.mp hOther, hPlace name hFront,
          List.idxOf_append_of_notMem hMem]
        have hLess := List.idxOf_lt_length_iff.mpr hFront
        omega

end MmixAsm
