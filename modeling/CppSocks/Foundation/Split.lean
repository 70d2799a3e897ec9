import Mathlib.Data.List.Basic
import Mathlib.Data.List.TakeWhile

/-!
# Splitting a list at a separator

A list that contains a separator is split by its first occurrence in one way only;
`List.takeWhile` and `List.dropWhile` find the two parts.
-/

set_option autoImplicit false

namespace Foundation

section Prefix

variable {α : Type} {sep : α} {pre post : List α}

/-- A prefix without separators ends in front of the first one. -/
theorem prefix_of_prefix_split {l : List α} (h : sep ∉ l) (hl : l <+: pre ++ sep :: post) :
    l <+: pre := by
  obtain hpre | hpre := List.prefix_or_prefix_of_prefix hl (List.prefix_append pre (sep :: post))
  · exact hpre
  · obtain ⟨rest, rfl⟩ := hpre
    rw [List.prefix_append_right_inj] at hl
    cases rest with
    | nil => exact ⟨[], by rw [List.append_nil, List.append_nil]⟩
    | cons a rest =>
      obtain ⟨rfl, -⟩ := List.cons_prefix_cons.mp hl
      exact absurd (List.mem_append_right _ List.mem_cons_self) h

end Prefix

section Split

variable {α : Type} [DecidableEq α] {sep : α} {pre post : List α}

/-- In front of the first separator no element is one. -/
theorem bne_of_notMem (h : sep ∉ pre) : ∀ a ∈ pre, (a != sep) = true := by
  intro a ha
  rw [bne_iff_ne]
  rintro rfl
  exact h ha

/-- A list without a separator is passed over as a whole. -/
theorem dropWhile_ne_of_notMem (h : sep ∉ pre) : pre.dropWhile (· != sep) = [] :=
  List.dropWhile_eq_nil_iff.mpr (bne_of_notMem h)

/-- The part in front of the first separator. -/
theorem takeWhile_split (h : sep ∉ pre) : (pre ++ sep :: post).takeWhile (· != sep) = pre := by
  rw [List.takeWhile_append_of_pos (bne_of_notMem h), List.takeWhile_cons_of_neg (by simp),
    List.append_nil]

/-- The part from the first separator on. -/
theorem dropWhile_split (h : sep ∉ pre) :
    (pre ++ sep :: post).dropWhile (· != sep) = sep :: post := by
  rw [List.dropWhile_append_of_pos (bne_of_notMem h), List.dropWhile_cons_of_neg (by simp)]

/-- A list is split by its first separator in one way. -/
theorem split_unique {pre' post' : List α} (h : sep ∉ pre) (h' : sep ∉ pre')
    (heq : pre ++ sep :: post = pre' ++ sep :: post') : pre = pre' ∧ post = post' := by
  have hpre : pre = pre' := by
    rw [← takeWhile_split h, heq, takeWhile_split h']
  rw [hpre] at heq
  exact ⟨hpre, List.tail_eq_of_cons_eq (List.append_cancel_left heq)⟩

end Split

end Foundation
