import Mathlib.Data.List.Basic

/-!
# Appending and overwriting

A list that has been grown by a block of default entries can be filled at its end,
or, by mistake, at its beginning. The two agree only where everything that is
written and everything that is overwritten is the default entry.
-/

set_option autoImplicit false

namespace Foundation

section Overwrite

variable {α : Type} (z : α) {buf xs : List α}

/-- The list that results when `xs` is written over the beginning of `buf`, behind which there are as
many default entries as `xs` has. -/
def overwritten (buf xs : List α) : List α :=
  xs ++ (buf ++ List.replicate xs.length z).drop xs.length

/-- Overwriting with nothing changes nothing. -/
@[simp] theorem overwritten_nil (xs : List α) : overwritten z [] xs = xs := by
  rw [overwritten, List.nil_append, List.drop_of_length_le (Nat.le_of_eq List.length_replicate),
    List.append_nil]

/-- If the two agree on a list that is not empty, all that is written is the default entry: each
entry is found again `buf.length` places further, until the default entries begin. -/
theorem eq_of_append_eq_overwritten (h : buf ++ xs = overwritten z buf xs) (hne : buf ≠ []) (j : ℕ)
    (hj : j < xs.length) : xs[j]? = some z := by
  have hpos : 0 < buf.length := List.length_pos_iff.mpr hne
  have hat : xs[j]? = (overwritten z buf xs)[buf.length + j]? := by
    rw [← h, List.getElem?_append_right (by omega), Nat.add_sub_cancel_left]
  rw [hat, overwritten]
  by_cases hlt : buf.length + j < xs.length
  · rw [List.getElem?_append_left hlt]
    exact eq_of_append_eq_overwritten h hne (buf.length + j) hlt
  · rw [List.getElem?_append_right (by omega), List.getElem?_drop,
      List.getElem?_append_right (by omega), List.getElem?_replicate]
    exact if_pos (by omega)
termination_by xs.length - j

/-- Writing at the end and writing at the beginning agree if and only if there is nothing at the
beginning, or default entries are written over default entries. -/
theorem append_eq_overwritten_iff :
    buf ++ xs = overwritten z buf xs ↔
      buf = [] ∨ (∀ a ∈ xs, a = z) ∧ ∀ a ∈ buf.take xs.length, a = z := by
  constructor
  · intro h
    by_cases hne : buf = []
    · exact Or.inl hne
    · right
      have hxs : ∀ a ∈ xs, a = z := by
        intro a ha
        obtain ⟨j, hj, rfl⟩ := List.getElem_of_mem ha
        have := eq_of_append_eq_overwritten z h hne j hj
        rwa [List.getElem?_eq_getElem hj, Option.some.injEq] at this
      refine ⟨hxs, fun a ha => hxs a ?_⟩
      have htake : (buf ++ xs).take xs.length = xs := by
        rw [h, overwritten, List.take_left]
      rw [← htake, List.take_append]
      exact List.mem_append_left _ ha
  · rintro (rfl | ⟨hxs, hbuf⟩)
    · rw [overwritten_nil, List.nil_append]
    · have hrep : xs = List.replicate xs.length z := List.eq_replicate_of_mem hxs
      have hfront : (buf ++ List.replicate xs.length z).take xs.length = xs := by
        rw [← hrep, List.take_append, hrep, List.take_replicate]
        refine List.eq_replicate_iff.mpr ⟨?_, ?_⟩
        · simp only [List.length_append, List.length_take, List.length_replicate]
          omega
        · intro a ha
          obtain ha | ha := List.mem_append.mp ha
          · exact hbuf a (by rwa [← hrep] at ha)
          · exact List.eq_of_mem_replicate ha
      calc buf ++ xs
          = buf ++ List.replicate xs.length z := by rw [← hrep]
        _ = (buf ++ List.replicate xs.length z).take xs.length ++
              (buf ++ List.replicate xs.length z).drop xs.length :=
            (List.take_append_drop _ _).symm
        _ = overwritten z buf xs := by rw [hfront, overwritten]

end Overwrite

end Foundation
