import Mathlib.Data.List.Basic

/-!
# Self-delimiting codes and reassembly

A `Code` writes each item as a non-empty word such that no word begins another
one. A stream of words then determines the items it was made from
(`encodeAll_injective`), and it can be cut into pieces anywhere: a receiver that
keeps the unfinished rest of what it got finds the same items whatever the pieces
are (`receive_eq_split`, `receive_independent`).
-/

set_option autoImplicit false

namespace Foundation

/-- A self-delimiting code for items `α` over symbols `β`. -/
structure Code (α β : Type) where
  encode : α → List β
  encode_ne_nil : ∀ a, encode a ≠ []
  prefixFree : ∀ a b s t, encode a ++ s = encode b ++ t → a = b

namespace Code

variable {α β : Type} (c : Code α β)

/-- The words of a list of items, one after the other. -/
def encodeAll (as : List α) : List β := as.flatMap c.encode

/-- No items, no symbols. -/
@[simp] theorem encodeAll_nil : c.encodeAll [] = [] := rfl

/-- The word of the first item comes first. -/
@[simp] theorem encodeAll_cons (a : α) (as : List α) :
    c.encodeAll (a :: as) = c.encode a ++ c.encodeAll as := rfl

/-- The words of two lists of items, one list behind the other. -/
@[simp] theorem encodeAll_append (as bs : List α) :
    c.encodeAll (as ++ bs) = c.encodeAll as ++ c.encodeAll bs :=
  List.flatMap_append

/-- What follows a word is determined as well. -/
theorem prefixFree_rest {a b : α} {s t : List β} (h : c.encode a ++ s = c.encode b ++ t) :
    a = b ∧ s = t := by
  have hab := c.prefixFree a b s t h
  subst hab
  exact ⟨rfl, List.append_cancel_left h⟩

/-- A stream determines the items it was made from. -/
theorem encodeAll_injective {as bs : List α} (h : c.encodeAll as = c.encodeAll bs) : as = bs := by
  induction as generalizing bs with
  | nil =>
    cases bs with
    | nil => rfl
    | cons b bs =>
      have := (List.append_eq_nil_iff.mp h.symm).1
      exact absurd this (c.encode_ne_nil b)
  | cons a as ih =>
    cases bs with
    | nil =>
      have := (List.append_eq_nil_iff.mp h).1
      exact absurd this (c.encode_ne_nil a)
    | cons b bs =>
      obtain ⟨rfl, hrest⟩ := c.prefixFree_rest h
      rw [ih hrest]

/-! ## Splitting a stream -/

open Classical in
/-- The first item of a stream and what follows it, if the stream begins with a whole word. -/
noncomputable def next (s : List β) : Option (α × List β) :=
  if h : ∃ p : α × List β, s = c.encode p.1 ++ p.2 then some h.choose else none

/-- The item that a stream begins with is found, and what follows its word. -/
theorem next_encode (a : α) (s : List β) : c.next (c.encode a ++ s) = some (a, s) := by
  have hex : ∃ p : α × List β, c.encode a ++ s = c.encode p.1 ++ p.2 := ⟨(a, s), rfl⟩
  obtain ⟨ha, hs⟩ := c.prefixFree_rest hex.choose_spec
  rw [next, dif_pos hex]
  exact congrArg some (Prod.ext ha.symm hs.symm)

/-- What is found is there: the stream is the word of the item, and the rest. -/
theorem next_eq_some {s : List β} {a : α} {t : List β} (h : c.next s = some (a, t)) :
    s = c.encode a ++ t := by
  unfold next at h
  split at h
  · rename_i hex
    have := hex.choose_spec
    rw [Option.some.injEq] at h
    rwa [h] at this
  · cases h

/-- The rest is shorter, since no word is empty. -/
theorem length_of_next {s : List β} {a : α} {t : List β} (h : c.next s = some (a, t)) :
    t.length < s.length := by
  have hpos := List.length_pos_iff.mpr (c.encode_ne_nil a)
  rw [c.next_eq_some h, List.length_append]
  omega

/-- All items at the beginning of a stream, and the rest, which holds no whole word. -/
noncomputable def split (s : List β) : List α × List β :=
  match _h : c.next s with
  | none => ([], s)
  | some (a, t) => (a :: (split t).1, (split t).2)
termination_by s.length
decreasing_by exact c.length_of_next _h

/-- A stream that begins with no whole word is all rest. -/
theorem split_of_none {s : List β} (h : c.next s = none) : c.split s = ([], s) := by
  rw [split]
  split
  · rfl
  · rename_i h'
    rw [h] at h'
    cases h'

/-- The item that a stream begins with is the first one of its split. -/
theorem split_encode (a : α) (s : List β) :
    c.split (c.encode a ++ s) = (a :: (c.split s).1, (c.split s).2) := by
  rw [split]
  split
  · rename_i h
    rw [c.next_encode] at h
    cases h
  · rename_i b t h
    rw [c.next_encode, Option.some.injEq, Prod.mk.injEq] at h
    rw [h.1, h.2]

/-- The items that a stream begins with are the first ones of its split. -/
theorem split_encodeAll (as : List α) (s : List β) :
    c.split (c.encodeAll as ++ s) = (as ++ (c.split s).1, (c.split s).2) := by
  induction as with
  | nil => rfl
  | cons a as ih => rw [encodeAll_cons, List.append_assoc, split_encode, ih, List.cons_append]

/-- A stream is the words that were found in it, followed by the rest. -/
theorem encodeAll_split (s : List β) : c.encodeAll (c.split s).1 ++ (c.split s).2 = s := by
  induction hn : s.length using Nat.strongRecOn generalizing s with
  | ind n ih =>
    cases h : c.next s with
    | none => rw [c.split_of_none h, encodeAll_nil, List.nil_append]
    | some p =>
      obtain ⟨a, t⟩ := p
      have hlt := c.length_of_next h
      have ht := ih t.length (by omega) t rfl
      rw [c.next_eq_some h, split_encode, encodeAll_cons, List.append_assoc, ht]

/-- More input is split like the rest with that input behind it. -/
theorem split_append (s t : List β) :
    c.split (s ++ t) =
      ((c.split s).1 ++ (c.split ((c.split s).2 ++ t)).1, (c.split ((c.split s).2 ++ t)).2) := by
  conv_lhs => rw [← c.encodeAll_split s, List.append_assoc]
  exact c.split_encodeAll _ _

/-- The empty stream has no items and no rest. -/
theorem split_nil : c.split [] = ([], []) := by
  have h := c.encodeAll_split []
  have hrest := (List.append_eq_nil_iff.mp h).2
  have hitems := (List.append_eq_nil_iff.mp h).1
  have hfst : (c.split []).1 = [] := c.encodeAll_injective hitems
  exact Prod.ext hfst hrest

/-- A stream of whole words splits into exactly its items. -/
theorem split_encodeAll_nil (as : List α) : c.split (c.encodeAll as) = (as, []) := by
  have := c.split_encodeAll as []
  rwa [List.append_nil, split_nil, List.append_nil] at this

/-! ## Receiving in pieces -/

/-- The items a receiver finds that gets the stream in pieces and keeps the unfinished rest. -/
noncomputable def receive : List (List β) → List β → List α
  | [], _ => []
  | piece :: pieces, rest =>
    (c.split (rest ++ piece)).1 ++ receive pieces (c.split (rest ++ piece)).2

/-- A receiver that has kept no whole word finds what is in the whole stream, however this is cut.
-/
theorem receive_eq_split (pieces : List (List β)) (rest : List β) (h : (c.split rest).1 = []) :
    c.receive pieces rest = (c.split (rest ++ pieces.flatten)).1 := by
  induction pieces generalizing rest with
  | nil => rw [receive, List.flatten_nil, List.append_nil, h]
  | cons piece pieces ih =>
    have hidle : (c.split (c.split (rest ++ piece)).2).1 = [] := by
      have hs := c.split_encodeAll (c.split (rest ++ piece)).1 (c.split (rest ++ piece)).2
      rw [c.encodeAll_split] at hs
      have := congrArg Prod.fst hs
      simpa using this
    rw [receive, ih _ hidle, List.flatten_cons, ← List.append_assoc, c.split_append (rest ++ piece)]

/-- The items found do not depend on how the stream was cut. -/
theorem receive_encodeAll {as : List α} {pieces : List (List β)}
    (h : pieces.flatten = c.encodeAll as) : c.receive pieces [] = as := by
  rw [c.receive_eq_split pieces [] (by rw [split_nil]), List.nil_append, h, split_encodeAll_nil]

end Code

end Foundation
