import CppSocks.Foundation.Transition
import Mathlib.Data.Finset.Basic

/-!
# Handles that have to be released

A `Ledger` keeps the account of handles: which ones have been acquired, which ones
somebody still holds, and how often each one has been released. A handle is lost
when its last holder forgets it without a release.

When nobody holds a handle any more, all of them have been released exactly once if
and only if none was lost (`balanced_iff`).
-/

set_option autoImplicit false

namespace Foundation

/-- The account of the handles `α`. -/
structure Ledger (α : Type) where
  acquired : Finset α
  held : Finset α
  released : α → ℕ

namespace Ledger

variable {α : Type} [DecidableEq α]

/-- What happens to a handle. -/
inductive Entry (α : Type) where
  | acquire (a : α)
  | release (a : α)
  | lose (a : α)

/-- No handle has been acquired. -/
def empty : Ledger α := ⟨∅, ∅, fun _ => 0⟩

/-- A handle is acquired once; only a handle that is held can be released or lost. -/
inductive Step : Ledger α → Entry α → Ledger α → Prop where
  | acquire {l : Ledger α} {a : α} (hnew : a ∉ l.acquired) :
    Step l (.acquire a) ⟨insert a l.acquired, insert a l.held, l.released⟩
  | release {l : Ledger α} {a : α} (hheld : a ∈ l.held) :
    Step l (.release a) ⟨l.acquired, l.held.erase a,
      fun b => l.released b + if b = a then 1 else 0⟩
  | lose {l : Ledger α} {a : α} (hheld : a ∈ l.held) :
    Step l (.lose a) ⟨l.acquired, l.held.erase a, l.released⟩

/-- The accounts of handles. -/
def system (α : Type) [DecidableEq α] : System (Ledger α) (Entry α) := ⟨Step⟩

/-- The account of one handle: nobody has seen it, somebody holds it, or it was given up in one of the
two ways. -/
inductive Account (es : List (Entry α)) (l : Ledger α) (a : α) : Prop where
  | unknown (h : a ∉ l.acquired) (hheld : a ∉ l.held) (hrel : l.released a = 0)
      (hlost : .lose a ∉ es)
  | held (h : a ∈ l.acquired) (hheld : a ∈ l.held) (hrel : l.released a = 0) (hlost : .lose a ∉ es)
  | released (h : a ∈ l.acquired) (hheld : a ∉ l.held) (hrel : l.released a = 1)
      (hlost : .lose a ∉ es)
  | lost (h : a ∈ l.acquired) (hheld : a ∉ l.held) (hrel : l.released a = 0) (hlost : .lose a ∈ es)

omit [DecidableEq α] in
/-- At the beginning nobody holds anything, and nothing has been recorded. -/
theorem account_empty (a : α) : Account [] (empty : Ledger α) a :=
  .unknown (Finset.notMem_empty a) (Finset.notMem_empty a) rfl List.not_mem_nil

omit [DecidableEq α] in
/-- An entry about another handle changes nothing. -/
theorem account_of_ne {es : List (Entry α)} {l l' : Ledger α} {e : Entry α} {a : α}
    (h : Account es l a) (hacq : a ∈ l'.acquired ↔ a ∈ l.acquired) (hheld : a ∈ l'.held ↔ a ∈ l.held)
    (hrel : l'.released a = l.released a) (hne : e ≠ .lose a) : Account (es ++ [e]) l' a := by
  have hlose : .lose a ∈ es ++ [e] ↔ .lose a ∈ es := by
    rw [List.mem_append, List.mem_singleton]
    exact or_iff_left fun heq => hne heq.symm
  cases h with
  | unknown h₁ h₂ h₃ h₄ =>
    exact .unknown (hacq.not.mpr h₁) (hheld.not.mpr h₂) (hrel.trans h₃) (hlose.not.mpr h₄)
  | held h₁ h₂ h₃ h₄ => exact .held (hacq.mpr h₁) (hheld.mpr h₂) (hrel.trans h₃) (hlose.not.mpr h₄)
  | released h₁ h₂ h₃ h₄ =>
    exact .released (hacq.mpr h₁) (hheld.not.mpr h₂) (hrel.trans h₃) (hlose.not.mpr h₄)
  | lost h₁ h₂ h₃ h₄ => exact .lost (hacq.mpr h₁) (hheld.not.mpr h₂) (hrel.trans h₃) (hlose.mpr h₄)

/-- Every step keeps the account of every item. -/
theorem account_step {es : List (Entry α)} {l l' : Ledger α} {e : Entry α} (h : ∀ a, Account es l a)
    (hstep : Step l e l') (a : α) : Account (es ++ [e]) l' a := by
  cases hstep with
  | @acquire b hnew =>
    by_cases hab : a = b
    · subst hab
      cases h a with
      | unknown _ _ hrel hlost =>
        exact .held (Finset.mem_insert_self _ _) (Finset.mem_insert_self _ _) hrel (by simpa using hlost)
      | held h => exact absurd h hnew
      | released h => exact absurd h hnew
      | lost h => exact absurd h hnew
    · exact account_of_ne (h a) (by simp [hab]) (by simp [hab]) rfl (by simp)
  | @release b hheld =>
    by_cases hab : a = b
    · subst hab
      cases h a with
      | held hacq _ hrel hlost =>
        exact .released hacq (Finset.notMem_erase a _) (by simp [hrel]) (by simpa using hlost)
      | unknown _ h => exact absurd hheld h
      | released _ h => exact absurd hheld h
      | lost _ h => exact absurd hheld h
    · exact account_of_ne (h a) Iff.rfl (by simp [hab]) (by simp [hab]) (by simp)
  | @lose b hheld =>
    by_cases hab : a = b
    · subst hab
      cases h a with
      | held hacq _ hrel _ =>
        exact .lost hacq (Finset.notMem_erase a _) hrel (List.mem_append_right _ List.mem_cons_self)
      | unknown _ h => exact absurd hheld h
      | released _ h => exact absurd hheld h
      | lost _ h => exact absurd hheld h
    · refine account_of_ne (h a) Iff.rfl (by simp [hab]) rfl ?_
      rw [ne_eq, Entry.lose.injEq]
      exact fun heq => hab heq.symm

/-- Every handle has one of the four accounts, at any time. -/
theorem account {es : List (Entry α)} {l : Ledger α} (h : (system α).Run empty es l) (a : α) :
    Account es l a :=
  h.history (J := fun es l => ∀ a, Account es l a) account_empty
    (fun _ _ _ _ hall hstep => account_step hall hstep) a

/-- When nothing is held any more, each handle has been released exactly once if and only if none was
lost. -/
theorem balanced_iff {es : List (Entry α)} {l : Ledger α} (h : (system α).Run empty es l)
    (hheld : l.held = ∅) : (∀ a ∈ l.acquired, l.released a = 1) ↔ ∀ a, .lose a ∉ es := by
  constructor
  · intro hall a hlose
    cases account h a with
    | unknown _ _ _ hlost => exact hlost hlose
    | held _ _ _ hlost => exact hlost hlose
    | released _ _ _ hlost => exact hlost hlose
    | lost hacq _ hrel _ =>
      have := hall a hacq
      omega
  · intro hnone a hacq
    cases account h a with
    | unknown hno => exact absurd hacq hno
    | held _ hin => rw [hheld] at hin; exact absurd hin (Finset.notMem_empty a)
    | released _ _ hrel _ => exact hrel
    | lost _ _ _ hlost => exact absurd hlost (hnone a)

end Ledger

end Foundation
