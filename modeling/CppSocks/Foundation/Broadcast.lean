import CppSocks.Foundation.Transition
import Mathlib.Logic.Function.Basic

/-!
# Broadcast to a changing group

Members join and leave a group at any time. A push is one step: the next round goes
to everybody who is a member at that moment, and to nobody else. A member has an
`inbox` with the rounds it got since it joined.

A member that joined and has not left since has exactly the rounds pushed since then,
in order and each once (`inbox_of_joined`).
-/

set_option autoImplicit false

namespace Foundation

/-- The group: the number of rounds pushed so far, and the inboxes of the members. -/
structure Broadcast (α : Type) where
  round : ℕ
  inbox : α → Option (List ℕ)

namespace Broadcast

variable {α : Type} [DecidableEq α]

/-- The steps of a broadcast: somebody enters or leaves, or a round is delivered to all who are
there. -/
inductive Label (α : Type) where
  | join (a : α)
  | leave (a : α)
  | push
deriving DecidableEq, Repr

/-- A group without members. -/
def empty : Broadcast α := ⟨0, fun _ => none⟩

/-- Give somebody another inbox, or none. -/
def put (s : Broadcast α) (a : α) (inbox : Option (List ℕ)) : Broadcast α :=
  { s with inbox := Function.update s.inbox a inbox }

/-- The round goes to all members. -/
def push (s : Broadcast α) : Broadcast α :=
  ⟨s.round + 1, fun a => (s.inbox a).map (· ++ [s.round])⟩

/-- An inbox that is put does not change the round. -/
@[simp] theorem put_round (s : Broadcast α) (a : α) (inbox : Option (List ℕ)) :
    (s.put a inbox).round = s.round := rfl

/-- The inbox that is put is found. -/
@[simp] theorem put_inbox_self (s : Broadcast α) (a : α) (inbox : Option (List ℕ)) :
    (s.put a inbox).inbox a = inbox := by
  simp [put]

/-- The inboxes of the others stay as they are. -/
theorem put_inbox_ne (s : Broadcast α) {a b : α} (h : b ≠ a) (inbox : Option (List ℕ)) :
    (s.put a inbox).inbox b = s.inbox b := by
  simp [put, h]

omit [DecidableEq α] in
/-- A round is delivered to everyone who is there, at the end of the inbox. -/
theorem push_inbox (s : Broadcast α) (a : α) :
    s.push.inbox a = (s.inbox a).map (· ++ [s.round]) := rfl

/-- Only a member can leave, and only who is no member can join. -/
inductive Step : Broadcast α → Label α → Broadcast α → Prop where
  | join {s : Broadcast α} {a : α} (hnew : s.inbox a = none) : Step s (.join a) (s.put a (some []))
  | leave {s : Broadcast α} {a : α} {got : List ℕ} (hmember : s.inbox a = some got) :
    Step s (.leave a) (s.put a none)
  | push {s : Broadcast α} : Step s .push s.push

/-- The runs of groups. -/
def system (α : Type) [DecidableEq α] : System (Broadcast α) (Label α) := ⟨Step⟩

/-- The number of rounds pushed in a list of labels. -/
def rounds (ls : List (Label α)) : ℕ := ls.count .push

/-- The rounds are numbered by the pushes before them. -/
theorem round_eq {s t : Broadcast α} {ls : List (Label α)} (h : (system α).Run s ls t) :
    t.round = s.round + rounds ls := by
  induction h with
  | nil s => rfl
  | @cons s u t l ls hstep _ ih =>
    rw [ih]
    cases hstep with
    | join hnew => rw [put_round, rounds, rounds, List.count_cons_of_ne (by simp)]
    | leave hmember => rw [put_round, rounds, rounds, List.count_cons_of_ne (by simp)]
    | push => rw [rounds, rounds, List.count_cons_self, Nat.add_comm _ 1, ← Nat.add_assoc]; rfl

/-- While a member does not leave, it gets every round that is pushed. -/
theorem inbox_of_stays {s t : Broadcast α} {ls : List (Label α)} {a : α} {got : List ℕ}
    (h : (system α).Run s ls t) (hs : s.inbox a = some got) (hstays : .leave a ∉ ls) :
    t.inbox a = some (got ++ List.range' s.round (rounds ls)) := by
  induction h generalizing got with
  | nil s => rw [hs, rounds, List.count_nil, List.range'_zero, List.append_nil]
  | @cons s u t l ls hstep _ ih =>
    have hrest : .leave a ∉ ls := fun hmem => hstays (List.mem_cons_of_mem _ hmem)
    cases hstep with
    | @join b hnew =>
      have hne : a ≠ b := by
        rintro rfl
        rw [hs] at hnew
        cases hnew
      rw [ih ((s.put_inbox_ne hne _).trans hs) hrest, put_round, rounds, rounds,
        List.count_cons_of_ne (by simp)]
    | @leave b _ hmember =>
      have hne : a ≠ b := by
        rintro rfl
        exact hstays List.mem_cons_self
      rw [ih ((s.put_inbox_ne hne _).trans hs) hrest, put_round, rounds, rounds,
        List.count_cons_of_ne (by simp)]
    | push =>
      have hgot : s.push.inbox a = some (got ++ [s.round]) := by
        rw [push_inbox, hs, Option.map_some]
      rw [ih hgot hrest, rounds, rounds, List.count_cons_self, List.range'_succ, List.append_assoc,
        List.singleton_append]
      rfl

/-- What any member has are consecutive rounds, up to the last. -/
theorem inbox_consecutive {s : Broadcast α} {ls : List (Label α)} (h : (system α).Run empty ls s) {a : α}
    {got : List ℕ} (hgot : s.inbox a = some got) :
    ∃ first, got = List.range' first got.length ∧ first + got.length = s.round := by
  refine h.invariant (I := fun s : Broadcast α => ∀ a got, s.inbox a = some got →
    ∃ first, got = List.range' first got.length ∧ first + got.length = s.round) ?_ nofun a got hgot
  intro s l t hs hstep a got hgot
  cases hstep with
  | @join b hnew =>
    by_cases hab : a = b
    · subst hab
      obtain rfl := Option.some.inj ((put_inbox_self s a _).symm.trans hgot)
      exact ⟨s.round, rfl, rfl⟩
    · exact hs a got ((s.put_inbox_ne hab _).symm.trans hgot)
  | @leave b _ hmember =>
    by_cases hab : a = b
    · subst hab
      rw [put_inbox_self] at hgot
      cases hgot
    · exact hs a got ((s.put_inbox_ne hab _).symm.trans hgot)
  | push =>
    rw [push_inbox] at hgot
    obtain ⟨old, hold, rfl⟩ := Option.map_eq_some_iff.mp hgot
    obtain ⟨first, heq, hround⟩ := hs a old hold
    refine ⟨first, ?_, ?_⟩
    · rw [List.length_append, List.length_singleton, List.range'_concat, ← heq, Nat.one_mul, hround]
    · rw [List.length_append, List.length_singleton, ← Nat.add_assoc, hround]
      rfl

/-- A member that has not left since it joined has the rounds pushed since then. -/
theorem inbox_of_joined {t : Broadcast α} {pre post : List (Label α)} {a : α}
    (h : (system α).Run empty (pre ++ .join a :: post) t) (hstays : .leave a ∉ post) :
    t.inbox a = some (List.range' (rounds pre) (rounds post)) := by
  obtain ⟨s, u, hpre, hstep, hpost⟩ := h.split_at
  have hround := round_eq hpre
  cases hstep with
  | join hnew =>
    rw [inbox_of_stays hpost (put_inbox_self s a _) hstays, List.nil_append, put_round, hround,
      empty, Nat.zero_add]

end Broadcast

end Foundation
