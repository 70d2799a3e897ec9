import Mathlib.Data.List.Basic

/-!
# Labelled transition systems

A `System` has steps between states, each with a label; `Run` is a finite run of
it. `Run.invariant` is the induction over a run for a property of states,
`Run.history` the one for a property of the state and of the labels so far.
`System.restrict` leaves only the steps that meet a condition: what holds along
its runs holds along the runs of the system whose steps all meet it.

`ofStep` makes a system of a partial step function; its runs can be computed
(`exec`), and what holds at every step of them can be said (`Each`). Notes can be
kept beside its state (`noted`): they say what a run has been through, and do not
influence it.
-/

set_option autoImplicit false

namespace Foundation

/-- A labelled transition system. -/
structure System (S L : Type) where
  Step : S → L → S → Prop

namespace System

variable {S L : Type} (M : System S L)

/-- A finite run with its labels. -/
inductive Run : S → List L → S → Prop where
  | nil (s : S) : Run s [] s
  | cons {s t u : S} {l : L} {ls : List L} : M.Step s l t → Run t ls u → Run s (l :: ls) u

variable {M}

/-- A step is a run. -/
theorem Run.single {s t : S} {l : L} (h : M.Step s l t) : M.Run s [l] t :=
  .cons h (.nil t)

/-- A run goes on where another one ends. -/
theorem Run.append {s t u : S} {ls ls' : List L} (h : M.Run s ls t) (h' : M.Run t ls' u) :
    M.Run s (ls ++ ls') u := by
  induction h with
  | nil s => exact h'
  | cons hstep _ ih => exact .cons hstep (ih h')

/-- A run goes on with a step from where it ends. -/
theorem Run.snoc {s t u : S} {ls : List L} {l : L} (h : M.Run s ls t) (hstep : M.Step t l u) :
    M.Run s (ls ++ [l]) u :=
  h.append (.single hstep)

/-- A run can be cut anywhere. -/
theorem Run.split {s u : S} {ls ls' : List L} (h : M.Run s (ls ++ ls') u) :
    ∃ t, M.Run s ls t ∧ M.Run t ls' u := by
  induction ls generalizing s with
  | nil => exact ⟨s, .nil s, h⟩
  | cons l ls ih =>
    cases h with
    | cons hstep hrest =>
      obtain ⟨t, hleft, hright⟩ := ih hrest
      exact ⟨t, .cons hstep hleft, hright⟩

/-- The step that a label of a run belongs to. -/
theorem Run.split_at {s u : S} {ls ls' : List L} {l : L} (h : M.Run s (ls ++ l :: ls') u) :
    ∃ t t', M.Run s ls t ∧ M.Step t l t' ∧ M.Run t' ls' u := by
  obtain ⟨t, hleft, hright⟩ := h.split
  cases hright with
  | cons hstep hrest => exact ⟨t, _, hleft, hstep, hrest⟩

/-- What every step keeps holds at the end of a run. -/
theorem Run.invariant {I : S → Prop} (hstep : ∀ s l t, I s → M.Step s l t → I t) {s t : S}
    {ls : List L} (h : M.Run s ls t) (hs : I s) : I t := by
  induction h with
  | nil s => exact hs
  | cons hst _ ih => exact ih (hstep _ _ _ hs hst)

/-- Induction over a run from its beginning, for a property of the labels so far and of the state
they lead to. -/
theorem Run.history {J : List L → S → Prop} {s₀ : S} (h0 : J [] s₀)
    (hstep : ∀ ls s l t, J ls s → M.Step s l t → J (ls ++ [l]) t) {t : S} {ls : List L}
    (h : M.Run s₀ ls t) : J ls t := by
  have hgen : ∀ {s : S} {pre : List L}, J pre s → ∀ {ls : List L}, M.Run s ls t →
      J (pre ++ ls) t := by
    intro s pre hpre ls hrun
    induction hrun generalizing pre with
    | nil s => rwa [List.append_nil]
    | @cons s u _ l ls hst _ ih =>
      have := ih h (hstep pre s l u hpre hst)
      rwa [List.append_assoc, List.singleton_append] at this
  exact hgen h0 h

/-- Every label of a run is that of a step that satisfies what all steps from the states of the run
satisfy. -/
theorem Run.all_labels {I : S → Prop} {P : L → Prop}
    (hstep : ∀ s l t, I s → M.Step s l t → I t ∧ P l) {s t : S} {ls : List L}
    (h : M.Run s ls t) (hs : I s) : ∀ l ∈ ls, P l := by
  induction h with
  | nil s => simp
  | cons hst _ ih =>
    intro l hl
    obtain rfl | hl := List.mem_cons.mp hl
    · exact (hstep _ _ _ hs hst).2
    · exact ih (hstep _ _ _ hs hst).1 l hl

/-- A run is no longer than a number that every step makes smaller. -/
theorem Run.length_le {I : S → Prop} (work : S → ℕ)
    (hstep : ∀ s l t, I s → M.Step s l t → I t ∧ work t < work s) {s t : S} {ls : List L}
    (h : M.Run s ls t) (hs : I s) : ls.length + work t ≤ work s := by
  induction h with
  | nil s => exact Nat.le_of_eq (Nat.zero_add _)
  | cons hst _ ih =>
    obtain ⟨hI, hlt⟩ := hstep _ _ _ hs hst
    have hrest := ih hI
    rw [List.length_cons]
    omega

/-! ## Restriction -/

variable (M) in
/-- The system with the steps that meet a condition on the state and the label. -/
def restrict (C : S → L → Prop) : System S L where
  Step := fun s l t => M.Step s l t ∧ C s l

/-! ## Partial step functions -/

/-- The system of a partial step function. -/
def ofStep (step : S → L → Option S) : System S L where
  Step := fun s l t => step s l = some t

/-- Make the steps with the given labels. -/
def exec (step : S → L → Option S) : S → List L → Option S
  | s, [] => some s
  | s, l :: ls => (step s l).bind fun t => exec step t ls

/-- The runs of a step function are those that can be computed. -/
theorem run_ofStep_iff {step : S → L → Option S} {s t : S} {ls : List L} :
    (ofStep step).Run s ls t ↔ exec step s ls = some t := by
  constructor
  · intro h
    induction h with
    | nil s => rfl
    | cons hst _ ih =>
      rw [exec, show step _ _ = some _ from hst, Option.bind_some, ih]
  · intro h
    induction ls generalizing s with
    | nil =>
      rw [exec, Option.some.injEq] at h
      exact h ▸ .nil s
    | cons l ls ih =>
      rw [exec] at h
      obtain ⟨u, hu, hrest⟩ := Option.bind_eq_some_iff.mp h
      exact .cons hu (ih hrest)

/-- The condition holds at every step of a run with the given labels, as far as it gets. -/
def Each (step : S → L → Option S) (P : S → L → Prop) : S → List L → Prop
  | _, [] => True
  | s, l :: ls => P s l ∧ ∀ t, step s l = some t → Each step P t ls

/-- What holds at every step holds at the one behind a run. -/
theorem Each.step_after {step : S → L → Option S} {P : S → L → Prop} {s t : S} {ls ls' : List L} {l : L}
    (h : Each step P s (ls ++ l :: ls')) (hrun : exec step s ls = some t) : P t l := by
  induction ls generalizing s with
  | nil =>
    rw [exec, Option.some.injEq] at hrun
    exact hrun ▸ h.1
  | cons l' ls ih =>
    rw [exec] at hrun
    obtain ⟨u, hu, hrest⟩ := Option.bind_eq_some_iff.mp hrun
    exact ih (h.2 u hu) hrest

/-- Conditions that agree in all states of a run agree along the run. -/
theorem each_congr {step : S → L → Option S} {P Q : S → L → Prop} {J : S → Prop}
    (hstep : ∀ s l t, J s → step s l = some t → J t) (hiff : ∀ s l, J s → (P s l ↔ Q s l)) {s : S}
    (hs : J s) (ls : List L) : Each step P s ls ↔ Each step Q s ls := by
  induction ls generalizing s with
  | nil => exact Iff.rfl
  | cons l ls ih =>
    exact and_congr (hiff s l hs) (forall_congr' fun t => imp_congr_right fun hst =>
      ih (hstep s l t hs hst))

/-- A step function with notes beside the state. -/
def noted {N : Type} (step : S → L → Option S) (note : S → L → N → N) (p : S × N) (l : L) :
    Option (S × N) :=
  (step p.1 l).map fun t => (t, note p.1 l p.2)

/-- Notes can be kept of every run, and what every step keeps of the state and the notes holds at
its end. -/
theorem exists_noted {N : Type} {step : S → L → Option S} (note : S → L → N → N) {I : S → N → Prop}
    (hstep : ∀ s n l t, I s n → step s l = some t → I t (note s l n)) {s t : S} {n : N} {ls : List L}
    (h : exec step s ls = some t) (hs : I s n) :
    ∃ m, exec (noted step note) (s, n) ls = some (t, m) ∧ I t m := by
  induction ls generalizing s n with
  | nil =>
    rw [exec, Option.some.injEq] at h
    exact ⟨n, by rw [exec, h], h ▸ hs⟩
  | cons l ls ih =>
    rw [exec] at h
    obtain ⟨u, hu, hrest⟩ := Option.bind_eq_some_iff.mp h
    obtain ⟨m, hm, hend⟩ := ih hrest (hstep s n l u hs hu)
    refine ⟨m, ?_, hend⟩
    rw [exec, noted, hu, Option.map_some, Option.bind_some]
    exact hm

/-- A step function that makes the steps which meet a condition only. -/
def guarded (C : S → L → Prop) [∀ s l, Decidable (C s l)] (step : S → L → Option S) (s : S) (l : L) :
    Option S :=
  if C s l then step s l else none

/-- A run that can be computed with the guarded steps is a run of the restricted system. -/
theorem run_restrict_of_exec {C : S → L → Prop} [∀ s l, Decidable (C s l)] {step : S → L → Option S}
    {s t : S} {ls : List L} (h : exec (guarded C step) s ls = some t) :
    ((ofStep step).restrict C).Run s ls t := by
  have hrun := run_ofStep_iff.mpr h
  clear h
  induction hrun with
  | nil s => exact .nil s
  | @cons s u v l ls hst _ ih =>
    change (if C s l then step s l else none) = some u at hst
    split at hst
    · rename_i hC
      exact .cons ⟨hst, hC⟩ ih
    · cases hst

end System

end Foundation
