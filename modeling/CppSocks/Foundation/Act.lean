import Mathlib.Logic.Basic

/-!
# Computations with a state, exceptions and undefined behaviour

`Res ε α` is how a call of an imperative program can end: it returns a value, it
throws an exception, or it leaves the behaviour its language defines. `Act ε σ α`
is a computation over a mutable state `σ` that ends in one of these ways; the
state it had reached is kept in every case, so that what happened before an
exception is not forgotten.

`Act.Triple P x Q J` is the specification of a computation: started in a state
with `P` it returns with `Q`, or it ends with `J`. The rules below (`triple_bind`,
`triple_tryCatch`, `triple_zoom`, …) compose such specifications. `Act.Preserves` is
the case in which one property is kept however the computation ends.
-/

set_option autoImplicit false

namespace Foundation

/-- How a call ends. -/
inductive Res (ε α : Type) where
  | ret (a : α)
  | exn (e : ε)
  | ub
deriving DecidableEq, Repr

namespace Res

variable {ε α β : Type}

/-- Sequencing: an exception and undefined behaviour skip what follows. -/
def bind (x : Res ε α) (f : α → Res ε β) : Res ε β :=
  match x with
  | ret a => f a
  | exn e => exn e
  | ub => ub

/-- Results are combined one after the other; the first one that is no value ends the rest. -/
instance : Monad (Res ε) where
  pure := ret
  bind := bind

/-- A value is a result that has returned. -/
@[simp] theorem pure_eq (a : α) : (pure a : Res ε α) = ret a := rfl

/-- What follows a returned value gets it. -/
@[simp] theorem ret_bind (a : α) (f : α → Res ε β) : (ret a >>= f) = f a := rfl

/-- Nothing follows an exception. -/
@[simp] theorem exn_bind (e : ε) (f : α → Res ε β) : ((exn e : Res ε α) >>= f) = exn e := rfl

/-- Nothing follows undefined behaviour. -/
@[simp] theorem ub_bind (f : α → Res ε β) : ((ub : Res ε α) >>= f) = ub := rfl

/-- The call came back to its caller with a value. -/
def isRet : Res ε α → Bool
  | ret _ => true
  | _ => false

/-- A returned value has returned. -/
@[simp] theorem isRet_ret (a : α) : (ret a : Res ε α).isRet = true := rfl

/-- An exception has not returned. -/
@[simp] theorem isRet_exn (e : ε) : (exn e : Res ε α).isRet = false := rfl

/-- Undefined behaviour has not returned. -/
@[simp] theorem isRet_ub : (ub : Res ε α).isRet = false := rfl

/-- A result has returned if and only if it is a value. -/
theorem isRet_iff (x : Res ε α) : x.isRet = true ↔ ∃ a, x = ret a := by
  cases x <;> simp

end Res

/-- A computation over a mutable state. -/
def Act (ε σ α : Type) : Type := σ → Res ε α × σ

namespace Act

variable {ε σ τ α β : Type}

/-- Sequencing; the state reached before an exception is kept. -/
def bind (x : Act ε σ α) (f : α → Act ε σ β) : Act ε σ β := fun s =>
  match x s with
  | (.ret a, s') => f a s'
  | (.exn e, s') => (.exn e, s')
  | (.ub, s') => (.ub, s')

/-- Computations are run one after the other on the same state, which stays as the last one that ran
has left it. -/
instance : Monad (Act ε σ) where
  pure a := fun s => (.ret a, s)
  bind := bind

/-- `throw`. -/
def throw (e : ε) : Act ε σ α := fun s => (.exn e, s)

/-- The program has left the behaviour its language defines. -/
def undefined : Act ε σ α := fun s => (.ub, s)

/-- `try { x } catch (e) { h e }`; undefined behaviour is not an exception. -/
def tryCatch (x : Act ε σ α) (h : ε → Act ε σ α) : Act ε σ α := fun s =>
  match x s with
  | (.exn e, s') => h e s'
  | r => r

/-- Read a part of the state. -/
def gets (f : σ → α) : Act ε σ α := fun s => (.ret (f s), s)

/-- Change the state. -/
def modify (f : σ → σ) : Act ε σ Unit := fun s => (.ret (), f s)

/-- A computation that does not touch the state. -/
def lift (r : Res ε α) : Act ε σ α := fun s => (r, s)

/-- Run a computation on a part of the state. -/
def zoom (get : σ → τ) (set : τ → σ → σ) (x : Act ε τ α) : Act ε σ α := fun s =>
  ((x (get s)).1, set (x (get s)).2 s)

/-- A value leaves the state alone. -/
@[simp] theorem pure_apply (a : α) (s : σ) : (pure a : Act ε σ α) s = (.ret a, s) := rfl

/-- The second computation runs on the state that the first one leaves, if that has returned. -/
theorem bind_apply (x : Act ε σ α) (f : α → Act ε σ β) (s : σ) :
    (x >>= f) s = match x s with
      | (.ret a, s') => f a s'
      | (.exn e, s') => (.exn e, s')
      | (.ub, s') => (.ub, s') := rfl

/-- An exception leaves the state as it is. -/
@[simp] theorem throw_apply (e : ε) (s : σ) : (throw e : Act ε σ α) s = (.exn e, s) := rfl

/-- Undefined behaviour leaves the state as it is. -/
@[simp] theorem undefined_apply (s : σ) : (undefined : Act ε σ α) s = (.ub, s) := rfl

/-- Reading the state does not change it. -/
@[simp] theorem gets_apply (f : σ → α) (s : σ) : (gets f : Act ε σ α) s = (.ret (f s), s) := rfl

/-- Changing the state returns nothing. -/
@[simp] theorem modify_apply (f : σ → σ) (s : σ) :
    (modify f : Act ε σ Unit) s = (.ret (), f s) := rfl

/-- A call that knows no state leaves it alone. -/
@[simp] theorem lift_apply (r : Res ε α) (s : σ) : (lift r : Act ε σ α) s = (r, s) := rfl

/-- If the first computation is known to return, the rest runs on what it returns and leaves. -/
theorem bind_of_ret {x : Act ε σ α} {s s' : σ} {a : α} (h : x s = (.ret a, s'))
    (f : α → Act ε σ β) : (x >>= f) s = f a s' := by
  rw [bind_apply, h]

/-- If the first computation is known to throw, nothing else runs. -/
theorem bind_of_exn {x : Act ε σ α} {s s' : σ} {e : ε} (h : x s = (.exn e, s'))
    (f : α → Act ε σ β) : (x >>= f) s = (.exn e, s') := by
  rw [bind_apply, h]

/-- If the behaviour of the first computation is known to be undefined, nothing else runs. -/
theorem bind_of_ub {x : Act ε σ α} {s s' : σ} (h : x s = (.ub, s'))
    (f : α → Act ε σ β) : (x >>= f) s = (.ub, s') := by
  rw [bind_apply, h]

/-- A handler of exceptions does not see a value. -/
theorem tryCatch_of_ret {x : Act ε σ α} {s s' : σ} {a : α} (h : x s = (.ret a, s'))
    (k : ε → Act ε σ α) : tryCatch x k s = (.ret a, s') := by
  simp only [tryCatch, h]

/-- A handler of exceptions runs on the state that the exception leaves. -/
theorem tryCatch_of_exn {x : Act ε σ α} {s s' : σ} {e : ε} (h : x s = (.exn e, s'))
    (k : ε → Act ε σ α) : tryCatch x k s = k e s' := by
  simp only [tryCatch, h]

/-- Undefined behaviour cannot be caught. -/
theorem tryCatch_of_ub {x : Act ε σ α} {s s' : σ} (h : x s = (.ub, s'))
    (k : ε → Act ε σ α) : tryCatch x k s = (.ub, s') := by
  simp only [tryCatch, h]

/-! ## Specifications -/

/-- Started in a state with `P`, the computation returns with `Q`, or ends in another way with
`J`. -/
def Triple (P : σ → Prop) (x : Act ε σ α) (Q : α → σ → Prop) (J : σ → Prop) : Prop :=
  ∀ s, P s → match x s with
    | (.ret a, s') => Q a s'
    | (_, s') => J s'

variable {P P' : σ → Prop} {Q Q' : α → σ → Prop} {J J' : σ → Prop}

/-- The rule of consequence. -/
theorem Triple.mono {x : Act ε σ α} (h : Triple P x Q J) (hP : ∀ s, P' s → P s)
    (hQ : ∀ a s, Q a s → Q' a s) (hJ : ∀ s, J s → J' s) : Triple P' x Q' J' := by
  intro s hs
  have hx := h s (hP s hs)
  rcases hr : x s with ⟨r, s'⟩
  rw [hr] at hx
  cases r with
  | ret a => exact hQ a s' hx
  | exn e => exact hJ s' hx
  | ub => exact hJ s' hx

/-- What holds however the computation ends. -/
theorem triple_of_forall {x : Act ε σ α} {R : σ → Prop} (h : ∀ s, P s → R (x s).2) :
    Triple P x (fun _ => R) R := by
  intro s hs
  have hx := h s hs
  rcases hr : x s with ⟨r, s'⟩
  rw [hr] at hx
  cases r <;> exact hx

/-- If the postcondition gives the property for exceptions too, that property holds however the
computation ends. -/
theorem Triple.forall {x : Act ε σ α} (h : Triple P x Q J) (hQ : ∀ a s, Q a s → J s) {s : σ}
    (hs : P s) : J (x s).2 := by
  have hx := h s hs
  rcases hr : x s with ⟨r, s'⟩
  rw [hr] at hx
  cases r with
  | ret a => exact hQ a s' hx
  | exn e => exact hx
  | ub => exact hx

/-- The rule for a value. -/
theorem triple_pure {a : α} (h : ∀ s, P s → Q a s) : Triple P (pure a : Act ε σ α) Q J :=
  fun s hs => h s hs

/-- The rule for a call that knows no state: its result is not looked at. -/
theorem triple_lift {r : Res ε α} (hQ : ∀ a s, P s → Q a s) (hJ : ∀ s, P s → J s) :
    Triple P (lift r : Act ε σ α) Q J := by
  intro s hs
  cases r with
  | ret a => exact hQ a s hs
  | exn e => exact hJ s hs
  | ub => exact hJ s hs

/-- The rule for reading the state. -/
theorem triple_gets {f : σ → α} (h : ∀ s, P s → Q (f s) s) : Triple P (gets f : Act ε σ α) Q J :=
  fun s hs => h s hs

/-- The rule for changing the state. -/
theorem triple_modify {f : σ → σ} {Q : Unit → σ → Prop} (h : ∀ s, P s → Q () (f s)) :
    Triple P (modify f : Act ε σ Unit) Q J :=
  fun s hs => h s hs

/-- Sequencing. -/
theorem triple_bind {R : β → σ → Prop} {x : Act ε σ α} {f : α → Act ε σ β} (hx : Triple P x Q J)
    (hf : ∀ a, Triple (Q a) (f a) R J) : Triple P (x >>= f) R J := by
  intro s hs
  have hxs := hx s hs
  rw [bind_apply]
  rcases hr : x s with ⟨r, s'⟩
  rw [hr] at hxs
  cases r with
  | ret a => exact hf a s' hxs
  | exn e => exact hxs
  | ub => exact hxs

/-- A handler starts where the exception was thrown. -/
theorem triple_tryCatch {x : Act ε σ α} {k : ε → Act ε σ α} (hx : Triple P x Q J)
    (hk : ∀ e, Triple J (k e) Q J') (hJ : ∀ s, J s → J' s) : Triple P (tryCatch x k) Q J' := by
  intro s hs
  have hxs := hx s hs
  unfold tryCatch
  rcases hr : x s with ⟨r, s'⟩
  rw [hr] at hxs
  cases r with
  | ret a => exact hxs
  | exn e => exact hk e s' hxs
  | ub => exact hJ s' hxs

/-- A specification of a part of the state, and what does not depend on that part. -/
theorem triple_zoom {A : τ → Prop} {B : α → τ → Prop} {C : τ → Prop} {F : σ → Prop}
    {get : σ → τ} {set : τ → σ → σ} {x : Act ε τ α} (h : Triple A x B C)
    (hget : ∀ t s, get (set t s) = t) (hF : ∀ t s, F s → F (set t s)) :
    Triple (fun s => A (get s) ∧ F s) (zoom get set x) (fun a s => B a (get s) ∧ F s)
      (fun s => C (get s) ∧ F s) := by
  rintro s ⟨hA, hs⟩
  have hx := h (get s) hA
  unfold zoom
  rcases hr : x (get s) with ⟨r, t⟩
  rw [hr] at hx
  cases r with
  | ret a => exact ⟨by rw [hget]; exact hx, hF t s hs⟩
  | exn e => exact ⟨by rw [hget]; exact hx, hF t s hs⟩
  | ub => exact ⟨by rw [hget]; exact hx, hF t s hs⟩

/-! ## Properties that are kept -/

/-- However the computation ends, it keeps the property of the state. -/
def Preserves (I : σ → Prop) (x : Act ε σ α) : Prop := ∀ s, I s → I (x s).2

section Preserves

variable {I : σ → Prop} {x : Act ε σ α}

/-- To keep a property is to have it as precondition and as both postconditions. -/
theorem preserves_iff : Preserves I x ↔ Triple I x (fun _ => I) I := by
  constructor
  · exact triple_of_forall
  · intro h s hs
    exact h.forall (fun _ _ h => h) hs

/-- A value keeps every property of the state. -/
theorem preserves_pure (a : α) : Preserves I (pure a : Act ε σ α) := fun _ h => h

/-- An exception keeps every property of the state. -/
theorem preserves_throw (e : ε) : Preserves I (throw e : Act ε σ α) := fun _ h => h

/-- A call that knows no state keeps every property of it. -/
theorem preserves_lift (r : Res ε α) : Preserves I (lift r) := fun _ h => h

/-- Reading the state keeps every property of it. -/
theorem preserves_gets (f : σ → α) : Preserves I (gets f : Act ε σ α) := fun _ h => h

/-- A change of the state keeps what the function keeps. -/
theorem preserves_modify {f : σ → σ} (h : ∀ s, I s → I (f s)) :
    Preserves I (modify f : Act ε σ Unit) := h

/-- Two computations keep what each of them keeps. -/
theorem preserves_bind {f : α → Act ε σ β} (hx : Preserves I x) (hf : ∀ a, Preserves I (f a)) :
    Preserves I (x >>= f) := by
  rw [preserves_iff] at hx ⊢
  exact triple_bind hx fun a => preserves_iff.mp (hf a)

/-- A handler of exceptions must keep the property itself. -/
theorem preserves_tryCatch {k : ε → Act ε σ α} (hx : Preserves I x) (hk : ∀ e, Preserves I (k e)) :
    Preserves I (tryCatch x k) := by
  rw [preserves_iff] at hx ⊢
  exact triple_tryCatch hx (fun e => preserves_iff.mp (hk e)) fun _ h => h

end Preserves

end Act

end Foundation
