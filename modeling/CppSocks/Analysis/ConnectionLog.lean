import CppSocks.Model.Connection

/-!
# What a program can do to a connection

A program of user code, and `Connection::send` below it, only appends to the log
of the connection, and only bytes that were accepted and files that were opened
(`run_extends`). It never opens a closed connection again, and nothing is written
to a closed one.
-/

set_option autoImplicit false

namespace CppSocks.Analysis

open CppSocks.Model Foundation

/-- `c'` has the log of `c` with events `evs` behind it, all of them caused by user code; once
closed, a connection stays closed and no byte is written to it. -/
structure Extends (c c' : Conn) (evs : List Event) : Prop where
  log_eq : c'.log = c.log ++ evs
  isTransfer : ∀ e ∈ evs, IsTransfer e
  stays_closed : c.closed = true → c'.closed = true
  silent : c.closed = true → ∀ bs, Event.wrote bs ∉ evs

/-- Nothing has happened: the connection is as it was, and no event has been added. -/
theorem Extends.refl (c : Conn) : Extends c c [] :=
  ⟨by simp, by simp, id, by simp⟩

/-- What two actions add to the log is added one behind the other; a connection that the first has
closed stays closed. -/
theorem Extends.trans {c c' c'' : Conn} {evs evs' : List Event} (h : Extends c c' evs)
    (h' : Extends c' c'' evs') : Extends c c'' (evs ++ evs') where
  log_eq := by rw [h'.log_eq, h.log_eq, List.append_assoc]
  isTransfer := fun e he => (List.mem_append.mp he).elim (h.isTransfer e) (h'.isTransfer e)
  stays_closed := fun hc => h'.stays_closed (h.stays_closed hc)
  silent := fun hc bs hmem =>
    (List.mem_append.mp hmem).elim (h.silent hc bs) (h'.silent (h.stays_closed hc) bs)

/-- The event is the writing of a part of the buffer. -/
def IsPartOf (buf : Bytes) (e : Event) : Prop := ∃ bytes, e = .wrote bytes ∧ bytes <:+: buf

/-- A write of a part of a buffer is an event that user code can cause by itself. -/
theorem IsPartOf.isTransfer {buf : Bytes} {e : Event} (h : IsPartOf buf e) : IsTransfer e := by
  obtain ⟨bytes, rfl, _⟩ := h
  trivial

/-- The loop of `send` appends the parts of the buffer it has written; it does not run on a closed
connection. -/
theorem sendLoop_extends (closed : Bool) (buf : Bytes) (script : List WriteResult)
    (numWritten : ℕ) (log : Log) :
    ∃ evs, Extends ⟨closed, script, log⟩ (Connection.sendLoop closed buf script numWritten log).2
        evs ∧
      (Connection.sendLoop closed buf script numWritten log).2.closed = closed ∧
      ∀ e ∈ evs, IsPartOf buf e := by
  induction script generalizing numWritten log with
  | nil =>
    unfold Connection.sendLoop
    split
    · rename_i hgo
      have hpart : IsPartOf buf (.wrote (buf.drop numWritten)) :=
        ⟨_, rfl, (List.drop_suffix numWritten buf).isInfix⟩
      refine ⟨[.wrote (buf.drop numWritten)], ⟨rfl, by simp [IsTransfer], id, ?_⟩, rfl, by simpa using hpart⟩
      intro hclosed
      simp only [hgo.1] at hclosed
      cases hclosed
    · exact ⟨[], ⟨by simp, by simp, id, by simp⟩, rfl, by simp⟩
  | cons r script ih =>
    unfold Connection.sendLoop
    split
    · rename_i hgo
      cases r with
      | accept k =>
        have hpart : IsPartOf buf (.wrote (Connection.accepted k (buf.drop numWritten))) :=
          ⟨_, rfl, (List.take_prefix _ _).isInfix.trans (List.drop_suffix numWritten buf).isInfix⟩
        obtain ⟨evs, hext, hcl, hparts⟩ := ih
          ((numWritten + (Connection.accepted k (buf.drop numWritten)).length) % SIZE_MOD)
          (log ++ [.wrote (Connection.accepted k (buf.drop numWritten))])
        have hall : ∀ e ∈ .wrote (Connection.accepted k (buf.drop numWritten)) :: evs,
            IsPartOf buf e := by
          intro e he
          obtain rfl | he := List.mem_cons.mp he
          · exact hpart
          · exact hparts e he
        refine ⟨.wrote (Connection.accepted k (buf.drop numWritten)) :: evs,
          ⟨?_, fun e he => (hall e he).isTransfer, ?_, ?_⟩, hcl, hall⟩
        · simpa using hext.log_eq
        · intro _
          rw [hcl]
          assumption
        · intro hclosed
          simp only [hgo.1] at hclosed
          cases hclosed
      | again =>
        obtain ⟨evs, hext, hcl, hparts⟩ := ih ((numWritten + (SIZE_MOD - 1)) % SIZE_MOD) log
        exact ⟨evs, ⟨hext.log_eq, hext.isTransfer, hext.stays_closed, hext.silent⟩, hcl, hparts⟩
      | fail e => exact ⟨[], ⟨by simp, by simp, id, by simp⟩, rfl, by simp⟩
    · exact ⟨[], ⟨by simp, by simp, id, by simp⟩, rfl, by simp⟩

/-- Whatever the socket does, `send` adds only writes of parts of its buffer to the log, also where
it ends by an exception. -/
theorem send_extends (buf : Bytes) (c : Conn) :
    ∃ evs, Extends c (Connection.send buf c).2 evs ∧ ∀ e ∈ evs, IsPartOf buf e := by
  obtain ⟨evs, hext, _, hparts⟩ := sendLoop_extends c.closed buf c.script 0 c.log
  exact ⟨evs, hext, hparts⟩

/-- Nothing has to be written for an empty buffer. -/
theorem send_nil (c : Conn) : Connection.send [] c = (.ret 0, c) := by
  obtain ⟨closed, script, log⟩ := c
  unfold Connection.send Connection.sendLoop
  cases script <;> simp

/-! ## Running programs -/

section Run

variable {α β : Type} (pf : Platform)

/-- Running a program that begins with a `send`: the rest of the program gets the count or the
exception, so that it can catch it. -/
theorem run_send (buf : Bytes) (k : Except Exc ℕ → Prog α) (c : Conn) :
    (Prog.send buf k).run pf c = match Connection.send buf c with
      | (.ret n, c') => (k (.ok n)).run pf c'
      | (.exn e, c') => (k (.error e)).run pf c'
      | (.ub, c') => (.ub, c') :=
  congrFun (Prog.run.eq_4 pf buf k) c

/-- Running a sequence of programs is running them one after the other. -/
theorem run_bind (p : Prog α) (f : α → Prog β) :
    (p >>= f).run pf = (p.run pf >>= fun a => (f a).run pf) := by
  change (p.bind f).run pf = _
  induction p with
  | ret a => rfl
  | throw e => rfl
  | ub => rfl
  | send buf k ih =>
    funext c
    rw [Act.bind_apply, Prog.bind, run_send, run_send]
    rcases Connection.send buf c with ⟨r, c'⟩
    cases r with
    | ret n => exact congrFun (ih (.ok n)) c'
    | exn e => exact congrFun (ih (.error e)) c'
    | ub => rfl
  | close k ih => exact funext fun c => congrFun ih { c with closed := true }
  | isClosed k ih => exact funext fun c => congrFun (ih c.closed) c
  | openFile path k ih =>
    exact funext fun c => congrFun (ih (pf.openFile path)) (c.record (.opened path))

/-- Running a call that does not use the connection leaves the connection alone. -/
theorem run_ofCall (r : Call α) : (Prog.ofCall r).run pf = Act.lift r := by
  cases r <;> rfl

/-- Running `sendAll` is calling `send`: its exceptions are passed on unchanged. -/
theorem run_sendAll (buf : Bytes) : (Prog.sendAll buf).run pf = Connection.send buf := by
  funext c
  rw [Prog.sendAll, run_send]
  rcases Connection.send buf c with ⟨r, c'⟩
  cases r <;> rfl

/-- Closing a connection adds no event. -/
theorem close_extends (c : Conn) : Extends c { c with closed := true } [] :=
  ⟨by simp, by simp, fun _ => rfl, by simp⟩

/-- Opening a file adds the event that says so, and nothing else. -/
theorem opened_extends (c : Conn) (path : Bytes) :
    Extends c (c.record (.opened path)) [.opened path] :=
  ⟨rfl, by simp [IsTransfer], id, by simp⟩

/-- Running a program appends events of user code to the log, however the program ends. -/
theorem run_extends (p : Prog α) (c : Conn) : ∃ evs, Extends c ((p.run pf) c).2 evs := by
  induction p generalizing c with
  | ret a => exact ⟨[], Extends.refl c⟩
  | throw e => exact ⟨[], Extends.refl c⟩
  | ub => exact ⟨[], Extends.refl c⟩
  | send buf k ih =>
    obtain ⟨evs, hsend, _⟩ := send_extends buf c
    rcases hr : Connection.send buf c with ⟨r, c'⟩
    rw [hr] at hsend
    simp only [Prog.run, hr]
    cases r with
    | ret n =>
      obtain ⟨evs', hrest⟩ := ih (.ok n) c'
      exact ⟨evs ++ evs', hsend.trans hrest⟩
    | exn e =>
      obtain ⟨evs', hrest⟩ := ih (.error e) c'
      exact ⟨evs ++ evs', hsend.trans hrest⟩
    | ub => exact ⟨evs, hsend⟩
  | close k ih =>
    obtain ⟨evs, hrest⟩ := ih { c with closed := true }
    rw [Prog.run, Connection.close, Act.bind_of_ret (Act.modify_apply _ c)]
    exact ⟨[] ++ evs, (close_extends c).trans hrest⟩
  | isClosed k ih => exact ih c.closed c
  | openFile path k ih =>
    obtain ⟨evs, hrest⟩ := ih (pf.openFile path) (c.record (.opened path))
    rw [Prog.run, Act.bind_of_ret (Act.modify_apply _ c)]
    exact ⟨[.opened path] ++ evs, (opened_extends c path).trans hrest⟩

end Run

/-! ## Messages -/

/-- The messages of two logs, one behind the other, are those of the first and then those of the
second. -/
theorem messages_append (log log' : Log) :
    Log.messages (log ++ log') = Log.messages log ++ Log.messages log' :=
  List.filter_append ..

/-- Among the events that user code causes by itself there is no message. -/
theorem messages_of_isTransfer {evs : List Event} (h : ∀ e ∈ evs, IsTransfer e) : Log.messages evs = [] := by
  apply List.filter_eq_nil_iff.mpr
  intro e he
  have := h e he
  cases e <;> simp_all [IsTransfer, Event.isMessage]

end CppSocks.Analysis
