import CppSocks.Analysis.SentStream

/-!
# Interrupted writes

`Connection::send` adds what `Socket::write` returns to its count, and does not look
for `NUM_CONTINUE`, which is -1. An interrupted write at the beginning of the buffer
makes the count wrap around, and the call ends with nothing written; a later one
makes it write a byte again. So the buffer is delivered exactly once if and only if
no write is interrupted before the whole buffer has been accepted
(`send_delivers_iff`).
-/

set_option autoImplicit false

namespace CppSocks.Analysis

open CppSocks.Model Foundation

/-- `send` returns the length of the buffer and has written the buffer; whenever a write is over,
what has been written is a beginning of the buffer. -/
def Delivers (buf : Bytes) (c : Conn) : Prop :=
  ∃ c' evs, Connection.send buf c = (.ret buf.length, c') ∧ c'.log = c.log ++ evs ∧
    (∀ sofar, sofar <+: evs → Log.written sofar <+: buf) ∧ Log.written evs = buf

/-- The bytes that the socket is willing to accept. -/
def willing (script : List WriteResult) : ℕ :=
  (script.map fun
    | .accept k => k + 1
    | _ => 0).sum

/-- No write is interrupted before `n` bytes have been accepted. -/
def Uninterrupted (n : ℕ) (script : List WriteResult) : Prop :=
  ∀ pre post, script = pre ++ .again :: post → n ≤ willing pre

section Script

variable {n k : ℕ} {script : List WriteResult}

/-- Writing nothing is never interrupted. -/
theorem uninterrupted_zero (script : List WriteResult) : Uninterrupted 0 script :=
  fun _ _ _ => Nat.zero_le _

/-- A socket without further results does not interrupt. -/
theorem uninterrupted_nil (n : ℕ) : Uninterrupted n [] := by
  intro pre post heq
  cases pre <;> cases heq

/-- A write that accepts bytes leaves the others to the results behind it. -/
theorem uninterrupted_accept :
    Uninterrupted n (.accept k :: script) ↔ Uninterrupted (n - (k + 1)) script := by
  constructor
  · intro h pre post heq
    have hle := h (.accept k :: pre) post (by rw [heq]; rfl)
    change n ≤ k + 1 + willing pre at hle
    omega
  · intro h pre post heq
    cases pre with
    | nil => cases heq
    | cons r pre =>
      obtain ⟨rfl, hrest⟩ := List.cons.inj heq
      have hle := h pre post hrest
      change n ≤ k + 1 + willing pre
      omega

/-- An interruption is harmless only when nothing is left to be written. -/
theorem uninterrupted_again (h : Uninterrupted n (.again :: script)) : n = 0 :=
  Nat.le_zero.mp (h [] script rfl)

end Script

section Loop

variable {buf : Bytes} {script : List WriteResult} {numWritten : ℕ} {log : Log}

/-- An interrupted write. -/
theorem sendLoop_again (hbuf : buf.length < SIZE_MOD) (h : numWritten < buf.length)
    (hpos : 0 < numWritten) :
    Connection.sendLoop false buf (.again :: script) numWritten log =
      Connection.sendLoop false buf script (numWritten - 1) log := by
  rw [Connection.sendLoop, if_pos ⟨rfl, h⟩,
    show numWritten + (SIZE_MOD - 1) = numWritten - 1 + SIZE_MOD by omega, Nat.add_mod_right,
    Nat.mod_eq_of_lt (by omega)]

/-- An interrupted write before anything has been accepted: the count wraps around. -/
theorem sendLoop_again_zero (hbuf : buf.length < SIZE_MOD) (h : 0 < buf.length) :
    Connection.sendLoop false buf (.again :: script) 0 log =
      (.ret (SIZE_MOD - 1), ⟨false, script, log⟩) := by
  rw [Connection.sendLoop, if_pos ⟨rfl, h⟩, Nat.zero_add, Nat.mod_eq_of_lt (by decide), sendLoop_done (by omega)]

/-- An empty log has written nothing at any moment. -/
theorem written_prefix_nil {rest : Bytes} :
    ∀ sofar : Log, sofar <+: [] → Log.written sofar <+: rest := by
  intro sofar hsofar
  rw [List.prefix_nil.mp hsofar]
  exact List.nil_prefix

/-- What was written before a prefix of the later events. -/
theorem written_prefix_cons (bytes : Bytes) {rest : Bytes} {evs : Log}
    (h : ∀ sofar, sofar <+: evs → Log.written sofar <+: rest) :
    ∀ sofar, sofar <+: .wrote bytes :: evs → Log.written sofar <+: bytes ++ rest := by
  intro sofar hsofar
  cases sofar with
  | nil => exact List.nil_prefix
  | cons e sofar =>
    obtain ⟨rfl, hrest⟩ := List.cons_prefix_cons.mp hsofar
    have hsplit : Log.written (.wrote bytes :: sofar) = bytes ++ Log.written sofar := by
      rw [← List.singleton_append, written_append, written_wrote]
    rw [hsplit]
    exact (List.prefix_append_right_inj bytes).mpr (h sofar hrest)

/-- Without an interrupted write the loop delivers what is left of the buffer. -/
theorem sendLoop_delivers (hbuf : buf.length < SIZE_MOD) (hfail : ∀ e, .fail e ∉ script)
    (numWritten : ℕ) (log : Log) (hn : numWritten ≤ buf.length) (h : Uninterrupted (buf.length - numWritten) script) :
    ∃ script' evs, Connection.sendLoop false buf script numWritten log =
        (.ret buf.length, ⟨false, script', log ++ evs⟩) ∧
      (∀ sofar, sofar <+: evs → Log.written sofar <+: buf.drop numWritten) ∧
      Log.written evs = buf.drop numWritten := by
  induction script generalizing numWritten log with
  | nil =>
    by_cases hlt : numWritten < buf.length
    · refine ⟨[], [.wrote (buf.drop numWritten)], sendLoop_nil hlt, ?_, written_wrote _⟩
      have hnone : ∀ sofar : Log, sofar <+: [] → Log.written sofar <+: [] := written_prefix_nil
      have := written_prefix_cons (buf.drop numWritten) hnone
      rwa [List.append_nil] at this
    · obtain rfl : numWritten = buf.length := by omega
      rw [List.drop_length]
      exact ⟨[], [], by rw [sendLoop_done (le_refl _), List.append_nil], written_prefix_nil, rfl⟩
  | cons r script ih =>
    have hfail' : ∀ e, .fail e ∉ script := fun e he => hfail e (List.mem_cons_of_mem _ he)
    by_cases hlt : numWritten < buf.length
    · cases r with
      | accept k =>
        have hlen := length_accepted k (buf.drop numWritten)
        rw [List.length_drop] at hlen
        have hrest := uninterrupted_accept.mp h
        rw [show buf.length - numWritten - (k + 1) = buf.length -
          (numWritten + (Connection.accepted k (buf.drop numWritten)).length) by omega] at hrest
        obtain ⟨script', evs, hloop, hprefix, hwritten⟩ := ih hfail' _
          (log ++ [.wrote (Connection.accepted k (buf.drop numWritten))]) (by omega) hrest
        rw [← List.drop_drop] at hprefix hwritten
        refine ⟨script', .wrote (Connection.accepted k (buf.drop numWritten)) :: evs, ?_, ?_, ?_⟩
        · rw [sendLoop_accept hbuf hlt, hloop, List.append_assoc, List.singleton_append]
        · have := written_prefix_cons (Connection.accepted k (buf.drop numWritten)) hprefix
          rwa [accepted_append] at this
        · rw [← List.singleton_append, written_append, written_wrote, hwritten, accepted_append]
      | again =>
        have := uninterrupted_again h
        omega
      | fail e => exact absurd List.mem_cons_self (hfail e)
    · obtain rfl : numWritten = buf.length := by omega
      rw [List.drop_length]
      exact ⟨r :: script, [], by rw [sendLoop_done (le_refl _), List.append_nil],
        written_prefix_nil, rfl⟩

/-- The loop only appends to the log. -/
theorem sendLoop_log {closed : Bool} {r : Res Exc ℕ} {c' : Conn}
    (hloop : Connection.sendLoop closed buf script numWritten log = (r, c')) :
    ∃ evs, c'.log = log ++ evs := by
  obtain ⟨evs, hext, _⟩ := sendLoop_extends closed buf script numWritten log
  rw [hloop] at hext
  exact ⟨evs, hext.log_eq⟩

/-- If the loop returns the length of the buffer, at least what was left has been written, and more
than that if a write was interrupted. -/
theorem sendLoop_written (hbuf : buf.length + 1 < SIZE_MOD) (hn : numWritten ≤ buf.length)
    {c' : Conn} {evs : Log}
    (hloop : Connection.sendLoop false buf script numWritten log = (.ret buf.length, c'))
    (hlog : c'.log = log ++ evs) :
    buf.length - numWritten ≤ (Log.written evs).length ∧
      ((Log.written evs).length = buf.length - numWritten →
        Uninterrupted (buf.length - numWritten) script) := by
  induction script generalizing numWritten log evs with
  | nil =>
    by_cases hlt : numWritten < buf.length
    · rw [sendLoop_nil hlt] at hloop
      rw [← (Prod.mk.inj hloop).2] at hlog
      rw [← List.append_cancel_left hlog, written_wrote, List.length_drop]
      exact ⟨le_refl _, fun _ => uninterrupted_nil _⟩
    · rw [show buf.length - numWritten = 0 by omega]
      exact ⟨Nat.zero_le _, fun _ => uninterrupted_zero _⟩
  | cons r script ih =>
    by_cases hlt : numWritten < buf.length
    · cases r with
      | accept k =>
        have hlen := length_accepted k (buf.drop numWritten)
        rw [List.length_drop] at hlen
        rw [sendLoop_accept (by omega) hlt] at hloop
        obtain ⟨rest, hrest⟩ := sendLoop_log hloop
        have hevs : evs = .wrote (Connection.accepted k (buf.drop numWritten)) :: rest := by
          rw [hrest, List.append_assoc, List.singleton_append] at hlog
          exact (List.append_cancel_left hlog).symm
        obtain ⟨hle, hexact⟩ := ih (by omega) hloop hrest
        have hwritten : (Log.written evs).length =
            (Connection.accepted k (buf.drop numWritten)).length + (Log.written rest).length := by
          rw [hevs, ← List.singleton_append, written_append, written_wrote, List.length_append]
        refine ⟨by omega, fun heq => uninterrupted_accept.mpr ?_⟩
        rw [show buf.length - numWritten - (k + 1) = buf.length -
          (numWritten + (Connection.accepted k (buf.drop numWritten)).length) by omega]
        exact hexact (by omega)
      | again =>
        by_cases hpos : 0 < numWritten
        · rw [sendLoop_again (by omega) hlt hpos] at hloop
          have := (ih (by omega) hloop hlog).1
          exact ⟨by omega, fun heq => by omega⟩
        · obtain rfl : numWritten = 0 := by omega
          rw [sendLoop_again_zero (by omega) hlt] at hloop
          have := Res.ret.inj (Prod.mk.inj hloop).1
          omega
      | fail e =>
        rw [Connection.sendLoop, if_pos ⟨rfl, hlt⟩] at hloop
        cases hloop
    · rw [show buf.length - numWritten = 0 by omega]
      exact ⟨Nat.zero_le _, fun _ => uninterrupted_zero _⟩

end Loop

/-- The buffer is delivered exactly once if no write is interrupted before it has been accepted, and,
unless it has 2^64 - 1 bytes, only then. -/
theorem send_delivers_iff {buf : Bytes} (hbuf : buf.length < SIZE_MOD) {c : Conn}
    (hopen : c.closed = false) (hfail : ∀ e, .fail e ∉ c.script) :
    (Uninterrupted buf.length c.script → Delivers buf c) ∧
      (buf.length + 1 < SIZE_MOD → Delivers buf c → Uninterrupted buf.length c.script) := by
  obtain ⟨closed, script, log⟩ := c
  subst hopen
  constructor
  · intro h
    obtain ⟨script', evs, hloop, hprefix, hwritten⟩ :=
      sendLoop_delivers hbuf hfail 0 log (Nat.zero_le _) h
    exact ⟨⟨false, script', log ++ evs⟩, evs, hloop, rfl, hprefix, hwritten⟩
  · rintro hlt ⟨c', evs, hsend, hlog, _, hwritten⟩
    refine (sendLoop_written hlt (Nat.zero_le _) hsend hlog).2 ?_
    rw [hwritten, Nat.sub_zero]

/-- Two bytes, taken one at a time. -/
theorem send_delivers_iff_shortWrites : Uninterrupted 2 [.accept 0, .accept 0] ∧
    Delivers [0x41, 0x42] ⟨false, [.accept 0, .accept 0], []⟩ := by
  have hnone : Uninterrupted 2 [.accept 0, .accept 0] :=
    uninterrupted_accept.mpr (uninterrupted_accept.mpr (uninterrupted_nil _))
  exact ⟨hnone, (send_delivers_iff (c := ⟨false, [.accept 0, .accept 0], []⟩) (by decide) rfl
    (fun e => by simp)).1 hnone⟩

/-- The first write of a byte is interrupted: nothing is written, and 2^64 - 1 is returned. -/
theorem interrupted_not_delivered :
    Connection.send [0x41] ⟨false, [.again], []⟩ = (.ret (2 ^ 64 - 1), ⟨false, [], []⟩) ∧
      ¬ Delivers [0x41] ⟨false, [.again], []⟩ := by
  have hsend : Connection.send [0x41] ⟨false, [.again], []⟩ =
      (.ret (2 ^ 64 - 1), ⟨false, [], []⟩) := sendLoop_again_zero (by decide) (by decide)
  refine ⟨hsend, ?_⟩
  rintro ⟨c', evs, hdelivered, _⟩
  rw [hsend] at hdelivered
  exact absurd (Res.ret.inj (Prod.mk.inj hdelivered).1) (by decide)

end CppSocks.Analysis
