import CppSocks.Analysis.SentStream
import CppSocks.Foundation.Transition
import CppSocks.Model.SharedConnection
import Mathlib.Data.Fintype.Defs

/-!
# The outgoing stream of several threads

`Connection::send` writes a frame in parts and takes no lock, and `WsConnection::close`
sets `closed` only after its frame has been written. `whole_frames` says when the
stream of several threads nevertheless consists of whole frames and ends with the
close frame: no thread writes while another one has written a part of its frame, or
all of its close frame.
-/

set_option autoImplicit false

namespace CppSocks.Analysis

open CppSocks.Model CppSocks.Interface Foundation

section Statement

variable {T : Type} (calls : T → List Operation) (s : Shared T)

/-- One of the calls builds the frame. -/
def Built (f : Frame) : Prop := ∃ t, ∃ op ∈ calls t, op.frame = some f

/-- A thread is in the loop that sends the frame and has written `n` bytes of it. -/
def Sending (f : Frame) (n : ℕ) : Prop :=
  ∃ t op, (s.thread t).point = .test op f.encode n ∨ (s.thread t).point = .write op f.encode n

/-- The stream consists of frames that calls have built and, at its end, the beginning of one that is
still being sent or was cut off because the connection is closed. Nothing follows a close frame. -/
def WholeFrames : Prop :=
  ∃ (fs : List Frame) (rest : Bytes),
    s.stream = frameCode.encodeAll fs ++ rest ∧
    (∀ f ∈ fs, Built calls f) ∧
    (∀ pre f post, fs = pre ++ f :: post → f.opcode = 8 → post = [] ∧ rest = []) ∧
    (rest = [] ∨ ∃ f, Built calls f ∧ rest <+: f.encode ∧
      (s.closed = true ∨ Sending s f rest.length))

/-- A thread at this point has written a part of its frame, or all of its close frame, and has not
yet come to the end of its operation. -/
def HoldsWire : Point → Prop
  | .between => False
  | .test op buf numWritten => 0 < numWritten ∧ (numWritten < buf.length ∨ op = .close)
  | .write _ _ numWritten => 0 < numWritten
  | .setClosed => True

/-- Whether a thread is in the middle of a write can be seen from its point. -/
instance : DecidablePred HoldsWire
  | .between => inferInstanceAs (Decidable False)
  | .test op buf numWritten =>
    inferInstanceAs (Decidable (0 < numWritten ∧ (numWritten < buf.length ∨ op = .close)))
  | .write _ _ numWritten => inferInstanceAs (Decidable (0 < numWritten))
  | .setClosed => inferInstanceAs (Decidable True)

/-- A write is made on an open connection while no other thread holds the wire. -/
def Exclusive (s : Shared T) : Turn T → Prop
  | .write t _ => s.closed = false ∧ ∀ t', t' ≠ t → ¬ HoldsWire (s.thread t').point
  | _ => True

/-- With finitely many threads the condition on a turn can be computed. -/
instance [Fintype T] [DecidableEq T] (s : Shared T) : DecidablePred (Exclusive s)
  | .write t _ => inferInstanceAs (Decidable (s.closed = false ∧
      ∀ t', t' ≠ t → ¬ HoldsWire (s.thread t').point))
  | .call _ => inferInstanceAs (Decidable True)
  | .test _ => inferInstanceAs (Decidable True)
  | .setClosed _ => inferInstanceAs (Decidable True)

end Statement

/-! ## Frames of operations -/

section Frames

variable {op : Operation} {f : Frame}

/-- An operation builds its frame, or throws. -/
theorem response_cases (op : Operation) :
    (∃ f, op.frame = some f ∧ op.response = .ret ⟨f.encode⟩) ∨
      op.frame = none ∧ ∃ e, op.response = .exn e := by
  by_cases h : op.message.2.length ≤ 65535
  · refine Or.inl ⟨_, frame_of_fits h, ?_⟩
    cases op with
    | send buf => exact create_eq 2 buf h
    | sendText buf => exact create_eq 1 (buf.takeWhile (· != 0)) h
    | close => exact create_eq 8 (hton 2 0) (by decide)
  · refine Or.inr ⟨dif_neg h, ?_⟩
    have hlong := Nat.lt_of_not_le h
    cases op with
    | send buf => exact ⟨_, create_too_long buf 2 hlong⟩
    | sendText buf => exact ⟨_, create_too_long (buf.takeWhile (· != 0)) 1 hlong⟩
    | close => exact absurd hlong (by decide)

/-- The frame of an operation is an unmasked final one of the server. -/
theorem eq_serverFrame (h : op.frame = some f) :
    ∃ hfits, f = serverFrame op.message.1 op.message.2 hfits := by
  unfold Operation.frame at h
  split at h
  · rename_i hfits
    exact ⟨hfits, (Option.some.inj h).symm⟩
  · cases h

/-- The frame of an operation is short enough to be sent with one call of `send`. -/
theorem length_encode_of_frame (h : op.frame = some f) : f.encode.length < SIZE_MOD := by
  obtain ⟨hfits, rfl⟩ := eq_serverFrame h
  exact length_encode_lt _ _ hfits

/-- Only `close` builds a close frame. -/
theorem opcode_eq_close_iff (h : op.frame = some f) : f.opcode = 8 ↔ op = .close := by
  obtain ⟨hfits, rfl⟩ := eq_serverFrame h
  change op.message.1 = 8 ↔ op = .close
  cases op <;> simp [Operation.message]

/-- No frame is empty. -/
theorem length_encode_pos (f : Frame) : 0 < f.encode.length :=
  List.length_pos_iff.mpr (frameCode.encode_ne_nil f)

/-- One write takes the written part of the buffer further. -/
theorem take_append_accepted (buf : Bytes) (k n : ℕ) :
    buf.take n ++ Connection.accepted k (buf.drop n) =
      buf.take (n + (Connection.accepted k (buf.drop n)).length) := by
  have htake : Connection.accepted k (buf.drop n) =
      (buf.drop n).take (Connection.accepted k (buf.drop n)).length := by
    rw [Connection.accepted, List.length_take, ← List.take_eq_take_min]
  rw [List.take_add, ← htake]

/-- A write takes at least one byte and no more than there are. -/
theorem accepted_bounds {buf : Bytes} (k : ℕ) {n : ℕ} (h : n < buf.length) :
    n < n + (Connection.accepted k (buf.drop n)).length ∧
      n + (Connection.accepted k (buf.drop n)).length ≤ buf.length := by
  have hlen : (Connection.accepted k (buf.drop n)).length = min (k + 1) (buf.length - n) := by
    rw [Connection.accepted, List.length_take, List.length_drop]
  omega

end Frames

/-! ## Threads -/

section Threads

variable {T : Type} [DecidableEq T] {calls : T → List Operation} {s s' : Shared T} {t : T}

/-- The operation is one of the calls, and the buffer is its frame. -/
def IsFrameOf (calls : List Operation) (op : Operation) (buf : Bytes) : Prop :=
  op ∈ calls ∧ ∃ f, op.frame = some f ∧ buf = f.encode

/-- The call that a thread is in is one of its calls. -/
def PointOk (calls : List Operation) : Point → Prop
  | .test op buf numWritten => IsFrameOf calls op buf ∧ numWritten ≤ buf.length
  | .write op buf numWritten => IsFrameOf calls op buf ∧ numWritten < buf.length
  | _ => True

/-- What a thread does and has still to do comes from its calls. -/
structure ThreadOk (calls : List Operation) (thread : Thread) : Prop where
  calls_subset : thread.calls ⊆ calls
  point : PointOk calls thread.point

/-- Behind `send` an operation is over, or it goes on to close the connection. -/
theorem pointOk_afterSend (calls : List Operation) (op : Operation) : PointOk calls op.afterSend := by
  cases op <;> exact trivial

/-- The next value of `numWritten`. -/
theorem next_numWritten {calls : List Operation} {op : Operation} {buf : Bytes} {n : ℕ}
    (h : PointOk calls (.write op buf n)) (k : ℕ) :
    (n + (Connection.accepted k (buf.drop n)).length) % SIZE_MOD =
      n + (Connection.accepted k (buf.drop n)).length := by
  obtain ⟨⟨_, f, hframe, rfl⟩, hlt⟩ := h
  have hle := (accepted_bounds k hlt).2
  have hmod := length_encode_of_frame hframe
  exact Nat.mod_eq_of_lt (by omega)

/-- A step concerns its own thread only. -/
theorem threadOk_of_put {thread : Thread} (h : ∀ t, ThreadOk (calls t) (s.thread t))
    (hself : ThreadOk (calls t) thread) (t' : T) :
    ThreadOk (calls t') ((s.put t thread).thread t') := by
  by_cases heq : t' = t
  · subst heq
    rwa [Shared.put_thread_self]
  · rw [Shared.put_thread_ne s heq]
    exact h t'

/-- Every turn keeps each thread within one of its own operations. -/
theorem threadOk_step (h : ∀ t, ThreadOk (calls t) (s.thread t)) {turn : Turn T}
    (hstep : s.step turn = some s') : ∀ t, ThreadOk (calls t) (s'.thread t) := by
  cases turn with
  | call t =>
    obtain ⟨op, ops, hthread, hcall⟩ := Shared.call_cases hstep
    have hcalls := (h t).calls_subset
    rw [hthread] at hcalls
    have hops : ops ⊆ calls t := fun x hx => hcalls (List.mem_cons_of_mem op hx)
    obtain ⟨r, hr, rfl⟩ | ⟨e, _, rfl⟩ := hcall
    · refine threadOk_of_put h ⟨hops, ?_, Nat.zero_le _⟩
      obtain ⟨f, hframe, hresponse⟩ | ⟨_, e, hresponse⟩ := response_cases op
      · have hrf : r = ⟨f.encode⟩ := Res.ret.inj (hr.symm.trans hresponse)
        exact ⟨hcalls List.mem_cons_self, f, hframe, congrArg WebSocketFrame.data hrf⟩
      · rw [hr] at hresponse
        cases hresponse
    · exact threadOk_of_put h ⟨hops, trivial⟩
  | test t =>
    obtain ⟨op, buf, n, hpoint, hcase⟩ := Shared.test_cases hstep
    have hok := (h t).point
    rw [hpoint] at hok
    obtain ⟨_, hlt, rfl⟩ | ⟨_, rfl⟩ := hcase
    · exact threadOk_of_put h ⟨(h t).calls_subset, hok.1, hlt⟩
    · exact threadOk_of_put h ⟨(h t).calls_subset, pointOk_afterSend _ op⟩
  | write t k =>
    obtain ⟨op, buf, n, hpoint, rfl⟩ := Shared.write_cases hstep
    have hok := (h t).point
    rw [hpoint] at hok
    refine threadOk_of_put h ⟨(h t).calls_subset, hok.1, ?_⟩
    rw [next_numWritten hok]
    exact (accepted_bounds k hok.2).2
  | setClosed t =>
    obtain ⟨_, rfl⟩ := Shared.setClosed_cases hstep
    exact threadOk_of_put h ⟨(h t).calls_subset, trivial⟩

end Threads

/-! ## The wire -/

section Wire

variable {T : Type} [DecidableEq T] {calls : T → List Operation} {s s' : Shared T} {t : T}

/-- A thread at this point has written its close frame, and goes on to set `closed`. -/
def Closing : Point → Prop
  | .test op buf numWritten => op = .close ∧ 0 < numWritten ∧ buf.length ≤ numWritten
  | .setClosed => True
  | _ => False

/-- A thread that is about to close the connection is still in the middle of its operation. -/
theorem holdsWire_of_closing {p : Point} (h : Closing p) : HoldsWire p := by
  cases p with
  | between => exact h
  | test op buf n => exact ⟨h.2.1, Or.inr h.1⟩
  | write op buf n => exact absurd h id
  | setClosed => exact trivial

/-- A thread at this point has written `n` bytes of the buffer. -/
def InLoop (p : Point) (op : Operation) (buf : Bytes) (n : ℕ) : Prop :=
  p = .test op buf n ∨ p = .write op buf n

/-- The state of the wire: free, or held by the only thread that is in the middle of a frame, or
closed behind a close frame. -/
inductive Wire (calls : T → List Operation) (s : Shared T) : Prop where
  | free (fs : List Frame) (hstream : s.stream = frameCode.encodeAll fs)
      (hfs : ∀ f ∈ fs, Built calls f ∧ f.opcode ≠ 8) (hopen : s.closed = false)
      (hno : ∀ t, ¬ HoldsWire (s.thread t).point)
  | busy (fs : List Frame) (t : T) (op : Operation) (buf : Bytes) (n : ℕ)
      (hstream : s.stream = frameCode.encodeAll fs ++ buf.take n)
      (hfs : ∀ f ∈ fs, Built calls f ∧ f.opcode ≠ 8) (hopen : s.closed = false)
      (hloop : InLoop (s.thread t).point op buf n) (hpos : 0 < n) (hlt : n < buf.length)
      (hno : ∀ t', t' ≠ t → ¬ HoldsWire (s.thread t').point)
  | closing (fs : List Frame) (f : Frame) (hstream : s.stream = frameCode.encodeAll (fs ++ [f]))
      (hfs : ∀ f ∈ fs, Built calls f ∧ f.opcode ≠ 8) (hf : Built calls f ∧ f.opcode = 8)
      (hclosing : s.closed = true ∨ ∃ t, Closing (s.thread t).point)

/-- A step that neither writes nor sets `closed` leaves the wire as it is. -/
theorem Wire.of_local (h : Wire calls s) (hstream : s'.stream = s.stream)
    (hclosed : s'.closed = s.closed) (hother : ∀ t', t' ≠ t → s'.thread t' = s.thread t')
    (hholds : s.closed = false → HoldsWire (s'.thread t).point → HoldsWire (s.thread t).point)
    (hloop : ∀ op buf n, s.closed = false → InLoop (s.thread t).point op buf n → 0 < n →
      n < buf.length → InLoop (s'.thread t).point op buf n)
    (hclosing : Closing (s.thread t).point → s.closed = true ∨ Closing (s'.thread t).point) :
    Wire calls s' := by
  cases h with
  | free fs hbytes hfs hopen hno =>
    refine .free fs (hstream.trans hbytes) hfs (hclosed.trans hopen) fun t' => ?_
    by_cases heq : t' = t
    · subst heq
      exact fun hh => hno t' (hholds hopen hh)
    · rw [hother t' heq]
      exact hno t'
  | busy fs u op buf n hbytes hfs hopen hin hpos hlt hno =>
    refine .busy fs u op buf n (hstream.trans hbytes) hfs (hclosed.trans hopen) ?_ hpos hlt
      fun t' ht' => ?_
    · by_cases heq : u = t
      · subst heq
        exact hloop op buf n hopen hin hpos hlt
      · rwa [hother u heq]
    · by_cases heq : t' = t
      · subst heq
        exact fun hh => hno t' ht' (hholds hopen hh)
      · rw [hother t' heq]
        exact hno t' ht'
  | closing fs f hbytes hfs hf hpending =>
    refine .closing fs f (hstream.trans hbytes) hfs hf ?_
    rw [hclosed]
    obtain hc | ⟨u, hu⟩ := hpending
    · exact Or.inl hc
    · by_cases heq : u = t
      · subst heq
        exact (hclosing hu).imp_right fun h => ⟨u, h⟩
      · exact Or.inr ⟨u, by rwa [hother u heq]⟩

/-- A call begins without a byte on the wire, or it throws before it writes anything. -/
theorem wire_call (h : Wire calls s) (hstep : s.call t = some s') : Wire calls s' := by
  obtain ⟨op, ops, hthread, hcall⟩ := Shared.call_cases hstep
  have hgo : ∀ thread : Thread, ¬ HoldsWire thread.point → Wire calls (s.put t thread) := by
    intro thread hidle
    refine h.of_local rfl rfl (fun t' ht' => s.put_thread_ne ht' thread) ?_ ?_ ?_
    · rw [Shared.put_thread_self]
      exact fun _ hh => absurd hh hidle
    · rw [hthread]
      rintro _ _ _ _ (hin | hin) <;> cases hin
    · rw [hthread]
      exact fun hc => absurd hc id
  obtain ⟨r, _, rfl⟩ | ⟨e, _, rfl⟩ := hcall
  · exact hgo _ fun hh => Nat.lt_irrefl 0 hh.1
  · exact hgo _ id

/-- The test of the loop in `send` writes nothing; if it ends the loop, the frame is complete or the
connection was closed. -/
theorem wire_test (hok : ThreadOk (calls t) (s.thread t)) (h : Wire calls s)
    (hstep : s.test t = some s') : Wire calls s' := by
  obtain ⟨op, buf, n, hpoint, hcase⟩ := Shared.test_cases hstep
  have hpointOk := hok.point
  rw [hpoint] at hpointOk
  obtain ⟨⟨_, f, _, rfl⟩, _⟩ := hpointOk
  obtain ⟨hopen, hlt, rfl⟩ | ⟨hover, rfl⟩ := hcase
  · -- the loop goes on
    refine h.of_local rfl rfl (fun t' ht' => s.goTo_thread_ne ht' _) ?_ ?_ ?_
    · rw [hpoint, Shared.goTo, Shared.put_thread_self]
      exact fun _ hpos => ⟨hpos, Or.inl hlt⟩
    · rw [hpoint, Shared.goTo, Shared.put_thread_self]
      rintro op' buf' n' _ (hin | hin) _ _ <;> cases hin
      exact Or.inr rfl
    · rw [hpoint]
      rintro ⟨_, _, hle⟩
      omega
  · -- the loop is over
    refine h.of_local rfl rfl (fun t' ht' => s.goTo_thread_ne ht' _) ?_ ?_ ?_
    · rw [hpoint, Shared.goTo, Shared.put_thread_self]
      intro hopen hholds
      have hpos := length_encode_pos f
      refine ⟨by have := hover hopen; omega, Or.inr ?_⟩
      cases op with
      | send buf => exact absurd hholds id
      | sendText buf => exact absurd hholds id
      | close => rfl
    · rw [hpoint]
      rintro op' buf' n' hopen (hin | hin) _ hlt
      · have := hover hopen
        cases hin
        omega
      · cases hin
    · rw [hpoint, Shared.goTo, Shared.put_thread_self]
      rintro ⟨rfl, _, _⟩
      exact Or.inr trivial

/-- A thread that may write either begins its frame behind whole frames, or goes on with it. -/
theorem Wire.before_write (h : Wire calls s) {op : Operation} {buf : Bytes} {n : ℕ}
    (hpoint : (s.thread t).point = .write op buf n) (hopen : s.closed = false)
    (hno : ∀ t', t' ≠ t → ¬ HoldsWire (s.thread t').point) :
    ∃ fs, s.stream = frameCode.encodeAll fs ++ buf.take n ∧
      ∀ f ∈ fs, Built calls f ∧ f.opcode ≠ 8 := by
  cases h with
  | free fs hbytes hfs _ hfree =>
    have hn : n = 0 := by
      have := hfree t
      rw [hpoint] at this
      exact Nat.eq_zero_of_not_pos this
    refine ⟨fs, ?_, hfs⟩
    rw [hn, List.take_zero, List.append_nil, hbytes]
  | busy fs u op' buf' n' hbytes hfs _ hin hpos hlt _ =>
    by_cases heq : u = t
    · subst heq
      rw [hpoint] at hin
      obtain hin | hin := hin
      · cases hin
      · cases hin
        exact ⟨fs, hbytes, hfs⟩
    · refine absurd ?_ (hno u heq)
      obtain hin | hin := hin
      · rw [hin]
        exact ⟨hpos, Or.inl hlt⟩
      · rw [hin]
        exact hpos
  | closing fs f _ _ _ hpending =>
    obtain hc | ⟨u, hu⟩ := hpending
    · rw [hopen] at hc
      cases hc
    · by_cases heq : u = t
      · subst heq
        rw [hpoint] at hu
        exact absurd hu id
      · exact absurd (holdsWire_of_closing hu) (hno u heq)

/-- A write that no other one can come between goes on with its frame where it stopped. -/
theorem wire_write {k : ℕ} (hok : ThreadOk (calls t) (s.thread t)) (h : Wire calls s)
    (hex : Exclusive s (.write t k)) (hstep : s.write t k = some s') : Wire calls s' := by
  obtain ⟨hopen, hno⟩ := hex
  obtain ⟨op, buf, n, hpoint, rfl⟩ := Shared.write_cases hstep
  have hpointOk := hok.point
  rw [hpoint] at hpointOk
  obtain ⟨fs, hbytes, hfs⟩ := h.before_write hpoint hopen hno
  obtain ⟨hgrow, hle⟩ := accepted_bounds k hpointOk.2
  have hnext := next_numWritten hpointOk k
  have hstream : s.stream ++ Connection.accepted k (buf.drop n) = frameCode.encodeAll fs ++
      buf.take (n + (Connection.accepted k (buf.drop n)).length) := by
    rw [hbytes, List.append_assoc, take_append_accepted]
  rw [hnext]
  obtain ⟨⟨hop, f, hframe, hbuf⟩, _⟩ := hpointOk
  generalize hm : n + (Connection.accepted k (buf.drop n)).length = m at hgrow hle hstream
  have hself : (s.goTo t (.test op buf m)).thread t = { s.thread t with point := .test op buf m } :=
    s.put_thread_self t _
  have hother : ∀ t', t' ≠ t → ¬ HoldsWire ((s.goTo t (.test op buf m)).thread t').point := by
    intro t' ht'
    rw [s.goTo_thread_ne ht']
    exact hno t' ht'
  by_cases hlt : m < buf.length
  · exact .busy fs t op buf m hstream hfs hopen (Or.inl (congrArg Thread.point hself))
      (by omega) hlt hother
  · -- the frame is complete
    have hall : s.stream ++ Connection.accepted k (buf.drop n) = frameCode.encodeAll (fs ++ [f]) := by
      rw [hstream, List.take_of_length_le (by omega), hbuf, frameCode.encodeAll_append,
        frameCode.encodeAll_cons, frameCode.encodeAll_nil, List.append_nil]
      rfl
    by_cases hclose : op = .close
    · refine .closing fs f hall hfs ⟨⟨t, op, hop, hframe⟩, (opcode_eq_close_iff hframe).mpr hclose⟩
        (Or.inr ⟨t, ?_⟩)
      change Closing ((s.goTo t (.test op buf m)).thread t).point
      rw [hself]
      exact ⟨hclose, by omega, by omega⟩
    · refine .free (fs ++ [f]) hall ?_ hopen fun t' => ?_
      · intro g hg
        obtain hg | hg := List.mem_append.mp hg
        · exact hfs g hg
        · rw [List.mem_singleton.mp hg]
          exact ⟨⟨t, op, hop, hframe⟩, fun h8 => hclose ((opcode_eq_close_iff hframe).mp h8)⟩
      · by_cases heq : t' = t
        · subst heq
          change ¬ HoldsWire ((s.goTo t' (.test op buf m)).thread t').point
          rw [hself]
          exact fun hh => hh.2.elim (fun h => hlt h) fun h => hclose h
        · exact hother t' heq

/-- When the closed flag is set, the close frame is on the wire as a whole. -/
theorem wire_setClosed (h : Wire calls s) (hstep : s.setClosed t = some s') : Wire calls s' := by
  obtain ⟨hpoint, rfl⟩ := Shared.setClosed_cases hstep
  cases h with
  | free fs _ _ _ hno =>
    have := hno t
    rw [hpoint] at this
    exact absurd trivial this
  | busy fs u op buf n _ _ _ hin _ _ hno =>
    by_cases heq : u = t
    · subst heq
      rw [hpoint] at hin
      obtain hin | hin := hin <;> cases hin
    · have := hno t (Ne.symm heq)
      rw [hpoint] at this
      exact absurd trivial this
  | closing fs f hbytes hfs hf _ => exact .closing fs f hbytes hfs hf (Or.inl rfl)

/-- What holds in the whole of a run in which the threads exclude each other. -/
structure SharedOk (calls : T → List Operation) (s : Shared T) : Prop where
  threads : ∀ t, ThreadOk (calls t) (s.thread t)
  wire : Wire calls s

omit [DecidableEq T] in
/-- At the beginning nothing is on the wire and every thread is between two operations. -/
theorem sharedOk_init (calls : T → List Operation) : SharedOk calls (Shared.init calls) where
  threads := fun _ => ⟨fun _ hx => hx, trivial⟩
  wire := .free [] rfl (by simp) rfl fun _ => id

/-- Every turn that meets the condition keeps the wire and the threads as they should be. -/
theorem sharedOk_step (h : SharedOk calls s) {turn : Turn T} (hstep : s.step turn = some s')
    (hex : Exclusive s turn) : SharedOk calls s' := by
  refine ⟨threadOk_step h.threads hstep, ?_⟩
  cases turn with
  | call t => exact wire_call h.wire hstep
  | test t => exact wire_test (h.threads t) h.wire hstep
  | write t k => exact wire_write (h.threads t) h.wire hex hstep
  | setClosed t => exact wire_setClosed h.wire hstep

end Wire

/-! ## Runs -/

section Runs

variable {T : Type} [DecidableEq T]

/-- The threads take turns in any order. -/
def interleaving (T : Type) [DecidableEq T] : System (Shared T) (Turn T) := .ofStep Shared.step

omit [DecidableEq T] in
/-- The bytes on the wire are then whole frames of calls that were made, and the beginning of one
more. -/
theorem wholeFrames_of_sharedOk {calls : T → List Operation} {s : Shared T}
    (h : SharedOk calls s) : WholeFrames calls s := by
  have hlast : ∀ {fs : List Frame}, (∀ f ∈ fs, Built calls f ∧ f.opcode ≠ 8) →
      ∀ pre f post, fs = pre ++ f :: post → f.opcode ≠ 8 := by
    rintro fs hfs pre f post rfl
    exact (hfs f (by simp)).2
  obtain ⟨hthreads, hwire⟩ := h
  cases hwire with
  | free fs hbytes hfs _ _ =>
    refine ⟨fs, [], by rw [hbytes, List.append_nil], fun f hf => (hfs f hf).1, ?_, Or.inl rfl⟩
    exact fun pre f post heq h8 => absurd h8 (hlast hfs pre f post heq)
  | busy fs t op buf n hbytes hfs _ hin _ hlt _ =>
    have hframe : IsFrameOf (calls t) op buf := by
      have hok := (hthreads t).point
      obtain hin | hin := hin
      · rw [hin] at hok
        exact hok.1
      · rw [hin] at hok
        exact hok.1
    obtain ⟨hop, f, hframe, rfl⟩ := hframe
    refine ⟨fs, f.encode.take n, hbytes, fun f hf => (hfs f hf).1, ?_, Or.inr ⟨f, ?_⟩⟩
    · exact fun pre f post heq h8 => absurd h8 (hlast hfs pre f post heq)
    · have hlen : (f.encode.take n).length = n := by
        rw [List.length_take]
        omega
      refine ⟨⟨t, op, hop, hframe⟩, List.take_prefix n f.encode, Or.inr ⟨t, op, ?_⟩⟩
      rwa [hlen]
  | closing fs f hbytes hfs hf _ =>
    refine ⟨fs ++ [f], [], by rw [hbytes, List.append_nil], ?_, ?_, Or.inl rfl⟩
    · intro g hg
      obtain hg | hg := List.mem_append.mp hg
      · exact (hfs g hg).1
      · rw [List.mem_singleton.mp hg]
        exact hf.1
    · intro pre g post heq h8
      refine ⟨?_, rfl⟩
      by_contra hpost
      obtain ⟨init, last, rfl⟩ := (List.eq_nil_or_concat post).resolve_left hpost
      rw [List.concat_eq_append, ← List.cons_append, ← List.append_assoc] at heq
      have hfs' : fs = pre ++ g :: init := (List.append_inj' heq rfl).1
      exact hlast hfs pre g init hfs' h8

/-! ### One thread alone

Without other threads, the steps of a thread do what its operations do one after the other. -/

variable {s s' : Shared T} {t : T}

/-- A thread has come to a point and has written some bytes. -/
structure Moved (s s' : Shared T) (t : T) (point : Point) (bytes : Bytes) : Prop where
  point : (s'.thread t).point = point
  calls : (s'.thread t).calls = (s.thread t).calls
  closed : s'.closed = s.closed
  stream : s'.stream = s.stream ++ bytes

/-- A thread that goes on keeps the calls that it has left. -/
theorem goTo_thread_self (s : Shared T) (t : T) (point : Point) :
    (s.goTo t point).thread t = { s.thread t with point := point } :=
  s.put_thread_self t _

/-- Going on writes nothing and closes nothing. -/
theorem moved_goTo (s : Shared T) (t : T) (point : Point) : Moved s (s.goTo t point) t point [] where
  point := by rw [goTo_thread_self]
  calls := by rw [goTo_thread_self]
  closed := rfl
  stream := (List.append_nil s.stream).symm

/-- The loop of `send` is over. -/
theorem leave_turn {op : Operation} {buf : Bytes} {n : ℕ} (hpoint : (s.thread t).point = .test op buf n)
    (hover : ¬ (s.closed = false ∧ n < buf.length)) :
    ∃ s', (interleaving T).Run s [.test t] s' ∧ Moved s s' t op.afterSend [] := by
  refine ⟨s.goTo t op.afterSend, .single ?_, moved_goTo s t _⟩
  change s.test t = _
  unfold Shared.test
  rw [hpoint]
  exact if_neg hover

/-- One pass of the loop of `send`. -/
theorem pass_turns {op : Operation} {buf : Bytes} {n : ℕ} (hbuf : buf.length < SIZE_MOD)
    (hpoint : (s.thread t).point = .test op buf n) (hopen : s.closed = false) (hlt : n < buf.length)
    (k : ℕ) :
    ∃ s', (interleaving T).Run s [.test t, .write t k] s' ∧
      Moved s s' t (.test op buf (n + (Connection.accepted k (buf.drop n)).length))
        (Connection.accepted k (buf.drop n)) := by
  have htest : s.test t = some (s.goTo t (.write op buf n)) := by
    unfold Shared.test
    rw [hpoint]
    exact if_pos ⟨hopen, hlt⟩
  have hmod := Nat.mod_eq_of_lt ((accepted_bounds k hlt).2.trans_lt hbuf)
  refine ⟨{ (s.goTo t (.write op buf n)).goTo t
      (.test op buf (n + (Connection.accepted k (buf.drop n)).length)) with
    stream := s.stream ++ Connection.accepted k (buf.drop n) }, .cons htest (.single ?_), ?_⟩
  · change Shared.write _ t k = _
    unfold Shared.write
    rw [goTo_thread_self]
    dsimp only
    rw [hmod]
    rfl
  · have hmoved := moved_goTo (s.goTo t (.write op buf n)) t
      (.test op buf (n + (Connection.accepted k (buf.drop n)).length))
    refine ⟨hmoved.point, hmoved.calls.trans (moved_goTo s t _).calls, rfl, rfl⟩

/-- The steps of one thread do what `Connection::send` does. -/
theorem sendLoop_turns {op : Operation} {buf : Bytes} (hbuf : buf.length < SIZE_MOD)
    (script : List WriteResult) (hscript : ∀ r ∈ script, ∃ k, r = .accept k) {n : ℕ}
    (hn : n ≤ buf.length) (log : Log) (hpoint : (s.thread t).point = .test op buf n) :
    ∃ turns s' bytes, (interleaving T).Run s turns s' ∧ Moved s s' t op.afterSend bytes ∧
      (Connection.sendLoop s.closed buf script n log).2.log.written = log.written ++ bytes := by
  induction script generalizing s n log with
  | nil =>
    unfold Connection.sendLoop
    by_cases hloop : s.closed = false ∧ n < buf.length
    · obtain ⟨s₁, hrun, hmoved⟩ := pass_turns hbuf hpoint hloop.1 hloop.2 buf.length
      have hall : Connection.accepted buf.length (buf.drop n) = buf.drop n :=
        List.take_of_length_le (by rw [List.length_drop]; omega)
      rw [hall] at hmoved
      obtain ⟨s₂, hrun', hmoved'⟩ := leave_turn hmoved.point fun h => by
        have := h.2
        rw [List.length_drop] at this
        omega
      refine ⟨_, s₂, buf.drop n, hrun.append hrun', ⟨hmoved'.point, ?_, ?_, ?_⟩, ?_⟩
      · exact hmoved'.calls.trans hmoved.calls
      · exact hmoved'.closed.trans hmoved.closed
      · rw [hmoved'.stream, hmoved.stream, List.append_nil]
      · rw [if_pos hloop, written_append, written_wrote]
    · obtain ⟨s₁, hrun, hmoved⟩ := leave_turn hpoint hloop
      refine ⟨_, s₁, [], hrun, hmoved, ?_⟩
      rw [if_neg hloop, List.append_nil]
  | cons r script ih =>
    obtain ⟨k, rfl⟩ := hscript r List.mem_cons_self
    unfold Connection.sendLoop
    by_cases hloop : s.closed = false ∧ n < buf.length
    · obtain ⟨s₁, hrun, hmoved⟩ := pass_turns hbuf hpoint hloop.1 hloop.2 k
      have hle := (accepted_bounds k hloop.2).2
      obtain ⟨turns, s₂, bytes, hrun', hmoved', hwritten⟩ := ih
        (fun r hr => hscript r (List.mem_cons_of_mem _ hr)) hle
        (log ++ [.wrote (Connection.accepted k (buf.drop n))]) hmoved.point
      refine ⟨_, s₂, Connection.accepted k (buf.drop n) ++ bytes, hrun.append hrun',
        ⟨hmoved'.point, ?_, ?_, ?_⟩, ?_⟩
      · exact hmoved'.calls.trans hmoved.calls
      · exact hmoved'.closed.trans hmoved.closed
      · rw [hmoved'.stream, hmoved.stream, List.append_assoc]
      · rw [hmoved.closed, written_append, written_wrote, List.append_assoc] at hwritten
        rw [if_pos hloop]
        dsimp only
        rw [Nat.mod_eq_of_lt (hle.trans_lt hbuf)]
        exact hwritten
    · obtain ⟨s₁, hrun, hmoved⟩ := leave_turn hpoint hloop
      refine ⟨_, s₁, [], hrun, hmoved, ?_⟩
      rw [if_neg hloop, List.append_nil]

/-- On a socket that accepts something each time, `send` returns, also where the connection is
closed. -/
theorem send_returns {buf : Bytes} (hbuf : buf.length < SIZE_MOD) {c : Conn} (hacc : Accepts c) :
    ∃ n c', Connection.send buf c = (.ret n, c') ∧ c'.closed = c.closed ∧ Accepts c' := by
  cases hclosed : c.closed with
  | false =>
    obtain ⟨c', hsend, hopen, hacc', _⟩ := send_accepts hbuf hclosed hacc
    exact ⟨buf.length, c', hsend, hopen, hacc'⟩
  | true => exact ⟨0, c, send_of_closed hclosed, hclosed, hacc⟩

/-- What one thread has done is what the sequential operations did. -/
structure Agrees (s : Shared T) (c : Conn) : Prop where
  closed : s.closed = c.closed
  stream : s.stream = c.log.written
  accepts : Accepts c

/-- The end of an operation behind its `Connection::send`. -/
theorem afterSend_turns (op : Operation) {c : Conn} (hpoint : (s.thread t).point = op.afterSend)
    (hagrees : Agrees s c) :
    ∃ turns s', (interleaving T).Run s turns s' ∧
      s'.thread t = { s.thread t with point := .between } ∧ Agrees s' (afterSend op c) := by
  by_cases hclose : op = .close
  · subst hclose
    refine ⟨[.setClosed t], { s.goTo t .between with closed := true }, .single ?_,
      goTo_thread_self s t .between, ⟨rfl, hagrees.stream, hagrees.accepts⟩⟩
    change s.setClosed t = _
    unfold Shared.setClosed
    rw [hpoint]
    rfl
  · have hbetween : op.afterSend = .between := by
      cases op with
      | send buf => rfl
      | sendText buf => rfl
      | close => exact absurd rfl hclose
    have hsame : afterSend op c = c := by
      cases op with
      | send buf => rfl
      | sendText buf => rfl
      | close => exact absurd rfl hclose
    rw [hsame]
    refine ⟨[], s, .nil s, ?_, hagrees⟩
    rw [← hbetween, ← hpoint]

/-- One operation. -/
theorem perform_turns (pf : Platform) {op : Operation} {ops : List Operation} {c : Conn}
    (hthread : s.thread t = ⟨.between, op :: ops⟩) (hagrees : Agrees s c) :
    ∃ turns s', (interleaving T).Run s turns s' ∧ s'.thread t = ⟨.between, ops⟩ ∧
      Agrees s' (perform pf op c).2 := by
  have hcall : s.step (.call t) = s.call t := rfl
  unfold Shared.call at hcall
  rw [hthread] at hcall
  dsimp only at hcall
  obtain ⟨f, hframe, hresponse⟩ | ⟨hframe, e, hresponse⟩ := response_cases op
  · rw [hresponse] at hcall
    have hbuf := length_encode_of_frame hframe
    have hpoint : ((s.put t ⟨.test op f.encode 0, ops⟩).thread t).point = .test op f.encode 0 := by
      rw [Shared.put_thread_self]
    obtain ⟨turns, s₁, bytes, hrun, hmoved, hwritten⟩ :=
      sendLoop_turns hbuf c.script hagrees.accepts (Nat.zero_le _) c.log hpoint
    obtain ⟨n, c', hsend, hclosed', hacc'⟩ := send_returns hbuf hagrees.accepts
    have hloop : Connection.sendLoop s.closed f.encode c.script 0 c.log = (.ret n, c') := by
      rw [hagrees.closed]
      exact hsend
    have hagrees₁ : Agrees s₁ c' := by
      refine ⟨hmoved.closed.trans (hagrees.closed.trans hclosed'.symm), ?_, hacc'⟩
      rw [Shared.put_closed, hloop] at hwritten
      rw [hmoved.stream, Shared.put_stream, hagrees.stream]
      exact hwritten.symm
    obtain ⟨turns', s₂, hrun', hthread₂, hagrees₂⟩ := afterSend_turns op hmoved.point hagrees₁
    obtain ⟨hfits, rfl⟩ := eq_serverFrame hframe
    refine ⟨_, s₂, .cons hcall (hrun.append hrun'), ?_, ?_⟩
    · have hcalls : (s₁.thread t).calls = ops := by rw [hmoved.calls, Shared.put_thread_self]
      rw [hthread₂]
      dsimp only
      rw [hcalls]
    · rw [perform_of_send hfits hsend]
      exact hagrees₂
  · rw [hresponse] at hcall
    have hlong : 65535 < op.message.2.length := by
      by_contra hfits
      rw [frame_of_fits (Nat.le_of_not_lt hfits)] at hframe
      cases hframe
    refine ⟨[.call t], _, .single hcall, Shared.put_thread_self s t _, ?_⟩
    rw [perform_too_long hlong]
    exact ⟨hagrees.closed, hagrees.stream, hagrees.accepts⟩

/-- The operations of one thread, one after the other, are a run of its steps. -/
theorem performAll_turns (pf : Platform) {ops : List Operation} {c : Conn}
    (hthread : s.thread t = ⟨.between, ops⟩) (hagrees : Agrees s c) :
    ∃ turns s', (interleaving T).Run s turns s' ∧ s'.thread t = ⟨.between, []⟩ ∧
      Agrees s' (performAll pf ops c).2 := by
  induction ops generalizing s c with
  | nil => exact ⟨[], s, .nil s, hthread, hagrees⟩
  | cons op ops ih =>
    obtain ⟨turns, s₁, hrun, hthread₁, hagrees₁⟩ := perform_turns pf hthread hagrees
    obtain ⟨turns', s₂, hrun', hthread₂, hagrees₂⟩ := ih hthread₁ hagrees₁
    exact ⟨turns ++ turns', s₂, hrun.append hrun', hthread₂, hagrees₂⟩

/-! ### All threads -/

/-- For any number of threads, any sequence of calls by each and every order of their steps: when each
write is made while no other thread holds the wire, the stream consists of whole frames at every
moment. -/
theorem whole_frames (calls : T → List Operation) {turns : List (Turn T)} {s : Shared T}
    (h : ((interleaving T).restrict Exclusive).Run (Shared.init calls) turns s) :
    WholeFrames calls s := by
  refine wholeFrames_of_sharedOk (h.invariant (I := SharedOk calls) ?_ (sharedOk_init calls))
  rintro s turn s' hs ⟨hstep, hex⟩
  exact sharedOk_step hs hstep hex

/-- A text in two writes, and another thread that closes the connection behind it. -/
theorem whole_frames_textAndClose :
    let calls : Bool → List Operation := fun t => if t then [.close] else [.sendText (ascii "a")]
    ∃ s, ((interleaving Bool).restrict Exclusive).Run (Shared.init calls)
        [.call false, .call true, .test false, .test true, .write false 0, .test false,
          .write false 9, .test false, .write true 9, .test true, .setClosed true] s ∧
      WholeFrames calls s := by
  intro calls
  obtain ⟨s, hs⟩ := Option.isSome_iff_exists.mp (show (System.exec
      (System.guarded Exclusive Shared.step) (Shared.init calls)
        [.call false, .call true, .test false, .test true, .write false 0, .test false,
          .write false 9, .test false, .write true 9, .test true, .setClosed true]).isSome = true by
    decide +kernel)
  have hrun := System.run_restrict_of_exec hs
  exact ⟨s, hrun, whole_frames calls hrun⟩

/-! ## A short write -/

/-- Two threads with one text each. -/
def twoTexts (t : Bool) : List Operation := [.sendText (ascii (if t then "b" else "a"))]

/-- The frames of the two texts. -/
theorem encode_of_built {f : Frame} (h : Built twoTexts f) :
    f.encode = [0x81, 0x01, 0x61] ∨ f.encode = [0x81, 0x01, 0x62] := by
  obtain ⟨t, op, hop, hframe⟩ := h
  rw [twoTexts, List.mem_singleton] at hop
  subst hop
  have hencode := congrArg (Option.map Frame.encode) hframe
  cases t with
  | false =>
    left
    exact (Option.some.inj (hencode.symm.trans (by decide +kernel)))
  | true =>
    right
    exact (Option.some.inj (hencode.symm.trans (by decide +kernel)))

/-- When the socket accepts only the first byte of a frame, the frame of another thread can be written
in the middle of it. -/
theorem shortWrite_splits_frame :
    ∃ s, (interleaving Bool).Run (Shared.init twoTexts)
        [.call false, .test false, .write false 0, .call true, .test true, .write true 2, .test true,
          .test false, .write false 1, .test false] s ∧
      ¬ WholeFrames twoTexts s := by
  have hexec : (System.exec Shared.step (Shared.init twoTexts)
      [.call false, .test false, .write false 0, .call true, .test true, .write true 2, .test true,
        .test false, .write false 1, .test false]).map
          (fun s => (s.stream, s.closed, (s.thread false).point, (s.thread true).point)) =
      some ([0x81, 0x81, 0x01, 0x62, 0x01, 0x61], false, .between, .between) := by
    decide +kernel
  obtain ⟨s, hs, hend⟩ := Option.map_eq_some_iff.mp hexec
  simp only [Prod.mk.injEq] at hend
  obtain ⟨hstream, hopen, hfalse, htrue⟩ := hend
  refine ⟨s, System.run_ofStep_iff.mpr hs, ?_⟩
  rintro ⟨fs, rest, hbytes, hbuilt, _, hrest⟩
  have hnone : rest = [] := by
    obtain h | ⟨f, _, _, hclosed | ⟨t, op, hsending⟩⟩ := hrest
    · exact h
    · rw [hopen] at hclosed
      cases hclosed
    · cases t with
      | false => rw [hfalse] at hsending; obtain h | h := hsending <;> cases h
      | true => rw [htrue] at hsending; obtain h | h := hsending <;> cases h
  rw [hnone, List.append_nil, hstream] at hbytes
  cases fs with
  | nil => cases hbytes
  | cons f fs =>
    rw [frameCode.encodeAll_cons] at hbytes
    change _ = f.encode ++ _ at hbytes
    obtain h | h := encode_of_built (hbuilt f List.mem_cons_self)
    · rw [h] at hbytes
      simp at hbytes
    · rw [h] at hbytes
      simp at hbytes

end Runs

end CppSocks.Analysis
