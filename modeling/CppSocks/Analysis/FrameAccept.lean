import CppSocks.Analysis.ConnectionLog
import CppSocks.Analysis.FrameDecode
import CppSocks.Interface.Receiver

/-!
# The effect of one frame

What `acceptFrame` does, case by case: a frame whose payload does not fit, a
frame that is not the last one of its message, and the last frame for each
opcode. The handler is one whose callbacks return (`CallbacksReturn`).
-/

set_option autoImplicit false

namespace CppSocks.Analysis

open CppSocks.Model CppSocks.Interface Foundation

/-- The callbacks that deliver messages return, whatever the state of the connection. -/
structure CallbacksReturn (pf : Platform) (handler : WsHandler) : Prop where
  onData : ∀ log payload c, ((handler.onData log payload).run pf c).1 = .ret ()
  onText : ∀ log payload c, ((handler.onText log payload).run pf c).1 = .ret ()

/-- The callbacks of the null handler return. -/
theorem callbacksReturn_null (pf : Platform) : CallbacksReturn pf WsHandlerNull :=
  ⟨fun _ _ _ => rfl, fun _ _ _ => rfl⟩

/-- A callback of a handler that was made for its own connection. -/
theorem callback_self {α : Type} (pf : Platform) (e : Event) (p : Log → Prog α) (c : Conn) :
    callback pf .self .self e p c = (p (c.record e).log).run pf (c.record e) := rfl

/-- A callback is recorded once, and behind it only what the user's code does. -/
theorem callback_log {α : Type} (pf : Platform) (e : Event) (p : Log → Prog α) (c : Conn) :
    ∃ evs, (callback pf .self .self e p c).2.log = c.log ++ e :: evs ∧ ∀ e ∈ evs, IsTransfer e := by
  obtain ⟨evs, hext⟩ := run_extends pf (p (c.record e).log) (c.record e)
  refine ⟨evs, ?_, hext.isTransfer⟩
  rw [callback_self, hext.log_eq, Conn.record, List.append_assoc, List.singleton_append]

/-- What the user's code does in a callback makes no further callback. -/
theorem messages_callback {α : Type} (pf : Platform) (e : Event) (p : Log → Prog α) (c : Conn) :
    (callback pf .self .self e p c).2.log.messages = c.log.messages ++ Log.messages [e] := by
  obtain ⟨evs, hlog, hio⟩ := callback_log pf e p c
  rw [hlog, ← List.singleton_append, messages_append, messages_append, messages_of_isTransfer hio,
    List.append_nil]

/-! ## Vector operations -/

/-- A payload that fits is appended. -/
theorem appendPayload_of_fits {pf : Platform} {buf : WsBuffer} {payload : Bytes}
    (h : buf.length + payload.length ≤ pf.maxSize) :
    appendPayload pf buf payload = .ret (buf ++ payload) := by
  have hmax := pf.maxSize_lt
  rw [appendPayload, Nat.mod_eq_of_lt (by omega), resize_grow h, Res.ret_bind, store_grown]

/-- The `std::length_error` is not one that `onReceive` catches. -/
theorem appendPayload_overflow {pf : Platform} {buf : WsBuffer} {payload : Bytes}
    (hbuf : buf.length ≤ pf.maxSize) (hp : payload.length < SIZE_MOD)
    (h : pf.maxSize < buf.length + payload.length) :
    appendPayload pf buf payload = .exn .length_error ∨ appendPayload pf buf payload = .ub := by
  have hmax := pf.maxSize_lt
  unfold appendPayload WsBuffer.resize
  by_cases hbig : pf.maxSize < (buf.length + payload.length) % SIZE_MOD
  · left
    rw [if_pos hbig, Res.exn_bind]
  · right
    have hge : SIZE_MOD ≤ buf.length + payload.length := by
      by_contra hlt
      rw [Nat.mod_eq_of_lt (by omega)] at hbig
      omega
    rw [if_neg hbig, Res.ret_bind, Nat.mod_eq_sub_mod hge, Nat.mod_eq_of_lt (by omega),
      WsBuffer.store, if_neg]
    simp only [List.length_append, List.length_take, List.length_replicate]
    omega

/-- A text with room for one more byte is terminated. -/
theorem terminate_of_fits {pf : Platform} {buf : WsBuffer} (h : buf.length + 1 ≤ pf.maxSize) :
    buf.terminate pf = .ret (buf ++ [0]) := by
  have hmax := pf.maxSize_lt
  have hlast : (buf.length + 1 + (SIZE_MOD - 1)) % SIZE_MOD = buf.length := by
    rw [show buf.length + 1 + (SIZE_MOD - 1) = buf.length + SIZE_MOD by unfold SIZE_MOD; omega,
      Nat.add_mod_right, Nat.mod_eq_of_lt (by omega)]
  have hgrow := resize_grow h
  rw [WsBuffer.terminate, Nat.mod_eq_of_lt (by omega), hgrow, Res.ret_bind, List.length_append,
    List.length_replicate, hlast]
  exact store_grown _ _

/-- A text without room for the NUL throws, or its length wraps around. -/
theorem terminate_overflow {pf : Platform} {buf : WsBuffer} (hbuf : buf.length ≤ pf.maxSize)
    (h : pf.maxSize < buf.length + 1) :
    buf.terminate pf = .exn .length_error ∨ buf.terminate pf = .ub := by
  have hmax := pf.maxSize_lt
  unfold WsBuffer.terminate WsBuffer.resize
  by_cases hbig : pf.maxSize < (buf.length + 1) % SIZE_MOD
  · left
    rw [if_pos hbig, Res.exn_bind]
  · right
    have hwrap : buf.length + 1 = SIZE_MOD := by
      by_contra hne
      rw [Nat.mod_eq_of_lt (by omega)] at hbig
      omega
    rw [if_neg hbig, Res.ret_bind, hwrap, Nat.mod_self, WsBuffer.store, if_neg]
    simp [SIZE_MOD]

/-- A text without NUL bytes is the C string that its terminated buffer holds. -/
theorem cstr_append_nul {text : Bytes} (h : (0 : Byte) ∉ text) : cstr (text ++ [0]) = text := by
  induction text with
  | nil => rfl
  | cons b text ih =>
    have hb : (b != 0) = true := by
      simp only [bne_iff_ne]
      rintro rfl
      exact h List.mem_cons_self
    have htail : (0 : Byte) ∉ text := fun hmem => h (List.mem_cons_of_mem b hmem)
    have := ih htail
    unfold cstr at this ⊢
    rw [List.cons_append, List.takeWhile_cons, if_pos hb, this]

/-! ## Frames -/

/-- The opcode that the current message has once a frame has arrived. -/
def nextOpcode (s : HttpWsState) (f : Frame) : OpCode :=
  if s.inBuf.length == 0 then UInt8.ofNat f.opcode.val else s.opcode

/-- The reassembly state once the frame's payload has been appended. -/
def extended (s : HttpWsState) (f : Frame) : HttpWsState :=
  ⟨nextOpcode s f, s.inBuf ++ f.payload⟩

/-- A frame makes the stored message longer by its payload. -/
theorem length_extended (s : HttpWsState) (f : Frame) :
    (extended s f).inBuf.length = s.inBuf.length + f.payload.length :=
  List.length_append

/-- What a call of `onReceive` leaves when acting on a message has ended: the buffer is cleared if
that has returned; what is caught leaves the buffer as it is. -/
def concluded {σ : Type} : Res Exc Unit × (HttpWsState × σ) → Res Exc Unit × (HttpWsState × σ)
  | (.ret _, (m, t)) => (.ret (), ({ m with inBuf := [] }, t))
  | (.exn e, st) => (if e.isInvalidArgument then .ret () else .exn e, st)
  | (.ub, st) => (.ub, st)

/-- Clearing the buffer and catching an exception do not touch the connection. -/
theorem concluded_conn {σ : Type} (x : Res Exc Unit × (HttpWsState × σ)) :
    (concluded x).2.2 = x.2.2 := by
  rcases x with ⟨r, m, t⟩
  cases r <;> rfl

section Cases

variable {σ : Type} {pf : Platform} {fsm conn : Port σ} {handler : WsHandler}
  {s : HttpWsState} {t : σ} {f : Frame}

variable (fsm conn handler t) in
/-- A payload that does not fit: the call does not return and nothing has changed. -/
theorem acceptFrame_overflow (hbuf : s.inBuf.length ≤ pf.maxSize)
    (h : pf.maxSize < s.inBuf.length + f.payload.length) :
    acceptFrame pf fsm conn handler f (s, t) = (.exn .length_error, (s, t)) ∨
      acceptFrame pf fsm conn handler f (s, t) = (.ub, (s, t)) := by
  have hp : f.payload.length < SIZE_MOD := by
    have hfits := f.fits
    unfold SIZE_MOD
    cases hff : f.form <;> simp only [hff, LengthForm.capacity] at hfits <;> omega
  have hbody : ∀ r : Call WsBuffer, appendPayload pf s.inBuf f.payload = r → (∀ b, r ≠ .ret b) →
      acceptFrame pf fsm conn handler f (s, t) = Act.tryCatch (Act.lift (r.bind fun _ => .ret ()))
        (fun e => if e.isInvalidArgument then pure () else Act.throw e) (s, t) := by
    intro r hr hne
    unfold acceptFrame Act.tryCatch frameBody
    rw [Act.bind_of_ret (Act.gets_apply _ (s, t))]
    cases r with
    | ret b => exact absurd rfl (hne b)
    | exn e => rw [hr, Act.bind_of_exn (Act.lift_apply _ _)]; rfl
    | ub => rw [hr, Act.bind_of_ub (Act.lift_apply _ _)]; rfl
  rcases appendPayload_overflow hbuf hp h with hr | hr
  · left
    rw [hbody _ hr (by simp)]
    rfl
  · right
    rw [hbody _ hr (by simp)]
    rfl

/-- What is left of a frame once its payload has been appended. -/
theorem frameBody_of_fits (h : s.inBuf.length + f.payload.length ≤ pf.maxSize) :
    frameBody pf fsm conn handler f (s, t) =
      (if !f.fin then pure ()
        else do
          HttpWsState.dispatch pf fsm conn handler (extended s f)
          HttpWsState.modifySelf fun s => { s with inBuf := [] } : Action (HttpWsState × σ) Unit)
        (extended s f, t) := by
  unfold frameBody
  rw [Act.bind_of_ret (Act.gets_apply _ (s, t)), appendPayload_of_fits h,
    Act.bind_of_ret (Act.lift_apply _ _), HttpWsState.modifySelf,
    Act.bind_of_ret (Act.modify_apply _ _)]
  cases hstart : s.inBuf.length == 0 <;> cases hfin : f.fin <;>
    simp [extended, nextOpcode, hstart, HttpWsState.modifySelf, Act.bind_apply]

/-- A frame that is not the last one of its message is only appended. -/
theorem acceptFrame_continues (h : s.inBuf.length + f.payload.length ≤ pf.maxSize)
    (hfin : f.fin = false) :
    acceptFrame pf fsm conn handler f (s, t) = (.ret (), (extended s f, t)) := by
  apply Act.tryCatch_of_ret
  rw [frameBody_of_fits h, hfin]
  rfl

/-- The last frame of a message has the message acted on. -/
theorem acceptFrame_final (h : s.inBuf.length + f.payload.length ≤ pf.maxSize)
    (hfin : f.fin = true) :
    acceptFrame pf fsm conn handler f (s, t) =
      Act.tryCatch (do
        HttpWsState.dispatch pf fsm conn handler (extended s f)
        HttpWsState.modifySelf fun s => { s with inBuf := [] })
        (fun e => if e.isInvalidArgument then pure () else Act.throw e) (extended s f, t) := by
  unfold acceptFrame Act.tryCatch
  rw [frameBody_of_fits h, hfin]
  rfl

/-- The call has the end that acting on the message has had. -/
theorem acceptFrame_concluded (h : s.inBuf.length + f.payload.length ≤ pf.maxSize)
    (hfin : f.fin = true) :
    acceptFrame pf fsm conn handler f (s, t) =
      concluded (HttpWsState.dispatch pf fsm conn handler (extended s f) (extended s f, t)) := by
  rw [acceptFrame_final h hfin, Act.tryCatch, Act.bind_apply]
  rcases HttpWsState.dispatch pf fsm conn handler (extended s f) (extended s f, t) with ⟨r, m', t'⟩
  cases r with
  | ret u => rfl
  | exn e => cases hcaught : e.isInvalidArgument <;> simp [concluded, hcaught]
  | ub => rfl

/-- The `case` of a text message; the C string that is handed over is read up to its NUL. -/
theorem dispatch_text {buf : WsBuffer} (h : buf.length + 1 ≤ pf.maxSize)
    (hnul : (0 : Byte) ∉ buf) :
    HttpWsState.dispatch pf fsm conn handler ⟨WebSocketFrame.OPCODE_TEXT, buf⟩
        (⟨WebSocketFrame.OPCODE_TEXT, buf⟩, t) =
      HttpWsState.outer (callback pf fsm conn (.onText buf) fun log => handler.onText log buf)
        (⟨WebSocketFrame.OPCODE_TEXT, buf ++ [0]⟩, t) := by
  have hcase : HttpWsState.dispatch pf fsm conn handler ⟨WebSocketFrame.OPCODE_TEXT, buf⟩ = (do
      let terminated ← Act.lift (buf.terminate pf)
      HttpWsState.modifySelf fun s => { s with inBuf := terminated }
      HttpWsState.outer (callback pf fsm conn (.onText (cstr terminated)) fun log =>
        handler.onText log (cstr terminated))) := rfl
  rw [hcase, terminate_of_fits h, Act.bind_of_ret (Act.lift_apply _ _), cstr_append_nul hnul]
  rfl

variable (fsm conn handler t) in
/-- A message with opcode 0 ends the call with an exception. -/
theorem acceptFrame_zero (h : s.inBuf.length + f.payload.length ≤ pf.maxSize)
    (hfin : f.fin = true) (hop : nextOpcode s f = 0) :
    acceptFrame pf fsm conn handler f (s, t) =
      (.exn (.runtime_error "WebSocket opcode must not be 0 when FIN bit is set."),
        (extended s f, t)) := by
  rw [acceptFrame_final h hfin]
  unfold HttpWsState.dispatch
  rw [if_pos (show (extended s f).opcode = WebSocketFrame.OPCODE_CONTINUATION from hop),
    Act.tryCatch_of_exn (Act.bind_of_exn (Act.throw_apply _ _) _)]
  rfl

end Cases

section Messages

variable {pf : Platform} {handler : WsHandler} {s : HttpWsState} {c : Conn} {f : Frame}

/-- A callback that returns leaves the buffer to be cleared. -/
theorem acceptFrame_callback (c : Conn) (st : HttpWsState) (e : Event) {p : Log → Prog Unit}
    (hret : ∀ log c, ((p log).run pf c).1 = .ret ()) :
    ∃ c', Act.tryCatch (do
        HttpWsState.outer (callback pf .self .self e p)
        HttpWsState.modifySelf fun s => { s with inBuf := [] })
        (fun e => if e.isInvalidArgument then pure () else Act.throw e) (st, c) =
          (.ret (), ({ st with inBuf := [] }, c')) ∧
      c'.log.messages = c.log.messages ++ Log.messages [e] := by
  refine ⟨(callback pf .self .self e p c).2, ?_, messages_callback pf e p c⟩
  have hcall : HttpWsState.outer (callback pf .self .self e p) (st, c) =
      (.ret (), (st, (callback pf .self .self e p c).2)) := by
    unfold HttpWsState.outer Act.zoom
    rw [callback_self, hret]
  apply Act.tryCatch_of_ret
  rw [Act.bind_of_ret hcall]
  rfl

/-- The last frame of a binary message. -/
theorem acceptFrame_binary (hq : CallbacksReturn pf handler)
    (h : s.inBuf.length + f.payload.length ≤ pf.maxSize) (hfin : f.fin = true)
    (hop : nextOpcode s f = WebSocketFrame.OPCODE_BINARY) :
    ∃ c', acceptFrame pf .self .self handler f (s, c) =
        (.ret (), (⟨WebSocketFrame.OPCODE_BINARY, []⟩, c')) ∧
      c'.log.messages = c.log.messages ++ [.onData (s.inBuf ++ f.payload)] := by
  rw [acceptFrame_final h hfin]
  have hext : extended s f = ⟨WebSocketFrame.OPCODE_BINARY, s.inBuf ++ f.payload⟩ := by
    rw [extended, hop]
  rw [hext]
  exact acceptFrame_callback c _ _ fun log c => hq.onData log _ c

/-- The last frame of a text message. -/
theorem acceptFrame_text (hq : CallbacksReturn pf handler)
    (h : s.inBuf.length + f.payload.length + 1 ≤ pf.maxSize) (hfin : f.fin = true)
    (hop : nextOpcode s f = WebSocketFrame.OPCODE_TEXT)
    (hnul : (0 : Byte) ∉ s.inBuf ++ f.payload) :
    ∃ c', acceptFrame pf .self .self handler f (s, c) =
        (.ret (), (⟨WebSocketFrame.OPCODE_TEXT, []⟩, c')) ∧
      c'.log.messages = c.log.messages ++ [.onText (s.inBuf ++ f.payload)] := by
  have hext : extended s f = ⟨WebSocketFrame.OPCODE_TEXT, s.inBuf ++ f.payload⟩ := by
    rw [extended, hop]
  have hlen : (s.inBuf ++ f.payload).length + 1 ≤ pf.maxSize := by
    rw [List.length_append]
    omega
  obtain ⟨c', hcall, hmsg⟩ := acceptFrame_callback c
    ⟨WebSocketFrame.OPCODE_TEXT, s.inBuf ++ f.payload ++ [0]⟩ (.onText (s.inBuf ++ f.payload))
    (p := fun log => handler.onText log (s.inBuf ++ f.payload)) fun log c => hq.onText log _ c
  refine ⟨c', ?_, hmsg⟩
  rw [acceptFrame_final (by omega) hfin, hext, ← hcall]
  unfold Act.tryCatch
  rw [Act.bind_apply, dispatch_text hlen hnul, Act.bind_apply]

variable (handler c) in
/-- A text message whose terminator does not fit. -/
theorem acceptFrame_text_overflow (h : s.inBuf.length + f.payload.length ≤ pf.maxSize)
    (hfin : f.fin = true) (hop : nextOpcode s f = WebSocketFrame.OPCODE_TEXT)
    (hlen : pf.maxSize < s.inBuf.length + f.payload.length + 1) :
    (acceptFrame pf .self .self handler f (s, c)).1.isRet = false ∧
      (acceptFrame pf .self .self handler f (s, c)).2.2 = c := by
  have hext : extended s f = ⟨WebSocketFrame.OPCODE_TEXT, s.inBuf ++ f.payload⟩ := by
    rw [extended, hop]
  have hover : WsBuffer.terminate pf (s.inBuf ++ f.payload) = .exn .length_error ∨
      WsBuffer.terminate pf (s.inBuf ++ f.payload) = .ub :=
    terminate_overflow (by rw [List.length_append]; omega) (by rw [List.length_append]; omega)
  have hcase : HttpWsState.dispatch pf .self .self handler
      ⟨WebSocketFrame.OPCODE_TEXT, s.inBuf ++ f.payload⟩ = (do
        let terminated ← Act.lift (WsBuffer.terminate pf (s.inBuf ++ f.payload))
        HttpWsState.modifySelf fun s => { s with inBuf := terminated }
        HttpWsState.outer (callback pf .self .self (.onText (cstr terminated)) fun log =>
          handler.onText log (cstr terminated))) := rfl
  rw [acceptFrame_final h hfin, hext, hcase]
  rcases hover with hr | hr
  · rw [hr]
    exact ⟨rfl, rfl⟩
  · rw [hr]
    exact ⟨rfl, rfl⟩

end Messages

end CppSocks.Analysis
