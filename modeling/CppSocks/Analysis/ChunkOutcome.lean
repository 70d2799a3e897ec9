import CppSocks.Analysis.FrameAccept
import CppSocks.Analysis.FrameEncode
import CppSocks.Analysis.FrameRead
import CppSocks.Model.ClientWorker

/-!
# When `onReceive` returns

`HttpWsState::onReceive` catches `std::invalid_argument` and nothing else. For an
arbitrary chunk, in an arbitrary reassembly state and with an arbitrary handler,
`onReceive_returns_iff` says when the call returns: the chunk is too short for a
header, or the announced frame can be read and stored, and, if it completes a
message, acting on the message raises nothing else (`Answered`, `CallbackCaught`).
-/

set_option autoImplicit false

namespace CppSocks.Analysis

open CppSocks.Model CppSocks.Interface Foundation

/-- The call returns, or its exception is one that `onReceive` catches. -/
def Caught {α : Type} : Res Exc α → Prop
  | .ret _ => True
  | .exn e => e.isInvalidArgument = true
  | .ub => False

/-- Acting on a message raises nothing that escapes, as far as the library does it: the opcode is
not 0, the replies can be written, and the terminator of a text fits. -/
structure Answered (pf : Platform) (s : HttpWsState) (c : Conn) : Prop where
  opcode : s.opcode ≠ WebSocketFrame.OPCODE_CONTINUATION
  close : s.opcode = WebSocketFrame.OPCODE_CONNECTION_CLOSE →
    Caught (WsConnection.close.run pf c).1
  ping : s.opcode = WebSocketFrame.OPCODE_CONNECTION_PING → s.inBuf.length ≤ 65535 →
    Caught (Connection.send s.inBuf c).1
  text : s.opcode = WebSocketFrame.OPCODE_TEXT → s.inBuf.length + 1 ≤ pf.maxSize

/-- The callback that a message leads to raises nothing that escapes. -/
structure CallbackCaught (pf : Platform) (handler : WsHandler) (s : HttpWsState) (c : Conn) :
    Prop where
  onData : s.opcode = WebSocketFrame.OPCODE_BINARY →
    Caught (callback pf .self .self (.onData s.inBuf) (fun log => handler.onData log s.inBuf) c).1
  onText : s.opcode = WebSocketFrame.OPCODE_TEXT →
    Caught (callback pf .self .self (.onText (cstr (s.inBuf ++ [0])))
      (fun log => handler.onText log (cstr (s.inBuf ++ [0]))) c).1

section Dispatch

variable {σ : Type} {pf : Platform} {fsm conn : Port σ} {handler : WsHandler}

/-- If nothing behind it throws, it is the first computation that decides. -/
theorem caught_bind_ret {α β : Type} {x : Action σ α} {f : α → Action σ β} {t : σ}
    (hf : ∀ a t', Caught (f a t').1) : Caught ((x >>= f) t).1 ↔ Caught (x t).1 := by
  rw [Act.bind_apply]
  rcases x t with ⟨r, t'⟩
  cases r with
  | ret a => exact iff_of_true (hf a t') trivial
  | exn e => exact Iff.rfl
  | ub => exact Iff.rfl

/-- The five cases of the `switch` that do something, and the rest. -/
theorem dispatch_continuation {s : HttpWsState} (h : s.opcode = WebSocketFrame.OPCODE_CONTINUATION) :
    HttpWsState.dispatch pf fsm conn handler s =
      Act.throw (.runtime_error "WebSocket opcode must not be 0 when FIN bit is set.") := by
  rw [HttpWsState.dispatch, if_pos h]

/-- A close frame is answered by one, and the connection is closed. -/
theorem dispatch_close {s : HttpWsState} (h : s.opcode = WebSocketFrame.OPCODE_CONNECTION_CLOSE) :
    HttpWsState.dispatch pf fsm conn handler s =
      HttpWsState.outer (conn.run (WsConnection.close.run pf)) := by
  rw [HttpWsState.dispatch, if_neg (by rw [h]; decide), if_pos h]

/-- The payload of a ping is sent back, without the header of the pong. -/
theorem dispatch_ping {s : HttpWsState} (h : s.opcode = WebSocketFrame.OPCODE_CONNECTION_PING)
    (hlen : s.inBuf.length ≤ 65535) :
    HttpWsState.dispatch pf fsm conn handler s = (do
      let _ ← HttpWsState.outer (fsm.run (Connection.send s.inBuf))
      pure ()) := by
  have hpong : WebSocketFrame.createPong s.inBuf =
      .ret ⟨(serverFrame 10 s.inBuf hlen).encode⟩ := create_eq 10 s.inBuf hlen
  rw [HttpWsState.dispatch, if_neg (by rw [h]; decide), if_neg (by rw [h]; decide), if_pos h, hpong]
  funext t
  rw [Act.bind_of_ret (Act.lift_apply _ t), payload_serverFrame,
    Act.bind_of_ret (Act.lift_apply _ t)]

/-- The reply to a ping on the handler's own connection. -/
theorem dispatch_ping_apply {s : HttpWsState}
    (h : s.opcode = WebSocketFrame.OPCODE_CONNECTION_PING) (hlen : s.inBuf.length ≤ 65535)
    (st : HttpWsState) (c : Conn) :
    HttpWsState.dispatch pf .self .self handler s (st, c) =
      ((Connection.send s.inBuf c).1.bind fun _ => .ret (),
        (st, (Connection.send s.inBuf c).2)) := by
  rw [dispatch_ping h hlen]
  simp only [Act.bind_apply, HttpWsState.outer, Act.zoom, Port.self]
  rcases Connection.send s.inBuf c with ⟨r, c'⟩
  cases r <;> rfl

/-- For a payload that no frame of the library can hold, `createPong` throws. -/
theorem dispatch_ping_long {s : HttpWsState}
    (h : s.opcode = WebSocketFrame.OPCODE_CONNECTION_PING) (hlen : 65535 < s.inBuf.length) :
    HttpWsState.dispatch pf fsm conn handler s = Act.throw
      (.invalid_argument "Payload length > UINT16_MAX currently not supported.") := by
  have hpong : WebSocketFrame.createPong s.inBuf =
      .exn (.invalid_argument "Payload length > UINT16_MAX currently not supported.") :=
    create_too_long s.inBuf 10 hlen
  rw [HttpWsState.dispatch, if_neg (by rw [h]; decide), if_neg (by rw [h]; decide), if_pos h, hpong]
  funext t
  rw [Act.bind_of_exn (Act.lift_apply _ t)]
  rfl

/-- A binary message goes to `onData`. -/
theorem dispatch_binary {s : HttpWsState} (h : s.opcode = WebSocketFrame.OPCODE_BINARY) :
    HttpWsState.dispatch pf fsm conn handler s = HttpWsState.outer
      (callback pf fsm conn (.onData s.inBuf) fun log => handler.onData log s.inBuf) := by
  rw [HttpWsState.dispatch, if_neg (by rw [h]; decide), if_neg (by rw [h]; decide),
    if_neg (by rw [h]; decide), if_pos h]

/-- A text gets its NUL first, and goes to `onText` as a C string. -/
theorem dispatch_text_eq {s : HttpWsState} (h : s.opcode = WebSocketFrame.OPCODE_TEXT) :
    HttpWsState.dispatch pf fsm conn handler s = (do
      let terminated ← Act.lift (s.inBuf.terminate pf)
      HttpWsState.modifySelf fun s => { s with inBuf := terminated }
      HttpWsState.outer (callback pf fsm conn (.onText (cstr terminated)) fun log =>
        handler.onText log (cstr terminated))) := by
  rw [HttpWsState.dispatch, if_neg (by rw [h]; decide), if_neg (by rw [h]; decide),
    if_neg (by rw [h]; decide), if_neg (by rw [h]; decide), if_pos h]

variable (fsm conn handler) in
/-- A text whose terminator does not fit: there is no callback, and what ends the call is not
caught. -/
theorem dispatch_unterminated {m : HttpWsState} (st : HttpWsState) (t : σ)
    (hop : m.opcode = WebSocketFrame.OPCODE_TEXT) (hbuf : m.inBuf.length ≤ pf.maxSize)
    (hover : pf.maxSize < m.inBuf.length + 1) :
    ¬ Caught (HttpWsState.dispatch pf fsm conn handler m (st, t)).1 ∧
      (HttpWsState.dispatch pf fsm conn handler m (st, t)).2 = (st, t) := by
  rw [dispatch_text_eq hop]
  obtain hr | hr := terminate_overflow hbuf hover
  · rw [hr, Act.bind_of_exn (Act.lift_apply _ _)]
    exact ⟨Bool.false_ne_true, rfl⟩
  · rw [hr, Act.bind_of_ub (Act.lift_apply _ _)]
    exact ⟨id, rfl⟩

/-- An opcode that the code does nothing for. -/
def Ignored (opcode : OpCode) : Prop :=
  opcode ≠ WebSocketFrame.OPCODE_CONTINUATION ∧ opcode ≠ WebSocketFrame.OPCODE_CONNECTION_CLOSE ∧
    opcode ≠ WebSocketFrame.OPCODE_CONNECTION_PING ∧ opcode ≠ WebSocketFrame.OPCODE_BINARY ∧
    opcode ≠ WebSocketFrame.OPCODE_TEXT

/-- Other opcodes are passed over in silence. -/
theorem dispatch_ignored {s : HttpWsState} (h : Ignored s.opcode) :
    HttpWsState.dispatch pf fsm conn handler s = pure () := by
  obtain ⟨h0, h8, h9, h2, h1⟩ := h
  rw [HttpWsState.dispatch, if_neg h0, if_neg h8, if_neg h9, if_neg h2, if_neg h1]

/-- Case analysis over the opcode of a message. -/
theorem opcode_cases (opcode : OpCode) :
    opcode = WebSocketFrame.OPCODE_CONTINUATION ∨
      opcode = WebSocketFrame.OPCODE_CONNECTION_CLOSE ∨
      opcode = WebSocketFrame.OPCODE_CONNECTION_PING ∨ opcode = WebSocketFrame.OPCODE_BINARY ∨
      opcode = WebSocketFrame.OPCODE_TEXT ∨ Ignored opcode := by
  unfold Ignored
  by_cases h0 : opcode = WebSocketFrame.OPCODE_CONTINUATION
  · exact Or.inl h0
  · by_cases h8 : opcode = WebSocketFrame.OPCODE_CONNECTION_CLOSE
    · exact Or.inr (Or.inl h8)
    · by_cases h9 : opcode = WebSocketFrame.OPCODE_CONNECTION_PING
      · exact Or.inr (Or.inr (Or.inl h9))
      · by_cases h2 : opcode = WebSocketFrame.OPCODE_BINARY
        · exact Or.inr (Or.inr (Or.inr (Or.inl h2)))
        · by_cases h1 : opcode = WebSocketFrame.OPCODE_TEXT
          · exact Or.inr (Or.inr (Or.inr (Or.inr (Or.inl h1))))
          · exact Or.inr (Or.inr (Or.inr (Or.inr (Or.inr ⟨h0, h8, h9, h2, h1⟩))))

end Dispatch

section Outcome

variable {pf : Platform} {handler : WsHandler} {s : HttpWsState} {c : Conn}

/-- The opcodes that messages are acted on for are different. -/
theorem other_opcode {a b : OpCode} {p : Prop} (h : s.opcode = a) (hne : a ≠ b)
    (h' : s.opcode = b) : p :=
  absurd (h.symm.trans h') hne

/-- Acting on a complete message raises nothing that escapes. -/
theorem dispatch_caught_iff (hbuf : s.inBuf.length ≤ pf.maxSize) (st : HttpWsState) :
    Caught (HttpWsState.dispatch pf .self .self handler s (st, c)).1 ↔
      Answered pf s c ∧ CallbackCaught pf handler s c := by
  obtain h | h | h | h | h | h := opcode_cases s.opcode
  · rw [dispatch_continuation h]
    exact iff_of_false Bool.false_ne_true fun ha => ha.1.opcode h
  · rw [dispatch_close h]
    have hcallback : CallbackCaught pf handler s c :=
      ⟨other_opcode h (by decide), other_opcode h (by decide)⟩
    constructor
    · intro hcl
      exact ⟨⟨ne_of_eq_of_ne h (by decide), fun _ => hcl, other_opcode h (by decide),
        other_opcode h (by decide)⟩, hcallback⟩
    · intro ha
      exact ha.1.close h
  · have hcallback : CallbackCaught pf handler s c :=
      ⟨other_opcode h (by decide), other_opcode h (by decide)⟩
    have hanswered : (s.inBuf.length ≤ 65535 → Caught (Connection.send s.inBuf c).1) →
        Answered pf s c := fun hsend =>
      ⟨ne_of_eq_of_ne h (by decide), other_opcode h (by decide), fun _ => hsend,
        other_opcode h (by decide)⟩
    by_cases hlen : s.inBuf.length ≤ 65535
    · rw [dispatch_ping h hlen, caught_bind_ret (f := fun _ => pure ()) fun _ _ => trivial]
      constructor
      · intro hsend
        exact ⟨hanswered fun _ => hsend, hcallback⟩
      · intro ha
        exact ha.1.ping h hlen
    · rw [dispatch_ping_long h (by omega)]
      exact iff_of_true rfl ⟨hanswered fun hle => absurd hle hlen, hcallback⟩
  · rw [dispatch_binary h]
    constructor
    · intro hcall
      exact ⟨⟨ne_of_eq_of_ne h (by decide), other_opcode h (by decide), other_opcode h (by decide),
        other_opcode h (by decide)⟩, fun _ => hcall, other_opcode h (by decide)⟩
    · intro ha
      exact ha.2.onData h
  · by_cases hfit : s.inBuf.length + 1 ≤ pf.maxSize
    · rw [dispatch_text_eq h, terminate_of_fits hfit, Act.bind_of_ret (Act.lift_apply _ _),
        HttpWsState.modifySelf, Act.bind_of_ret (Act.modify_apply _ _)]
      constructor
      · intro hcall
        exact ⟨⟨ne_of_eq_of_ne h (by decide), other_opcode h (by decide), other_opcode h (by decide),
          fun _ => hfit⟩, other_opcode h (by decide), fun _ => hcall⟩
      · intro ha
        exact ha.2.onText h
    · obtain ⟨hstop, -⟩ :=
        dispatch_unterminated .self .self handler st c h hbuf (Nat.lt_of_not_le hfit)
      exact iff_of_false hstop fun ha => hfit (ha.1.text h)
  · rw [dispatch_ignored h]
    obtain ⟨h0, h8, h9, h2, h1⟩ := h
    exact iff_of_true trivial ⟨⟨h0, fun h => absurd h h8, fun h => absurd h h9,
      fun h => absurd h h1⟩, fun h => absurd h h2, fun h => absurd h h1⟩

end Outcome

/-! ## Chunks -/

/-- The message as far as it has been received, once a frame has been decoded. -/
def Header.message (h : Header) (mem : Mem) (s : HttpWsState) : HttpWsState :=
  ⟨if s.inBuf.length == 0 then h.opcode else s.opcode, h.extend mem s.inBuf⟩

/-- The announced frame can be read, and its payload fits. -/
structure Decodable (pf : Platform) (mem : Mem) (s : HttpWsState) (h : Header) : Prop where
  header : readHeader mem = .ret h
  readable : Readable mem h.payloadOffset h.rest
  fits : s.inBuf.length + h.frameLen ≤ pf.maxSize

/-- The chunk is too short for a header, or it is decoded, and acting on the message that it
completes raises nothing that escapes. -/
def Survives (pf : Platform) (handler : WsHandler) (mem : Mem) (len : ℕ) (s : HttpWsState)
    (c : Conn) : Prop :=
  len < 2 ∨ ∃ h, Decodable pf mem s h ∧
    (h.fin = true → Answered pf (h.message mem s) c ∧ CallbackCaught pf handler (h.message mem s) c)

/-- What is left to do once a frame has been decoded. -/
def afterFrame {σ : Type} (pf : Platform) (fsm conn : Port σ) (handler : WsHandler) (fin : Bool)
    (s : HttpWsState) : Action (HttpWsState × σ) Unit :=
  if fin then do
    HttpWsState.dispatch pf fsm conn handler s
    HttpWsState.modifySelf fun s => { s with inBuf := [] }
  else pure ()

section Chunk

variable {σ : Type} {pf : Platform} {fsm conn : Port σ} {handler : WsHandler} {mem : Mem} {len : ℕ}
  {s : HttpWsState} {t : σ} {h : Header}

/-- The `try` block returns or throws; `onReceive` has the same effect, and returns if the
exception is caught. -/
theorem onReceive_snd (st : HttpWsState × σ) :
    (HttpWsState.onReceive pf fsm conn handler mem len st).2 =
        (HttpWsState.receiveFrame pf fsm conn handler mem len st).2 ∧
      ((HttpWsState.onReceive pf fsm conn handler mem len st).1 = .ret () ↔
        Caught (HttpWsState.receiveFrame pf fsm conn handler mem len st).1) := by
  unfold HttpWsState.onReceive Act.tryCatch
  rcases HttpWsState.receiveFrame pf fsm conn handler mem len st with ⟨r, st'⟩
  cases r with
  | ret u => exact ⟨rfl, iff_of_true rfl trivial⟩
  | exn e =>
    dsimp only
    cases he : e.isInvalidArgument with
    | true =>
      rw [if_pos rfl]
      exact ⟨rfl, iff_of_true rfl he⟩
    | false =>
      rw [if_neg Bool.false_ne_true]
      exact ⟨rfl, iff_of_false (fun hr => by cases hr) (fun hc => by
        rw [Caught, he] at hc
        cases hc)⟩
  | ub => exact ⟨rfl, iff_of_false (fun hr => by cases hr) id⟩

/-- A frame that can be decoded is appended to the message in progress, and acted on if it is final.
-/
theorem receiveFrame_decodable (hlen : 2 ≤ len) (hd : Decodable pf mem s h) :
    HttpWsState.receiveFrame pf fsm conn handler mem len (s, t) =
      afterFrame pf fsm conn handler h.fin (h.message mem s) (h.message mem s, t) := by
  unfold HttpWsState.receiveFrame afterFrame
  rw [Act.bind_of_ret (Act.gets_apply _ (s, t)), decode_ret hlen hd.header hd.readable hd.fits,
    Act.bind_of_ret (Act.lift_apply _ _)]
  cases hstart : s.inBuf.length == 0 <;> cases hfin : h.fin <;>
    simp [Header.message, hstart, HttpWsState.modifySelf, Act.bind_apply]

/-- One byte is no header; the exception leaves the state as it was. -/
theorem receiveFrame_too_short (hlen : len < 2) :
    HttpWsState.receiveFrame pf fsm conn handler mem len (s, t) =
      (.exn (.invalid_argument "WebSocket header is missing."), (s, t)) := by
  unfold HttpWsState.receiveFrame
  rw [Act.bind_of_ret (Act.gets_apply _ (s, t)), WebSocketFrame.decode, if_pos hlen,
    Act.bind_of_exn (Act.lift_apply _ _)]

variable (fsm conn handler t) in
/-- A chunk whose announced frame cannot be read or stored: nothing has changed, and what ends the
call is not caught. -/
theorem receiveFrame_not_decodable (hlen : 2 ≤ len) (hbuf : s.inBuf.length ≤ pf.maxSize)
    (hd : ∀ h, ¬ Decodable pf mem s h) :
    ¬ Caught (HttpWsState.receiveFrame pf fsm conn handler mem len (s, t)).1 ∧
      (HttpWsState.receiveFrame pf fsm conn handler mem len (s, t)).2 = (s, t) := by
  have hno : ∀ h, readHeader mem = .ret h → Readable mem h.payloadOffset h.rest →
      pf.maxSize < s.inBuf.length + h.frameLen := by
    intro h hh hr
    by_contra hle
    exact hd h ⟨hh, hr, by omega⟩
  unfold HttpWsState.receiveFrame
  rw [Act.bind_of_ret (Act.gets_apply _ (s, t))]
  obtain hr | hr := decode_fails hlen hbuf hno
  · rw [hr, Act.bind_of_exn (Act.lift_apply _ _)]
    exact ⟨Bool.false_ne_true, rfl⟩
  · rw [hr, Act.bind_of_ub (Act.lift_apply _ _)]
    exact ⟨id, rfl⟩

/-- Only one header can be read. -/
theorem Decodable.unique {h' : Header} (hd : Decodable pf mem s h) (hd' : Decodable pf mem s h') :
    h' = h := by
  have := hd.header
  rw [hd'.header, Res.ret.injEq] at this
  exact this

/-- The state after the last frame of a message. -/
theorem afterFrame_fin {m m' : HttpWsState} {r : Res Exc Unit} {t' : σ}
    (hd : HttpWsState.dispatch pf fsm conn handler m (m, t) = (r, (m', t'))) :
    (afterFrame pf fsm conn handler true m (m, t)).2 =
      (if r.isRet then { m' with inBuf := [] } else m', t') := by
  rw [afterFrame, if_pos rfl, Act.bind_apply, hd]
  cases r <;> rfl

variable (fsm conn handler t)

/-- Acting on a message appends at most the terminator of a text, if it fits. -/
theorem dispatch_length_le {m : HttpWsState} (hm : m.inBuf.length ≤ pf.maxSize) :
    (HttpWsState.dispatch pf fsm conn handler m (m, t)).2.1.inBuf.length ≤ pf.maxSize := by
  obtain hop | hop | hop | hop | hop | hop := opcode_cases m.opcode
  · rw [dispatch_continuation hop]
    exact hm
  · rw [dispatch_close hop]
    exact hm
  · by_cases hlen : m.inBuf.length ≤ 65535
    · rw [dispatch_ping hop hlen]
      simp only [Act.bind_apply, HttpWsState.outer, Act.zoom]
      rcases fsm.run (Connection.send m.inBuf) t with ⟨r, t'⟩
      cases r <;> exact hm
    · rw [dispatch_ping_long hop (Nat.lt_of_not_le hlen)]
      exact hm
  · rw [dispatch_binary hop]
    exact hm
  · by_cases hfit : m.inBuf.length + 1 ≤ pf.maxSize
    · have hlen : (m.inBuf ++ [0]).length ≤ pf.maxSize := by
        rw [List.length_append]
        exact hfit
      rw [dispatch_text_eq hop, terminate_of_fits hfit, Act.bind_of_ret (Act.lift_apply _ _)]
      exact hlen
    · obtain ⟨-, hstop⟩ := dispatch_unterminated fsm conn handler m t hop hm (Nat.lt_of_not_le hfit)
      rw [hstop]
      exact hm
  · rw [dispatch_ignored hop]
    exact hm

/-- The buffer never grows beyond what a vector can hold. -/
theorem onReceive_length_le (hbuf : s.inBuf.length ≤ pf.maxSize) :
    (HttpWsState.onReceive pf fsm conn handler mem len (s, t)).2.1.inBuf.length ≤
      pf.maxSize := by
  rw [(onReceive_snd (s, t)).1]
  by_cases hlen : len < 2
  · rw [receiveFrame_too_short hlen]
    exact hbuf
  · by_cases hex : ∃ h, Decodable pf mem s h
    · obtain ⟨h, hd⟩ := hex
      have hm : (h.message mem s).inBuf.length ≤ pf.maxSize := by
        rw [Header.message, Header.length_extend]
        exact hd.fits
      rw [receiveFrame_decodable (Nat.le_of_not_lt hlen) hd]
      cases h.fin with
      | false => exact hm
      | true =>
        have hkeep := dispatch_length_le fsm conn handler t hm
        rcases hr : HttpWsState.dispatch pf fsm conn handler (h.message mem s)
          (h.message mem s, t) with ⟨r, m', t'⟩
        rw [hr] at hkeep
        rw [afterFrame_fin hr]
        cases r with
        | ret u => exact Nat.zero_le _
        | exn e => exact hkeep
        | ub => exact hkeep
    · have hlen' : 2 ≤ len := Nat.le_of_not_lt hlen
      rw [(receiveFrame_not_decodable fsm conn handler t hlen' hbuf
        (fun h hd => hex ⟨h, hd⟩)).2]
      exact hbuf

end Chunk

section Returns

variable {pf : Platform} {handler : WsHandler} {mem : Mem} {len : ℕ} {s : HttpWsState} {c : Conn}

/-- The message in progress has grown by the announced length. -/
theorem length_message (h : Header) (mem : Mem) (s : HttpWsState) :
    (h.message mem s).inBuf.length = s.inBuf.length + h.frameLen :=
  h.length_extend mem s.inBuf

/-- What happens behind the decoding is caught, or does not throw, if and only if the answer can be
made and the callback throws nothing that is not caught. -/
theorem afterFrame_caught_iff {m : HttpWsState} (fin : Bool) (hm : m.inBuf.length ≤ pf.maxSize) :
    Caught (afterFrame pf .self .self handler fin m (m, c)).1 ↔
      (fin = true → Answered pf m c ∧ CallbackCaught pf handler m c) := by
  unfold afterFrame
  cases fin with
  | false =>
    rw [if_neg Bool.false_ne_true]
    exact iff_of_true trivial fun h => Bool.noConfusion h
  | true =>
    have hclear : ∀ (u : Unit) (t : HttpWsState × Conn),
        Caught (HttpWsState.modifySelf (fun s => { s with inBuf := [] }) t).1 := fun _ _ => trivial
    rw [if_pos rfl, caught_bind_ret hclear, dispatch_caught_iff hm]
    simp only [forall_const]

/-- The call of `onReceive` returns if and only if the chunk is survived. -/
theorem onReceive_returns_iff (hbuf : s.inBuf.length ≤ pf.maxSize) :
    (HttpWsState.onReceive pf .self .self handler mem len (s, c)).1 = .ret () ↔
      Survives pf handler mem len s c := by
  rw [(onReceive_snd (s, c)).2, Survives]
  by_cases hlen : len < 2
  · rw [receiveFrame_too_short hlen]
    exact iff_of_true rfl (Or.inl hlen)
  · by_cases hex : ∃ h, Decodable pf mem s h
    · obtain ⟨h, hd⟩ := hex
      rw [receiveFrame_decodable (by omega) hd,
        afterFrame_caught_iff h.fin (by rw [length_message]; exact hd.fits)]
      constructor
      · intro hact
        exact Or.inr ⟨h, hd, hact⟩
      · rintro (hshort | ⟨h', hd', hact⟩)
        · exact absurd hshort hlen
        · rwa [hd.unique hd'] at hact
    · have hlen' : 2 ≤ len := Nat.le_of_not_lt hlen
      have hstop := receiveFrame_not_decodable .self .self handler c hlen' hbuf
        (fun h hd => hex ⟨h, hd⟩)
      refine iff_of_false hstop.1 ?_
      rintro (hshort | ⟨h, hd, _⟩)
      · exact hlen hshort
      · exact hex ⟨h, hd⟩

end Returns

end CppSocks.Analysis
