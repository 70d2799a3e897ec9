import CppSocks.Analysis.MalformedChunks
import CppSocks.Analysis.TextDelivery

/-!
# Errors that leak into the next message

`onReceive` catches `std::invalid_argument` wherever it comes from. Raised by the
decoder, it leaves everything as it was; raised by the handler or by a reply, it finds
the buffer extended already, and the `clear` behind the `switch` is skipped. The next
message then begins with what is left of the one before.

`eachChunk_keptApart_iff` says, for every run, when no message leaks: exactly when none
that the loop completes is refused in this way (`MessageRefused`), an empty one that is not a
text apart.
-/

set_option autoImplicit false

namespace CppSocks.Analysis

open CppSocks.Model CppSocks.Interface Foundation

/-- The call ends with an exception that `onReceive` catches. -/
def Absorbed {α : Type} : Res Exc α → Prop
  | .exn e => e.isInvalidArgument = true
  | _ => False

/-- What is absorbed has been caught. -/
theorem Absorbed.caught {α : Type} {r : Res Exc α} (h : Absorbed r) : Caught r := by
  cases r with
  | ret a => trivial
  | exn e => exact h
  | ub => exact h

/-- Acting on a message ends with a `std::invalid_argument`: the write of a reply or the callback
raises it, or the payload of a ping is too long for a pong. -/
def MessageRefused (pf : Platform) (handler : WsHandler) (m : HttpWsState) (c : Conn) : Prop :=
  (m.opcode = WebSocketFrame.OPCODE_CONNECTION_CLOSE ∧
    Absorbed (WsConnection.close.run pf c).1) ∨
  (m.opcode = WebSocketFrame.OPCODE_CONNECTION_PING ∧
    (65535 < m.inBuf.length ∨ Absorbed (Connection.send m.inBuf c).1)) ∨
  (m.opcode = WebSocketFrame.OPCODE_BINARY ∧
    Absorbed (callback pf .self .self (.onData m.inBuf)
      (fun log => handler.onData log m.inBuf) c).1) ∨
  (m.opcode = WebSocketFrame.OPCODE_TEXT ∧ m.inBuf.length + 1 ≤ pf.maxSize ∧
    Absorbed (callback pf .self .self (.onText (cstr m.inBuf))
      (fun log => handler.onText log (cstr m.inBuf)) c).1)

/-- What one would like of a chunk that is a complete masked frame, or that cannot be decoded: if the
call returns, the buffer holds what was there before and the payload, nothing once the message is
complete, and what was there before if there was no frame. -/
def KeptApart (pf : Platform) (mem : Mem) (bytes : Bytes) (s : HttpWsState)
    (r : Res Exc Unit × (HttpWsState × Conn)) : Prop :=
  r.1 = .ret () →
    (∀ f : Frame, f.key.isSome → bytes = f.encode →
      r.2.1.inBuf = if f.fin then [] else s.inBuf ++ f.payload) ∧
    ((∀ d, WebSocketFrame.decode pf mem bytes.length s.inBuf ≠ .ret d) → r.2.1.inBuf = s.inBuf)

/-- The condition: the message that the chunk completes is not refused, or it is empty and not a
text. -/
def NotRefused (pf : Platform) (handler : WsHandler) (bytes : Bytes) (s : HttpWsState) (c : Conn) :
    Prop :=
  ∀ f : Frame, f.key.isSome → bytes = f.encode → f.fin = true →
    s.inBuf.length + f.payload.length ≤ pf.maxSize → MessageRefused pf handler (extended s f) c →
    (extended s f).inBuf = [] ∧ (extended s f).opcode ≠ WebSocketFrame.OPCODE_TEXT

/-! ## One message -/

section Message

variable {pf : Platform} {handler : WsHandler} {m st : HttpWsState} {c : Conn}

/-- The condition for each opcode. -/
theorem refused_close_iff (hop : m.opcode = WebSocketFrame.OPCODE_CONNECTION_CLOSE) :
    MessageRefused pf handler m c ↔ Absorbed (WsConnection.close.run pf c).1 := by
  simp [MessageRefused, hop, WebSocketFrame.OPCODE_CONNECTION_CLOSE,
    WebSocketFrame.OPCODE_CONNECTION_PING, WebSocketFrame.OPCODE_BINARY, WebSocketFrame.OPCODE_TEXT]

/-- A ping is refused when its pong is too long for a frame, or when sending it raises what
`onReceive` catches. -/
theorem refused_ping_iff (hop : m.opcode = WebSocketFrame.OPCODE_CONNECTION_PING) :
    MessageRefused pf handler m c ↔
      65535 < m.inBuf.length ∨ Absorbed (Connection.send m.inBuf c).1 := by
  simp [MessageRefused, hop, WebSocketFrame.OPCODE_CONNECTION_CLOSE,
    WebSocketFrame.OPCODE_CONNECTION_PING, WebSocketFrame.OPCODE_BINARY, WebSocketFrame.OPCODE_TEXT]

/-- A binary message is refused when its callback throws what `onReceive` catches. -/
theorem refused_binary_iff (hop : m.opcode = WebSocketFrame.OPCODE_BINARY) :
    MessageRefused pf handler m c ↔ Absorbed (callback pf .self .self (.onData m.inBuf)
      (fun log => handler.onData log m.inBuf) c).1 := by
  simp [MessageRefused, hop, WebSocketFrame.OPCODE_CONNECTION_CLOSE,
    WebSocketFrame.OPCODE_CONNECTION_PING, WebSocketFrame.OPCODE_BINARY, WebSocketFrame.OPCODE_TEXT]

/-- A text is refused when its callback throws what `onReceive` catches; without room for the NUL
the callback is not reached. -/
theorem refused_text_iff (hop : m.opcode = WebSocketFrame.OPCODE_TEXT) :
    MessageRefused pf handler m c ↔ m.inBuf.length + 1 ≤ pf.maxSize ∧
      Absorbed (callback pf .self .self (.onText (cstr m.inBuf))
        (fun log => handler.onText log (cstr m.inBuf)) c).1 := by
  simp [MessageRefused, hop, WebSocketFrame.OPCODE_CONNECTION_CLOSE,
    WebSocketFrame.OPCODE_CONNECTION_PING, WebSocketFrame.OPCODE_BINARY, WebSocketFrame.OPCODE_TEXT]

/-- The other opcodes: the code throws something else, or does nothing. -/
theorem not_refused_other (hop : m.opcode = WebSocketFrame.OPCODE_CONTINUATION ∨ Ignored m.opcode) :
    ¬ MessageRefused pf handler m c := by
  obtain hop | ⟨_, h8, h9, h2, h1⟩ := hop
  · simp [MessageRefused, hop, WebSocketFrame.OPCODE_CONTINUATION,
      WebSocketFrame.OPCODE_CONNECTION_CLOSE, WebSocketFrame.OPCODE_CONNECTION_PING,
      WebSocketFrame.OPCODE_BINARY, WebSocketFrame.OPCODE_TEXT]
  · simp only [MessageRefused, h8, h9, h2, h1, false_and, or_self, not_false_eq_true]

/-- When acting on a message ends with a `std::invalid_argument`. -/
theorem dispatch_absorbed_iff (hbuf : m.inBuf.length ≤ pf.maxSize) (st : HttpWsState) :
    Absorbed (HttpWsState.dispatch pf .self .self handler m (st, c)).1 ↔
      MessageRefused pf handler m c := by
  obtain hop | hop | hop | hop | hop | hop := opcode_cases m.opcode
  · rw [dispatch_continuation hop]
    exact iff_of_false Bool.false_ne_true (not_refused_other (Or.inl hop))
  · rw [dispatch_close hop, refused_close_iff hop]
    exact Iff.rfl
  · rw [refused_ping_iff hop]
    by_cases hlen : m.inBuf.length ≤ 65535
    · simp only [dispatch_ping_apply hop hlen, Nat.not_lt_of_le hlen, false_or]
      cases (Connection.send m.inBuf c).1 <;> exact Iff.rfl
    · rw [dispatch_ping_long hop (Nat.lt_of_not_le hlen)]
      exact iff_of_true rfl (Or.inl (Nat.lt_of_not_le hlen))
  · rw [dispatch_binary hop, refused_binary_iff hop]
    exact Iff.rfl
  · rw [refused_text_iff hop]
    by_cases hfit : m.inBuf.length + 1 ≤ pf.maxSize
    · rw [dispatch_text_eq hop, terminate_of_fits hfit, Act.bind_of_ret (Act.lift_apply _ _),
        cstr_append_zero, and_iff_right hfit]
      exact Iff.rfl
    · obtain ⟨hstop, _⟩ :=
        dispatch_unterminated .self .self handler st c hop hbuf (Nat.lt_of_not_le hfit)
      exact iff_of_false (fun habs => hstop habs.caught) fun href => hfit href.1
  · rw [dispatch_ignored hop]
    exact iff_of_false id (not_refused_other (Or.inr hop))

/-- Acting on a message leaves it in the buffer, a text with its terminator. -/
theorem dispatch_inBuf (hbuf : m.inBuf.length ≤ pf.maxSize) :
    (HttpWsState.dispatch pf .self .self handler m (m, c)).2.1.inBuf =
      m.inBuf ++ if m.opcode = WebSocketFrame.OPCODE_TEXT ∧ m.inBuf.length + 1 ≤ pf.maxSize then [0]
        else [] := by
  obtain hop | hop | hop | hop | hop | hop := opcode_cases m.opcode
  · rw [dispatch_continuation hop, if_neg (other_opcode hop (by decide) ·.1), List.append_nil]
    rfl
  · rw [dispatch_close hop, if_neg (other_opcode hop (by decide) ·.1), List.append_nil]
    rfl
  · rw [if_neg (other_opcode hop (by decide) ·.1), List.append_nil]
    by_cases hlen : m.inBuf.length ≤ 65535
    · rw [dispatch_ping_apply hop hlen]
    · rw [dispatch_ping_long hop (Nat.lt_of_not_le hlen)]
      rfl
  · rw [dispatch_binary hop, if_neg (other_opcode hop (by decide) ·.1), List.append_nil]
    rfl
  · by_cases hfit : m.inBuf.length + 1 ≤ pf.maxSize
    · rw [dispatch_text_eq hop, terminate_of_fits hfit, Act.bind_of_ret (Act.lift_apply _ _),
        if_pos ⟨hop, hfit⟩]
      rfl
    · obtain ⟨_, hsame⟩ :=
        dispatch_unterminated .self .self handler m c hop hbuf (Nat.lt_of_not_le hfit)
      rw [hsame, if_neg (hfit ·.2), List.append_nil]
  · rw [dispatch_ignored hop, if_neg (hop.2.2.2.2 ·.1), List.append_nil]
    rfl

end Message

/-! ## One chunk -/

section Chunk

variable {pf : Platform} {handler : WsHandler} {mem : Mem} {bytes : Bytes} {s : HttpWsState}
  {c : Conn}

/-- What is caught leaves the state as it is, and the call returns. -/
theorem concluded_absorbed {σ : Type} {x : Res Exc Unit × (HttpWsState × σ)} (h : Absorbed x.1) :
    concluded x = (.ret (), x.2) := by
  rcases x with ⟨r, m, t⟩
  cases r with
  | ret u => exact absurd h id
  | exn e =>
    have he : e.isInvalidArgument = true := h
    simp only [concluded, he, if_true]
  | ub => exact absurd h id

/-- A call that returns although nothing was caught has cleared the buffer. -/
theorem concluded_cleared {σ : Type} {x : Res Exc Unit × (HttpWsState × σ)} (h : ¬ Absorbed x.1)
    (hret : (concluded x).1 = .ret ()) : (concluded x).2.1.inBuf = [] := by
  rcases x with ⟨r, m, t⟩
  cases r with
  | ret u => rfl
  | exn e =>
    have he : e.isInvalidArgument = false := Bool.eq_false_iff.mpr h
    simp [concluded, he] at hret
  | ub => cases hret

/-- A chunk that cannot be decoded changes nothing. -/
theorem onReceive_undecodable {len : ℕ}
    (h : ∀ d, WebSocketFrame.decode pf mem len s.inBuf ≠ .ret d) :
    (HttpWsState.onReceive pf .self .self handler mem len (s, c)).2 = (s, c) := by
  rw [(onReceive_snd (s, c)).1, HttpWsState.receiveFrame,
    Act.bind_of_ret (Act.gets_apply _ (s, c))]
  cases hd : WebSocketFrame.decode pf mem len s.inBuf with
  | ret d => exact absurd hd (h d)
  | exn e => rw [Act.bind_of_exn (Act.lift_apply _ _)]
  | ub => rw [Act.bind_of_ub (Act.lift_apply _ _)]

/-- A refused message stays in the buffer, so it has to be empty and not a text. -/
theorem notRefused_of_keptApart (hmem : mem.StartsWith bytes)
    (h : KeptApart pf mem bytes s
      (HttpWsState.onReceive pf .self .self handler mem bytes.length (s, c))) :
    NotRefused pf handler bytes s c := by
  rintro f hkey rfl hfin hfit href
  obtain ⟨k, hk⟩ := Option.isSome_iff_exists.mp hkey
  have hlen : (extended s f).inBuf.length ≤ pf.maxSize := (length_extended s f).trans_le hfit
  have habs := (dispatch_absorbed_iff hlen (extended s f)).mpr href
  rw [onReceive_frame hmem le_rfl hk, acceptFrame_concluded hfit hfin, concluded_absorbed habs] at h
  have hempty := (h rfl).1 f hkey rfl
  rw [hfin, if_pos rfl, dispatch_inBuf hlen] at hempty
  obtain ⟨hnil, hterm⟩ := List.append_eq_nil_iff.mp hempty
  refine ⟨hnil, fun htext => ?_⟩
  have hroom := ((refused_text_iff htext).mp href).1
  rw [if_pos ⟨htext, hroom⟩] at hterm
  cases hterm

/-- A frame extends the buffer, or empties it if its message is not refused. -/
theorem inBuf_acceptFrame {f : Frame} (hbuf : s.inBuf.length ≤ pf.maxSize)
    (hnot : f.fin = true → s.inBuf.length + f.payload.length ≤ pf.maxSize →
      MessageRefused pf handler (extended s f) c →
      (extended s f).inBuf = [] ∧ (extended s f).opcode ≠ WebSocketFrame.OPCODE_TEXT)
    (hret : (acceptFrame pf .self .self handler f (s, c)).1 = .ret ()) :
    (acceptFrame pf .self .self handler f (s, c)).2.1.inBuf =
      if f.fin then [] else s.inBuf ++ f.payload := by
  by_cases hfit : s.inBuf.length + f.payload.length ≤ pf.maxSize
  · have hlen : (extended s f).inBuf.length ≤ pf.maxSize := (length_extended s f).trans_le hfit
    cases hfin : f.fin with
    | false =>
      rw [acceptFrame_continues hfit hfin]
      rfl
    | true =>
      rw [acceptFrame_concluded hfit hfin] at hret ⊢
      by_cases habs : Absorbed (HttpWsState.dispatch pf .self .self handler (extended s f)
          (extended s f, c)).1
      · have href := (dispatch_absorbed_iff hlen (extended s f)).mp habs
        obtain ⟨hnil, hnotText⟩ := hnot hfin hfit href
        rw [concluded_absorbed habs, dispatch_inBuf hlen, hnil, if_neg (hnotText ·.1)]
        rfl
      · exact concluded_cleared habs hret
  · -- the payload does not fit: the call does not return
    obtain hr | hr := acceptFrame_overflow .self .self handler c hbuf (Nat.lt_of_not_le hfit)
    · rw [hr] at hret
      cases hret
    · rw [hr] at hret
      cases hret

/-- Nothing leaks from a chunk if and only if the message that it completes is not refused. -/
theorem keptApart_iff (hmem : mem.StartsWith bytes) (hbuf : s.inBuf.length ≤ pf.maxSize) :
    KeptApart pf mem bytes s
        (HttpWsState.onReceive pf .self .self handler mem bytes.length (s, c)) ↔
      NotRefused pf handler bytes s c := by
  constructor
  · exact notRefused_of_keptApart hmem
  · intro hnot hret
    refine ⟨?_, fun hund => by rw [onReceive_undecodable hund]⟩
    rintro f hkey rfl
    obtain ⟨k, hk⟩ := Option.isSome_iff_exists.mp hkey
    rw [onReceive_frame hmem le_rfl hk] at hret ⊢
    exact inBuf_acceptFrame hbuf (hnot f hkey rfl) hret

end Chunk

/-! ## Runs -/

/-- Nothing leaks from the chunk of the pass. -/
def KeptApartPass (pf : Platform) (handler : WsHandler) :
    LoopEvent → ClientWorker (HttpWsState × Conn) → Prop
  | .data chunk, w =>
    let mem := ClientWorker.bufMem pf (ClientWorker.fill w.buf chunk)
    KeptApart pf mem chunk.bytes w.handler.1
      ((wsServerHandler pf handler).onReceive mem chunk.bytes.length w.handler)
  | _, _ => True

/-- The message that the chunk of the pass completes is not refused. -/
def NotRefusedPass (pf : Platform) (handler : WsHandler) :
    LoopEvent → ClientWorker (HttpWsState × Conn) → Prop
  | .data chunk, w => NotRefused pf handler chunk.bytes w.handler.1 w.handler.2
  | _, _ => True

/-- In every run, from any reassembly state whose buffer a vector can hold and with any handler:
nothing leaks from any chunk that the loop delivers if and only if no message is refused. -/
theorem eachChunk_keptApart_iff (pf : Platform) (handler : WsHandler) (events : List LoopEvent)
    (w : ClientWorker (HttpWsState × Conn)) (hw : w.handler.1.inBuf.length ≤ pf.maxSize) :
    Along pf (wsServerHandler pf handler) (KeptApartPass pf handler) events w ↔
      Along pf (wsServerHandler pf handler) (NotRefusedPass pf handler) events w := by
  refine along_congr (I := fun w => w.handler.1.inBuf.length ≤ pf.maxSize)
    (fun _ _ _ hw _ hnext => inBuf_le_nextPass hw hnext) ?_ events hw
  intro event w hw _
  cases event with
  | data chunk =>
    have hbegin : (ClientWorker.bufMem pf (ClientWorker.fill w.buf chunk)).StartsWith chunk.bytes :=
      ClientWorker.bufMem_fill_startsWith pf w.buf (List.append_nil _).symm
    exact keptApart_iff hbegin hw
  | notReadable => exact Iff.rfl
  | again => exact Iff.rfl
  | eof => exact Iff.rfl
  | pollFails e => exact Iff.rfl
  | readFails e => exact Iff.rfl

/-- A run over two text frames. -/
theorem eachChunk_keptApart_iff_text :
    Along .plain (wsServerHandler .plain WsHandlerNull) (KeptApartPass .plain WsHandlerNull)
        (twoChunks.map .data) freshWorker ↔
      Along .plain (wsServerHandler .plain WsHandlerNull) (NotRefusedPass .plain WsHandlerNull)
        (twoChunks.map .data) freshWorker :=
  eachChunk_keptApart_iff .plain WsHandlerNull _ freshWorker (Nat.zero_le _)

/-- A handler that refuses the text "a" as `WsConnection::send` refuses a payload that is too long. -/
def refusingHandler : WsHandler where
  onConnect := fun _ => .ret ()
  onData := fun _ _ => .ret ()
  onText := fun _ text =>
    if text = [0x61] then
      .throw (.invalid_argument "Payload length > UINT16_MAX currently not supported.")
    else .ret ()
  onDisconnect := fun _ => .ret ()
  subprotocol := fun _ => .ret []

/-- The text "a" is refused: it stays in the buffer with its terminator, and hides the text "b" that
is sent next. -/
theorem refused_text_leaks :
    ¬ Along .plain (wsServerHandler .plain refusingHandler) (KeptApartPass .plain refusingHandler)
        (twoChunks.map .data) freshWorker ∧
      (feedChunks .plain refusingHandler twoChunks freshWorker).2.handler.2.log.messages =
        [.onText [0x61], .onText [0x61]] := by
  have hrun : (feedChunks .plain refusingHandler twoChunks freshWorker).2.handler.2.log.messages =
      [.onText [0x61], .onText [0x61]] := by
    decide +kernel
  refine ⟨fun halong => ?_, hrun⟩
  have hkept := (halong rfl).1
  have hleft := (hkept (by decide +kernel)).1 (textFrame 0x61) rfl rfl
  revert hleft
  decide +kernel

end CppSocks.Analysis
