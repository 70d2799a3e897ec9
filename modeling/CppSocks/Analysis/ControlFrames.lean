import CppSocks.Analysis.SentStream
import CppSocks.Analysis.TextDelivery

/-!
# Control frames

A ping is answered by the payload of the pong that `createPong` builds, not by the
pong: the two bytes of the header are not sent (`ping_echoed`). A peer gets a pong only
by accident: if writes are interrupted, and the bytes that `send` repeats then happen to
be those of a pong (`ping_answered_iff`).

Control frames and data frames share the buffer and the opcode. A control frame
between two fragments is taken for the last fragment: the message is delivered with
the payload of the control frame at its end, or, where a vector has no room for it,
`onReceive` throws. It never passes unnoticed (`control_not_transparent`).
-/

set_option autoImplicit false

namespace CppSocks.Analysis

open CppSocks.Model CppSocks.Interface Foundation

/-! ## Pings -/

/-- An unmasked final pong frame with the given payload. -/
structure IsPong (payload : Bytes) (f : Frame) : Prop where
  fin : f.fin = true
  opcode : f.opcode = 10
  key : f.key = none
  payload : f.payload = payload

/-- The frame that `createPong` builds is one. -/
theorem isPong_serverFrame (payload : Bytes) (h : payload.length ≤ 65535) :
    WebSocketFrame.createPong payload = .ret ⟨(serverFrame 10 payload h).encode⟩ ∧
      IsPong payload (serverFrame 10 payload h) :=
  ⟨create_eq 10 payload h, ⟨rfl, rfl, rfl, rfl⟩⟩

/-- The ping has been answered: exactly one pong with its payload has been written, no callback has
been made, and the buffer is empty. -/
structure PingAnswered (payload : Bytes) (c : Conn) (st : HttpWsState × Conn) : Prop where
  written : ∃ f, IsPong payload f ∧ st.2.log.written = c.log.written ++ f.encode
  silent : ∃ evs, st.2.log = c.log ++ evs ∧ ∀ e ∈ evs, IsTransfer e
  cleared : st.1.inBuf = []

section Send

variable {buf : Bytes}

/-- Without an interrupted write the loop of `send` writes a beginning of what is left of the
buffer, whether it comes to its end or not. -/
theorem sendLoop_front (hbuf : buf.length < SIZE_MOD) {script : List WriteResult}
    (hscript : WriteResult.again ∉ script) (numWritten : ℕ) (hn : numWritten ≤ buf.length)
    (log : Log) :
    ∃ part, part <+: buf.drop numWritten ∧
      (Connection.sendLoop false buf script numWritten log).2.log.written =
        log.written ++ part := by
  induction script generalizing numWritten log with
  | nil =>
    by_cases hlt : numWritten < buf.length
    · refine ⟨buf.drop numWritten, ⟨[], List.append_nil _⟩, ?_⟩
      rw [sendLoop_nil hlt, written_append, written_wrote]
    · refine ⟨[], List.nil_prefix, ?_⟩
      rw [sendLoop_done (Nat.le_of_not_lt hlt), List.append_nil]
  | cons r script ih =>
    have hrest : WriteResult.again ∉ script := fun h => hscript (List.mem_cons_of_mem _ h)
    by_cases hlt : numWritten < buf.length
    · cases r with
      | accept k =>
        have hlen := length_accepted k (buf.drop numWritten)
        rw [List.length_drop] at hlen
        obtain ⟨part, hfront, hwritten⟩ := ih hrest
          (numWritten + (Connection.accepted k (buf.drop numWritten)).length) (by omega)
          (log ++ [.wrote (Connection.accepted k (buf.drop numWritten))])
        refine ⟨Connection.accepted k (buf.drop numWritten) ++ part, ?_, ?_⟩
        · have hsplit := accepted_append k (buf.drop numWritten)
          rw [List.drop_drop] at hsplit
          have happend := (List.prefix_append_right_inj
            (Connection.accepted k (buf.drop numWritten))).mpr hfront
          rwa [hsplit] at happend
        · rw [sendLoop_accept hbuf hlt, hwritten, written_append, written_wrote, List.append_assoc]
      | again => exact absurd List.mem_cons_self hscript
      | fail e =>
        refine ⟨[], List.nil_prefix, ?_⟩
        rw [Connection.sendLoop, if_pos ⟨rfl, hlt⟩, List.append_nil]
    · refine ⟨[], List.nil_prefix, ?_⟩
      rw [sendLoop_done (Nat.le_of_not_lt hlt), List.append_nil]

/-- A send without interruption writes the front of its buffer, and writes it once. -/
theorem send_front (hbuf : buf.length < SIZE_MOD) {c : Conn} (hopen : c.closed = false)
    (hscript : WriteResult.again ∉ c.script) :
    ∃ part, part <+: buf ∧ (Connection.send buf c).2.log.written = c.log.written ++ part := by
  obtain ⟨part, hfront, hwritten⟩ := sendLoop_front hbuf hscript 0 (Nat.zero_le _) c.log
  refine ⟨part, hfront, ?_⟩
  rw [Connection.send, hopen]
  exact hwritten

end Send

section Ping

variable {pf : Platform} {handler : WsHandler} {mem : Mem} {f : Frame} {k : MaskingKey}
  {s : HttpWsState} {c : Conn}

/-- A ping outside of a message: its payload is sent. -/
theorem onReceive_ping (hmem : mem.StartsWith f.encode) (hk : f.key = some k) (hfin : f.fin = true)
    (hop : f.opcode = 9) (hlen : f.payload.length ≤ 125) (hidle : s.inBuf = []) :
    HttpWsState.onReceive pf .self .self handler mem f.encode.length (s, c) =
      concluded (((Connection.send f.payload c).1.bind fun _ => .ret ()),
        (⟨WebSocketFrame.OPCODE_CONNECTION_PING, f.payload⟩,
          (Connection.send f.payload c).2)) := by
  have hmax := pf.le_maxSize
  have hfit : s.inBuf.length + f.payload.length ≤ pf.maxSize := by
    rw [hidle, List.length_nil]
    omega
  have hmessage : extended s f = ⟨WebSocketFrame.OPCODE_CONNECTION_PING, f.payload⟩ := by
    rw [extended, nextOpcode, hidle, hop]
    rfl
  have hle : f.payload.length ≤ 65535 := by omega
  rw [onReceive_frame hmem le_rfl hk, acceptFrame_concluded hfit hfin, hmessage,
    dispatch_ping_apply rfl hle]

variable (pf handler) in
/-- What the peer gets for a ping is the payload, without a header. -/
theorem ping_echoed (hmem : mem.StartsWith f.encode) (hk : f.key = some k) (hfin : f.fin = true)
    (hop : f.opcode = 9) (hlen : f.payload.length ≤ 125) (hidle : s.inBuf = [])
    (hopen : c.closed = false) (hacc : Accepts c) :
    ∃ c', HttpWsState.onReceive pf .self .self handler mem f.encode.length (s, c) =
        (.ret (), (⟨WebSocketFrame.OPCODE_CONNECTION_PING, []⟩, c')) ∧
      c'.log.written = c.log.written ++ f.payload := by
  have hsize : f.payload.length < SIZE_MOD := by
    unfold SIZE_MOD
    omega
  obtain ⟨c', hsend, _, _, hwritten⟩ := send_accepts hsize hopen hacc
  refine ⟨c', ?_, hwritten⟩
  rw [onReceive_ping hmem hk hfin hop hlen hidle, hsend]
  rfl

/-- A part of the payload is not a frame with this payload: it has no room for the header. -/
theorem not_pong_of_prefix {payload part : Bytes} {g : Frame} (hg : g.payload = payload)
    (hpart : part <+: payload) : part ≠ g.encode := by
  intro heq
  have hle := hpart.length_le
  rw [heq, encode_eq_append, List.length_append, List.length_append, Frame.body] at hle
  cases hkey : g.key with
  | none =>
    simp only [hkey, hg, List.length_cons, List.length_nil] at hle
    omega
  | some k =>
    simp only [hkey, hg, List.length_cons, List.length_nil, List.length_append,
      length_applyMask] at hle
    omega

/-- Without an interruption, the payload does not go out as a pong. -/
theorem pong_not_written {payload : Bytes} {g : Frame} (hlen : payload.length ≤ 125)
    (hopen : c.closed = false) (hscript : WriteResult.again ∉ c.script) (hg : IsPong payload g) :
    (Connection.send payload c).2.log.written ≠ c.log.written ++ g.encode := by
  intro hwritten
  have hsize : payload.length < SIZE_MOD := by
    unfold SIZE_MOD
    omega
  obtain ⟨part, hpart, hsent⟩ := send_front hsize hopen hscript
  rw [hsent, List.append_cancel_left_eq] at hwritten
  exact not_pong_of_prefix hg.payload hpart hwritten

/-- The socket interrupts writes of the bare payload, and the bytes that `send` repeats behind an
interruption are, by accident, those of a pong. -/
structure RepeatsPong (payload : Bytes) (c : Conn) : Prop where
  interrupted : WriteResult.again ∈ c.script
  returns : ∃ n, (Connection.send payload c).1 = .ret n
  spells : ∃ g, IsPong payload g ∧
    (Connection.send payload c).2.log.written = c.log.written ++ g.encode

variable (pf handler) in
/-- A ping is answered if and only if the bare payload happens to go out as a pong: whatever its
payload and its key, the handler, the opcode of the last message and the outcomes of the writes. -/
theorem ping_answered_iff (hmem : mem.StartsWith f.encode) (hkey : f.key.isSome)
    (hfin : f.fin = true) (hop : f.opcode = 9) (hlen : f.payload.length ≤ 125)
    (hidle : s.inBuf = []) (hopen : c.closed = false) :
    PingAnswered f.payload c
        (HttpWsState.onReceive pf .self .self handler mem f.encode.length (s, c)).2 ↔
      RepeatsPong f.payload c := by
  obtain ⟨k, hk⟩ := Option.isSome_iff_exists.mp hkey
  rw [onReceive_ping hmem hk hfin hop hlen hidle]
  constructor
  · intro hans
    obtain ⟨g, hg, hwritten⟩ := hans.written
    rw [concluded_conn] at hwritten
    refine ⟨?_, ?_, g, hg, hwritten⟩
    · by_contra hscript
      exact pong_not_written hlen hopen hscript hg hwritten
    · -- if `send` does not return, the payload is left in the buffer
      have hleft : (¬ ∃ n, (Connection.send f.payload c).1 = .ret n) → f.payload = [] := by
        intro hnot
        have hcleared := hans.cleared
        cases hsend : (Connection.send f.payload c).1 with
        | ret n => exact absurd ⟨n, hsend⟩ hnot
        | exn e =>
          rw [hsend] at hcleared
          exact hcleared
        | ub =>
          rw [hsend] at hcleared
          exact hcleared
      by_contra hnot
      refine hnot ⟨0, ?_⟩
      rw [hleft hnot, send_nil]
  · rintro ⟨-, ⟨n, hret⟩, g, hg, hwritten⟩
    rw [hret]
    refine ⟨⟨g, hg, hwritten⟩, ?_, rfl⟩
    obtain ⟨evs, hext, -⟩ := send_extends f.payload c
    exact ⟨evs, hext.log_eq, hext.isTransfer⟩

end Ping

/-- A masked final frame. -/
def finalFrame (opcode : Fin 16) (payload : Bytes) (h : payload.length < 126) : Frame where
  fin := true
  rsv := 0
  opcode := opcode
  key := some ⟨1, 2, 3, 4⟩
  form := .bits7
  payload := payload
  fits := h

/-- A payload that begins like its own pong. -/
def pongLike : Bytes := [0x8A, 0x03, 0x58]

/-- The sample payload fits into a control frame. -/
theorem pongLike_fits : pongLike.length < 126 := by decide

/-- The socket takes two bytes and then interrupts two writes, so the two bytes are sent again. -/
def repeating : Conn := Conn.init [.accept 1, .again, .again]

/-- The bytes 8A 03 58 behind a repetition of the first two. -/
theorem ping_answered_iff_repeated :
    PingAnswered pongLike repeating (HttpWsState.onReceive .plain .self .self WsHandlerNull
        (Mem.ofBytes (finalFrame 9 pongLike pongLike_fits).encode)
        (finalFrame 9 pongLike pongLike_fits).encode.length (HttpWsState.init, repeating)).2 ↔
      RepeatsPong pongLike repeating :=
  ping_answered_iff .plain WsHandlerNull (f := finalFrame 9 pongLike pongLike_fits)
    (Mem.ofBytes_startsWith _) rfl rfl rfl (by decide) rfl rfl

/-- The answer to the ping "Hi" is the two bytes "Hi", not the pong 8A 02 48 69. -/
theorem ping_answer_without_header :
    (HttpWsState.onReceive .plain .self .self WsHandlerNull
        (Mem.ofBytes (finalFrame 9 [0x48, 0x69] (by decide)).encode)
        (finalFrame 9 [0x48, 0x69] (by decide)).encode.length
        (HttpWsState.init, Conn.init [])).2.2.log.written = [0x48, 0x69] ∧
      ¬ PingAnswered [0x48, 0x69] (Conn.init [])
        (HttpWsState.onReceive .plain .self .self WsHandlerNull
          (Mem.ofBytes (finalFrame 9 [0x48, 0x69] (by decide)).encode)
          (finalFrame 9 [0x48, 0x69] (by decide)).encode.length
          (HttpWsState.init, Conn.init [])).2 := by
  have hwritten : (HttpWsState.onReceive .plain .self .self WsHandlerNull
      (Mem.ofBytes (finalFrame 9 [0x48, 0x69] (by decide)).encode)
      (finalFrame 9 [0x48, 0x69] (by decide)).encode.length
      (HttpWsState.init, Conn.init [])).2.2.log.written = [0x48, 0x69] := by
    decide +kernel
  refine ⟨hwritten, fun hans => ?_⟩
  obtain ⟨g, hg, hpong⟩ := hans.written
  exact not_pong_of_prefix hg.payload ⟨[], List.append_nil _⟩ (hwritten.symm.trans hpong)

/-! ## Control frames between fragments -/

/-- The call for the frame has returned, has left the message in progress as it was and has delivered
no message; and whatever frames the message still has, what is delivered with the last of them is
what would have been delivered without the frame. -/
structure Transparent (pf : Platform) (handler : WsHandler) (s : HttpWsState) (c : Conn)
    (r : Res Exc Unit × (HttpWsState × Conn)) : Prop where
  returns : r.1 = .ret ()
  state : r.2.1 = s
  messages : r.2.2.log.messages = c.log.messages
  rest : ∀ fs, (∀ f ∈ fs, f.key.isSome) → FinLast fs →
    (acceptAll pf handler fs r.2).2.2.log.messages =
      (acceptAll pf handler fs (s, c)).2.2.log.messages

section Between

variable {pf : Platform} {handler : WsHandler} {mem : Mem} {f : Frame} {k : MaskingKey}
  {s : HttpWsState} {c : Conn}

/-- A call that does nothing is transparent. -/
example : Transparent pf handler s c (.ret (), (s, c)) := ⟨rfl, rfl, rfl, fun _ _ _ => rfl⟩

/-- Behind a fragment, the opcode of a frame is not looked at. -/
theorem nextOpcode_middle (hmiddle : s.inBuf ≠ []) : nextOpcode s f = s.opcode := by
  have hnonempty : ¬ (s.inBuf.length == 0) = true := by
    rw [beq_iff_eq, List.length_eq_zero_iff]
    exact hmiddle
  rw [nextOpcode, if_neg hnonempty]

/-- Behind a fragment, any frame is taken for the next fragment. -/
theorem extended_middle (hmiddle : s.inBuf ≠ []) :
    extended s f = ⟨s.opcode, s.inBuf ++ f.payload⟩ := by
  rw [extended, nextOpcode_middle hmiddle]

/-- A final frame between two fragments has the message delivered, if there is room. -/
theorem between_delivers (hmiddle : s.inBuf ≠ []) (text : Bool) (hs : s.opcode = messageOpcode text)
    (hfin : f.fin = true) (hfit : s.inBuf.length + f.payload.length ≤ pf.maxSize)
    (hroom : roomFor text (s.inBuf ++ f.payload) ≤ pf.maxSize) :
    (acceptFrame pf .self .self handler f (s, c)).2.2.log.messages = c.log.messages ++
      [messageEvent text (handedOver text (s.inBuf ++ f.payload))] := by
  rw [acceptFrame_concluded hfit hfin, concluded_conn, extended_middle hmiddle]
  exact dispatch_messages text hs hroom

/-- A control frame that delivers a message is not transparent. -/
theorem not_transparent_of_delivers {r : Res Exc Unit × (HttpWsState × Conn)} {e : Event}
    (h : r.2.2.log.messages = c.log.messages ++ [e]) : ¬ Transparent pf handler s c r := by
  intro htransparent
  have hlen := congrArg List.length (htransparent.messages.symm.trans h)
  rw [List.length_append, List.length_singleton] at hlen
  omega

/-- A control frame on which `onReceive` does not return is not transparent. -/
theorem not_transparent_of_not_ret {r : Res Exc Unit × (HttpWsState × Conn)}
    (h : r.1.isRet = false) : ¬ Transparent pf handler s c r := by
  intro htransparent
  rw [htransparent.returns] at h
  cases h

variable (handler c) in
/-- In the middle of a text, if the payload fits: the message is delivered, or there is no room for
its terminator. -/
theorem text_not_transparent (hmiddle : s.inBuf ≠ [])
    (htext : s.opcode = WebSocketFrame.OPCODE_TEXT) (hfin : f.fin = true)
    (hfit : s.inBuf.length + f.payload.length ≤ pf.maxSize) :
    ¬ Transparent pf handler s c (acceptFrame pf .self .self handler f (s, c)) := by
  by_cases hroom : roomFor true (s.inBuf ++ f.payload) ≤ pf.maxSize
  · exact not_transparent_of_delivers (between_delivers hmiddle true htext hfin hfit hroom)
  · have hno : pf.maxSize < (s.inBuf ++ f.payload).length + 1 := Nat.lt_of_not_le hroom
    rw [List.length_append] at hno
    have hop : nextOpcode s f = WebSocketFrame.OPCODE_TEXT := (nextOpcode_middle hmiddle).trans htext
    exact not_transparent_of_not_ret (acceptFrame_text_overflow handler c hfit hfin hop hno).1

variable (handler c) in
/-- In the middle of a binary message, if the payload fits: the message is delivered. -/
theorem binary_not_transparent (hmiddle : s.inBuf ≠ [])
    (hbinary : s.opcode = WebSocketFrame.OPCODE_BINARY) (hfin : f.fin = true)
    (hfit : s.inBuf.length + f.payload.length ≤ pf.maxSize) :
    ¬ Transparent pf handler s c (acceptFrame pf .self .self handler f (s, c)) := by
  have hroom : roomFor false (s.inBuf ++ f.payload) ≤ pf.maxSize := by
    rw [← List.length_append] at hfit
    exact hfit
  exact not_transparent_of_delivers (between_delivers hmiddle false hbinary hfin hfit hroom)

variable (handler c) in
/-- In the middle of a text or binary message, no complete masked final frame of any opcode, a ping or
pong among them, is transparent. -/
theorem control_not_transparent (hmem : mem.StartsWith f.encode) (hkey : f.key.isSome)
    (hfin : f.fin = true) (hmiddle : s.inBuf ≠ [])
    (hs : s.opcode = WebSocketFrame.OPCODE_TEXT ∨ s.opcode = WebSocketFrame.OPCODE_BINARY)
    (hbuf : s.inBuf.length ≤ pf.maxSize) :
    ¬ Transparent pf handler s c
      (HttpWsState.onReceive pf .self .self handler mem f.encode.length (s, c)) := by
  obtain ⟨k, hk⟩ := Option.isSome_iff_exists.mp hkey
  rw [onReceive_frame hmem le_rfl hk]
  by_cases hfit : s.inBuf.length + f.payload.length ≤ pf.maxSize
  · obtain htext | hbinary := hs
    · exact text_not_transparent handler c hmiddle htext hfin hfit
    · exact binary_not_transparent handler c hmiddle hbinary hfin hfit
  · have hover : pf.maxSize < s.inBuf.length + f.payload.length := Nat.lt_of_not_le hfit
    apply not_transparent_of_not_ret
    obtain hr | hr := acceptFrame_overflow .self .self handler c hbuf hover
    · rw [hr]
      rfl
    · rw [hr]
      rfl

end Between

/-- A fragment "a" of a text message has been received. -/
def halfText : HttpWsState := ⟨WebSocketFrame.OPCODE_TEXT, [0x61]⟩

/-- The ping "Hi" behind the fragment "a". -/
theorem control_not_transparent_hi :
    ¬ Transparent .plain WsHandlerNull halfText (Conn.init [])
      (HttpWsState.onReceive .plain .self .self WsHandlerNull
        (Mem.ofBytes (finalFrame 9 [0x48, 0x69] (by decide)).encode)
        (finalFrame 9 [0x48, 0x69] (by decide)).encode.length (halfText, Conn.init [])) :=
  control_not_transparent WsHandlerNull (Conn.init [])
    (f := finalFrame 9 [0x48, 0x69] (by decide)) (Mem.ofBytes_startsWith _) rfl rfl (by decide)
    (Or.inl rfl) (by decide)

/-- The ping "Hi" behind the fragment "a": the handler gets the text "aHi". -/
theorem ping_ends_message :
    HttpWsState.onReceive .plain .self .self WsHandlerNull
        (Mem.ofBytes (finalFrame 9 [0x48, 0x69] (by decide)).encode)
        (finalFrame 9 [0x48, 0x69] (by decide)).encode.length (halfText, Conn.init []) =
        (.ret (), (⟨WebSocketFrame.OPCODE_TEXT, []⟩,
          ⟨false, [], [.onText [0x61, 0x48, 0x69]]⟩)) ∧
      ¬ Transparent .plain WsHandlerNull halfText (Conn.init [])
        (.ret (), (⟨WebSocketFrame.OPCODE_TEXT, []⟩,
          ⟨false, [], [.onText [0x61, 0x48, 0x69]]⟩)) := by
  refine ⟨by decide +kernel, fun h => ?_⟩
  exact absurd h.messages (by decide)

end CppSocks.Analysis
