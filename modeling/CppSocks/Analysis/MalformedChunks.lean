import CppSocks.Analysis.ChunkOutcome
import CppSocks.Analysis.LoopPasses
import CppSocks.Analysis.Segmentation

/-!
# Chunks that violate the protocol

A chunk violates the protocol if its header is truncated, if the frame it
announces is longer than the chunk, or if it is a final continuation frame with
nothing to continue. `Harmless` is what one would like: `onReceive` returns, and a
chunk that violates the protocol is ignored or leads to a close of the connection.

`eachChunk_harmless_iff` says, for every run, which chunks are harmless: those
that `Withstands` describes. It leaves out every message that ends with opcode 0,
and, since the decoder does not compare the announced length with the length of
the chunk, nearly every frame that is longer than its chunk: such a frame is
decoded from what lies behind the chunk, and is harmless only where that makes no
difference (`Spared`).
-/

set_option autoImplicit false

namespace CppSocks.Analysis

open CppSocks.Model CppSocks.Interface Foundation

/-- The chunk violates the protocol in the reassembly state `s`. -/
def Violates (mem : Mem) (len : ℕ) (s : HttpWsState) : Prop :=
  len < 2 ∨ ∀ h, readHeader mem = .ret h →
    len < h.size ∨ (h.fin = true ∧ h.opcode = WebSocketFrame.OPCODE_CONTINUATION ∧ s.inBuf = [])

/-- Nothing has changed, or the connection has been closed through `WsConnection::close`. -/
def Settled (pf : Platform) (s : HttpWsState) (c : Conn) (st : HttpWsState × Conn) : Prop :=
  st = (s, c) ∨ WsConnection.close.run pf c = (.ret (), st.2)

/-- The call returns; a chunk that violates the protocol changes nothing, or has the connection
closed. -/
def Harmless (pf : Platform) (mem : Mem) (len : ℕ) (s : HttpWsState) (c : Conn)
    (r : Res Exc Unit × (HttpWsState × Conn)) : Prop :=
  r.1 = .ret () ∧ (Violates mem len s → Settled pf s c r.2)

/-- The frames that may be longer than their chunk without harm: a close frame, and frames whose
decoding leaves everything as it was. -/
inductive Spared (pf : Platform) (mem : Mem) (s : HttpWsState) (c : Conn) (h : Header) : Prop where
  | closes (hfin : h.fin = true)
      (hop : (h.message mem s).opcode = WebSocketFrame.OPCODE_CONNECTION_CLOSE)
      (hret : (WsConnection.close.run pf c).1 = .ret ())
  | unfinished (hfin : h.fin = false) (hlen : h.frameLen = 0)
      (hsame : (h.message mem s).opcode = s.opcode)
  | ping (hfin : h.fin = true)
      (hop : (h.message mem s).opcode = WebSocketFrame.OPCODE_CONNECTION_PING)
      (hsame : (h.message mem s).opcode = s.opcode) (hlen : h.frameLen = 0)
      (hbuf : s.inBuf = [] ∨ 65535 < s.inBuf.length)
  | noEffect (hfin : h.fin = true) (hop : Ignored (h.message mem s).opcode)
      (hsame : (h.message mem s).opcode = s.opcode) (hbuf : s.inBuf = [])

/-- The condition: the chunk is too short for a header; or the announced frame can be read and
stored, a message that it completes can be answered, and if it is longer than the chunk, it is
spared. -/
def Withstands (pf : Platform) (mem : Mem) (len : ℕ) (s : HttpWsState) (c : Conn) : Prop :=
  len < 2 ∨ ∃ h, Decodable pf mem s h ∧ (h.fin = true → Answered pf (h.message mem s) c) ∧
    (len < h.size → Spared pf mem s c h)

/-! ## What the replies do to the connection -/

section Replies

variable {pf : Platform} {c : Conn}

/-- Sending only uses up results of the socket and brings none back. -/
theorem sendLoop_script_le (closed : Bool) (buf : Bytes) (script : List WriteResult)
    (numWritten : ℕ) (log : Log) :
    (Connection.sendLoop closed buf script numWritten log).2.script.length ≤ script.length := by
  induction script generalizing numWritten log with
  | nil =>
    unfold Connection.sendLoop
    split <;> exact le_rfl
  | cons r script ih =>
    unfold Connection.sendLoop
    split
    · cases r with
      | accept k => exact (ih _ _).trans (Nat.le_succ _)
      | again => exact (ih _ _).trans (Nat.le_succ _)
      | fail e => exact Nat.le_succ _
    · exact le_rfl

/-- `send` does not close the connection. -/
theorem send_closed (buf : Bytes) (c : Conn) : (Connection.send buf c).2.closed = c.closed := by
  obtain ⟨_, _, hclosed, _⟩ := sendLoop_extends c.closed buf c.script 0 c.log
  exact hclosed

/-- A reply leaves a trace on an open connection: in the log, or in the script of the socket. -/
theorem send_ne {buf : Bytes} (hopen : c.closed = false) (hbuf : buf ≠ []) :
    (Connection.send buf c).2 ≠ c := by
  obtain ⟨closed, script, log⟩ := c
  subst hopen
  have hpos : 0 < buf.length := List.length_pos_iff.mpr hbuf
  unfold Connection.send
  cases script with
  | nil =>
    rw [Connection.sendLoop, if_pos ⟨rfl, hpos⟩]
    intro heq
    have := congrArg (fun c => c.log.length) heq
    simp at this
  | cons r script =>
    unfold Connection.sendLoop
    rw [if_pos ⟨rfl, hpos⟩]
    cases r with
    | accept k =>
      obtain ⟨evs, hext, _⟩ := sendLoop_extends false buf script
        ((0 + (Connection.accepted k (buf.drop 0)).length) % SIZE_MOD)
        (log ++ [.wrote (Connection.accepted k (buf.drop 0))])
      intro heq
      have hlog := hext.log_eq
      rw [heq] at hlog
      have := congrArg List.length hlog
      simp only [List.length_append, List.length_singleton] at this
      omega
    | again =>
      intro heq
      have hle := sendLoop_script_le false buf script ((0 + (SIZE_MOD - 1)) % SIZE_MOD) log
      have := congrArg (fun c => c.script.length) heq
      simp only [List.length_cons] at this
      omega
    | fail e =>
      intro heq
      have := congrArg (fun c => c.script.length) heq
      simp at this

/-- The bytes of the close frame that `WsConnection::close` sends. -/
def closeFrame : Bytes := (serverFrame 8 (hton 2 0) (by decide)).encode

/-- Closing a WebSocket sends the close frame, and marks the connection only if that went through.
-/
theorem close_run (c : Conn) :
    WsConnection.close.run pf c = match Connection.send closeFrame c with
      | (.ret _, c') => (.ret (), { c' with closed := true })
      | (.exn e, c') => (.exn e, c')
      | (.ub, c') => (.ub, c') := by
  have hcreate : WebSocketFrame.createConnectionClose 0 =
      .ret ⟨(serverFrame 8 (hton 2 0) (by decide)).encode⟩ := create_eq 8 (hton 2 0) (by decide)
  have hdata : WebSocketFrame.data ⟨(serverFrame 8 (hton 2 0) (by decide)).encode⟩ = closeFrame :=
    rfl
  unfold WsConnection.close
  rw [hcreate, run_bind, run_ofCall, Act.bind_of_ret (Act.lift_apply _ c), run_bind, run_sendAll,
    hdata, Act.bind_apply]
  rcases Connection.send closeFrame c with ⟨r, c'⟩
  cases r <;> rfl

/-- A `close` that returns has closed the connection. -/
theorem close_run_closed {c' : Conn} (h : WsConnection.close.run pf c = (.ret (), c')) :
    c'.closed = true := by
  rw [close_run] at h
  rcases hs : Connection.send closeFrame c with ⟨r, c''⟩
  rw [hs] at h
  cases r with
  | ret n => exact (congrArg Conn.closed (congrArg Prod.snd h)).symm
  | exn e => cases h
  | ub => cases h

variable (pf) in
/-- Closing an open connection leaves a trace, also when it fails. -/
theorem close_run_ne (hopen : c.closed = false) : (WsConnection.close.run pf c).2 ≠ c := by
  have hframe : closeFrame ≠ [] := by decide
  have hsend := send_ne hopen hframe
  rw [close_run]
  rcases hs : Connection.send closeFrame c with ⟨r, c'⟩
  rw [hs] at hsend
  cases r with
  | ret n =>
    intro heq
    have := congrArg Conn.closed heq
    rw [hopen] at this
    cases this
  | exn e => exact hsend
  | ub => exact hsend

/-- A callback always leaves its event in the log, so the connection is never the same behind it. -/
theorem callback_ne {α : Type} (e : Event) (p : Log → Prog α) (c : Conn) :
    (callback pf .self .self e p c).2 ≠ c := by
  obtain ⟨evs, hlog, _⟩ := callback_log pf e p c
  intro heq
  rw [heq] at hlog
  have := congrArg List.length hlog
  simp only [List.length_append, List.length_cons] at this
  omega

/-- A callback is not a close: it is in the log. -/
theorem callback_ne_close {α : Type} {e : Event} (he : ¬ IsTransfer e) (p : Log → Prog α) (c : Conn) :
    WsConnection.close.run pf c ≠ (.ret (), (callback pf .self .self e p c).2) := by
  obtain ⟨evs, hlog, _⟩ := callback_log pf e p c
  obtain ⟨evs', hext⟩ := run_extends pf WsConnection.close c
  intro heq
  have hlog' := hext.log_eq
  rw [heq, hlog] at hlog'
  have hevs := List.append_cancel_left hlog'
  exact he (hext.isTransfer e (hevs ▸ List.mem_cons_self))

end Replies

/-! ## One chunk -/

section Chunk

variable {pf : Platform} {handler : WsHandler} {mem : Mem} {len : ℕ} {s : HttpWsState} {c : Conn}
  {h : Header}

/-- A frame leaves the state as it was exactly when it is empty and brings no new opcode. -/
theorem message_eq_self_iff :
    h.message mem s = s ↔ h.frameLen = 0 ∧ (h.message mem s).opcode = s.opcode := by
  rw [← h.extend_eq_self mem s.inBuf]
  constructor
  · intro heq
    exact ⟨congrArg HttpWsState.inBuf heq, congrArg HttpWsState.opcode heq⟩
  · rintro ⟨hbuf, hop⟩
    obtain ⟨opcode, inBuf⟩ := s
    unfold Header.message at hop ⊢
    simp only [HttpWsState.mk.injEq]
    exact ⟨hop, hbuf⟩

/-- Nothing of a message is left in the buffer. -/
theorem cleared_eq_iff {m : HttpWsState} :
    ({ m with inBuf := [] } : HttpWsState) = s ↔ m.opcode = s.opcode ∧ s.inBuf = [] := by
  obtain ⟨opcode, inBuf⟩ := s
  simp only [HttpWsState.mk.injEq]
  exact and_congr_right fun _ => eq_comm

/-- Callbacks that return throw nothing that would have to be caught. -/
theorem callbackCaught_of_returns (hq : CallbacksReturn pf handler) (m : HttpWsState) (c : Conn) :
    CallbackCaught pf handler m c := by
  constructor
  · intro _
    rw [callback_self, hq.onData]
    trivial
  · intro _
    rw [callback_self, hq.onText]
    trivial

/-- The condition of `settled_iff`, for each kind of message. -/
theorem spared_unfinished_iff (hfin : h.fin = false) :
    Spared pf mem s c h ↔ h.message mem s = s := by
  rw [message_eq_self_iff]
  constructor
  · intro hsp
    cases hsp with
    | closes hfin' => rw [hfin] at hfin'; cases hfin'
    | unfinished _ hlen hsame => exact ⟨hlen, hsame⟩
    | ping hfin' => rw [hfin] at hfin'; cases hfin'
    | noEffect hfin' => rw [hfin] at hfin'; cases hfin'
  · rintro ⟨hlen, hsame⟩
    exact .unfinished hfin hlen hsame

/-- A close frame spares state and connection exactly when the closing answer goes through. -/
theorem spared_close_iff (hfin : h.fin = true)
    (hop : (h.message mem s).opcode = WebSocketFrame.OPCODE_CONNECTION_CLOSE) :
    Spared pf mem s c h ↔ (WsConnection.close.run pf c).1 = .ret () := by
  constructor
  · intro hsp
    cases hsp with
    | closes _ _ hret => exact hret
    | unfinished hfin' => rw [hfin] at hfin'; cases hfin'
    | ping _ hop' => rw [hop] at hop'; exact absurd hop' (by decide)
    | noEffect _ hop' => exact absurd hop hop'.2.1
  · exact fun hret => .closes hfin hop hret

/-- A ping spares them exactly when it changes neither opcode nor payload, and the pong is empty or
too long for a frame. -/
theorem spared_ping_iff (hfin : h.fin = true)
    (hop : (h.message mem s).opcode = WebSocketFrame.OPCODE_CONNECTION_PING) :
    Spared pf mem s c h ↔ (h.message mem s).opcode = s.opcode ∧ h.frameLen = 0 ∧
      (s.inBuf = [] ∨ 65535 < s.inBuf.length) := by
  constructor
  · intro hsp
    cases hsp with
    | closes _ hop' => rw [hop] at hop'; exact absurd hop' (by decide)
    | unfinished hfin' => rw [hfin] at hfin'; cases hfin'
    | ping _ _ hsame hlen hbuf => exact ⟨hsame, hlen, hbuf⟩
    | noEffect _ hop' => exact absurd hop hop'.2.2.1
  · rintro ⟨hsame, hlen, hbuf⟩
    exact .ping hfin hop hsame hlen hbuf

/-- A frame of an unknown kind spares them exactly when there is nothing to clear. -/
theorem spared_ignored_iff (hfin : h.fin = true) (hop : Ignored (h.message mem s).opcode) :
    Spared pf mem s c h ↔ (h.message mem s).opcode = s.opcode ∧ s.inBuf = [] := by
  constructor
  · intro hsp
    cases hsp with
    | closes _ hop' => exact absurd hop' hop.2.1
    | unfinished hfin' => rw [hfin] at hfin'; cases hfin'
    | ping _ hop' => exact absurd hop' hop.2.2.1
    | noEffect _ _ hsame hbuf => exact ⟨hsame, hbuf⟩
  · rintro ⟨hsame, hbuf⟩
    exact .noEffect hfin hop hsame hbuf

/-- A frame that leads to a callback never spares them, since the callback is in the log. -/
theorem not_spared_of_callback (hfin : h.fin = true)
    (hop : (h.message mem s).opcode = WebSocketFrame.OPCODE_BINARY ∨
      (h.message mem s).opcode = WebSocketFrame.OPCODE_TEXT) : ¬ Spared pf mem s c h := by
  intro hsp
  cases hsp with
  | closes _ hop' => rw [hop'] at hop; exact absurd hop (by decide)
  | unfinished hfin' => rw [hfin] at hfin'; cases hfin'
  | ping _ hop' => rw [hop'] at hop; exact absurd hop (by decide)
  | noEffect _ hop' => exact hop.elim hop'.2.2.2.1 hop'.2.2.2.2

/-- An open connection that was not touched has not been closed. -/
theorem settled_untouched (hopen : c.closed = false) (m : HttpWsState) :
    Settled pf s c (m, c) ↔ m = s := by
  have hnot : WsConnection.close.run pf c ≠ (.ret (), c) := fun hcl =>
    close_run_ne pf hopen (congrArg Prod.snd hcl)
  constructor
  · rintro (heq | hcl)
    · exact congrArg Prod.fst heq
    · exact absurd hcl hnot
  · rintro rfl
    exact Or.inl rfl

/-- A message that ends with a callback is noticed. -/
theorem not_settled_callback {e : Event} (he : ¬ IsTransfer e) (p : Log → Prog Unit) (m : HttpWsState) :
    ¬ Settled pf s c (m, (callback pf .self .self e p c).2) := by
  rintro (heq | hcl)
  · exact callback_ne e p c (congrArg Prod.snd heq)
  · exact callback_ne_close he p c hcl

/-- The reply to a ping. -/
theorem settled_ping_iff (hopen : c.closed = false) (hfin : h.fin = true)
    (hop : (h.message mem s).opcode = WebSocketFrame.OPCODE_CONNECTION_PING) :
    Settled pf s c
        (afterFrame pf .self .self handler true (h.message mem s) (h.message mem s, c)).2 ↔
      Spared pf mem s c h := by
  have hlength := length_message h mem s
  rw [spared_ping_iff hfin hop]
  by_cases hlen : (h.message mem s).inBuf.length ≤ 65535
  · have hempty : (h.message mem s).inBuf = [] ↔ h.frameLen = 0 ∧ s.inBuf = [] := by
      rw [← List.length_eq_zero_iff, hlength, ← List.length_eq_zero_iff]
      omega
    have hd := @dispatch_ping_apply pf handler _ hop hlen (h.message mem s) c
    rw [afterFrame_fin hd]
    by_cases hbuf : (h.message mem s).inBuf = []
    · obtain ⟨hzero, hnil⟩ := hempty.mp hbuf
      rw [hbuf, send_nil]
      have hret : ((Res.ret 0 : Res Exc ℕ).bind fun _ => Res.ret ()).isRet = true := rfl
      rw [if_pos hret, settled_untouched hopen, cleared_eq_iff]
      constructor
      · rintro ⟨hsame, _⟩
        exact ⟨hsame, hzero, Or.inl hnil⟩
      · rintro ⟨hsame, _, _⟩
        exact ⟨hsame, hnil⟩
    · refine iff_of_false ?_ ?_
      · rintro (heq | hcl)
        · exact send_ne hopen hbuf (congrArg Prod.snd heq)
        · have hclosed := close_run_closed hcl
          rw [send_closed, hopen] at hclosed
          cases hclosed
      · rintro ⟨_, hzero, hnil | hlong⟩
        · exact hbuf (hempty.mpr ⟨hzero, hnil⟩)
        · omega
  · have hd := congrFun (@dispatch_ping_long _ pf .self .self handler _ hop
      (Nat.lt_of_not_le hlen)) (h.message mem s, c)
    rw [Act.throw_apply] at hd
    rw [afterFrame_fin hd, Res.isRet_exn, if_neg Bool.false_ne_true, settled_untouched hopen,
      message_eq_self_iff]
    constructor
    · rintro ⟨hzero, hsame⟩
      exact ⟨hsame, hzero, Or.inr (by omega)⟩
    · rintro ⟨hsame, hzero, _⟩
      exact ⟨hzero, hsame⟩

/-- When a frame that has been acted on has changed nothing, or closed the connection. -/
theorem settled_iff (hopen : c.closed = false)
    (hact : h.fin = true → Answered pf (h.message mem s) c) :
    Settled pf s c
        (afterFrame pf .self .self handler h.fin (h.message mem s) (h.message mem s, c)).2 ↔
      Spared pf mem s c h := by
  cases hfin : h.fin with
  | false =>
    rw [afterFrame, if_neg Bool.false_ne_true, spared_unfinished_iff hfin]
    exact settled_untouched hopen _
  | true =>
    have hans := hact hfin
    obtain hop | hop | hop | hop | hop | hop := opcode_cases (h.message mem s).opcode
    · exact absurd hop hans.opcode
    · have hd : HttpWsState.dispatch pf .self .self handler (h.message mem s)
          (h.message mem s, c) = ((WsConnection.close.run pf c).1,
            (h.message mem s, (WsConnection.close.run pf c).2)) := by
        rw [dispatch_close hop]
        rfl
      have hne : (WsConnection.close.run pf c).2 ≠ c := close_run_ne pf hopen
      rw [afterFrame_fin hd, spared_close_iff hfin hop]
      constructor
      · rintro (heq | hcl)
        · exact absurd (congrArg Prod.snd heq) hne
        · exact congrArg Prod.fst hcl
      · intro hret
        exact Or.inr (Prod.ext hret rfl)
    · exact settled_ping_iff hopen hfin hop
    · have hd := congrFun (@dispatch_binary _ pf .self .self handler _ hop) (h.message mem s, c)
      refine iff_of_false ?_ (not_spared_of_callback hfin (Or.inl hop))
      rw [afterFrame_fin hd]
      exact not_settled_callback id _ _
    · have hd := congrFun (@dispatch_text_eq _ pf .self .self handler _ hop) (h.message mem s, c)
      rw [terminate_of_fits (hans.text hop), Act.bind_of_ret (Act.lift_apply _ _)] at hd
      refine iff_of_false ?_ (not_spared_of_callback hfin (Or.inr hop))
      rw [afterFrame_fin hd]
      exact not_settled_callback id _ _
    · have hd := congrFun (@dispatch_ignored _ pf .self .self handler _ hop) (h.message mem s, c)
      rw [Act.pure_apply] at hd
      rw [afterFrame_fin hd, Res.isRet_ret, if_pos rfl, settled_untouched hopen, cleared_eq_iff,
        spared_ignored_iff hfin hop]

/-- A chunk is harmless if and only if the code withstands it. -/
theorem harmless_iff (hq : CallbacksReturn pf handler) (hbuf : s.inBuf.length ≤ pf.maxSize)
    (hopen : c.closed = false) :
    Harmless pf mem len s c (HttpWsState.onReceive pf .self .self handler mem len (s, c)) ↔
      Withstands pf mem len s c := by
  unfold Harmless Withstands
  rw [onReceive_returns_iff hbuf, (onReceive_snd (s, c)).1]
  by_cases hlen : len < 2
  · rw [receiveFrame_too_short hlen]
    exact iff_of_true ⟨Or.inl hlen, fun _ => Or.inl rfl⟩ (Or.inl hlen)
  · by_cases hex : ∃ h, Decodable pf mem s h
    · obtain ⟨h, hd⟩ := hex
      rw [receiveFrame_decodable (Nat.le_of_not_lt hlen) hd]
      constructor
      · rintro ⟨hsurvives, hviolates⟩
        obtain hshort | ⟨h', hd', hact⟩ := hsurvives
        · exact absurd hshort hlen
        · rw [hd.unique hd'] at hact
          refine Or.inr ⟨h, hd, fun hfin => (hact hfin).1, fun hlong => ?_⟩
          refine (settled_iff hopen fun hfin => (hact hfin).1).mp (hviolates (Or.inr ?_))
          intro h'' hh
          rw [hd.header, Res.ret.injEq] at hh
          rw [← hh]
          exact Or.inl hlong
      · rintro (hshort | ⟨h', hd', hact, hspared⟩)
        · exact absurd hshort hlen
        · rw [hd.unique hd'] at hact hspared
          refine ⟨Or.inr ⟨h, hd, fun hfin => ⟨hact hfin, callbackCaught_of_returns hq _ c⟩⟩, ?_⟩
          intro hviolates
          apply (settled_iff hopen hact).mpr
          apply hspared
          -- a final continuation frame with nothing to continue has no answer
          obtain hshort | hviolates := hviolates
          · exact absurd hshort hlen
          · obtain hlong | ⟨hfin, hop, hnil⟩ := hviolates h hd.header
            · exact hlong
            · refine absurd ?_ (hact hfin).opcode
              unfold Header.message
              rw [hnil]
              exact hop
    · refine iff_of_false ?_ ?_
      · rintro ⟨hshort | ⟨h, hd, _⟩, _⟩
        · exact hlen hshort
        · exact hex ⟨h, hd⟩
      · rintro (hshort | ⟨h, hd, _⟩)
        · exact hlen hshort
        · exact hex ⟨h, hd⟩

end Chunk

/-! ## Runs -/

/-- The pass of the loop is harmless. -/
def HarmlessPass (pf : Platform) (handler : WsHandler) :
    LoopEvent → ClientWorker (HttpWsState × Conn) → Prop
  | .data chunk, w =>
    let mem := ClientWorker.bufMem pf (ClientWorker.fill w.buf chunk)
    Harmless pf mem chunk.bytes.length w.handler.1 w.handler.2
      ((wsServerHandler pf handler).onReceive mem chunk.bytes.length w.handler)
  | _, _ => True

/-- The code withstands the chunk of the pass. -/
def WithstandsPass (pf : Platform) :
    LoopEvent → ClientWorker (HttpWsState × Conn) → Prop
  | .data chunk, w =>
    Withstands pf (ClientWorker.bufMem pf (ClientWorker.fill w.buf chunk)) chunk.bytes.length
      w.handler.1 w.handler.2
  | _, _ => True

/-- The buffer stays one that a vector can hold, from one loop head to the next. -/
theorem inBuf_le_nextPass {pf : Platform} {handler : WsHandler} {event : LoopEvent}
    {w w' : ClientWorker (HttpWsState × Conn)} (hw : w.handler.1.inBuf.length ≤ pf.maxSize)
    (hnext : nextPass pf (wsServerHandler pf handler) event w = some w') :
    w'.handler.1.inBuf.length ≤ pf.maxSize := by
  cases event with
  | data chunk =>
    have hrec := nextPass_data hnext
    rw [receive_apply] at hrec
    have hw' : w' = _ := (congrArg Prod.snd hrec).symm
    rw [hw']
    exact onReceive_length_le _ _ _ _ hw
  | notReadable => exact Option.some.inj hnext ▸ hw
  | again => exact Option.some.inj hnext ▸ hw
  | eof => cases hnext
  | pollFails e => cases hnext
  | readFails e => cases hnext

/-- In every run, from any reassembly state whose buffer a vector can hold: every chunk that the loop
delivers is harmless if and only if the code withstands every chunk that the loop delivers. -/
theorem eachChunk_harmless_iff (pf : Platform) {handler : WsHandler}
    (hq : CallbacksReturn pf handler) (events : List LoopEvent)
    (w : ClientWorker (HttpWsState × Conn)) (hw : w.handler.1.inBuf.length ≤ pf.maxSize) :
    Along pf (wsServerHandler pf handler) (HarmlessPass pf handler) events w ↔
      Along pf (wsServerHandler pf handler) (WithstandsPass pf) events w := by
  refine along_congr (I := fun w => w.handler.1.inBuf.length ≤ pf.maxSize)
    (fun _ _ _ hw _ hnext => inBuf_le_nextPass hw hnext) ?_ events hw
  · intro event w hw hopen
    cases event with
    | data chunk => exact harmless_iff hq hw hopen
    | notReadable => exact Iff.rfl
    | again => exact Iff.rfl
    | eof => exact Iff.rfl
    | pollFails e => exact Iff.rfl
    | readFails e => exact Iff.rfl

/-- A run over a text frame and its repetition. -/
theorem eachChunk_harmless_iff_text :
    Along .plain (wsServerHandler .plain WsHandlerNull) (HarmlessPass .plain WsHandlerNull)
        (twoChunks.map .data) freshWorker ↔
      Along .plain (wsServerHandler .plain WsHandlerNull) (WithstandsPass .plain)
        (twoChunks.map .data) freshWorker :=
  eachChunk_harmless_iff .plain (callbacksReturn_null .plain) _ freshWorker (Nat.zero_le _)

/-- A final continuation frame with nothing to continue. -/
def strayContinuation : Chunk :=
  ⟨[0x80, 0x80, 0x00, 0x00, 0x00, 0x00], by decide, by decide⟩

/-- A stray continuation frame breaks out of the WebSocket state. -/
theorem strayContinuation_escapes :
    CallbacksReturn .plain WsHandlerNull ∧
      (HttpWsState.onReceive .plain .self .self WsHandlerNull
        (ClientWorker.bufMem .plain (ClientWorker.fill freshWorker.buf strayContinuation))
        strayContinuation.bytes.length (HttpWsState.init, Conn.init [])).1 =
      .exn (.runtime_error "WebSocket opcode must not be 0 when FIN bit is set.") := by
  refine ⟨callbacksReturn_null _, ?_⟩
  decide +kernel

end CppSocks.Analysis
