import CppSocks.Analysis.LoopPasses
import CppSocks.Analysis.MalformedChunks

/-!
# A connection in the WebSocket state

What `TcpServerHandler::onReceive` does once `HttpWsState` is the current state:
it runs `HttpWsState::onReceive`, stays in that state (`onReceive_ws`), and the
log only grows by messages and by what user code does (`onReceive_log`).
-/

set_option autoImplicit false

namespace CppSocks.Analysis

open CppSocks.Model CppSocks.Interface Foundation

/-- The events of an open WebSocket connection that is not disconnected. -/
def IsActivity (e : Event) : Prop := IsTransfer e ∨ e.isMessage = true

/-- What user code causes by itself can happen in the WebSocket state. -/
theorem IsActivity.of_isTransfer {evs : List Event} (h : ∀ e ∈ evs, IsTransfer e) : ∀ e ∈ evs, IsActivity e :=
  fun e he => Or.inl (h e he)

section Log

variable {pf : Platform} {handler : WsHandler} {mem : Mem} {len : ℕ} {s : HttpWsState} {c : Conn}

/-- A callback for a message is recorded, and behind it what the user code does. -/
theorem callback_log_activity {α : Type} {e : Event} (he : e.isMessage = true)
    (p : Log → Prog α) (c : Conn) :
    ∃ evs, (callback pf .self .self e p c).2.log = c.log ++ evs ∧ ∀ e ∈ evs, IsActivity e := by
  obtain ⟨evs, hlog, hio⟩ := callback_log pf e p c
  refine ⟨e :: evs, hlog, ?_⟩
  intro x hx
  obtain rfl | hx := List.mem_cons.mp hx
  · exact Or.inr he
  · exact Or.inl (hio x hx)

variable (handler) in
/-- Acting on a message adds at most its callback and what follows from it to the log. -/
theorem dispatch_log (m st : HttpWsState) (hm : m.inBuf.length ≤ pf.maxSize) (c : Conn) :
    ∃ evs, (HttpWsState.dispatch pf .self .self handler m (st, c)).2.2.log = c.log ++ evs ∧
      ∀ e ∈ evs, IsActivity e := by
  have hsame : ∃ evs, c.log = c.log ++ evs ∧ ∀ e ∈ evs, IsActivity e :=
    ⟨[], (List.append_nil _).symm, by simp⟩
  obtain hop | hop | hop | hop | hop | hop := opcode_cases m.opcode
  · rw [dispatch_continuation hop]
    exact hsame
  · rw [dispatch_close hop]
    obtain ⟨evs, hext⟩ := run_extends pf WsConnection.close c
    exact ⟨evs, hext.log_eq, IsActivity.of_isTransfer hext.isTransfer⟩
  · by_cases hlen : m.inBuf.length ≤ 65535
    · rw [dispatch_ping_apply hop hlen]
      obtain ⟨evs, hext, _⟩ := send_extends m.inBuf c
      exact ⟨evs, hext.log_eq, IsActivity.of_isTransfer hext.isTransfer⟩
    · rw [dispatch_ping_long hop (Nat.lt_of_not_le hlen)]
      exact hsame
  · rw [dispatch_binary hop]
    exact callback_log_activity rfl _ c
  · by_cases hfit : m.inBuf.length + 1 ≤ pf.maxSize
    · rw [dispatch_text_eq hop, terminate_of_fits hfit, Act.bind_of_ret (Act.lift_apply _ _)]
      exact callback_log_activity rfl _ c
    · obtain ⟨-, hstop⟩ :=
        dispatch_unterminated .self .self handler st c hop hm (Nat.lt_of_not_le hfit)
      rw [hstop]
      exact hsame
  · rw [dispatch_ignored hop]
    exact hsame

/-- Receiving a chunk adds only activity to the log. -/
theorem onReceive_log (hbuf : s.inBuf.length ≤ pf.maxSize) :
    ∃ evs, (HttpWsState.onReceive pf .self .self handler mem len (s, c)).2.2.log = c.log ++ evs ∧
      ∀ e ∈ evs, IsActivity e := by
  have hsame : ∃ evs, c.log = c.log ++ evs ∧ ∀ e ∈ evs, IsActivity e :=
    ⟨[], (List.append_nil _).symm, by simp⟩
  rw [(onReceive_snd (s, c)).1]
  by_cases hlen : len < 2
  · rw [receiveFrame_too_short hlen]
    exact hsame
  · by_cases hex : ∃ h, Decodable pf mem s h
    · obtain ⟨h, hd⟩ := hex
      have hm : (h.message mem s).inBuf.length ≤ pf.maxSize := by
        rw [length_message]
        exact hd.fits
      rw [receiveFrame_decodable (Nat.le_of_not_lt hlen) hd]
      cases h.fin with
      | false => exact hsame
      | true =>
        have hlog := dispatch_log handler (h.message mem s) (h.message mem s) hm c
        rcases hr : HttpWsState.dispatch pf .self .self handler (h.message mem s)
          (h.message mem s, c) with ⟨r, m', c'⟩
        rw [hr] at hlog
        rw [afterFrame_fin hr]
        exact hlog
    · have hlen' : 2 ≤ len := Nat.le_of_not_lt hlen
      rw [(receiveFrame_not_decodable .self .self handler c hlen' hbuf
        (fun h hd => hex ⟨h, hd⟩)).2]
      exact hsame

end Log

/-! ## The state machine -/

/-- The WebSocket state is the current one, and its buffer is one that a vector can hold. -/
def InWebSocket (pf : Platform) (h : TcpServerHandler) : Prop :=
  ∃ handler s, h.curState = .ws handler s ∧ h.nextState = none ∧ s.inBuf.length ≤ pf.maxSize

section Machine

variable {pf : Platform} {f : Factories} {mem : Mem} {len : ℕ}

/-- In the WebSocket state a chunk goes to `HttpWsState::onReceive`. -/
theorem onReceive_ws {h : TcpServerHandler} {handler : WsHandler} {s : HttpWsState}
    (hcur : h.curState = .ws handler s) (hnext : h.nextState = none) :
    TcpServerHandler.onReceive pf f mem len h =
      ((HttpWsState.onReceive pf .self .self handler mem len (s, h.conn)).1,
        { h with
          curState := .ws handler
            (HttpWsState.onReceive pf .self .self handler mem len (s, h.conn)).2.1
          conn := (HttpWsState.onReceive pf .self .self handler mem len (s, h.conn)).2.2 }) := by
  have hstate : TcpServerHandler.stateReceive pf f mem len h =
      TcpServerHandler.wsReceive pf handler s mem len h := by
    unfold TcpServerHandler.stateReceive
    rw [hcur]
  rw [TcpServerHandler.onReceive, Act.bind_apply, hstate, TcpServerHandler.wsReceive, Act.zoom]
  rcases HttpWsState.onReceive pf .self .self handler mem len (s, h.conn) with ⟨r, s', c'⟩
  cases r with
  | ret u =>
    dsimp only
    rw [TcpServerHandler.installNextState, Act.modify_apply]
    simp only [hnext]
  | exn e => rfl
  | ub => rfl

/-- The WebSocket state is not left. -/
theorem inWebSocket_onReceive {h : TcpServerHandler} (hws : InWebSocket pf h) :
    InWebSocket pf (TcpServerHandler.onReceive pf f mem len h).2 := by
  obtain ⟨handler, s, hcur, hnext, hbuf⟩ := hws
  rw [onReceive_ws hcur hnext]
  exact ⟨handler, _, rfl, hnext, onReceive_length_le _ _ _ _ hbuf⟩

variable (f mem len) in
/-- In the WebSocket state a chunk adds nothing else: no handler is made, no state is entered, no
request is answered. -/
theorem inWebSocket_log {h : TcpServerHandler} (hws : InWebSocket pf h) :
    ∃ evs, (TcpServerHandler.onReceive pf f mem len h).2.conn.log = h.conn.log ++ evs ∧
      ∀ e ∈ evs, IsActivity e := by
  obtain ⟨handler, s, hcur, hnext, hbuf⟩ := hws
  rw [onReceive_ws hcur hnext]
  exact onReceive_log hbuf

/-- The notification of the end of a WebSocket connection. -/
theorem onDisconnect_ws {h : TcpServerHandler} (hws : InWebSocket pf h) :
    ∃ evs, (TcpServerHandler.onDisconnect pf h).2.conn.log = h.conn.log ++ .onDisconnect :: evs ∧
      ∀ e ∈ evs, IsTransfer e := by
  obtain ⟨handler, s, hcur, _, _⟩ := hws
  have hcall : (TcpServerHandler.onDisconnect pf h).2.conn =
      (callback pf .self .self .onDisconnect handler.onDisconnect h.conn).2 := by
    unfold TcpServerHandler.onDisconnect
    rw [hcur]
    rfl
  rw [hcall]
  exact callback_log _ _ _ _

end Machine

end CppSocks.Analysis
