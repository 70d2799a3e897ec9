import CppSocks.Analysis.WebSocketState

/-!
# Pairing of the connect and disconnect notifications

`ClientWorker::run` calls `onDisconnect` only behind the loop, inside of the
`try` block. An exception that leaves the loop skips the call: if `isReadable`,
`read` or `onReceive` throws, the handler that was told of the connection is never
told of its end. `notifications_paired_iff` makes this exact, for any handler and
for a connection in the WebSocket state.
-/

set_option autoImplicit false

namespace CppSocks.Analysis

open CppSocks.Model CppSocks.Interface Foundation

/-- If `onConnect` has returned, `onDisconnect` is called exactly once, behind the last `onReceive`
and before the worker becomes inactive. -/
def Paired (calls : List WorkerCall) : Prop :=
  WorkerCall.connected ∈ calls → ∃ before after, calls = before ++ .disconnect :: after ∧
    WorkerCall.disconnect ∉ before ++ after ∧ (∀ bytes, WorkerCall.receive bytes ∉ after) ∧
    WorkerCall.inactive ∉ before

section Worker

variable {σ : Type} {pf : Platform} {H : ServerHandler σ}

/-- The calls of a run whose loop has come to its end. -/
theorem paired_of_disconnect {chunks : List Bytes} {tail tail' : List WorkerCall}
    (htail : tail = [] ∨ tail = [.closeSocket]) (htail' : tail' = [] ∨ tail' = [.inactive]) :
    Paired (.connected :: chunks.map .receive ++ .disconnect :: tail ++ tail') := by
  intro _
  refine ⟨.connected :: chunks.map .receive, tail ++ tail', by simp, ?_, ?_, by simp⟩
  · obtain rfl | rfl := htail <;> obtain rfl | rfl := htail' <;> simp
  · intro bytes
    obtain rfl | rfl := htail <;> obtain rfl | rfl := htail' <;> simp

/-- The calls of a run whose loop was left by an exception. -/
theorem not_paired_of_no_disconnect {chunks : List Bytes} {tail' : List WorkerCall}
    (htail' : tail' = [] ∨ tail' = [.inactive]) :
    ¬ Paired (.connected :: chunks.map .receive ++ tail') := by
  intro h
  obtain ⟨before, after, heq, _⟩ := h (by simp)
  have hmem : WorkerCall.disconnect ∈
      (.connected :: chunks.map WorkerCall.receive ++ tail' : List WorkerCall) := by
    rw [heq]
    simp
  obtain rfl | rfl := htail' <;> simp at hmem

/-- A run that has been told of the connection is told of its end if and only if no pass of the
loop raises an exception. -/
theorem paired_iff_of_connected {events : List LoopEvent} {w : ClientWorker σ} {h : σ}
    (hcalls : w.calls = []) (hon : H.onConnect w.handler = (.ret (), h)) :
    Paired (ClientWorker.run pf H events w).2.calls ↔
      Along pf H (Undisturbed pf H) events (connectedWorker w h) := by
  obtain ⟨tail', htail', hrun⟩ := finishRun_calls (tryBlock pf H events) w
  rw [tryBlock_of_connected hcalls hon] at hrun
  rw [run_eq, hrun, ← loop_returns_iff]
  obtain ⟨chunks, hloop⟩ := loop_calls pf H events (connectedWorker w h)
  have hloop' : (ClientWorker.loop pf H events (connectedWorker w h)).2.calls =
      .connected :: chunks.map .receive := hloop
  cases hret : (ClientWorker.loop pf H events (connectedWorker w h)).1.isRet with
  | true =>
    obtain ⟨tail, htail, hclose, _⟩ := loopAndClose_of_returns hret
    rw [hclose, hloop']
    exact iff_of_true (paired_of_disconnect htail htail') rfl
  | false =>
    rw [loopAndClose_of_not_returns hret, hloop']
    exact iff_of_false (not_paired_of_no_disconnect htail') Bool.false_ne_true

/-- A handler whose `onConnect` does not return gets no further call. -/
theorem paired_of_not_connected {events : List LoopEvent} {w : ClientWorker σ}
    (hcalls : w.calls = []) (hon : (H.onConnect w.handler).1.isRet = false) :
    Paired (ClientWorker.run pf H events w).2.calls := by
  obtain ⟨tail', htail', hrun⟩ := finishRun_calls (tryBlock pf H events) w
  rw [run_eq, hrun, (tryBlock_of_not_connected pf hon events).2, hcalls]
  intro hmem
  obtain rfl | rfl := htail' <;> simp at hmem

end Worker

/-! ## WebSocket connections -/

/-- The pass is survived: the socket does not throw, and a chunk is one that
`HttpWsState::onReceive` returns from. -/
def SurvivesPass (pf : Platform) : LoopEvent → ClientWorker TcpServerHandler → Prop
  | .pollFails _, _ => False
  | .readFails _, _ => False
  | .data chunk, w => ∃ handler s, w.handler.curState = .ws handler s ∧
      Survives pf handler (ClientWorker.bufMem pf (ClientWorker.fill w.buf chunk))
        chunk.bytes.length s w.handler.conn
  | _, _ => True

section WebSocket

variable {pf : Platform} {f : Factories}

/-- The calls of `onDisconnect` that have been made. -/
def disconnects (w : ClientWorker TcpServerHandler) : ℕ :=
  w.handler.conn.log.count .onDisconnect

/-- In the WebSocket state a pass raises no exception exactly when it is survived. -/
theorem undisturbed_iff_survives {event : LoopEvent} {w : ClientWorker TcpServerHandler}
    (hws : InWebSocket pf w.handler) :
    Undisturbed pf (TcpServerHandler.serverHandler pf f) event w ↔ SurvivesPass pf event w := by
  cases event with
  | data chunk =>
    obtain ⟨handler, s, hcur, hnext, hbuf⟩ := hws
    have hon : (ClientWorker.receive pf (TcpServerHandler.serverHandler pf f) chunk w).1 =
        (HttpWsState.onReceive pf .self .self handler
          (ClientWorker.bufMem pf (ClientWorker.fill w.buf chunk)) chunk.bytes.length
          (s, w.handler.conn)).1 := by
      rw [receive_apply]
      exact congrArg Prod.fst (onReceive_ws hcur hnext)
    have hiff : Undisturbed pf (TcpServerHandler.serverHandler pf f) (.data chunk) w ↔
        Survives pf handler (ClientWorker.bufMem pf (ClientWorker.fill w.buf chunk))
          chunk.bytes.length s w.handler.conn := by
      rw [← onReceive_returns_iff hbuf, ← hon]
      exact Iff.rfl
    rw [hiff]
    constructor
    · intro h
      exact ⟨handler, s, hcur, h⟩
    · rintro ⟨handler', s', hcur', h⟩
      rw [hcur, HttpState.ws.injEq] at hcur'
      obtain ⟨rfl, rfl⟩ := hcur'
      exact h
  | notReadable => exact Iff.rfl
  | pollFails e => exact Iff.rfl
  | eof => exact Iff.rfl
  | again => exact Iff.rfl
  | readFails e => exact Iff.rfl

/-- Receiving keeps the WebSocket state and makes no call of `onDisconnect`. -/
theorem receive_keeps {n : ℕ} (chunk : Chunk) {w : ClientWorker TcpServerHandler}
    (h : InWebSocket pf w.handler ∧ disconnects w = n) :
    InWebSocket pf
        (ClientWorker.receive pf (TcpServerHandler.serverHandler pf f) chunk w).2.handler ∧
      disconnects (ClientWorker.receive pf (TcpServerHandler.serverHandler pf f) chunk w).2 = n := by
  obtain ⟨hws, hn⟩ := h
  rw [receive_apply]
  refine ⟨inWebSocket_onReceive hws, ?_⟩
  obtain ⟨evs, hlog, hact⟩ := inWebSocket_log f
    (ClientWorker.bufMem pf (ClientWorker.fill w.buf chunk)) chunk.bytes.length hws
  have hnone : evs.count .onDisconnect = 0 := by
    apply List.count_eq_zero_of_not_mem
    intro hmem
    obtain hio | hmsg := hact _ hmem
    · exact hio
    · cases hmsg
  have hcount : ((TcpServerHandler.onReceive pf f
      (ClientWorker.bufMem pf (ClientWorker.fill w.buf chunk)) chunk.bytes.length
      w.handler).2.conn.log).count .onDisconnect = n := by
    rw [hlog, List.count_append, hnone, Nat.add_zero]
    exact hn
  exact hcount

/-- In the WebSocket state the rest of the `try` block calls `WsHandler::onDisconnect` exactly once
if and only if every pass is survived. -/
theorem disconnect_once_iff {events : List LoopEvent} {w : ClientWorker TcpServerHandler}
    (hws : InWebSocket pf w.handler) :
    disconnects (ClientWorker.loopAndClose pf (TcpServerHandler.serverHandler pf f) events w).2 =
        disconnects w + 1 ↔
      Along pf (TcpServerHandler.serverHandler pf f) (SurvivesPass pf) events w := by
  have hcongr : Along pf (TcpServerHandler.serverHandler pf f)
      (Undisturbed pf (TcpServerHandler.serverHandler pf f)) events w ↔
        Along pf (TcpServerHandler.serverHandler pf f) (SurvivesPass pf) events w := by
    refine along_congr (I := fun w => InWebSocket pf w.handler) ?_
      (fun event w hws _ => undisturbed_iff_survives hws) events hws
    intro event w w' hws _ hnext
    cases event with
    | data chunk =>
      have hkeep := (receive_keeps (f := f) chunk ⟨hws, rfl⟩).1
      rwa [nextPass_data hnext] at hkeep
    | notReadable => exact Option.some.inj hnext ▸ hws
    | again => exact Option.some.inj hnext ▸ hws
    | eof => cases hnext
    | pollFails e => cases hnext
    | readFails e => cases hnext
  rw [← hcongr, ← loop_returns_iff]
  obtain ⟨hws', hcount⟩ := loop_keeps pf (TcpServerHandler.serverHandler pf f)
    (I := fun w' => InWebSocket pf w'.handler ∧ disconnects w' = disconnects w)
    (fun chunk w' h => receive_keeps chunk h) events ⟨hws, rfl⟩
  cases hret : (ClientWorker.loop pf (TcpServerHandler.serverHandler pf f) events w).1.isRet with
  | true =>
    obtain ⟨_, _, _, hhandler⟩ := loopAndClose_of_returns hret
    obtain ⟨evs, hlog, hio⟩ := onDisconnect_ws hws'
    refine iff_of_true ?_ rfl
    have hnone : evs.count .onDisconnect = 0 :=
      List.count_eq_zero_of_not_mem fun hmem => hio _ hmem
    rw [disconnects, hhandler]
    refine (congrArg (List.count Event.onDisconnect) hlog).trans ?_
    rw [List.count_append, List.count_cons_self, hnone]
    exact congrArg (· + 1) hcount
  | false =>
    rw [loopAndClose_of_not_returns hret, hcount]
    exact iff_of_false (by omega) Bool.false_ne_true

end WebSocket

/-- The notifications of a run are paired if and only if no pass of its loop raises an exception; and
`WsHandler::onDisconnect` is called exactly once, from the WebSocket state on, if and only if
every pass is survived. -/
theorem notifications_paired_iff (pf : Platform) :
    (∀ {σ : Type} (H : ServerHandler σ) (events : List LoopEvent) (w : ClientWorker σ),
      w.calls = [] →
        (Paired (ClientWorker.run pf H events w).2.calls ↔
          ∀ h, H.onConnect w.handler = (.ret (), h) →
            Along pf H (Undisturbed pf H) events (connectedWorker w h))) ∧
      ∀ (f : Factories) (events : List LoopEvent) (w : ClientWorker TcpServerHandler),
        InWebSocket pf w.handler →
          (disconnects
              (ClientWorker.loopAndClose pf (TcpServerHandler.serverHandler pf f) events w).2 =
              disconnects w + 1 ↔
            Along pf (TcpServerHandler.serverHandler pf f) (SurvivesPass pf) events w) := by
  refine ⟨?_, fun f events w hws => disconnect_once_iff hws⟩
  intro σ H events w hcalls
  rcases hon : H.onConnect w.handler with ⟨r, h⟩
  cases r with
  | ret u =>
    rw [paired_iff_of_connected hcalls hon]
    constructor
    · intro halong h' heq
      rw [Prod.mk.injEq] at heq
      exact heq.2 ▸ halong
    · intro hall
      exact hall h rfl
  | exn e =>
    exact iff_of_true (paired_of_not_connected hcalls (by rw [hon]; rfl)) fun h' heq => by cases heq
  | ub =>
    exact iff_of_true (paired_of_not_connected hcalls (by rw [hon]; rfl)) fun h' heq => by cases heq

/-! ## An upgraded client -/

/-- A request to change to the WebSocket protocol. -/
def upgradeRequest : Chunk where
  bytes := ascii "GET / HTTP/1.1\r\nUpgrade: websocket\r\nConnection: Upgrade\r\n" ++
    ascii "Sec-WebSocket-Version: 13\r\nSec-WebSocket-Key: AAAAAAAAAAAAAAAAAAAAAA==\r\n\r\n"
  pos := by decide +kernel
  le := by decide +kernel

/-- The factories of a server of static files whose WebSocket handlers do nothing. -/
def quietFactories : Factories where
  httpHandlerFactory := HttpFileHandlerFactory []
  wsHandlerFactory := ⟨fun _ => .ret WsHandlerNull⟩

/-- A worker whose client has just connected. -/
def newClient : ClientWorker TcpServerHandler :=
  ClientWorker.init (TcpServerHandler.init []) (List.replicate MAX_SIZE 0)

/-- A worker whose client has been upgraded. -/
def upgradedClient : ClientWorker TcpServerHandler :=
  { newClient with
    handler := { newClient.handler with curState := .ws WsHandlerNull HttpWsState.init } }

/-- The condition on a client that goes away at once, before and after an upgrade. -/
theorem notifications_paired_iff_eof :
    (Paired (ClientWorker.run .plain (TcpServerHandler.serverHandler .plain quietFactories) [.eof]
        newClient).2.calls ↔
      ∀ h, TcpServerHandler.onConnect newClient.handler = (.ret (), h) →
        Along .plain (TcpServerHandler.serverHandler .plain quietFactories)
          (Undisturbed .plain (TcpServerHandler.serverHandler .plain quietFactories)) [.eof]
          (connectedWorker newClient h)) ∧
      (disconnects (ClientWorker.loopAndClose .plain
          (TcpServerHandler.serverHandler .plain quietFactories) [.eof] upgradedClient).2 =
          disconnects upgradedClient + 1 ↔
        Along .plain (TcpServerHandler.serverHandler .plain quietFactories) (SurvivesPass .plain)
          [.eof] upgradedClient) :=
  ⟨(notifications_paired_iff .plain).1 _ [.eof] newClient rfl,
    (notifications_paired_iff .plain).2 quietFactories [.eof] upgradedClient
      ⟨WsHandlerNull, HttpWsState.init, rfl, rfl, Nat.zero_le _⟩⟩

/-- A client that is upgraded and sends a stray continuation frame: both notifications of its end
are missing. -/
theorem strayContinuation_not_paired :
    let r := ClientWorker.run .plain (TcpServerHandler.serverHandler .plain quietFactories)
      [.data upgradeRequest, .data strayContinuation] newClient
    WorkerCall.connected ∈ r.2.calls ∧ WorkerCall.disconnect ∉ r.2.calls ∧
      Event.entered .ws ∈ r.2.handler.conn.log ∧ Event.onConnectEnd ∈ r.2.handler.conn.log ∧
      Event.onDisconnect ∉ r.2.handler.conn.log ∧ r.2.isActive = false := by
  decide +kernel

end CppSocks.Analysis
