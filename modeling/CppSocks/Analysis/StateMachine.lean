import CppSocks.Analysis.WebSocketState
import CppSocks.Interface.Lifecycle

/-!
# The state machine of a connection

Every run of a worker with a `TcpServerHandler` follows the life cycle of a
connection, wherever an exception interrupts it (`run_lives`). The invariant of
the loop head (`Inv`) is found in three shapes: nothing has happened yet; the
connection is closed; or the client talks to its WebSocket handler.
-/

set_option autoImplicit false

namespace CppSocks.Analysis

open CppSocks.Model CppSocks.Interface Foundation

/-- The log of the connection leads to this stage. -/
def At (pf : Platform) (p : Phase) (c : Conn) : Prop := (lifecycle pf).Run .fresh c.log p

/-- The log of the connection is that of a possible life. -/
def Lives (pf : Platform) (c : Conn) : Prop := ∃ p, At pf p c

/-! ## Steps of a connection -/

section Steps

variable {pf : Platform} {α : Type} {p q : Phase} {e : Event}

/-- A connection at a stage of its life lives. -/
theorem At.lives {c : Conn} (h : At pf p c) : Lives pf c := ⟨p, h⟩

/-- What user code does happens within a busy stage. -/
theorem run_io (hp : p.busy) {evs : List Event} (hio : ∀ e ∈ evs, IsTransfer e) :
    (lifecycle pf).Run p evs p := by
  induction evs with
  | nil => exact .nil p
  | cons e evs ih =>
    exact .cons (.io hp (hio e List.mem_cons_self))
      (ih fun x hx => hio x (List.mem_cons_of_mem e hx))

/-- Transfers do not leave a busy stage. -/
theorem at_extends {c c' : Conn} {evs : List Event} (hp : p.busy) (h : At pf p c)
    (hlog : c'.log = c.log ++ evs) (hio : ∀ e ∈ evs, IsTransfer e) : At pf p c' := by
  unfold At
  rw [hlog]
  exact h.append (run_io hp hio)

/-- Recording an event takes the life one stage further. -/
theorem triple_record {J : Conn → Prop} (hstep : Phase.Step pf p e q) :
    Act.Triple (At pf p) (Act.modify (Conn.record e) : Action Conn Unit) (fun _ => At pf q) J :=
  Act.triple_modify fun _ hc => hc.snoc hstep

/-- Sending leaves the stage as it is, with or without an exception. -/
theorem triple_send (hp : p.busy) (buf : Bytes) :
    Act.Triple (At pf p) (Connection.send buf) (fun _ => At pf p) (At pf p) := by
  refine Act.triple_of_forall fun c hc => ?_
  obtain ⟨evs, hext, _⟩ := send_extends buf c
  exact at_extends hp hc hext.log_eq hext.isTransfer

variable (pf) in
/-- A callback moves the connection to the stage in which the user's code runs. -/
theorem triple_callback (hstep : Phase.Step pf p e q) (hq : q.busy) (prog : Log → Prog α) :
    Act.Triple (At pf p) (callback pf .self .self e prog) (fun _ => At pf q) (At pf q) := by
  refine Act.triple_of_forall fun c hc => ?_
  obtain ⟨evs, hlog, hio⟩ := callback_log pf e prog c
  refine at_extends (c := c.record e) hq (hc.snoc hstep) ?_ hio
  rw [hlog, Conn.record, List.append_assoc, List.singleton_append]

/-- What leaves the connection at a stage when it throws leaves a possible life behind. -/
theorem lives_of_at {P : Conn → Prop} {Q : α → Conn → Prop} {x : Action Conn α}
    (h : Act.Triple P x Q (At pf p)) : Act.Triple P x Q (Lives pf) :=
  h.mono (fun _ hs => hs) (fun _ _ hs => hs) fun _ hs => hs.lives

/-- `HttpWsState::onEnter` hands over the response and tells the handler of the connection. -/
theorem triple_ws_onEnter (handler : WsHandler) (requestInfo : RequestInfo) :
    Act.Triple (At pf .creatingWs) (HttpWsState.onEnter pf handler requestInfo)
      (fun _ => At pf .connected) (Lives pf) := by
  have hsub := lives_of_at (triple_callback pf .subprotocol trivial handler.subprotocol)
  have hstay : ∀ s, At pf .creatingWs s → Lives pf s := fun s hs => hs.lives
  have hrest : ∀ protocol : Bytes, Act.Triple (At pf .creatingWs) (do
      let key ← Act.lift (requestInfo.headers.at (ascii "Sec-WebSocket-Key"))
      let response := HttpWsState.switchingProtocols pf protocol key
      Act.modify (Conn.record (.handed response))
      let _ ← Connection.send response
      callback pf .self .self .onConnect handler.onConnect
      Act.modify (Conn.record .onConnectEnd)) (fun _ => At pf .connected) (Lives pf) := by
    intro protocol
    refine Act.triple_bind (Q := fun _ => At pf .creatingWs)
      (Act.triple_lift (fun _ s hs => hs) hstay) fun key => ?_
    refine Act.triple_bind (Q := fun _ => At pf .handedOver) (triple_record (.handed protocol key))
      fun _ => ?_
    refine Act.triple_bind (lives_of_at (triple_send (p := .handedOver) trivial _)) fun _ => ?_
    refine Act.triple_bind (lives_of_at (triple_callback pf .onConnect trivial handler.onConnect))
      fun _ => ?_
    exact triple_record .onConnectEnd
  unfold HttpWsState.onEnter
  refine Act.triple_bind hsub fun first => ?_
  dsimp only
  split
  · exact Act.triple_bind (Act.triple_pure fun s hs => hs) hrest
  · refine Act.triple_bind hsub fun second => ?_
    exact Act.triple_bind (Act.triple_pure fun s hs => hs) hrest

/-- `HttpGetState::onEnter` leaves the connection silent, and closed if it returns. -/
theorem triple_get_onEnter (handler : HttpHandler) (requestInfo : RequestInfo) :
    Act.Triple (At pf .creatingHttp) (HttpGetState.onEnter pf handler requestInfo)
      (fun _ c => At pf .got c ∧ c.closed = true) (Lives pf) := by
  have hcall : Act.Triple (At pf .creatingHttp) (HttpGetState.doGetCall pf handler requestInfo)
      (fun _ => At pf .got) (At pf .got) := by
    refine Act.triple_of_forall fun c hc => ?_
    have hget : At pf .getting (callback pf .self .self .doGet
        (fun log => handler.do_GET log requestInfo) c).2 :=
      (triple_callback pf .doGet trivial fun log => handler.do_GET log requestInfo).forall
        (fun _ _ hs => hs) hc
    exact hget.snoc .doGetEnd
  unfold HttpGetState.onEnter
  exact Act.triple_bind (lives_of_at hcall) fun _ => Act.triple_modify fun s hs => ⟨hs, rfl⟩

end Steps

/-! ## Steps of the state machine -/

/-- `HttpInitState` is the current state, and no other one has been chosen. -/
def Idle (h : TcpServerHandler) : Prop := (∃ s, h.curState = .init s) ∧ h.nextState = none

/-- Nothing has happened yet. -/
def Waits (pf : Platform) (h : TcpServerHandler) : Prop := At pf .fresh h.conn ∧ Idle h

/-- Something has gone wrong before the next state was chosen. -/
def Failed (pf : Platform) (h : TcpServerHandler) : Prop := Lives pf h.conn ∧ Idle h

/-- The next state has been chosen and entered, but is not yet the current one. -/
def Chosen (pf : Platform) (h : TcpServerHandler) : Prop :=
  (∃ handler, h.nextState = some (.get handler) ∧ At pf .got h.conn ∧ h.conn.closed = true) ∨
    ∃ handler, h.nextState = some (.ws handler HttpWsState.init) ∧ At pf .connected h.conn

/-- The connection is closed, and there is no WebSocket handler to be told. -/
def Over (pf : Platform) (h : TcpServerHandler) : Prop :=
  Lives pf h.conn ∧ h.conn.closed = true ∧ h.nextState = none ∧ h.curState.kind ≠ .ws

/-- The client talks to its WebSocket handler. -/
def Talks (pf : Platform) (h : TcpServerHandler) : Prop :=
  At pf .talking h.conn ∧ InWebSocket pf h

/-- The invariant of the loop head. -/
def Inv (pf : Platform) (h : TcpServerHandler) : Prop := Waits pf h ∨ Over pf h ∨ Talks pf h

/-- The connection of a handler with the invariant lives. -/
theorem Inv.lives {pf : Platform} {h : TcpServerHandler} (hinv : Inv pf h) : Lives pf h.conn := by
  obtain h | h | h := hinv
  · exact h.1.lives
  · exact h.1
  · exact h.1.lives

section Machine

variable {pf : Platform} {f : Factories}

/-- A computation on the connection leaves the states alone. -/
theorem triple_tcpConnection {α : Type} {A C : Conn → Prop} {B : α → Conn → Prop}
    {x : Action Conn α} (h : Act.Triple A x B C) :
    Act.Triple (fun h => A h.conn ∧ Idle h) (TcpServerHandler.tcpConnection x)
      (fun a h => B a h.conn ∧ Idle h) (fun h => C h.conn ∧ Idle h) :=
  Act.triple_zoom h (fun _ _ => rfl) fun _ _ hs => hs

/-- Making the GET state asks the HTTP factory once and enters nothing yet. -/
theorem triple_newHttpGetState :
    Act.Triple (Waits pf) (TcpServerHandler.newHttpGetState pf f)
      (fun next h => (∃ handler, next = .get handler) ∧ At pf .creatingHttp h.conn ∧ Idle h)
      (Failed pf) := by
  unfold TcpServerHandler.newHttpGetState
  refine Act.triple_bind (triple_tcpConnection
    (lives_of_at (triple_callback pf .createHttpHandler trivial _))) fun handler => ?_
  exact Act.triple_pure fun s hs => ⟨⟨handler, rfl⟩, hs⟩

/-- Making the WebSocket state asks the WebSocket factory once and enters nothing yet. -/
theorem triple_newHttpWsState :
    Act.Triple (Waits pf) (TcpServerHandler.newHttpWsState pf f)
      (fun next h => (∃ handler, next = .ws handler HttpWsState.init) ∧
        At pf .creatingWs h.conn ∧ Idle h)
      (Failed pf) := by
  unfold TcpServerHandler.newHttpWsState
  refine Act.triple_bind (triple_tcpConnection
    (lives_of_at (triple_callback pf .createWsHandler trivial _))) fun handler => ?_
  exact Act.triple_pure fun s hs => ⟨⟨handler, rfl⟩, hs⟩

/-- `setNextState` enters the state before it chooses it. -/
theorem triple_setNextState {p : Phase} {next : HttpState} {B : Conn → Prop}
    (h : ∀ info, Act.Triple (At pf p) (TcpServerHandler.onEnter pf next info) (fun _ => B)
      (Lives pf)) :
    Act.Triple (fun h => At pf p h.conn ∧ Idle h) (TcpServerHandler.setNextState pf next)
      (fun _ h => h.nextState = some next ∧ B h.conn) (Failed pf) := by
  unfold TcpServerHandler.setNextState
  refine Act.triple_bind (Act.triple_gets (Q := fun _ h => At pf p h.conn ∧ Idle h)
    fun _ hs => hs) fun info => ?_
  refine Act.triple_bind (triple_tcpConnection (h info)) fun _ => ?_
  exact Act.triple_modify fun s hs => ⟨rfl, hs.1⟩

/-- Parsing the request changes neither the connection nor the states. -/
theorem parse_waits (s : TcpServerHandler) (hs : Waits pf s) (x : Act Exc RequestInfo Unit) :
    Waits pf (TcpServerHandler.onRequest x s).2 := hs

/-- Parsing chooses a state, or goes on waiting, or fails without a state being entered. -/
theorem triple_parseAndEnter (s : HttpInitState) :
    Act.Triple (Waits pf) (HttpInitState.parseAndEnter pf f s)
      (fun returned h => if returned then Chosen pf h else Waits pf h) (Failed pf) := by
  have hfail : ∀ h, Waits pf h → Failed pf h := fun h hs => ⟨hs.1.lives, hs.2⟩
  unfold HttpInitState.parseAndEnter
  refine Act.triple_bind (Q := fun _ => Waits pf) ?_ fun _ => ?_
  · refine (Act.triple_of_forall (R := Waits pf) fun h hs => parse_waits h hs _).mono
      (fun _ hs => hs) (fun _ _ hs => hs) hfail
  · refine Act.triple_bind (Q := fun _ => Waits pf) (Act.triple_gets fun _ hs => hs) fun info => ?_
    split
    · refine Act.triple_bind triple_newHttpGetState fun next => ?_
      rintro h ⟨⟨handler, rfl⟩, hs⟩
      refine Act.triple_bind (triple_setNextState fun info => triple_get_onEnter handler info)
        (fun _ => ?_) h hs
      exact Act.triple_pure fun h hs => Or.inl ⟨handler, hs.1, hs.2⟩
    · refine Act.triple_bind triple_newHttpWsState fun next => ?_
      rintro h ⟨⟨handler, rfl⟩, hs⟩
      refine Act.triple_bind (triple_setNextState fun info => triple_ws_onEnter handler info)
        (fun _ => ?_) h hs
      exact Act.triple_pure fun h hs => Or.inr ⟨handler, hs.1, hs.2⟩
    · exact Act.triple_pure fun h hs => hs

/-- The `try` block of `HttpInitState::onReceive`. -/
theorem triple_receiveRequest (s : HttpInitState) (mem : Mem) (len : ℕ) :
    Act.Triple (Waits pf) (HttpInitState.receiveRequest pf f s mem len)
      (fun returned h => if returned then Waits pf h ∨ Chosen pf h else Failed pf h)
      (Failed pf) := by
  have hfail : ∀ h, Waits pf h → Failed pf h := fun h hs => ⟨hs.1.lives, hs.2⟩
  have hlift : ∀ {α : Type} (r : Call α), Act.Triple (Waits pf) (Act.lift r)
      (fun _ => Waits pf) (Failed pf) := fun r => Act.triple_lift (fun _ _ hs => hs) hfail
  have hstore : ∀ s : HttpInitState, Act.Triple (Waits pf)
      (Act.modify fun h => { h with curState := .init s } : Action TcpServerHandler Unit)
      (fun _ => Waits pf) (Failed pf) :=
    fun s => Act.triple_modify fun h hs => ⟨hs.1, ⟨s, rfl⟩, hs.2.2⟩
  unfold HttpInitState.receiveRequest
  refine Act.triple_bind (hlift _) fun bytes => ?_
  refine Act.triple_bind (hlift _) fun s => ?_
  refine Act.triple_bind (hstore s) fun _ => ?_
  split
  · exact Act.triple_pure fun h hs => Or.inl hs
  · refine Act.triple_bind (hstore _) fun _ => ?_
    refine (triple_parseAndEnter _).mono (fun _ hs => hs) ?_ fun _ hs => hs
    intro returned h hs
    cases returned with
    | true => exact Or.inr hs
    | false => exact hfail h hs

/-- `HttpInitState::onReceive` waits for more, has chosen the next state, or closes. -/
theorem triple_init_onReceive (s : HttpInitState) (mem : Mem) (len : ℕ) :
    Act.Triple (Waits pf) (HttpInitState.onReceive pf f s mem len)
      (fun _ h => Waits pf h ∨ Chosen pf h ∨ (Failed pf h ∧ h.conn.closed = true))
      (fun h => Lives pf h.conn) := by
  unfold HttpInitState.onReceive
  refine Act.triple_bind (Act.triple_tryCatch (triple_receiveRequest s mem len)
    (fun e => Act.triple_pure fun h hs => hs) fun h hs => hs.1) fun returned => ?_
  cases returned with
  | true => exact Act.triple_pure fun h hs => hs.imp_right Or.inl
  | false => exact Act.triple_modify fun h hs => Or.inr (Or.inr ⟨hs, rfl⟩)

/-- The swap at the end of `onReceive` gives the invariant back. -/
theorem installNextState_inv {h : TcpServerHandler}
    (hs : Waits pf h ∨ Chosen pf h ∨ (Failed pf h ∧ h.conn.closed = true)) :
    ∃ h', TcpServerHandler.installNextState h = (.ret (), h') ∧ Inv pf h' := by
  unfold TcpServerHandler.installNextState
  refine ⟨_, Act.modify_apply _ h, ?_⟩
  obtain hs | (⟨handler, hnext, hat, hclosed⟩ | ⟨handler, hnext, hat⟩) | ⟨⟨hlives, hidle⟩, hclosed⟩
    := hs
  · simp only [hs.2.2]
    exact Or.inl hs
  · simp only [hnext]
    exact Or.inr (Or.inl ⟨⟨.waiting, hat.snoc .enteredGet⟩, hclosed, rfl, fun hk => by cases hk⟩)
  · simp only [hnext]
    exact Or.inr (Or.inr ⟨hat.snoc .enteredWs, handler, HttpWsState.init, rfl, rfl, Nat.zero_le _⟩)
  · simp only [hidle.2]
    obtain ⟨s, hs⟩ := hidle.1
    refine Or.inr (Or.inl ⟨hlives, hclosed, hidle.2, ?_⟩)
    rw [hs]
    exact fun hk => by cases hk

/-- Messages and what user code does belong to the stage in which the client talks. -/
theorem run_activity {evs : List Event} (hact : ∀ e ∈ evs, IsActivity e) :
    (lifecycle pf).Run .talking evs .talking := by
  induction evs with
  | nil => exact .nil _
  | cons e evs ih =>
    refine .cons ?_ (ih fun x hx => hact x (List.mem_cons_of_mem e hx))
    obtain hio | hmsg := hact e List.mem_cons_self
    · exact .io trivial hio
    · exact .message hmsg

/-- One call of `TcpServerHandler::onReceive` on an open connection. -/
theorem onReceive_inv {h : TcpServerHandler} (hinv : Inv pf h) (hopen : h.conn.closed = false)
    (mem : Mem) (len : ℕ) :
    Lives pf (TcpServerHandler.onReceive pf f mem len h).2.conn ∧
      ((TcpServerHandler.onReceive pf f mem len h).1 = .ret () →
        Inv pf (TcpServerHandler.onReceive pf f mem len h).2) := by
  obtain hs | hs | hs := hinv
  · obtain ⟨s, hcur⟩ := hs.2.1
    have hstate : TcpServerHandler.stateReceive pf f mem len h =
        HttpInitState.onReceive pf f s mem len h := by
      unfold TcpServerHandler.stateReceive
      rw [hcur]
    have hrec := triple_init_onReceive (f := f) s mem len h hs
    rw [TcpServerHandler.onReceive, Act.bind_apply, hstate]
    rcases hr : HttpInitState.onReceive pf f s mem len h with ⟨r, h'⟩
    rw [hr] at hrec
    cases r with
    | ret u =>
      obtain ⟨h'', hinst, hinv⟩ := installNextState_inv hrec
      dsimp only
      rw [hinst]
      exact ⟨hinv.lives, fun _ => hinv⟩
    | exn e => exact ⟨hrec, fun hret => by cases hret⟩
    | ub => exact ⟨hrec, fun hret => by cases hret⟩
  · rw [hs.2.1] at hopen
    cases hopen
  · obtain ⟨evs, hlog, hact⟩ := inWebSocket_log f mem len hs.2
    have htalks : Talks pf (TcpServerHandler.onReceive pf f mem len h).2 := by
      refine ⟨?_, inWebSocket_onReceive hs.2⟩
      unfold At
      rw [hlog]
      exact hs.1.append (run_activity hact)
    exact ⟨htalks.1.lives, fun _ => Or.inr (Or.inr htalks)⟩

/-- The notification of the end. -/
theorem onDisconnect_lives {h : TcpServerHandler} (hinv : Inv pf h) :
    Lives pf (TcpServerHandler.onDisconnect pf h).2.conn := by
  have hquiet : h.curState.kind ≠ .ws → (TcpServerHandler.onDisconnect pf h).2 = h := by
    intro hkind
    unfold TcpServerHandler.onDisconnect
    cases hcur : h.curState with
    | init s => rfl
    | get handler => rfl
    | ws handler s =>
      rw [hcur] at hkind
      exact absurd rfl hkind
  obtain hs | hs | hs := hinv
  · rw [hquiet]
    · exact hs.1.lives
    · obtain ⟨s, hcur⟩ := hs.2.1
      rw [hcur]
      exact fun hk => by cases hk
  · rw [hquiet hs.2.2.2]
    exact hs.1
  · obtain ⟨evs, hlog, hio⟩ := onDisconnect_ws hs.2
    refine ⟨.talking, ?_⟩
    unfold At
    rw [hlog]
    exact hs.1.append (.cons .onDisconnect (run_io (p := .talking) trivial hio))

/-! ## Runs -/

variable (pf f) in
/-- Every run of a worker follows the life cycle of a connection. -/
theorem run_lives (script : List WriteResult) (buf : Bytes) (events : List LoopEvent) :
    Lives pf (ClientWorker.run pf (TcpServerHandler.serverHandler pf f) events
      (ClientWorker.init (TcpServerHandler.init script) buf)).2.handler.conn := by
  have hstart : Inv pf (TcpServerHandler.init script) :=
    Or.inl ⟨.nil _, ⟨HttpInitState.init, rfl⟩, rfl⟩
  have hconnect : ClientWorker.handle (TcpServerHandler.serverHandler pf f).onConnect
      (ClientWorker.init (TcpServerHandler.init script) buf) =
        (.ret (), ClientWorker.init (TcpServerHandler.init script) buf) := rfl
  rw [ClientWorker.run, finishRun_handler, Act.bind_of_ret hconnect,
    Act.bind_of_ret (Act.modify_apply _ _)]
  obtain ⟨hlives, hinv⟩ := loop_rule pf (TcpServerHandler.serverHandler pf f)
    (I := fun w => Inv pf w.handler) (J := fun w => Lives pf w.handler.conn)
    (w := ClientWorker.record .connected (ClientWorker.init (TcpServerHandler.init script) buf))
    (fun w hw => hw.lives)
    (by
      intro chunk w hw hopen
      rw [receive_apply]
      exact onReceive_inv hw hopen _ _) events hstart
  cases hret : (ClientWorker.loop pf (TcpServerHandler.serverHandler pf f) events
      (ClientWorker.record .connected
        (ClientWorker.init (TcpServerHandler.init script) buf))).1.isRet with
  | true =>
    obtain ⟨_, _, _, hhandler⟩ := loopAndClose_of_returns hret
    rw [hhandler]
    exact onDisconnect_lives (hinv hret)
  | false =>
    rw [loopAndClose_of_not_returns hret]
    exact hlives

end Machine

/-- In every run of a worker, over any outcomes of the socket and with any handlers and factories: at
most one handler is created, the state changes at most once and never to the initial one,
messages are delivered only behind the handed over 101 response and the end of `onConnect`, and
when `do_GET` is over, no byte is written and no callback is made any more. -/
theorem state_machine_safe (pf : Platform) (f : Factories) (script : List WriteResult)
    (buf : Bytes) (events : List LoopEvent) :
    let log := (ClientWorker.run pf (TcpServerHandler.serverHandler pf f) events
      (ClientWorker.init (TcpServerHandler.init script) buf)).2.handler.conn.log
    log.count .createHttpHandler + log.count .createWsHandler ≤ 1 ∧
      log.countP isEntered ≤ 1 ∧ Event.entered .init ∉ log ∧
      (∀ pre e post, log = pre ++ e :: post → e.isMessage = true →
        (∃ protocol key, Event.handed (HttpWsState.switchingProtocols pf protocol key) ∈ pre) ∧
          Event.onConnectEnd ∈ pre) ∧
      ∀ pre post, log = pre ++ .doGetEnd :: post → ∀ e ∈ post, e = .entered .get := by
  obtain ⟨p, hrun⟩ := run_lives pf f script buf events
  refine ⟨created_le_one hrun, changed_le_one hrun, not_entered_init hrun, ?_, ?_⟩
  · intro pre e post hlog he
    unfold At at hrun
    rw [hlog] at hrun
    exact message_after_connect hrun he
  · intro pre post hlog
    unfold At at hrun
    rw [hlog] at hrun
    exact silent_after_get hrun

end CppSocks.Analysis
