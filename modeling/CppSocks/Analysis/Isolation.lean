import CppSocks.Analysis.MalformedChunks
import CppSocks.Analysis.Pairing
import CppSocks.Analysis.Segmentation
import CppSocks.Analysis.SentStream
import CppSocks.Foundation.Transition
import CppSocks.Model.Clients

/-!
# Isolation of connections

The reply to a close frame goes to the connection that the client's handler was
made with. For a server with a `WsHandlerNullFactory` this is the connection of the
first client that was upgraded, whoever sends the close frame. `closes_own_iff`
says when the reply nevertheless goes to the right connection.
-/

set_option autoImplicit false

namespace CppSocks.Analysis

open CppSocks.Model CppSocks.Interface Foundation

/-! ## Ports -/

section Ports

variable {σ : Type} {pf : Platform} {fsm conn : Port σ} {handler : WsHandler} {I : σ → Prop}

/-- Whatever is done through the port, the property of the state behind it is kept. -/
def Keeps (port : Port σ) (I : σ → Prop) : Prop :=
  ∀ {α : Type} (x : Action Conn α) (t : σ), I t → I (port.run x t).2

/-- What a computation keeps of the connection and the state machine, it keeps next to the
reassembly state too. -/
theorem preserves_outer {α : Type} {x : Action σ α} (h : Act.Preserves I x) :
    Act.Preserves (fun p : HttpWsState × σ => I p.2) (HttpWsState.outer x) :=
  fun p hp => h p.2 hp

/-- A change of the reassembly state leaves everything else alone. -/
theorem preserves_modifySelf (g : HttpWsState → HttpWsState) :
    Act.Preserves (fun p : HttpWsState × σ => I p.2) (HttpWsState.modifySelf g) :=
  Act.preserves_modify fun _ h => h

/-- A callback keeps what the two ports keep, whatever the user code does in it. -/
theorem preserves_callback {α : Type} (hfsm : Keeps fsm I) (hconn : Keeps conn I) (e : Event)
    (p : Log → Prog α) : Act.Preserves I (callback pf fsm conn e p) := by
  unfold callback
  refine Act.preserves_bind (hfsm _) fun _ => ?_
  refine Act.preserves_bind (hfsm _) fun log => ?_
  exact hconn _

/-- Acting on a message. -/
theorem preserves_dispatch (hfsm : Keeps fsm I) (hconn : Keeps conn I) (s : HttpWsState) :
    Act.Preserves (fun p : HttpWsState × σ => I p.2)
      (HttpWsState.dispatch pf fsm conn handler s) := by
  have hcall : ∀ (e : Event) (q : Log → Prog Unit), Act.Preserves (fun p : HttpWsState × σ => I p.2)
      (HttpWsState.outer (callback pf fsm conn e q)) := fun e q =>
    preserves_outer (preserves_callback hfsm hconn e q)
  obtain h | h | h | h | h | h := opcode_cases s.opcode
  · rw [dispatch_continuation h]
    exact Act.preserves_throw _
  · rw [dispatch_close h]
    exact preserves_outer (hconn _)
  · by_cases hlen : s.inBuf.length ≤ 65535
    · rw [dispatch_ping h hlen]
      exact Act.preserves_bind (preserves_outer (hfsm _)) fun _ => Act.preserves_pure _
    · rw [dispatch_ping_long h (Nat.lt_of_not_le hlen)]
      exact Act.preserves_throw _
  · rw [dispatch_binary h]
    exact hcall _ _
  · rw [dispatch_text_eq h]
    refine Act.preserves_bind (Act.preserves_lift _) fun terminated => ?_
    refine Act.preserves_bind (preserves_modifySelf _) fun _ => ?_
    exact hcall _ _
  · rw [dispatch_ignored h]
    exact Act.preserves_pure _

variable (pf handler) in
/-- `HttpWsState::onReceive` acts on the state behind its ports through these only. -/
theorem preserves_onReceive (hfsm : Keeps fsm I) (hconn : Keeps conn I) (mem : Mem) (len : ℕ) :
    Act.Preserves (fun p : HttpWsState × σ => I p.2)
      (HttpWsState.onReceive pf fsm conn handler mem len) := by
  unfold HttpWsState.onReceive HttpWsState.receiveFrame
  refine Act.preserves_tryCatch ?_ fun e => ?_
  · refine Act.preserves_bind (Act.preserves_gets _) fun inBuf => ?_
    refine Act.preserves_bind (Act.preserves_lift _) fun decoded => ?_
    obtain ⟨filled, opcode_, fin⟩ := decoded
    refine Act.preserves_bind (preserves_modifySelf _) fun _ => ?_
    have hrest : Act.Preserves (fun p : HttpWsState × σ => I p.2)
        (if !fin then pure ()
          else do
            let s ← Act.gets Prod.fst
            HttpWsState.dispatch pf fsm conn handler s
            HttpWsState.modifySelf fun s => { s with inBuf := [] } :
          Action (HttpWsState × σ) Unit) := by
      split
      · exact Act.preserves_pure _
      · refine Act.preserves_bind (Act.preserves_gets _) fun s => ?_
        exact Act.preserves_bind (preserves_dispatch hfsm hconn s) fun _ => preserves_modifySelf _
    dsimp only
    split
    · exact Act.preserves_bind (preserves_modifySelf _) fun _ => hrest
    · exact hrest
  · split
    · exact Act.preserves_pure _
    · exact Act.preserves_throw e

end Ports

/-! ## States with the static handler -/

/-- A WebSocket state has the handler that does nothing, and a buffer that a vector can hold. -/
def NullState (pf : Platform) : HttpState → Prop
  | .ws handler s => handler = WsHandlerNull ∧ s.inBuf.length ≤ pf.maxSize
  | _ => True

/-- The states of a client's `TcpServerHandler` are such states. -/
structure NullStates (pf : Platform) (h : TcpServerHandler) : Prop where
  cur : NullState pf h.curState
  next : ∀ next, h.nextState = some next → NullState pf next

section States

variable {pf : Platform} {f : HttpHandlerFactory}

/-- Shorthand for a computation that keeps the states such. -/
def KeepsNull (pf : Platform) {α : Type} (x : Action TcpServerHandler α) : Prop :=
  Act.Triple (NullStates pf) x (fun _ => NullStates pf) (NullStates pf)

/-- What a client does with its connection does not change its state. -/
theorem keepsNull_tcpConnection {α : Type} (x : Action Conn α) :
    KeepsNull pf (TcpServerHandler.tcpConnection x) :=
  Act.triple_of_forall fun _ hs => ⟨hs.cur, hs.next⟩

/-- The next state is set to one that the library's own handler can be in. -/
theorem keepsNull_setNextState {next : HttpState} (hnext : NullState pf next) :
    KeepsNull pf (TcpServerHandler.setNextState pf next) := by
  unfold KeepsNull TcpServerHandler.setNextState
  refine Act.triple_bind (Q := fun _ => NullStates pf) (Act.triple_gets fun _ hs => hs)
    fun info => ?_
  refine Act.triple_bind (keepsNull_tcpConnection _) fun _ => ?_
  refine Act.triple_modify fun h hs => ⟨hs.cur, ?_⟩
  rintro next' heq
  exact Option.some.inj heq ▸ hnext

/-- The factory hands out the handler that does nothing. -/
theorem triple_newNullState :
    Act.Triple (NullStates pf) (TcpServerHandler.newHttpWsState pf ⟨f, WsHandlerNullFactory⟩)
      (fun next h => NullState pf next ∧ NullStates pf h) (NullStates pf) := by
  rintro h hs
  exact ⟨⟨rfl, Nat.zero_le _⟩, hs.cur, hs.next⟩

/-- A request leads to a GET state, or to a WebSocket state with the static handler. -/
theorem keepsNull_parseAndEnter (s : HttpInitState) :
    KeepsNull pf (HttpInitState.parseAndEnter pf ⟨f, WsHandlerNullFactory⟩ s) := by
  have henter : ∀ next, NullState pf next → KeepsNull pf (do
      TcpServerHandler.setNextState pf next
      pure true) := by
    intro next hnext
    refine Act.triple_bind (keepsNull_setNextState hnext) fun _ => ?_
    exact Act.triple_pure fun _ hs => hs
  unfold KeepsNull HttpInitState.parseAndEnter
  refine Act.triple_bind (Act.triple_of_forall fun h hs => ⟨hs.cur, hs.next⟩) fun _ => ?_
  refine Act.triple_bind (Q := fun _ => NullStates pf) (Act.triple_gets fun _ hs => hs)
    fun info => ?_
  split
  · unfold TcpServerHandler.newHttpGetState
    refine Act.triple_bind (Q := fun next h => NullState pf next ∧ NullStates pf h) ?_ fun next => ?_
    · exact Act.triple_bind (keepsNull_tcpConnection _) fun handler =>
        Act.triple_pure fun h hs => ⟨trivial, hs⟩
    · rintro h ⟨hnext, hs⟩
      exact henter next hnext h hs
  · refine Act.triple_bind triple_newNullState fun next => ?_
    rintro h ⟨hnext, hs⟩
    exact henter next hnext h hs
  · exact Act.triple_pure fun _ hs => hs

/-- A chunk that comes while the request is being received leads to such states only. -/
theorem keepsNull_init_onReceive (s : HttpInitState) (mem : Mem) (len : ℕ) :
    KeepsNull pf (HttpInitState.onReceive pf ⟨f, WsHandlerNullFactory⟩ s mem len) := by
  have hlift : ∀ {α : Type} (r : Call α), KeepsNull pf (Act.lift r) := fun r =>
    Act.triple_lift (fun _ _ hs => hs) fun _ hs => hs
  have hstore : ∀ s : HttpInitState, KeepsNull pf (Act.modify fun h => { h with curState := .init s } :
      Action TcpServerHandler Unit) := fun s => Act.triple_modify fun h hs => ⟨trivial, hs.next⟩
  have hrequest : KeepsNull pf
      (HttpInitState.receiveRequest pf ⟨f, WsHandlerNullFactory⟩ s mem len) := by
    unfold KeepsNull HttpInitState.receiveRequest
    refine Act.triple_bind (hlift _) fun bytes => Act.triple_bind (hlift _) fun s =>
      Act.triple_bind (hstore s) fun _ => ?_
    split
    · exact Act.triple_pure fun _ hs => hs
    · exact Act.triple_bind (hstore _) fun _ => keepsNull_parseAndEnter _
  unfold KeepsNull HttpInitState.onReceive
  refine Act.triple_bind (Act.triple_tryCatch hrequest
    (fun e => Act.triple_pure fun _ hs => hs) fun _ hs => hs) fun returned => ?_
  cases returned with
  | true => exact Act.triple_pure fun _ hs => hs
  | false => exact keepsNull_tcpConnection _

/-- The next state becomes the current one, and there is no next one any more. -/
theorem keepsNull_installNextState : KeepsNull pf TcpServerHandler.installNextState := by
  refine Act.triple_modify fun h hs => ?_
  cases hnext : h.nextState with
  | none => exact hs
  | some next => exact ⟨hs.next next hnext, fun _ heq => by cases heq⟩

/-- `TcpServerHandler::onReceive` in the states in front of the WebSocket state. -/
theorem keepsNull_onReceive {h : TcpServerHandler} (hs : NullStates pf h)
    (hws : h.curState.kind ≠ .ws) (mem : Mem) (len : ℕ) :
    NullStates pf (TcpServerHandler.onReceive pf ⟨f, WsHandlerNullFactory⟩ mem len h).2 := by
  have hstate : NullStates pf
      (TcpServerHandler.stateReceive pf ⟨f, WsHandlerNullFactory⟩ mem len h).2 := by
    unfold TcpServerHandler.stateReceive
    cases hcur : h.curState with
    | init s => exact (keepsNull_init_onReceive s mem len).forall (fun _ _ hs => hs) hs
    | get handler => exact hs
    | ws handler s => rw [hcur] at hws; exact absurd rfl hws
  rw [TcpServerHandler.onReceive, Act.bind_apply]
  rcases hr : TcpServerHandler.stateReceive pf ⟨f, WsHandlerNullFactory⟩ mem len h with ⟨r, h'⟩
  rw [hr] at hstate
  cases r with
  | ret u => exact keepsNull_installNextState.forall (fun _ _ hs => hs) hstate
  | exn e => exact hstate
  | ub => exact hstate

end States

/-! ## All clients -/

section Invariant

variable {I : Type} [DecidableEq I] {pf : Platform} {f : HttpHandlerFactory} {s s' : Clients I}
  {i : I}

/-- The states of every client have the static handler. -/
def NullClients (pf : Platform) (s : Clients I) : Prop :=
  ∀ i c, s.slot i = .live c → NullStates pf c.handler

/-- The slot that is put for a client is found there. -/
@[simp] theorem slot_put_self (s : Clients I) (i : I) (slot : Slot) :
    (s.put i slot).slot i = slot := by
  simp [Clients.put]

/-- The slots of the other clients stay as they are. -/
theorem slot_put_ne (s : Clients I) {i j : I} (h : j ≠ i) (slot : Slot) :
    (s.put i slot).slot j = s.slot j := by
  simp [Clients.put, h]

/-- The static handler stays with the client that made it, whatever slot is put. -/
@[simp] theorem wsHandlerNull_put (s : Clients I) (i : I) (slot : Slot) :
    (s.put i slot).wsHandlerNull = s.wsHandlerNull := rfl

/-- A client can be put where all others are as they should be, if it is so itself. -/
theorem nullClients_put (h : NullClients pf s) {slot : Slot}
    (hslot : ∀ c, slot = .live c → NullStates pf c.handler) : NullClients pf (s.put i slot) := by
  intro j c hc
  by_cases heq : j = i
  · subst heq
    rw [slot_put_self] at hc
    exact hslot c hc
  · rw [slot_put_ne s heq] at hc
    exact h j c hc

/-- A worker that goes on to another point keeps its state. -/
theorem nullClients_goTo (h : NullClients pf s) (i : I) (point : WorkerPoint) :
    NullClients pf (s.goTo i point) := by
  unfold Clients.goTo
  split
  · rename_i c hc
    refine nullClients_put h fun c' hc' => ?_
    rw [← Slot.live.inj hc']
    exact h i c hc
  · exact h

/-- A computation on the handler of one client concerns this client only. -/
theorem nullClients_withHandler {α : Type} {x : Action TcpServerHandler α} (h : NullClients pf s)
    (hx : ∀ c, s.slot i = .live c → NullStates pf (x c.handler).2) :
    NullClients pf (Clients.withHandler i x s).2 := by
  unfold Clients.withHandler
  split
  · rename_i c hc
    refine nullClients_put h fun c' hc' => ?_
    rw [← Slot.live.inj hc']
    exact hx c hc
  · exact h

/-- A computation that keeps the states of one client such keeps those of all. -/
theorem nullClients_of_keepsNull {α : Type} {x : Action TcpServerHandler α} (h : NullClients pf s)
    (hx : KeepsNull pf x) : NullClients pf (Clients.withHandler i x s).2 :=
  nullClients_withHandler h fun c hc => hx.forall (fun _ _ hs => hs) (h i c hc)

/-- The connection of a client is used without a change of any state. -/
theorem keeps_connection (i : I) : Keeps (Clients.connection i) (NullClients pf) :=
  fun x _ hs => nullClients_of_keepsNull hs (keepsNull_tcpConnection x)

/-- The connection that the static handler was made with is used without a change of any state. -/
theorem keeps_nullConnection : Keeps (Clients.nullConnection (I := I)) (NullClients pf) := by
  intro α x s hs
  unfold Clients.nullConnection
  dsimp only
  split
  · exact keeps_connection _ x s hs
  · exact hs

omit [DecidableEq I] in
/-- The static handler is made without a change of any client. -/
theorem slot_initStatic (i : I) (s : Clients I) : (Clients.initStatic i s).slot = s.slot := by
  unfold Clients.initStatic
  split
  · split <;> rfl
  · rfl

/-- A chunk for the static handler changes the reassembly state of the client it came from, and this
stays within the bounds of a vector. -/
theorem nullClients_wsReceive (h : NullClients pf s) (i : I) {st : HttpWsState}
    (hst : st.inBuf.length ≤ pf.maxSize) (mem : Mem) (len : ℕ) :
    NullClients pf (Clients.wsReceive pf i WsHandlerNull st mem len s).2 := by
  have hkeep := preserves_onReceive pf WsHandlerNull (keeps_connection i)
    keeps_nullConnection mem len (st, s) h
  refine nullClients_withHandler hkeep fun c hc => ⟨⟨rfl, ?_⟩, (hkeep i c hc).next⟩
  exact onReceive_length_le _ _ _ s hst

/-- In the WebSocket state. -/
theorem onReceive_live_ws {c : Client} {handler : WsHandler} {st : HttpWsState}
    (hc : s.slot i = .live c) (hcur : c.handler.curState = .ws handler st) (mem : Mem) (len : ℕ) :
    Clients.onReceive pf f i mem len s = (do
      Clients.wsReceive pf i handler st mem len
      Clients.withHandler i TcpServerHandler.installNextState : Action (Clients I) Unit) s := by
  unfold Clients.onReceive
  rw [hc]
  dsimp only
  rw [hcur]

/-- In the states in front of it. -/
theorem onReceive_live_http {c : Client} (hc : s.slot i = .live c)
    (hcur : c.handler.curState.kind ≠ .ws) (mem : Mem) (len : ℕ) :
    (Clients.onReceive pf f i mem len s).2 = Clients.initStatic i (Clients.withHandler i
      (TcpServerHandler.onReceive pf ⟨f, WsHandlerNullFactory⟩ mem len) s).2 := by
  unfold Clients.onReceive
  rw [hc]
  dsimp only
  cases hstate : c.handler.curState with
  | init st => rfl
  | get handler => rfl
  | ws handler st => rw [hstate] at hcur; exact absurd rfl hcur

/-- A chunk for a client, in whichever state it is. -/
theorem nullClients_onReceive (h : NullClients pf s) {c : Client} (hc : s.slot i = .live c)
    (mem : Mem) (len : ℕ) : NullClients pf (Clients.onReceive pf f i mem len s).2 := by
  by_cases hws : c.handler.curState.kind = .ws
  · cases hcur : c.handler.curState with
    | init st => rw [hcur] at hws; cases hws
    | get handler => rw [hcur] at hws; cases hws
    | ws handler st =>
      have hnull := (h i c hc).cur
      rw [hcur] at hnull
      obtain ⟨rfl, hst⟩ := hnull
      have hkeep := nullClients_wsReceive h i hst mem len
      rw [onReceive_live_ws hc hcur, Act.bind_apply]
      rcases hr : Clients.wsReceive pf i WsHandlerNull st mem len s with ⟨r, s'⟩
      rw [hr] at hkeep
      cases r with
      | ret u => exact nullClients_of_keepsNull hkeep keepsNull_installNextState
      | exn e => exact hkeep
      | ub => exact hkeep
  · rw [onReceive_live_http hc hws]
    unfold NullClients
    rw [slot_initStatic]
    refine nullClients_withHandler h fun c' hc' => ?_
    rw [hc, Slot.live.injEq] at hc'
    rw [← hc']
    exact keepsNull_onReceive (h i c hc) hws mem len

/-- The call of `onReceive` by the worker, with what it notes about it. -/
theorem nullClients_receive (h : NullClients pf s) (i : I) (chunk : Chunk) :
    NullClients pf (Clients.receive pf f i chunk s).2 := by
  unfold Clients.receive
  split
  · rename_i c hc
    refine nullClients_onReceive (nullClients_put h fun c' hc' => ?_) (slot_put_self s i _) _ _
    rw [← Slot.live.inj hc']
    exact h i c hc
  · exact h

/-- A pass through the loop of a worker, whatever it finds at its socket. -/
theorem nullClients_pass (h : NullClients pf s) {event : LoopEvent}
    (hstep : Clients.pass pf f s i event = some s') : NullClients pf s' := by
  cases event with
  | notReadable => exact Option.some.inj hstep ▸ nullClients_goTo h i .head
  | again => exact Option.some.inj hstep ▸ nullClients_goTo h i .head
  | eof => exact Option.some.inj hstep ▸ nullClients_goTo h i .leaving
  | pollFails e => exact Option.some.inj hstep ▸ nullClients_goTo h i .over
  | readFails e => exact Option.some.inj hstep ▸ nullClients_goTo h i .over
  | data chunk =>
    have hreceive := nullClients_receive (f := f) h i chunk
    unfold Clients.pass at hstep
    dsimp only at hstep
    rcases hr : Clients.receive pf f i chunk s with ⟨r, t⟩
    rw [hr] at hstep hreceive
    cases r with
    | ret u => exact Option.some.inj hstep ▸ nullClients_goTo hreceive i .head
    | exn e => exact Option.some.inj hstep ▸ nullClients_goTo hreceive i .over
    | ub => cases hstep

/-- The static handler is the only WebSocket handler, at every moment. -/
theorem nullClients_step (h : NullClients pf s) {event : ClientEvent I}
    (hstep : Clients.step pf f s event = some s') : NullClients pf s' := by
  cases event with
  | accept i script buf =>
    simp only [Clients.step] at hstep
    split at hstep
    · refine Option.some.inj hstep ▸ nullClients_put h fun c hc => ?_
      rw [← Slot.live.inj hc]
      exact ⟨trivial, fun _ heq => by cases heq⟩
    · cases hstep
  | test i quit =>
    simp only [Clients.step] at hstep
    split at hstep
    · exact Option.some.inj hstep ▸ nullClients_goTo h i _
    · cases hstep
  | pass i event =>
    simp only [Clients.step] at hstep
    split at hstep
    · exact nullClients_pass h hstep
    · cases hstep
  | disconnect i =>
    have hkeep : ∀ s : Clients I, NullClients pf s →
        NullClients pf (Clients.withHandler i (TcpServerHandler.onDisconnect pf) s).2 := by
      intro s hs
      refine nullClients_withHandler hs fun c hc => ?_
      unfold TcpServerHandler.onDisconnect
      split
      · exact ⟨(hs i c hc).cur, (hs i c hc).next⟩
      · exact hs i c hc
    have hleave := hkeep s h
    simp only [Clients.step] at hstep
    split at hstep
    · rcases hr : Clients.withHandler i (TcpServerHandler.onDisconnect pf) s with ⟨r, t⟩
      rw [hr] at hstep hleave
      cases r with
      | ret u => exact Option.some.inj hstep ▸ nullClients_goTo hleave i .over
      | exn e => exact Option.some.inj hstep ▸ nullClients_goTo hleave i .over
      | ub => cases hstep
    · cases hstep
  | destroy i =>
    simp only [Clients.step] at hstep
    split at hstep
    · exact Option.some.inj hstep ▸ nullClients_put h fun c hc => by cases hc
    · cases hstep

end Invariant

/-! ## Close frames -/

section Statement

variable {I : Type} [DecidableEq I] (pf : Platform) (f : HttpHandlerFactory) (s : Clients I)

/-- What the peer and the worker see of a client's connection: the closed flag and the output. -/
def seen (i : I) : Option (Bool × Bytes) :=
  match s.slot i with
  | .live c => some (c.handler.conn.closed, c.handler.conn.log.written)
  | _ => none

/-- A client in the WebSocket state sends the close frame `close`, and its socket accepts at least a
byte at each write. -/
structure SendsClose (event : ClientEvent I) (i : I) (chunk : Chunk) (c : Client)
    (st : HttpWsState) (close : Frame) : Prop where
  event : event = .pass i (.data chunk)
  slot : s.slot i = .live c
  point : c.point = .body
  state : ∃ handler, c.handler.curState = .ws handler st
  begins : Begins chunk close
  fin : close.fin = true
  opcode : close.opcode = 8
  accepts : Accepts c.handler.conn

/-- The reply has been written to the client's own connection, which is closed, and nothing is seen
of it on other connections. -/
structure ClosesOwn (i : I) (c : Client) (r : Res Exc Unit × Clients I) : Prop where
  returns : r.1 = .ret ()
  own : seen r.2 i = some (true, c.handler.conn.log.written ++ closeFrame)
  others : ∀ j, j ≠ i → seen r.2 j = seen s j

/-- A close frame closes the connection it came from. -/
def Isolated (event : ClientEvent I) : Prop :=
  ∀ i chunk c st close, SendsClose s event i chunk c st close →
    ClosesOwn s i c (Clients.receive pf f i chunk s)

/-- A close frame comes from the client that the static handler was made for, on its open connection,
and does not end another message. -/
def FromOwner (event : ClientEvent I) : Prop :=
  ∀ i chunk c st close, SendsClose s event i chunk c st close →
    s.wsHandlerNull = some i ∧ c.handler.conn.closed = false ∧
      (st.inBuf = [] ∨ st.opcode = WebSocketFrame.OPCODE_CONNECTION_CLOSE ∧
        st.inBuf.length + close.payload.length ≤ pf.maxSize)

end Statement

/-! ### Connections that nothing is seen on -/

section Silent

variable {I : Type} [DecidableEq I] {pf : Platform} {s : Clients I} {i j : I}

/-- The closed flag is as before, and a closed connection has got no output. -/
structure Silent (c c' : Conn) : Prop where
  closed : c'.closed = c.closed
  written : c.closed = true → c'.log.written = c.log.written

/-- A connection to which nothing happens. -/
theorem Silent.refl (c : Conn) : Silent c c := ⟨rfl, fun _ => rfl⟩

/-- Two actions of which nothing is seen, one behind the other. -/
theorem Silent.trans {c c' c'' : Conn} (h : Silent c c') (h' : Silent c' c'') : Silent c c'' :=
  ⟨h'.closed.trans h.closed, fun hc => (h'.written (h.closed.trans hc)).trans (h.written hc)⟩

/-- A `send` leaves the closed flag alone, and on a closed connection it writes nothing. -/
theorem silent_send (buf : Bytes) (c : Conn) : Silent c (Connection.send buf c).2 :=
  ⟨send_closed buf c, fun hc => by rw [send_of_closed hc]⟩

/-- An event that is no write changes neither the flag nor the output. -/
theorem silent_record {e : Event} (he : ¬ IsTransfer e) (c : Conn) : Silent c (c.record e) := by
  refine ⟨rfl, fun _ => ?_⟩
  rw [Conn.record, written_append]
  cases e with
  | wrote bytes => exact absurd trivial he
  | _ => exact List.append_nil _

/-- Closing a closed connection again does nothing. -/
theorem silent_close {c : Conn} (hc : c.closed = true) : Silent c (WsConnection.close.run pf c).2 := by
  rw [close_run, send_of_closed hc]
  exact ⟨hc.symm, fun _ => rfl⟩

/-- Nothing has been seen on the connection of a client since it was `c₀`. -/
def Untouched (i : I) (c₀ : Conn) (s : Clients I) : Prop :=
  ∃ c, s.slot i = .live c ∧ Silent c₀ c.handler.conn

/-- The use of one connection does not touch another one. -/
theorem untouched_connection {α : Type} {c₀ : Conn} {x : Action Conn α} (h : Untouched i c₀ s)
    (hx : j = i → ∀ c, Silent c₀ c → Silent c (x c).2) :
    Untouched i c₀ ((Clients.connection j).run x s).2 := by
  obtain ⟨c, hc, hsilent⟩ := h
  change Untouched i c₀ (Clients.withHandler j (TcpServerHandler.tcpConnection x) s).2
  unfold Clients.withHandler
  split
  · rename_i d hd
    by_cases heq : i = j
    · subst heq
      rw [hc, Slot.live.injEq] at hd
      subst hd
      exact ⟨_, slot_put_self s i _, hsilent.trans (hx rfl c.handler.conn hsilent)⟩
    · exact ⟨c, (slot_put_ne s heq _).trans hc, hsilent⟩
  · exact ⟨c, hc, hsilent⟩

/-- The use of the connection of the static handler touches the client that made it, and no other
one. -/
theorem untouched_nullConnection {α : Type} {c₀ : Conn} {x : Action Conn α} (h : Untouched i c₀ s)
    (hx : s.wsHandlerNull = some i → ∀ c, Silent c₀ c → Silent c (x c).2) :
    Untouched i c₀ (Clients.nullConnection.run x s).2 := by
  unfold Clients.nullConnection
  dsimp only
  split
  · rename_i j hj
    exact untouched_connection h fun heq => hx (heq ▸ hj)
  · exact h

/-- A callback of the static handler leaves no trace but its record. -/
theorem untouched_callback {c₀ : Conn} (h : Untouched i c₀ s) {e : Event} (he : ¬ IsTransfer e) :
    Untouched i c₀ (callback pf (Clients.connection i) Clients.nullConnection e
      (fun _ => Prog.ret ()) s).2 := by
  have hrecord := untouched_connection (j := i) (x := Act.modify (Conn.record e)) h
    fun _ c _ => silent_record he c
  unfold callback
  rw [Act.bind_apply]
  rcases hr : (Clients.connection i).run (Act.modify (Conn.record e)) s with ⟨r, t⟩
  rw [hr] at hrecord
  cases r with
  | exn e => exact hrecord
  | ub => exact hrecord
  | ret u =>
    have hread := untouched_connection (j := i) (x := Act.gets Conn.log) hrecord
      fun _ c _ => Silent.refl c
    dsimp only
    rw [Act.bind_apply]
    rcases hr' : (Clients.connection i).run (Act.gets Conn.log) t with ⟨r', t'⟩
    rw [hr'] at hread
    cases r' with
    | exn e => exact hread
    | ub => exact hread
    | ret log => exact untouched_nullConnection hread fun _ c _ => Silent.refl c

/-- Acting on a message that is not a close frame of the owner of the static handler. -/
theorem untouched_dispatch {c₀ : Conn} {m : HttpWsState} (h : Untouched i c₀ s)
    (hother : m.opcode = WebSocketFrame.OPCODE_CONNECTION_CLOSE → s.wsHandlerNull = some i →
      c₀.closed = true) :
    Untouched i c₀ (HttpWsState.dispatch pf (Clients.connection i) Clients.nullConnection
      WsHandlerNull m (m, s)).2.2 := by
  obtain hop | hop | hop | hop | hop | hop := opcode_cases m.opcode
  · rw [dispatch_continuation hop]
    exact h
  · rw [dispatch_close hop]
    exact untouched_nullConnection h fun howner c hc =>
      silent_close (hc.closed.trans (hother hop howner))
  · by_cases hlen : m.inBuf.length ≤ 65535
    · rw [dispatch_ping hop hlen, Act.bind_apply]
      have hsend := untouched_connection (j := i) h fun _ c _ => silent_send m.inBuf c
      unfold HttpWsState.outer Act.zoom
      rcases hr : (Clients.connection i).run (Connection.send m.inBuf) s with ⟨r, t⟩
      rw [hr] at hsend
      cases r <;> exact hsend
    · rw [dispatch_ping_long hop (Nat.lt_of_not_le hlen)]
      exact h
  · rw [dispatch_binary hop]
    exact untouched_callback h id
  · rw [dispatch_text_eq hop, Act.bind_apply]
    cases m.inBuf.terminate pf with
    | ret terminated => exact untouched_callback h id
    | exn e => exact h
    | ub => exact h
  · rw [dispatch_ignored hop]
    exact h

end Silent

/-! ### The chunk of a close frame -/

section Receive

variable {I : Type} [DecidableEq I] {pf : Platform} {f : HttpHandlerFactory} {s : Clients I}
  {event : ClientEvent I} {i : I} {chunk : Chunk} {c : Client} {st : HttpWsState} {close : Frame}

/-- A computation on the handler of a live client leads to the slot with its new handler. -/
theorem withHandler_of_live {α : Type} (x : Action TcpServerHandler α) (h : s.slot i = .live c) :
    Clients.withHandler i x s =
      ((x c.handler).1, s.put i (.live { c with handler := (x c.handler).2 })) := by
  unfold Clients.withHandler
  rw [h]

/-- A change of the states is not seen on the connections. -/
theorem seen_withHandler {α : Type} {x : Action TcpServerHandler α}
    (hx : ∀ h, (x h).2.conn.closed = h.conn.closed ∧
      (x h).2.conn.log.written = h.conn.log.written) (j : I) :
    seen (Clients.withHandler i x s).2 j = seen s j := by
  unfold Clients.withHandler
  split
  · rename_i d hd
    unfold seen
    by_cases heq : j = i
    · subst heq
      rw [slot_put_self, hd]
      dsimp only
      rw [(hx d.handler).1, (hx d.handler).2]
    · rw [slot_put_ne s heq]
  · rfl

/-- When the state is exchanged, neither the closed flag nor the output changes. -/
theorem installNextState_unseen (h : TcpServerHandler) :
    (TcpServerHandler.installNextState h).2.conn.closed = h.conn.closed ∧
      (TcpServerHandler.installNextState h).2.conn.log.written = h.conn.log.written := by
  unfold TcpServerHandler.installNextState
  rw [Act.modify_apply]
  split
  · refine ⟨rfl, ?_⟩
    dsimp only
    rw [Conn.record, written_append]
    exact List.append_nil _
  · exact ⟨rfl, rfl⟩

/-- A client stays connected while its chunk is handled. -/
theorem keeps_live (j : I) : Keeps (Clients.connection j) fun s => ∃ c, s.slot i = .live c := by
  intro α x s hs
  obtain ⟨c, hc⟩ := hs
  change ∃ c, (Clients.withHandler j (TcpServerHandler.tcpConnection x) s).2.slot i = .live c
  unfold Clients.withHandler
  split
  · by_cases heq : i = j
    · subst heq
      exact ⟨_, slot_put_self s i _⟩
    · exact ⟨c, (slot_put_ne s heq _).trans hc⟩
  · exact ⟨c, hc⟩

/-- The use of the static handler leaves a live client alive. -/
theorem keeps_live_null : Keeps (Clients.nullConnection (I := I)) fun s => ∃ c, s.slot i = .live c := by
  intro α x s hs
  unfold Clients.nullConnection
  dsimp only
  split
  · exact keeps_live _ x s hs
  · exact hs

/-- The server while a client's chunk is in its buffer. -/
def filled (s : Clients I) (i : I) (chunk : Chunk) (c : Client) : Clients I :=
  s.put i (.live { c with buf := ClientWorker.fill c.buf chunk })

/-- Behind the read the slot has the bytes of the chunk in its buffer, and the same handler. -/
@[simp] theorem slot_filled (s : Clients I) (i : I) (chunk : Chunk) (c : Client) :
    (filled s i chunk c).slot i = .live { c with buf := ClientWorker.fill c.buf chunk } :=
  slot_put_self s i _

variable (pf f) in
/-- What is seen of a chunk with a frame is what is seen of the frame. -/
theorem receive_frame {handler : WsHandler} (hslot : s.slot i = .live c)
    (hcur : c.handler.curState = .ws handler st) (hbegins : Begins chunk close) :
    (Clients.receive pf f i chunk s).1 = (acceptFrame pf (Clients.connection i) Clients.nullConnection
        handler close (st, filled s i chunk c)).1 ∧
      ∀ j, seen (Clients.receive pf f i chunk s).2 j =
        seen (acceptFrame pf (Clients.connection i) Clients.nullConnection handler close
          (st, filled s i chunk c)).2.2 j := by
  obtain ⟨hkey, rest, hbytes⟩ := hbegins
  obtain ⟨k, hk⟩ := Option.isSome_iff_exists.mp hkey
  have hmem := ClientWorker.bufMem_fill_startsWith pf c.buf hbytes
  have hlen : close.encode.length ≤ chunk.bytes.length := by
    rw [hbytes, List.length_append]
    omega
  have hframe : HttpWsState.onReceive pf (Clients.connection i) Clients.nullConnection handler
      (ClientWorker.bufMem pf (ClientWorker.fill c.buf chunk)) chunk.bytes.length =
        acceptFrame pf (Clients.connection i) Clients.nullConnection handler close :=
    onReceive_frame hmem hlen hk
  have hlive := preserves_onReceive pf handler (keeps_live (i := i) i) keeps_live_null
    (ClientWorker.bufMem pf (ClientWorker.fill c.buf chunk)) chunk.bytes.length
    (st, filled s i chunk c) ⟨_, slot_filled s i chunk c⟩
  have hreceive : Clients.receive pf f i chunk s = (do
      Clients.wsReceive pf i handler st (ClientWorker.bufMem pf (ClientWorker.fill c.buf chunk))
        chunk.bytes.length
      Clients.withHandler i TcpServerHandler.installNextState : Action (Clients I) Unit)
        (filled s i chunk c) := by
    unfold Clients.receive
    rw [hslot]
    exact onReceive_live_ws (c := { c with buf := ClientWorker.fill c.buf chunk })
      (slot_put_self s i _) hcur _ _
  rw [hframe] at hlive
  rw [hreceive, Act.bind_apply, Clients.wsReceive, hframe]
  rcases hr : acceptFrame pf (Clients.connection i) Clients.nullConnection handler close
    (st, filled s i chunk c) with ⟨r, st', t⟩
  rw [hr] at hlive
  have hstate : ∀ j, seen (Clients.withHandler i (Act.modify fun h : TcpServerHandler =>
      { h with curState := .ws handler st' }) t).2 j = seen t j :=
    seen_withHandler fun h => ⟨rfl, rfl⟩
  obtain ⟨d, hd⟩ := hlive
  cases r with
  | exn e => exact ⟨rfl, hstate⟩
  | ub => exact ⟨rfl, hstate⟩
  | ret u =>
    refine ⟨?_, fun j => (seen_withHandler installNextState_unseen j).trans (hstate j)⟩
    dsimp only
    rw [withHandler_of_live _ hd, withHandler_of_live _ (slot_put_self t i _)]
    rfl

/-- Behind a frame that fits, the connections are as acting on the message left them. -/
theorem acceptFrame_snd {σ : Type} {fsm conn : Port σ} {handler : WsHandler} {t : σ}
    (hfits : st.inBuf.length + close.payload.length ≤ pf.maxSize) (hfin : close.fin = true) :
    (acceptFrame pf fsm conn handler close (st, t)).2.2 =
      (HttpWsState.dispatch pf fsm conn handler (extended st close) (extended st close, t)).2.2 := by
  rw [acceptFrame_final hfits hfin]
  unfold Act.tryCatch
  rw [Act.bind_apply]
  rcases HttpWsState.dispatch pf fsm conn handler (extended st close) (extended st close, t) with
    ⟨r, m, t'⟩
  cases r with
  | ret u => rfl
  | exn e =>
    dsimp only
    split <;> rfl
  | ub => rfl

variable (st) in
/-- A close frame is taken as one if no message is in progress: else the opcode of the message
counts, not its own. -/
theorem nextOpcode_close (hop : close.opcode = 8) :
    nextOpcode st close = WebSocketFrame.OPCODE_CONNECTION_CLOSE ↔
      st.inBuf = [] ∨ st.opcode = WebSocketFrame.OPCODE_CONNECTION_CLOSE := by
  unfold nextOpcode
  rw [hop]
  cases hbuf : st.inBuf with
  | nil => exact iff_of_true rfl (Or.inl rfl)
  | cons b buf => simp

variable (pf) in
/-- A frame in a chunk fits into an empty buffer. -/
theorem length_payload_le (hbegins : Begins chunk close) : close.payload.length ≤ pf.maxSize := by
  obtain ⟨_, rest, hbytes⟩ := hbegins
  have hchunk := chunk.le
  have hmax := pf.le_maxSize
  have hpayload : close.payload.length ≤ close.body.length := by
    unfold Frame.body
    cases close.key with
    | none => exact le_rfl
    | some k =>
      rw [List.length_append, length_applyMask]
      omega
  rw [hbytes, List.length_append, Frame.encode, List.length_cons, List.length_cons,
    List.length_append] at hchunk
  unfold MAX_SIZE at hchunk
  omega

/-- The close frame of the owner of the static handler closes its connection. -/
theorem accept_owner (howner : s.wsHandlerNull = some i)
    (hopen : c.handler.conn.closed = false) (hacc : Accepts c.handler.conn)
    (hfits : st.inBuf.length + close.payload.length ≤ pf.maxSize) (hfin : close.fin = true)
    (hop : nextOpcode st close = WebSocketFrame.OPCODE_CONNECTION_CLOSE) (handler : WsHandler)
    (chunk : Chunk) :
    ClosesOwn s i c ((acceptFrame pf (Clients.connection i) Clients.nullConnection handler close
        (st, filled s i chunk c)).1,
      (acceptFrame pf (Clients.connection i) Clients.nullConnection handler close
        (st, filled s i chunk c)).2.2) := by
  have hlen : closeFrame.length < SIZE_MOD := by decide
  obtain ⟨conn, hsend, _, _, hwritten⟩ := send_accepts hlen hopen hacc
  have hclose : WsConnection.close.run pf c.handler.conn = (.ret (), { conn with closed := true }) := by
    rw [close_run, hsend]
  have hrun : Clients.nullConnection.run (WsConnection.close.run pf) (filled s i chunk c) =
      (.ret (), (filled s i chunk c).put i (.live { c with
        buf := ClientWorker.fill c.buf chunk
        handler := { c.handler with conn := { conn with closed := true } } })) := by
    have howner' : (filled s i chunk c).wsHandlerNull = some i := howner
    simp only [Clients.nullConnection, Clients.connection, howner']
    rw [withHandler_of_live _ (slot_filled s i chunk c)]
    simp only [TcpServerHandler.tcpConnection, Act.zoom, hclose]
  have hframe : acceptFrame pf (Clients.connection i) Clients.nullConnection handler close
      (st, filled s i chunk c) = (.ret (), ({ extended st close with inBuf := [] },
        (filled s i chunk c).put i (.live { c with
          buf := ClientWorker.fill c.buf chunk
          handler := { c.handler with conn := { conn with closed := true } } }))) := by
    rw [acceptFrame_final hfits hfin]
    apply Act.tryCatch_of_ret
    rw [dispatch_close (s := extended st close) hop, Act.bind_apply, HttpWsState.outer, Act.zoom, hrun]
    rfl
  rw [hframe]
  refine ⟨rfl, ?_, fun j hj => ?_⟩
  · unfold seen
    rw [slot_put_self]
    dsimp only
    rw [hwritten]
  · unfold seen filled
    rw [slot_put_ne _ hj, slot_put_ne _ hj]

/-- What is seen on the client's own connection comes from a close frame of the owner of the static
handler, on its open connection. -/
theorem owner_of_seen (hfits : st.inBuf.length + close.payload.length ≤ pf.maxSize)
    (hfin : close.fin = true)
    (hown : seen (acceptFrame pf (Clients.connection i) Clients.nullConnection WsHandlerNull close
      (st, filled s i chunk c)).2.2 i = some (true, c.handler.conn.log.written ++ closeFrame)) :
    nextOpcode st close = WebSocketFrame.OPCODE_CONNECTION_CLOSE ∧ s.wsHandlerNull = some i ∧
      c.handler.conn.closed = false := by
  by_contra hno
  -- otherwise nothing is seen on the client's own connection
  have hother : nextOpcode st close = WebSocketFrame.OPCODE_CONNECTION_CLOSE →
      s.wsHandlerNull = some i → c.handler.conn.closed = true := by
    intro hop howner
    cases hcl : c.handler.conn.closed with
    | true => rfl
    | false => exact absurd ⟨hop, howner, hcl⟩ hno
  have huntouched : Untouched i c.handler.conn (HttpWsState.dispatch pf (Clients.connection i)
      Clients.nullConnection WsHandlerNull (extended st close)
        (extended st close, filled s i chunk c)).2.2 :=
    untouched_dispatch ⟨_, slot_filled s i chunk c, Silent.refl _⟩ hother
  rw [← acceptFrame_snd hfits hfin] at huntouched
  obtain ⟨d, hd, hsilent⟩ := huntouched
  unfold seen at hown
  rw [hd] at hown
  simp only [Option.some.injEq, Prod.mk.injEq] at hown
  have hcl : c.handler.conn.closed = true := hsilent.closed ▸ hown.1
  have hlen := congrArg List.length ((hsilent.written hcl).symm.trans hown.2)
  rw [List.length_append] at hlen
  have hpos : 0 < closeFrame.length := by decide
  omega

variable (f) in
/-- The reply to a close frame is seen on the client's own connection, and nowhere else, if and only if
the frame comes from the owner of the static handler, on its open connection, and does not end another
message. -/
theorem closes_own_iff (hnull : NullClients pf s) (h : SendsClose s event i chunk c st close) :
    ClosesOwn s i c (Clients.receive pf f i chunk s) ↔
      s.wsHandlerNull = some i ∧ c.handler.conn.closed = false ∧
        (st.inBuf = [] ∨ st.opcode = WebSocketFrame.OPCODE_CONNECTION_CLOSE ∧
          st.inBuf.length + close.payload.length ≤ pf.maxSize) := by
  obtain ⟨handler, hcur⟩ := h.state
  have hstate := (hnull i c h.slot).cur
  rw [hcur] at hstate
  obtain ⟨rfl, hbuf⟩ := hstate
  obtain ⟨hres, hseen⟩ := receive_frame pf f h.slot hcur h.begins
  have hpayload := length_payload_le pf h.begins
  constructor
  · rintro ⟨hret, hown, _⟩
    rw [hres] at hret
    rw [hseen] at hown
    have hfits : st.inBuf.length + close.payload.length ≤ pf.maxSize := by
      by_contra hover
      obtain hr | hr := acceptFrame_overflow (Clients.connection i) Clients.nullConnection WsHandlerNull
        (filled s i chunk c) hbuf (Nat.lt_of_not_le hover)
      · rw [hr] at hret
        cases hret
      · rw [hr] at hret
        cases hret
    obtain ⟨hop, howner, hopen⟩ := owner_of_seen hfits h.fin hown
    refine ⟨howner, hopen, ?_⟩
    exact ((nextOpcode_close st h.opcode).mp hop).imp_right fun hop => ⟨hop, hfits⟩
  · rintro ⟨howner, hopen, hidle⟩
    have hfits : st.inBuf.length + close.payload.length ≤ pf.maxSize := by
      obtain hnil | ⟨_, hfits⟩ := hidle
      · rw [hnil, List.length_nil, Nat.zero_add]
        exact hpayload
      · exact hfits
    have hop := (nextOpcode_close st h.opcode).mpr (hidle.imp_right And.left)
    obtain ⟨hret, hown, hothers⟩ :=
      accept_owner howner hopen h.accepts hfits h.fin hop WsHandlerNull chunk
    refine ⟨hres.trans hret, (hseen i).trans hown, fun j hj => (hseen j).trans (hothers j hj)⟩

end Receive

/-! ## Runs of the server -/

/-- At the beginning there are no clients. -/
theorem nullClients_init {I : Type} (pf : Platform) : NullClients pf (Clients.init : Clients I) :=
  fun _ _ hc => by cases hc

/-- In any run of a server with any number of clients, every close frame closes the connection it came
from, and nothing is seen of it on the others, if and only if every close frame comes from the owner of
the static handler, on its open connection, and does not end another message. -/
theorem close_isolated_iff {I : Type} [DecidableEq I] (pf : Platform) (f : HttpHandlerFactory)
    (events : List (ClientEvent I)) :
    System.Each (Clients.step pf f) (Isolated pf f) Clients.init events ↔
      System.Each (Clients.step pf f) (FromOwner pf) Clients.init events := by
  refine System.each_congr (J := NullClients pf) (fun _ _ _ h hstep => nullClients_step h hstep) ?_
    (nullClients_init pf) events
  intro s event hnull
  have hiff := fun i chunk c st close (h : SendsClose s event i chunk c st close) =>
    closes_own_iff f hnull h
  constructor
  · intro h i chunk c st close hsends
    exact (hiff i chunk c st close hsends).mp (h i chunk c st close hsends)
  · intro h i chunk c st close hsends
    exact (hiff i chunk c st close hsends).mpr (h i chunk c st close hsends)

/-! ## Two clients -/

/-- Two clients are upgraded, one after the other. -/
def twoUpgrades : List (ClientEvent Bool) :=
  [.accept false [] [], .accept true [] [], .test false false, .pass false (.data upgradeRequest),
    .test true false, .pass true (.data upgradeRequest), .test true false]

/-- The second client sends a close frame: its connection stays open and the reply goes to the first
client. -/
theorem second_close_not_isolated :
    ¬ System.Each (Clients.step .plain (HttpFileHandlerFactory []))
      (Isolated .plain (HttpFileHandlerFactory [])) Clients.init
      (twoUpgrades ++ [.pass true (.data closeChunk)]) := by
  have hexec : (System.exec (Clients.step .plain (HttpFileHandlerFactory [])) Clients.init
      twoUpgrades).map (fun s => (s.wsHandlerNull, match s.slot true with
        | .live c => some (c.point, c.handler.conn.script, match c.handler.curState with
          | .ws _ st => some st
          | _ => none)
        | _ => none)) = some (some false, some (.body, [], some HttpWsState.init)) := by
    decide +kernel
  obtain ⟨s, hs, hview⟩ := Option.map_eq_some_iff.mp hexec
  have hnull : NullClients .plain s :=
    (System.run_ofStep_iff.mpr hs).invariant (I := NullClients .plain)
      (fun _ _ _ h hstep => nullClients_step h hstep) (nullClients_init .plain)
  rw [Prod.mk.injEq] at hview
  obtain ⟨howner, hclient⟩ := hview
  intro heach
  cases hslot : s.slot true with
  | unused => rw [hslot] at hclient; cases hclient
  | destroyed => rw [hslot] at hclient; cases hclient
  | live c =>
    rw [hslot] at hclient
    simp only [Option.some.injEq, Prod.mk.injEq] at hclient
    obtain ⟨hpoint, hscript, hstate⟩ := hclient
    cases hcur : c.handler.curState with
    | init st => rw [hcur] at hstate; cases hstate
    | get handler => rw [hcur] at hstate; cases hstate
    | ws handler st =>
      have hsends : SendsClose s (.pass true (.data closeChunk)) true closeChunk c st maskedClose := by
        refine ⟨rfl, hslot, hpoint, ⟨handler, hcur⟩, ⟨rfl, [], by decide⟩, rfl, rfl, ?_⟩
        unfold Accepts
        rw [hscript]
        simp
      have hown := (closes_own_iff _ hnull hsends).mp
        (heach.step_after hs true closeChunk c st maskedClose hsends)
      rw [howner] at hown
      cases hown.1

end CppSocks.Analysis
