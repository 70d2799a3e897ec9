import CppSocks.Model.HttpHandler

/-!
# The states of an HTTP connection

`HttpInitState` collects the request, `HttpGetState` answers it, `HttpWsState`
speaks the WebSocket protocol; `TcpServerHandler` owns the current one.

`HttpWsState` uses two connections: the one of its `TcpServerHandler` (`fsm`) and
the one its handler was made with (`conn`). They are the same connection for a
handler that was made for this client. A `Port` says where in the state of a
larger program a connection lives, so that `HttpWsState` is written once.
-/

set_option autoImplicit false

namespace CppSocks.Model

open Foundation

/-- A way to reach a connection from the state `σ`. -/
structure Port (σ : Type) where
  run : {α : Type} → Action Conn α → Action σ α

/-- The connection is the whole state. -/
def Port.self : Port Conn := ⟨fun x => x⟩

/-- Make a callback: record it on the connection of the state machine, and run what the user's
code does on the connection that code has. -/
def callback {σ α : Type} (pf : Platform) (fsm conn : Port σ) (e : Event) (p : Log → Prog α) :
    Action σ α := do
  fsm.run (Act.modify (Conn.record e))
  let log ← fsm.run (Act.gets Conn.log)
  conn.run ((p log).run pf)

/-! ## WebSocket state -/

/-- The reassembly state of `HttpWsState`.
SOURCE: http/socks_http_states_ws.hpp:26-29 -/
structure HttpWsState where
  opcode : OpCode
  inBuf : WsBuffer
deriving DecidableEq, Repr

namespace HttpWsState

/-- The constructor.
SOURCE: http/socks_http_states_ws.hpp:18-21 -/
def init : HttpWsState := ⟨0, []⟩

section

variable {σ : Type} (pf : Platform) (fsm conn : Port σ) (handler : WsHandler)

/-- A computation on the state behind the ports. -/
def outer {α : Type} (x : Action σ α) : Action (HttpWsState × σ) α :=
  Act.zoom Prod.snd (fun t s => (s.1, t)) x

/-- Change the members of the state object. -/
def modifySelf (f : HttpWsState → HttpWsState) : Action (HttpWsState × σ) Unit :=
  Act.modify fun s => (f s.1, s.2)

/-- The `switch` over the opcode of a complete message.
SOURCE: http/socks_http_states_ws.cpp:62-87 -/
def dispatch (s : HttpWsState) : Action (HttpWsState × σ) Unit :=
  if s.opcode = WebSocketFrame.OPCODE_CONTINUATION then
    Act.throw (.runtime_error "WebSocket opcode must not be 0 when FIN bit is set.")
  else if s.opcode = WebSocketFrame.OPCODE_CONNECTION_CLOSE then
    outer (conn.run (WsConnection.close.run pf))
  else if s.opcode = WebSocketFrame.OPCODE_CONNECTION_PING then do
    let response ← Act.lift (WebSocketFrame.createPong s.inBuf)
    let bytes ← Act.lift response.payload
    let _ ← outer (fsm.run (Connection.send bytes))
    pure ()
  else if s.opcode = WebSocketFrame.OPCODE_BINARY then
    outer (callback pf fsm conn (.onData s.inBuf) fun log => handler.onData log s.inBuf)
  else if s.opcode = WebSocketFrame.OPCODE_TEXT then do
    let terminated ← Act.lift (s.inBuf.terminate pf)
    modifySelf fun s => { s with inBuf := terminated }
    outer (callback pf fsm conn (.onText (cstr terminated)) fun log =>
      handler.onText log (cstr terminated))
  else pure ()

/-- The `try` block of `onReceive`. -/
def receiveFrame (mem : Mem) (len : ℕ) : Action (HttpWsState × σ) Unit := do
  let inBuf ← Act.gets fun s => s.1.inBuf
  let start := inBuf.length == 0
  let (filled, opcode_, fin) ← Act.lift (WebSocketFrame.decode pf mem len inBuf)
  modifySelf fun s => { s with inBuf := filled }
  if start then modifySelf fun s => { s with opcode := opcode_ } else pure ()
  if !fin then pure ()
  else do
    let s ← Act.gets Prod.fst
    dispatch pf fsm conn handler s
    modifySelf fun s => { s with inBuf := [] }

/-- SOURCE: http/socks_http_states_ws.cpp:45-93 -/
def onReceive (mem : Mem) (len : ℕ) : Action (HttpWsState × σ) Unit :=
  Act.tryCatch (receiveFrame pf fsm conn handler mem len) fun e =>
    if e.isInvalidArgument then pure () else Act.throw e

/-- SOURCE: http/socks_http_states_ws.cpp:95 -/
def onDisconnect : Action σ Unit := callback pf fsm conn .onDisconnect handler.onDisconnect

end

/-- `WS_GUID`.
SOURCE: http/socks_http_states_ws.cpp:23 -/
def WS_GUID : Bytes := ascii "258EAFA5-E914-47DA-95CA-C5AB0DC85B11"

/-- SOURCE: http/socks_http_states_ws.cpp:18-26 -/
def createAcceptKey (pf : Platform) (client_key : Bytes) : Bytes :=
  pf.base64 (pf.sha1 (client_key.take 24 ++ WS_GUID))

/-- The 101 response; `protocol` is the line that names the subprotocol, if there is one.
SOURCE: http/socks_http_states_ws.cpp:30-40 -/
def switchingProtocols (pf : Platform) (protocol key : Bytes) : Bytes :=
  ascii "HTTP/1.1 101 Switching Protocols\r\n" ++ ascii "Upgrade: websocket\r\n" ++
    ascii "Connection: Upgrade\r\n" ++ ascii "Sec-WebSocket-Version: 13\r\n" ++ protocol ++
    ascii "Sec-WebSocket-Accept: " ++ createAcceptKey pf key ++ ascii "\r\n\r\n"

/-- SOURCE: http/socks_http_states_ws.cpp:28-43 -/
def onEnter (pf : Platform) (handler : WsHandler) (requestInfo : RequestInfo) :
    Action Conn Unit := do
  let first ← callback pf .self .self .subprotocol handler.subprotocol
  let protocol ←
    if first.isEmpty then pure []
    else do
      let second ← callback pf .self .self .subprotocol handler.subprotocol
      pure (ascii "Sec-WebSocket-Protocol: " ++ second ++ ascii "\r\n")
  let key ← Act.lift (requestInfo.headers.at (ascii "Sec-WebSocket-Key"))
  let response := switchingProtocols pf protocol key
  Act.modify (Conn.record (.handed response))
  let _ ← Connection.send response
  callback pf .self .self .onConnect handler.onConnect
  Act.modify (Conn.record .onConnectEnd)

end HttpWsState

/-! ## GET state -/

namespace HttpGetState

/-- The call of `do_GET`; its end is recorded whether it returns or throws. -/
def doGetCall (pf : Platform) (handler : HttpHandler) (requestInfo : RequestInfo) :
    Action Conn Unit := fun c =>
  let r := callback pf .self .self .doGet (fun log => handler.do_GET log requestInfo) c
  (r.1, r.2.record .doGetEnd)

/-- SOURCE: http/socks_http_states.cpp:52-58 -/
def onEnter (pf : Platform) (handler : HttpHandler) (requestInfo : RequestInfo) :
    Action Conn Unit := do
  doGetCall pf handler requestInfo
  Connection.close

end HttpGetState

/-! ## The state machine -/

/-- SOURCE: http/socks_http_states.hpp:61-75 -/
structure HttpInitState where
  recvBuf : Bytes
  numRecv : ℕ
deriving DecidableEq, Repr

/-- `recvBuf{{0}}, numRecv(0)`. -/
def HttpInitState.init : HttpInitState := ⟨List.replicate 4096 0, 0⟩

/-- The current state object. -/
inductive HttpState where
  | init (s : HttpInitState)
  | get (handler : HttpHandler)
  | ws (handler : WsHandler) (s : HttpWsState)

/-- The kind of a state, without its data. -/
def HttpState.kind : HttpState → StateKind
  | .init _ => .init
  | .get _ => .get
  | .ws _ _ => .ws

/-- SOURCE: http/socks_http.cpp:23-61 -/
structure TcpServerHandler where
  conn : Conn
  requestInfo_ : RequestInfo
  curState : HttpState
  nextState : Option HttpState

/-- The two factories a server is started with. -/
structure Factories where
  httpHandlerFactory : HttpHandlerFactory
  wsHandlerFactory : WsHandlerFactory

namespace TcpServerHandler

/-- SOURCE: http/socks_http.cpp:26-31 -/
def init (script : List WriteResult) : TcpServerHandler :=
  ⟨Conn.init script, RequestInfo.init, .init HttpInitState.init, none⟩

/-- A computation on the connection. -/
def tcpConnection {α : Type} (x : Action Conn α) : Action TcpServerHandler α :=
  Act.zoom TcpServerHandler.conn (fun c h => { h with conn := c }) x

/-- A computation on the request. -/
def onRequest {α : Type} (x : Act Exc RequestInfo α) : Action TcpServerHandler α :=
  Act.zoom TcpServerHandler.requestInfo_ (fun i h => { h with requestInfo_ := i }) x

/-- The virtual call `nextState->onEnter()`. -/
def onEnter (pf : Platform) (state : HttpState) (requestInfo : RequestInfo) : Action Conn Unit :=
  match state with
  | .init _ => Act.throw (.runtime_error "HttpInitState::onEnter() must not be called.")
  | .get handler => HttpGetState.onEnter pf handler requestInfo
  | .ws handler _ => HttpWsState.onEnter pf handler requestInfo

/-- SOURCE: http/socks_http.cpp:33-37 -/
def setNextState (pf : Platform) (nextState : HttpState) : Action TcpServerHandler Unit := do
  let info ← Act.gets requestInfo_
  tcpConnection (onEnter pf nextState info)
  Act.modify fun h => { h with nextState := some nextState }

/-- `new HttpGetState(fsm)`.
SOURCE: http/socks_http_states.hpp:53 -/
def newHttpGetState (pf : Platform) (f : Factories) : Action TcpServerHandler HttpState := do
  let handler ← tcpConnection
    (callback pf .self .self .createHttpHandler f.httpHandlerFactory.createHttpHandler)
  pure (.get handler)

/-- `new HttpWsState(fsm)`.
SOURCE: http/socks_http_states_ws.hpp:18-21 -/
def newHttpWsState (pf : Platform) (f : Factories) : Action TcpServerHandler HttpState := do
  let handler ← tcpConnection
    (callback pf .self .self .createWsHandler f.wsHandlerFactory.createWsHandler)
  pure (.ws handler HttpWsState.init)

end TcpServerHandler

namespace HttpInitState

/-- `TERMINATOR`.
SOURCE: http/socks_http_states.cpp:17 -/
def TERMINATOR : Bytes := [0x0D, 0x0A, 0x0D, 0x0A]

/-- The four bytes in front of `recvBuf.data() + numRecv`; for fewer than four received bytes the
first ones lie in front of the buffer. -/
def lastBytes (pf : Platform) (s : HttpInitState) : Bytes :=
  (List.range 4).map fun i =>
    if 4 ≤ s.numRecv + i then s.recvBuf.getD (s.numRecv + i - 4) 0 else pf.front (3 - i - s.numRecv)

/-- The `memcpy` and the new count; copying behind the end of `recvBuf` is undefined.
SOURCE: http/socks_http_states.cpp:21-22 -/
def append (s : HttpInitState) (bytes : Bytes) : Call HttpInitState :=
  if s.numRecv + bytes.length ≤ s.recvBuf.length then
    .ret ⟨s.recvBuf.take s.numRecv ++ bytes ++ s.recvBuf.drop (s.numRecv + bytes.length),
      s.numRecv + bytes.length⟩
  else .ub

/-- The request is not complete: the buffer is not full and does not end with the terminator.
SOURCE: http/socks_http_states.cpp:23-24 -/
def incomplete (pf : Platform) (s : HttpInitState) : Bool :=
  decide (s.numRecv < s.recvBuf.length) && (lastBytes pf s != TERMINATOR)

/-- The part of the `try` block behind the test: parse, and change the state. `true` means that
the function returns from within the block.
SOURCE: http/socks_http_states.cpp:28-43 -/
def parseAndEnter (pf : Platform) (f : Factories) (s : HttpInitState) :
    Action TcpServerHandler Bool := do
  TcpServerHandler.onRequest (RequestInfo.parse (cstr s.recvBuf) s.numRecv)
  let info ← Act.gets TcpServerHandler.requestInfo_
  match info.requestType with
  | .get => do
    let next ← TcpServerHandler.newHttpGetState pf f
    TcpServerHandler.setNextState pf next
    pure true
  | .getWs => do
    let next ← TcpServerHandler.newHttpWsState pf f
    TcpServerHandler.setNextState pf next
    pure true
  | .undefined => pure false

/-- The `try` block of `onReceive`.
SOURCE: http/socks_http_states.cpp:18-43 -/
def receiveRequest (pf : Platform) (f : Factories) (s : HttpInitState) (mem : Mem) (len : ℕ) :
    Action TcpServerHandler Bool := do
  let bytes ← Act.lift (mem.readRange 0 len)
  let s ← Act.lift (s.append bytes)
  Act.modify fun h => { h with curState := .init s }
  if s.incomplete pf then pure true
  else do
    let s : HttpInitState := { s with recvBuf := s.recvBuf.set (s.recvBuf.length - 1) 0 }
    Act.modify fun h => { h with curState := .init s }
    parseAndEnter pf f s

/-- SOURCE: http/socks_http_states.cpp:15-50 -/
def onReceive (pf : Platform) (f : Factories) (s : HttpInitState) (mem : Mem) (len : ℕ) :
    Action TcpServerHandler Unit := do
  let returned ← Act.tryCatch (receiveRequest pf f s mem len) fun _ => pure false
  if returned then pure () else TcpServerHandler.tcpConnection Connection.close

end HttpInitState

namespace TcpServerHandler

/-- `HttpWsState::onReceive` on the current state object. -/
def wsReceive (pf : Platform) (handler : WsHandler) (s : HttpWsState) (mem : Mem) (len : ℕ) :
    Action TcpServerHandler Unit :=
  Act.zoom (fun h => (s, h.conn)) (fun t h => { h with curState := .ws handler t.1, conn := t.2 })
    (HttpWsState.onReceive pf .self .self handler mem len)

/-- The virtual call `curState->onReceive(buf, len)`. -/
def stateReceive (pf : Platform) (f : Factories) (mem : Mem) (len : ℕ) :
    Action TcpServerHandler Unit := fun h =>
  match h.curState with
  | .init s => HttpInitState.onReceive pf f s mem len h
  | .get _ => (.ret (), h)
  | .ws handler s => wsReceive pf handler s mem len h

/-- The swap at the end of `onReceive`.
SOURCE: http/socks_http.cpp:48-52 -/
def installNextState : Action TcpServerHandler Unit := Act.modify fun h =>
  match h.nextState with
  | some next =>
    { h with curState := next, nextState := none, conn := h.conn.record (.entered next.kind) }
  | none => h

/-- SOURCE: http/socks_http.cpp:45-53 -/
def onReceive (pf : Platform) (f : Factories) (mem : Mem) (len : ℕ) :
    Action TcpServerHandler Unit := do
  stateReceive pf f mem len
  installNextState

/-- SOURCE: http/socks_http.cpp:43 -/
def onConnect : Action TcpServerHandler Unit := pure ()

/-- SOURCE: http/socks_http.cpp:44, http/socks_http_states.hpp:41, http/socks_http_states_ws.cpp:95 -/
def onDisconnect (pf : Platform) : Action TcpServerHandler Unit := fun h =>
  match h.curState with
  | .ws handler _ => tcpConnection (HttpWsState.onDisconnect pf .self .self handler) h
  | _ => (.ret (), h)

end TcpServerHandler

end CppSocks.Model
