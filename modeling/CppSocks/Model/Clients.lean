import CppSocks.Model.ClientWorker
import Mathlib.Logic.Function.Basic

/-!
# The clients of one server

A server that was started without a factory for WebSocket handlers gets a
`WsHandlerNullFactory`. Its handlers are one object: the static variable of
`createWsHandler` is initialised by the first client that upgrades, with the
connection of that client, and lives on when that connection is gone.

Every client has a worker of its own. The workers take their steps in any order:
the test of the loop head is one step, and what follows it in the pass another.
-/

set_option autoImplicit false

namespace CppSocks.Model

open Foundation

/-- What `createWsHandler` returns; whose connection the handler has is kept in
`Clients.wsHandlerNull`.
SOURCE: http/socks_ws_handler.hpp:80-88 -/
def WsHandlerNullFactory : WsHandlerFactory where
  createWsHandler := fun _ => .ret WsHandlerNull

/-- Where the worker of a client stands: in front of the test of its loop, in the body of the
loop, behind a loop that ended normally, or at its end. -/
inductive WorkerPoint where
  | head
  | body
  | leaving
  | over
deriving DecidableEq, Repr

/-- A client with its `TcpServerHandler` and the `MsgBuf` of its worker. -/
structure Client where
  handler : TcpServerHandler
  buf : Bytes
  point : WorkerPoint

/-- The place of a client: not yet connected, connected, or with its `TcpServerHandler` and
`Connection` destroyed. -/
inductive Slot where
  | unused
  | live (c : Client)
  | destroyed

/-- The clients of a server; `wsHandlerNull` is the client whose connection the static handler
was made with. -/
structure Clients (I : Type) where
  slot : I → Slot
  wsHandlerNull : Option I

/-- What happens at a client. -/
inductive ClientEvent (I : Type) where
  | accept (i : I) (script : List WriteResult) (buf : Bytes)
  | test (i : I) (quit : Bool)
  | pass (i : I) (event : LoopEvent)
  | disconnect (i : I)
  | destroy (i : I)

namespace Clients

variable {I : Type}

/-- A server without clients. -/
def init : Clients I := ⟨fun _ => .unused, none⟩

variable [DecidableEq I]

/-- The client under a name is replaced. -/
def put (s : Clients I) (i : I) (slot : Slot) : Clients I :=
  { s with slot := Function.update s.slot i slot }

/-- The worker of a client goes on. -/
def goTo (s : Clients I) (i : I) (point : WorkerPoint) : Clients I :=
  match s.slot i with
  | .live c => s.put i (.live { c with point := point })
  | _ => s

/-- A computation on the `TcpServerHandler` of a client. A destroyed object must not be used. -/
def withHandler {α : Type} (i : I) (x : Action TcpServerHandler α) : Action (Clients I) α := fun s =>
  match s.slot i with
  | .live c => ((x c.handler).1, s.put i (.live { c with handler := (x c.handler).2 }))
  | _ => (.ub, s)

/-- The connection of a client. -/
def connection (i : I) : Port (Clients I) :=
  ⟨fun x => withHandler i (TcpServerHandler.tcpConnection x)⟩

/-- The connection that the static handler has. -/
def nullConnection : Port (Clients I) :=
  ⟨fun x s =>
    match s.wsHandlerNull with
    | some j => (connection j).run x s
    | none => (.ub, s)⟩

/-- The first call of `createWsHandler`, which the log of its connection shows, makes the static
handler.
SOURCE: http/socks_ws_handler.hpp:85 -/
def initStatic (i : I) (s : Clients I) : Clients I :=
  match s.slot i with
  | .live c =>
    if .createWsHandler ∈ c.handler.conn.log then
      { s with wsHandlerNull := some (s.wsHandlerNull.getD i) }
    else s
  | _ => s

section

variable (pf : Platform) (f : HttpHandlerFactory)

/-- `HttpWsState::onReceive` of a client: the state object has the client's connection, its
handler has that of the static one. -/
def wsReceive (i : I) (handler : WsHandler) (st : HttpWsState) (mem : Mem) (len : ℕ) :
    Action (Clients I) Unit := fun s =>
  let r := HttpWsState.onReceive pf (connection i) nullConnection handler mem len (st, s)
  (r.1, (withHandler i (Act.modify fun h => { h with curState := .ws handler r.2.1 }) r.2.2).2)

/-- `TcpServerHandler::onReceive` of a client.
SOURCE: http/socks_http.cpp:45-53 -/
def onReceive (i : I) (mem : Mem) (len : ℕ) : Action (Clients I) Unit := fun s =>
  match s.slot i with
  | .live c =>
    match c.handler.curState with
    | .ws handler st =>
      (do
        wsReceive pf i handler st mem len
        withHandler i TcpServerHandler.installNextState : Action (Clients I) Unit) s
    | _ =>
      let r := withHandler i (TcpServerHandler.onReceive pf ⟨f, WsHandlerNullFactory⟩ mem len) s
      (r.1, initStatic i r.2)
  | _ => (.ub, s)

/-- `recv` fills the buffer, and the handler gets the chunk.
SOURCE: tcp/socks_tcp_worker.cpp:42,51 -/
def receive (i : I) (chunk : Chunk) : Action (Clients I) Unit := fun s =>
  match s.slot i with
  | .live c =>
    let buf := ClientWorker.fill c.buf chunk
    onReceive pf f i (ClientWorker.bufMem pf buf) chunk.bytes.length
      (s.put i (.live { c with buf := buf }))
  | _ => (.ub, s)

/-- The rest of a pass through the loop; an exception leaves `loop` and is caught in `run`.
SOURCE: tcp/socks_tcp_worker.cpp:40-52 -/
def pass (s : Clients I) (i : I) : LoopEvent → Option (Clients I)
  | .notReadable => some (s.goTo i .head)
  | .again => some (s.goTo i .head)
  | .eof => some (s.goTo i .leaving)
  | .pollFails _ => some (s.goTo i .over)
  | .readFails _ => some (s.goTo i .over)
  | .data chunk =>
    match receive pf f i chunk s with
    | (.ret _, s') => some (s'.goTo i .head)
    | (.exn _, s') => some (s'.goTo i .over)
    | (.ub, _) => none

/-- One step of the server; a step with undefined behaviour has no successor. -/
def step (s : Clients I) : ClientEvent I → Option (Clients I)
  | .accept i script buf =>
    match s.slot i with
    | .unused => some (s.put i (.live ⟨TcpServerHandler.init script, buf, .head⟩))
    | _ => none
  | .test i quit =>
    match s.slot i with
    | .live ⟨h, _, .head⟩ => some (s.goTo i (if quit || h.conn.closed then .leaving else .body))
    | _ => none
  | .pass i event =>
    match s.slot i with
    | .live ⟨_, _, .body⟩ => pass pf f s i event
    | _ => none
  | .disconnect i =>
    match s.slot i with
    | .live ⟨_, _, .leaving⟩ =>
      match withHandler i (TcpServerHandler.onDisconnect pf) s with
      | (.ub, _) => none
      | (_, s') => some (s'.goTo i .over)
    | _ => none
  | .destroy i =>
    match s.slot i with
    | .live ⟨_, _, .over⟩ => some (s.put i .destroyed)
    | _ => none

end

end Clients

end CppSocks.Model
