import CppSocks.Model.WebSocketFrame

/-!
# Connections and the code that uses them

`Connection::send` with the short writes of the socket below it, the WebSocket
operations on top of it, and `Prog`, the programs that user code (a handler or a
factory) can run while one of its callbacks is active.

Everything that can be observed on a connection is recorded in its `log`: the
bytes the socket accepted, the callbacks made and the state changes.
-/

set_option autoImplicit false

namespace CppSocks.Model

open Foundation

/-- The states of `TcpServerHandler`. -/
inductive StateKind where
  | init | get | ws
deriving DecidableEq, Repr

/-- What can be observed on one connection, in the order in which it happens. A callback is
recorded when it is made; `doGetEnd` and `onConnectEnd` are recorded when it is over,
`onConnectEnd` only when it returned. -/
inductive Event where
  | wrote (bytes : Bytes)
  | opened (path : Bytes)
  | createHttpHandler
  | createWsHandler
  | doGet
  | doGetEnd
  | subprotocol
  | handed (response : Bytes)
  | onConnect
  | onConnectEnd
  | onData (payload : Bytes)
  | onText (payload : Bytes)
  | onDisconnect
  | entered (kind : StateKind)
deriving DecidableEq, Repr

/-- The events of a connection in their order. -/
abbrev Log := List Event

/-- The bytes the socket accepted. -/
def Log.written (log : Log) : Bytes :=
  log.flatMap fun
    | .wrote bytes => bytes
    | _ => []

/-- The callback delivers a message. -/
def Event.isMessage : Event → Bool
  | .onData _ => true
  | .onText _ => true
  | _ => false

/-- Bytes are written or a file is opened; user code causes such an event by itself. -/
def IsTransfer : Event → Prop
  | .wrote _ => True
  | .opened _ => True
  | _ => False

/-- The `onText` and `onData` callbacks. -/
def Log.messages (log : Log) : List Event := log.filter Event.isMessage

/-- The outcome of one `Socket::write`: `accept k` accepts `k + 1` bytes, or all of them if
fewer are offered; `again` is `NUM_CONTINUE`; `fail` is an exception. -/
inductive WriteResult where
  | accept (k : ℕ)
  | again
  | fail (e : Exc)
deriving DecidableEq, Repr

/-- `Connection` with the socket behind it. `script` holds the outcomes of the next calls of
`Socket::write`; calls behind its end accept all that is offered.
SOURCE: tcp/socks_tcp_handler.hpp:17-46 -/
structure Conn where
  closed : Bool
  script : List WriteResult
  log : Log
deriving DecidableEq, Repr

/-- A fresh connection. -/
def Conn.init (script : List WriteResult) : Conn := ⟨false, script, []⟩

/-- Record an event. -/
def Conn.record (e : Event) (c : Conn) : Conn := { c with log := c.log ++ [e] }

/-- Computations on a state. -/
abbrev Action (σ α : Type) := Act Exc σ α

namespace Connection

/-- The bytes accepted by one `Socket::write` of `offered`. -/
def accepted (k : ℕ) (offered : Bytes) : Bytes := offered.take (k + 1)

/-- The loop of `send`, over the outcomes of the writes. `numWritten` is a `std::size_t`, to
which the signed result is added: `NUM_CONTINUE` is `-1`.
SOURCE: tcp/socks_tcp_handler.hpp:25-31 -/
def sendLoop (closed : Bool) (buf : Bytes) : List WriteResult → ℕ → Log → Res Exc ℕ × Conn
  | [], numWritten, log =>
    if closed = false ∧ numWritten < buf.length then
      (.ret buf.length, ⟨closed, [], log ++ [.wrote (buf.drop numWritten)]⟩)
    else (.ret numWritten, ⟨closed, [], log⟩)
  | r :: script, numWritten, log =>
    if closed = false ∧ numWritten < buf.length then
      match r with
      | .accept k =>
        let bytes := accepted k (buf.drop numWritten)
        sendLoop closed buf script ((numWritten + bytes.length) % SIZE_MOD) (log ++ [.wrote bytes])
      | .again => sendLoop closed buf script ((numWritten + (SIZE_MOD - 1)) % SIZE_MOD) log
      | .fail e => (.exn e, ⟨closed, script, log⟩)
    else (.ret numWritten, ⟨closed, r :: script, log⟩)

/-- SOURCE: tcp/socks_tcp_handler.hpp:23-32 -/
def send (buf : Bytes) : Action Conn ℕ := fun c => sendLoop c.closed buf c.script 0 c.log

/-- SOURCE: tcp/socks_tcp_handler.hpp:33 -/
def close : Action Conn Unit := Act.modify fun c => { c with closed := true }

/-- SOURCE: tcp/socks_tcp_handler.hpp:34 -/
def isClosed : Action Conn Bool := Act.gets Conn.closed

end Connection

/-! ## User code -/

/-- A program that user code runs during a callback: it can use the connection, open files,
throw, catch what its own calls throw, and run into undefined behaviour. Whatever else it does
is not seen by the library. -/
inductive Prog (α : Type) where
  | ret (a : α)
  | throw (e : Exc)
  | ub
  | send (buf : Bytes) (k : Except Exc ℕ → Prog α)
  | close (k : Prog α)
  | isClosed (k : Bool → Prog α)
  | openFile (path : Bytes) (k : Option OpenedFile → Prog α)

namespace Prog

variable {α β : Type}

/-- Programs in sequence: the second goes on with the result of the first. -/
def bind (p : Prog α) (f : α → Prog β) : Prog β :=
  match p with
  | ret a => f a
  | throw e => throw e
  | ub => ub
  | send buf k => send buf fun r => (k r).bind f
  | close k => close (k.bind f)
  | isClosed k => isClosed fun b => (k b).bind f
  | openFile path k => openFile path fun c => (k c).bind f

instance : Monad Prog where
  pure := ret
  bind := bind

/-- A call that does not use the connection. -/
def ofCall : Call α → Prog α
  | .ret a => ret a
  | .exn e => throw e
  | .ub => ub

/-- `connection->send(buf, len)`, its exceptions passed on. -/
def sendAll (buf : Bytes) : Prog ℕ :=
  send buf fun
    | .ok n => ret n
    | .error e => throw e

/-- Run a program on a connection. -/
def run (pf : Platform) : Prog α → Action Conn α
  | ret a => pure a
  | throw e => Act.throw e
  | ub => Act.undefined
  | send buf k => fun c =>
    match Connection.send buf c with
    | (.ret n, c') => (k (.ok n)).run pf c'
    | (.exn e, c') => (k (.error e)).run pf c'
    | (.ub, c') => (.ub, c')
  | close k => do
    Connection.close
    k.run pf
  | isClosed k => fun c => (k c.closed).run pf c
  | openFile path k => do
    Act.modify (Conn.record (.opened path))
    (k (pf.openFile path)).run pf

end Prog

/-! ## WebSocket operations -/

/-- The operations of a user of the connection. A text is given as a C string: the bytes in front of
the first NUL. -/
inductive Operation where
  | send (buf : Bytes)
  | sendText (buf : Bytes)
  | close
deriving DecidableEq, Repr

namespace WsConnection

/-- `send` of a byte buffer.
SOURCE: http/socks_ws_handler.cpp:10-15 -/
def send (buf : Bytes) : Prog ℕ := do
  let response ← Prog.ofCall (WebSocketFrame.create buf true WebSocketFrame.OPCODE_BINARY)
  let _ ← Prog.sendAll response.data
  Prog.ofCall response.payloadLength

/-- `send` of a C string.
SOURCE: http/socks_ws_handler.cpp:17-22 -/
def sendText (buf : Bytes) : Prog ℕ := do
  let response ← Prog.ofCall (WebSocketFrame.createText buf)
  let _ ← Prog.sendAll response.data
  Prog.ofCall response.payloadLength

/-- SOURCE: http/socks_ws_handler.cpp:24-29 -/
def close : Prog Unit := do
  let message ← Prog.ofCall (WebSocketFrame.createConnectionClose 0)
  let _ ← Prog.sendAll message.data
  Prog.close (.ret ())

end WsConnection

end CppSocks.Model
