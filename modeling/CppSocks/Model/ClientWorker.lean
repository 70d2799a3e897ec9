import CppSocks.Model.HttpStates

/-!
# The worker of one client

`ClientWorker::run` and its loop, for any `ServerHandler`. What the system does
is a list of `LoopEvent`s, one for each pass through the loop: how the socket
test, and the read after it, came out. When the list is used up, the next test
of the loop head sees the quit condition, so every run that ends is a run over
such a list.
-/

set_option autoImplicit false

namespace CppSocks.Model

open Foundation

/-- `ServerHandler`; `σ` is the object with its connection.
SOURCE: tcp/socks_tcp_handler.hpp:59-67 -/
structure ServerHandler (σ : Type) where
  onConnect : Action σ Unit
  onReceive : Mem → ℕ → Action σ Unit
  onDisconnect : Action σ Unit
  isClosed : σ → Bool

/-- What `Socket::read` can deliver at once: between 1 and `MAX_SIZE` bytes. -/
structure Chunk where
  bytes : Bytes
  pos : 0 < bytes.length
  le : bytes.length ≤ MAX_SIZE
deriving DecidableEq, Repr

/-- One pass through the loop: `isReadable` is false or throws, or it is true and `read` returns
`NUM_EOF`, `NUM_CONTINUE` or data, or throws. -/
inductive LoopEvent where
  | notReadable
  | pollFails (e : Exc)
  | eof
  | again
  | readFails (e : Exc)
  | data (chunk : Chunk)
deriving DecidableEq, Repr

/-- What the worker does, in order. `connected` is recorded when `onConnect` has returned. -/
inductive WorkerCall where
  | connected
  | receive (bytes : Bytes)
  | disconnect
  | closeSocket
  | inactive
deriving DecidableEq, Repr

/-- `ClientWorker`; `buf` is the `MsgBuf` of `loop`.
SOURCE: tcp/socks_tcp_worker.hpp:17-48 -/
structure ClientWorker (σ : Type) where
  handler : σ
  buf : Bytes
  isActive : Bool
  calls : List WorkerCall

namespace ClientWorker

variable {σ : Type}

/-- A worker that was started; the content of `MsgBuf` is indeterminate.
SOURCE: tcp/socks_tcp_worker.hpp:20-24 -/
def init (handler : σ) (buf : Bytes) : ClientWorker σ := ⟨handler, buf, true, []⟩

/-- Record a call. -/
def record (c : WorkerCall) (w : ClientWorker σ) : ClientWorker σ :=
  { w with calls := w.calls ++ [c] }

/-- A call of the handler. -/
def handle {α : Type} (x : Action σ α) : Action (ClientWorker σ) α :=
  Act.zoom ClientWorker.handler (fun h w => { w with handler := h }) x

/-- The memory at `buf.data()`: the `MsgBuf`, and whatever lies behind it. -/
def bufMem (pf : Platform) (buf : Bytes) : Mem := fun i =>
  if i < buf.length then buf[i]? else pf.beyond i

/-- `recv` writes to the start of the buffer; the bytes behind stay. -/
def fill (buf : Bytes) (chunk : Chunk) : Bytes := chunk.bytes ++ buf.drop chunk.bytes.length

/-- A chunk that begins with the bytes `bs`, once it is in the worker's buffer. -/
theorem bufMem_fill_startsWith (pf : Platform) (buf : Bytes) {chunk : Chunk} {bs rest : Bytes}
    (h : chunk.bytes = bs ++ rest) :
    (bufMem pf (fill buf chunk)).StartsWith bs := by
  intro i hi
  have hfill : fill buf chunk = bs ++ (rest ++ buf.drop chunk.bytes.length) := by
    rw [fill, h, List.append_assoc]
  rw [hfill, bufMem, if_pos (by rw [List.length_append]; omega),
    List.getElem?_append_left hi, List.getElem?_eq_getElem hi]

/-- The call of `handler->onReceive` for a chunk. -/
def receive (pf : Platform) (H : ServerHandler σ) (chunk : Chunk) :
    Action (ClientWorker σ) Unit := do
  Act.modify fun w => { w with buf := fill w.buf chunk }
  Act.modify (record (.receive chunk.bytes))
  let buf ← Act.gets ClientWorker.buf
  handle (H.onReceive (bufMem pf buf) chunk.bytes.length)

/-- SOURCE: tcp/socks_tcp_worker.cpp:34-54 -/
def loop (pf : Platform) (H : ServerHandler σ) : List LoopEvent → Action (ClientWorker σ) Unit
  | [] => pure ()
  | event :: events => do
    let closed ← Act.gets fun w => H.isClosed w.handler
    if closed then pure ()
    else
      match event with
      | .notReadable => loop pf H events
      | .pollFails e => Act.throw e
      | .eof => pure ()
      | .again => loop pf H events
      | .readFails e => Act.throw e
      | .data chunk => do
        receive pf H chunk
        loop pf H events

/-- The `try` block of `run` behind `handler->onConnect()`.
SOURCE: tcp/socks_tcp_worker.cpp:23-25 -/
def loopAndClose (pf : Platform) (H : ServerHandler σ) (events : List LoopEvent) :
    Action (ClientWorker σ) Unit := do
  loop pf H events
  Act.modify (record .disconnect)
  handle H.onDisconnect
  Act.modify (record .closeSocket)

/-- `catch (std::exception&)` and the end of `run`.
SOURCE: tcp/socks_tcp_worker.cpp:27-31 -/
def finishRun (x : Action (ClientWorker σ) Unit) : Action (ClientWorker σ) Unit := do
  Act.tryCatch x fun _ => pure ()
  Act.modify fun w => { (w.record .inactive) with isActive := false }

/-- SOURCE: tcp/socks_tcp_worker.cpp:18-32 -/
def run (pf : Platform) (H : ServerHandler σ) (events : List LoopEvent) :
    Action (ClientWorker σ) Unit :=
  finishRun do
    handle H.onConnect
    Act.modify (record .connected)
    loopAndClose pf H events

end ClientWorker

/-- The `ServerHandler` of an HTTP server. -/
def TcpServerHandler.serverHandler (pf : Platform) (f : Factories) :
    ServerHandler TcpServerHandler where
  onConnect := TcpServerHandler.onConnect
  onReceive := TcpServerHandler.onReceive pf f
  onDisconnect := TcpServerHandler.onDisconnect pf
  isClosed := fun h => h.conn.closed

end CppSocks.Model
