import CppSocks.Model.ClientWorker

/-!
# The worker's loop over the socket

`ClientWorker::loop` with `SocketImpl` below it. `ClientWorker.loop` is told how each
pass comes out; here a pass sees what the system shows it: the quit condition, the
result of `poll`, and that of `recv`, which becomes a signed number among which
`NUM_EOF` and `NUM_CONTINUE` are two. The handler is given the buffer and that number.
-/

set_option autoImplicit false

namespace CppSocks.Model

open Foundation

/-- `Socket::NUM_EOF`.
SOURCE: examples/system_context/system_posix.cpp:188 -/
def NUM_EOF : ℤ := 0

/-- `Socket::NUM_CONTINUE`.
SOURCE: examples/system_context/system_posix.cpp:189 -/
def NUM_CONTINUE : ℤ := -1

/-- The `errno` of a call that failed; `EWOULDBLOCK` is `EAGAIN`. The text is that of `strerror`. -/
inductive Errno where
  | EINTR
  | EAGAIN
  | other (strerror : String)
deriving DecidableEq, Repr

/-- How `poll` comes out: its result, and whether `revents` has the flag that was asked for. -/
inductive PollResult where
  | returned (r : ℕ) (revents : Bool)
  | failed (errno : Errno)
deriving DecidableEq, Repr

/-- How `recv` into the `MsgBuf` comes out; it stores no more than there is room for. -/
inductive RecvResult where
  | received (bytes : Bytes) (le : bytes.length ≤ MAX_SIZE)
  | failed (errno : Errno)
deriving Repr

namespace SocketImpl

/-- A `poll` that was interrupted leaves `revents` as it was, zero.
SOURCE: examples/system_context/system_posix.cpp:138-151, 154 -/
def isReadable : PollResult → Call Bool
  | .returned r revents => .ret (r != 0 && revents)
  | .failed .EINTR => .ret false
  | .failed .EAGAIN => .ret false
  | .failed (.other text) => .exn (.runtime_error text)

/-- `read` into the buffer that is the state.
SOURCE: examples/system_context/system_posix.cpp:105-118 -/
def read : RecvResult → Action Bytes ℤ
  | .received bytes _ => do
    Act.modify fun buf => bytes ++ buf.drop bytes.length
    pure bytes.length
  | .failed .EINTR => pure NUM_CONTINUE
  | .failed .EAGAIN => pure NUM_CONTINUE
  | .failed (.other text) => Act.throw (.runtime_error text)

end SocketImpl

/-- What the system shows the loop in one pass: the quit condition when the loop head tests it, and how
`poll` and `recv` come out in case the pass gets to call them. -/
structure Pass where
  quit : Bool
  poll : PollResult
  recv : RecvResult
deriving Repr

namespace Pass

/-- A chunk of at least one byte is not empty. -/
theorem length_cons_pos (b : Byte) (bytes : Bytes) : 0 < (b :: bytes).length := Nat.succ_pos _

/-- How the pass appears to `ClientWorker.loop`, once it is made. -/
def event (p : Pass) : LoopEvent :=
  match SocketImpl.isReadable p.poll with
  | .exn e => .pollFails e
  | .ub => .notReadable
  | .ret false => .notReadable
  | .ret true =>
    match p.recv with
    | .received [] _ => .eof
    | .received (b :: bytes) le => .data ⟨b :: bytes, length_cons_pos b bytes, le⟩
    | .failed .EINTR => .again
    | .failed .EAGAIN => .again
    | .failed (.other text) => .readFails (.runtime_error text)

/-- The bytes that `read` returns in the pass, if it returns any. -/
def chunk (p : Pass) : Option Bytes :=
  match SocketImpl.isReadable p.poll, p.recv with
  | .ret true, .received (b :: bytes) _ => some (b :: bytes)
  | _, _ => none

/-- `read` returns `NUM_EOF`. -/
def atEnd (p : Pass) : Bool :=
  match SocketImpl.isReadable p.poll, p.recv with
  | .ret true, .received [] _ => true
  | _, _ => false

/-- `isReadable` or `read` throws. -/
def raises (p : Pass) : Bool :=
  match SocketImpl.isReadable p.poll, p.recv with
  | .exn _, _ => true
  | .ret true, .failed (.other _) => true
  | _, _ => false

end Pass

namespace ClientWorker

variable {σ : Type} (pf : Platform) (H : ServerHandler σ)

/-- The call `handler->onReceive(buf.data(), len)`: `len` becomes a `std::size_t`. What is recorded is
what the handler finds through its arguments. -/
def onReceive (len : ℤ) : Action (ClientWorker σ) Unit := do
  let buf ← Act.gets ClientWorker.buf
  let size := (len % SIZE_MOD).toNat
  Act.modify (record (.receive ((List.range size).filterMap (bufMem pf buf))))
  handle (H.onReceive (bufMem pf buf) size)

/-- `loop`, for the passes that the system allows; behind the last of them the run is not looked at.
SOURCE: tcp/socks_tcp_worker.cpp:34-54 -/
def socketLoop : List Pass → Action (ClientWorker σ) Unit
  | [] => pure ()
  | p :: ps => do
    let closed ← Act.gets fun w => H.isClosed w.handler
    if !p.quit && !closed then do
      let readable ← Act.lift (SocketImpl.isReadable p.poll)
      if readable then do
        let len ← Act.zoom ClientWorker.buf (fun buf w => { w with buf := buf })
          (SocketImpl.read p.recv)
        if len = NUM_EOF then pure ()
        else if len = NUM_CONTINUE then socketLoop ps
        else do
          onReceive pf H len
          socketLoop ps
      else socketLoop ps
    else pure ()

end ClientWorker

end CppSocks.Model
