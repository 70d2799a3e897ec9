import CppSocks.Model.Connection
import Mathlib.Logic.Function.Basic

/-!
# Threads on one connection

The worker answers a client in `onReceive`, and other threads push messages to the
same client: all of them call `WsConnection::send` and `WsConnection::close` on one
connection, which takes no lock. Here the steps of the threads that the others can
see are single: reading `closed`, one `Socket::write`, and setting `closed`.
-/

set_option autoImplicit false

namespace CppSocks.Model

/-- The frame that an operation builds before it uses the connection.
SOURCE: http/socks_ws_handler.cpp:12,19,26 -/
def Operation.response : Operation → Call WebSocketFrame
  | .send buf => WebSocketFrame.create buf true WebSocketFrame.OPCODE_BINARY
  | .sendText buf => WebSocketFrame.createText buf
  | .close => WebSocketFrame.createConnectionClose 0

/-- The next thing a thread does: begin a call, read `closed` at the head of the loop of
`Connection::send`, write in its body, or set `closed`. -/
inductive Point where
  | between
  | test (op : Operation) (buf : Bytes) (numWritten : ℕ)
  | write (op : Operation) (buf : Bytes) (numWritten : ℕ)
  | setClosed
deriving DecidableEq, Repr

/-- A thread, with the calls it still makes. -/
structure Thread where
  point : Point
  calls : List Operation
deriving DecidableEq, Repr

/-- A connection and the threads `T` that use it; `stream` is what the socket accepted. -/
structure Shared (T : Type) where
  closed : Bool
  stream : Bytes
  thread : T → Thread

/-- Whose turn it is, and for what. A write accepts `k + 1` bytes, or all of them if fewer are
offered. -/
inductive Turn (T : Type) where
  | call (t : T)
  | test (t : T)
  | write (t : T) (k : ℕ)
  | setClosed (t : T)
deriving Repr

/-- What follows `Connection::send` in the operation.
SOURCE: http/socks_ws_handler.cpp:14,21,28 -/
def Operation.afterSend : Operation → Point
  | .close => .setClosed
  | _ => .between

namespace Shared

variable {T : Type} [DecidableEq T]

/-- No thread has begun yet. -/
def init (calls : T → List Operation) : Shared T := ⟨false, [], fun t => ⟨.between, calls t⟩⟩

/-- Give a thread another state. -/
def put (s : Shared T) (t : T) (thread : Thread) : Shared T :=
  { s with thread := Function.update s.thread t thread }

/-- A thread goes on to another point. -/
def goTo (s : Shared T) (t : T) (point : Point) : Shared T :=
  s.put t { s.thread t with point := point }

/-- Begin the next call. A frame that cannot be built throws, and the call is over.
SOURCE: http/socks_ws_handler.cpp:10-13 -/
def call (s : Shared T) (t : T) : Option (Shared T) :=
  match s.thread t with
  | ⟨.between, op :: calls⟩ =>
    match op.response with
    | .ret response => some (s.put t ⟨.test op response.data 0, calls⟩)
    | .exn _ => some (s.put t ⟨.between, calls⟩)
    | .ub => none
  | _ => none

/-- The head of the loop of `send`.
SOURCE: tcp/socks_tcp_handler.hpp:26 -/
def test (s : Shared T) (t : T) : Option (Shared T) :=
  match (s.thread t).point with
  | .test op buf numWritten =>
    if s.closed = false ∧ numWritten < buf.length then some (s.goTo t (.write op buf numWritten))
    else some (s.goTo t op.afterSend)
  | _ => none

/-- The body of the loop of `send`.
SOURCE: tcp/socks_tcp_handler.hpp:28 -/
def write (s : Shared T) (t : T) (k : ℕ) : Option (Shared T) :=
  match (s.thread t).point with
  | .write op buf numWritten =>
    let bytes := Connection.accepted k (buf.drop numWritten)
    some { s.goTo t (.test op buf ((numWritten + bytes.length) % SIZE_MOD)) with
      stream := s.stream ++ bytes }
  | _ => none

/-- `Connection::close`.
SOURCE: tcp/socks_tcp_handler.hpp:33 -/
def setClosed (s : Shared T) (t : T) : Option (Shared T) :=
  match (s.thread t).point with
  | .setClosed => some { s.goTo t .between with closed := true }
  | _ => none

/-- One step of one thread. -/
def step (s : Shared T) : Turn T → Option (Shared T)
  | .call t => s.call t
  | .test t => s.test t
  | .write t k => s.write t k
  | .setClosed t => s.setClosed t

/-- The closed flag belongs to the connection, not to a thread. -/
@[simp] theorem put_closed (s : Shared T) (t : T) (thread : Thread) :
    (s.put t thread).closed = s.closed := rfl

/-- So do the bytes on the wire. -/
@[simp] theorem put_stream (s : Shared T) (t : T) (thread : Thread) :
    (s.put t thread).stream = s.stream := rfl

/-- The thread that is put is found there. -/
@[simp] theorem put_thread_self (s : Shared T) (t : T) (thread : Thread) :
    (s.put t thread).thread t = thread := by
  simp [put]

/-- The other threads stay as they are. -/
theorem put_thread_ne (s : Shared T) {t t' : T} (h : t' ≠ t) (thread : Thread) :
    (s.put t thread).thread t' = s.thread t' := by
  simp [put, h]

/-- When one thread goes on, the others stay as they are. -/
theorem goTo_thread_ne (s : Shared T) {t t' : T} (h : t' ≠ t) (point : Point) :
    (s.goTo t point).thread t' = s.thread t' := s.put_thread_ne h _

section Steps

variable {s s' : Shared T} {t : T}

/-- A call builds its frame and goes on to the loop of `send`, or throws. -/
theorem call_cases (h : s.call t = some s') :
    ∃ op calls, s.thread t = ⟨.between, op :: calls⟩ ∧
      ((∃ r, op.response = .ret r ∧ s' = s.put t ⟨.test op r.data 0, calls⟩) ∨
        ∃ e, op.response = .exn e ∧ s' = s.put t ⟨.between, calls⟩) := by
  unfold call at h
  split at h
  · rename_i op calls hthread
    refine ⟨op, calls, hthread, ?_⟩
    split at h
    · rename_i r hr
      exact Or.inl ⟨r, hr, (Option.some.inj h).symm⟩
    · rename_i e he
      exact Or.inr ⟨e, he, (Option.some.inj h).symm⟩
    · cases h
  · cases h

/-- The test of the loop: there is something left to write and the connection is open, or the loop
ends. -/
theorem test_cases (h : s.test t = some s') :
    ∃ op buf numWritten, (s.thread t).point = .test op buf numWritten ∧
      (s.closed = false ∧ numWritten < buf.length ∧ s' = s.goTo t (.write op buf numWritten) ∨
        (s.closed = false → buf.length ≤ numWritten) ∧ s' = s.goTo t op.afterSend) := by
  unfold test at h
  split at h
  · rename_i op buf numWritten hpoint
    refine ⟨op, buf, numWritten, hpoint, ?_⟩
    split at h
    · rename_i hloop
      exact Or.inl ⟨hloop.1, hloop.2, (Option.some.inj h).symm⟩
    · rename_i hleave
      refine Or.inr ⟨fun hopen => ?_, (Option.some.inj h).symm⟩
      exact Nat.le_of_not_lt fun hlt => hleave ⟨hopen, hlt⟩
  · cases h

/-- A write puts at least one byte of what is left on the wire. -/
theorem write_cases {k : ℕ} (h : s.write t k = some s') :
    ∃ op buf numWritten, (s.thread t).point = .write op buf numWritten ∧
      s' = { s.goTo t (.test op buf
          ((numWritten + (Connection.accepted k (buf.drop numWritten)).length) % SIZE_MOD)) with
        stream := s.stream ++ Connection.accepted k (buf.drop numWritten) } := by
  unfold write at h
  split at h
  · rename_i op buf numWritten hpoint
    exact ⟨op, buf, numWritten, hpoint, (Option.some.inj h).symm⟩
  · cases h

/-- The closed flag is set at the end of `close`. -/
theorem setClosed_cases (h : s.setClosed t = some s') :
    (s.thread t).point = .setClosed ∧ s' = { s.goTo t .between with closed := true } := by
  unfold setClosed at h
  split at h
  · rename_i hpoint
    exact ⟨hpoint, (Option.some.inj h).symm⟩
  · cases h

end Steps

end Shared

end CppSocks.Model
