import CppSocks.Model.ClientWorker

/-!
# The accept loop

`Tcp::Server::serve` over the POSIX system context: it accepts clients, starts a
worker with a thread of its own for each while there are fewer than `maxClients`,
turns the others away, and joins the workers that have become inactive. The threads
of the workers run at any time between its steps.

A `SocketImpl` has no destructor of its own: its descriptor is closed by
`SocketImpl::close` only, and only `ClientWorker::run` calls that.
-/

set_option autoImplicit false

namespace CppSocks.Model

open Foundation

/-- What becomes of the accepted sockets, which are numbered, and of their workers.
SOURCE: examples/system_context/system_impl.hpp:28-46 -/
inductive ServeRecord where
  | accepted (socket : ℕ)
  | started (socket : ℕ)
  | rejected (socket : ℕ)
  | closed (socket : ℕ)
  | joined (socket : ℕ)
  | destroyed (socket : ℕ)
deriving DecidableEq, Repr

/-- How `ListenSocket::accept` ends: no client, or a new `SocketImpl`, or an exception.
SOURCE: examples/system_context/system_posix.cpp:158-174 -/
inductive AcceptResult where
  | none
  | client
  | fails (e : Exc)
deriving DecidableEq, Repr

/-- A `ClientWorker` in the list. Its thread is running until `run` is over. -/
structure ServedWorker (σ : Type) where
  socket : ℕ
  running : Bool
  worker : ClientWorker σ

/-- The next thing that `serve` does: test the quit condition, accept, test the worker at a position
of the list (`cleanup`) or join it, test the number of workers against the limit, join the worker at
a position at the end; or it has returned or thrown. -/
inductive ServePoint where
  | head
  | accept
  | cleanup (socket k : ℕ)
  | join (socket k : ℕ)
  | limit (socket : ℕ)
  | finish (k : ℕ)
  | returned
  | thrown (e : Exc)
deriving DecidableEq, Repr

/-- `serve` with its workers; `accepted` is the number of sockets that `accept` has returned. -/
structure ServeState (σ : Type) where
  point : ServePoint
  accepted : ℕ
  workers : List (ServedWorker σ)
  log : List ServeRecord

/-- A step of `serve`, or the run of the worker at a position of the list. The quit condition, the
results of `accept`, of `createServerHandler` and of the write to a client that is turned away, and
what happens to a worker are not under its control. -/
inductive ServeEvent (σ : Type) where
  | quit (b : Bool)
  | accept (r : AcceptResult)
  | isActive
  | join
  | start (handler : Except Exc σ) (buf : Bytes)
  | reject (r : WriteResult)
  | finish
  | run (k : ℕ) (events : List LoopEvent)

namespace ServeState

variable {σ : Type}

/-- The beginning of `serve`. -/
def init : ServeState σ := ⟨.head, 0, [], []⟩

/-- The main thread goes to a point of `serve`. -/
def goTo (s : ServeState σ) (point : ServePoint) : ServeState σ := { s with point := point }

/-- One more record in the log. -/
def record (s : ServeState σ) (r : ServeRecord) : ServeState σ := { s with log := s.log ++ [r] }

/-- The scope of `serve` is left: the list of workers is destroyed. -/
def leave (s : ServeState σ) (point : ServePoint) : ServeState σ where
  point := point
  accepted := s.accepted
  workers := []
  log := s.log ++ s.workers.map fun w => .destroyed w.socket

/-- SOURCE: tcp/socks_tcp.cpp:28-32 -/
def accept (s : ServeState σ) : AcceptResult → ServeState σ
  | .none => s.goTo .head
  | .client => ({ s with accepted := s.accepted + 1 }.record (.accepted s.accepted)).goTo
      (.cleanup s.accepted 0)
  | .fails e => s.leave (.thrown e)

/-- The test of one worker in `cleanup`.
SOURCE: tcp/socks_tcp.cpp:48-51 -/
def isActive (s : ServeState σ) (socket k : ℕ) : ServeState σ :=
  match s.workers[k]? with
  | none => s.goTo (.limit socket)
  | some w => s.goTo (if w.worker.isActive then .cleanup socket (k + 1) else .join socket k)

/-- `worker.finish()` in `cleanup`, once its thread has ended, and the removal of the worker.
SOURCE: tcp/socks_tcp.cpp:52-53 -/
def join (s : ServeState σ) (socket k : ℕ) : Option (ServeState σ) :=
  match s.workers[k]? with
  | none => none
  | some w =>
    if w.running then none
    else some (((({ s with workers := s.workers.eraseIdx k }).record (.joined w.socket)).record
      (.destroyed w.socket)).goTo (.cleanup socket k))

/-- `createServerHandler` and `emplace_back`, which starts the worker's thread.
SOURCE: tcp/socks_tcp.cpp:36, tcp/socks_tcp_worker.hpp:20-24,37-41 -/
def start (s : ServeState σ) (socket : ℕ) (handler : Except Exc σ) (buf : Bytes) : ServeState σ :=
  match handler with
  | .ok handler =>
    let worker : ServedWorker σ := ⟨socket, true, ClientWorker.init handler buf⟩
    ({ s with workers := s.workers ++ [worker] }.record (.started socket)).goTo .head
  | .error e => s.leave (.thrown e)

/-- The client is told and forgotten.
SOURCE: tcp/socks_tcp.cpp:39-40 -/
def reject (s : ServeState σ) (socket : ℕ) : WriteResult → ServeState σ
  | .fail e => s.leave (.thrown e)
  | _ => (s.record (.rejected socket)).goTo .head

/-- `worker.finish()` at the end of `serve`.
SOURCE: tcp/socks_tcp.cpp:42 -/
def finish (s : ServeState σ) (k : ℕ) : Option (ServeState σ) :=
  match s.workers[k]? with
  | none => some (s.leave .returned)
  | some w => if w.running then none else some ((s.record (.joined w.socket)).goTo (.finish (k + 1)))

/-- A worker runs to its end; each `socket->close()` in it closes its socket. -/
def run (pf : Platform) (H : ServerHandler σ) (s : ServeState σ) (k : ℕ) (events : List LoopEvent) :
    Option (ServeState σ) :=
  match s.workers[k]? with
  | none => none
  | some w =>
    if w.running then
      match ClientWorker.run pf H events w.worker with
      | (.ret _, worker) => some { s with
          workers := s.workers.set k ⟨w.socket, false, worker⟩
          log := s.log ++ List.replicate (worker.calls.count .closeSocket) (.closed w.socket) }
      | _ => none
    else none

/-- One step; `maxClients` is the option of that name.
SOURCE: tcp/socks_tcp.cpp:21-55 -/
def step (pf : Platform) (H : ServerHandler σ) (maxClients : ℕ) (s : ServeState σ) :
    ServeEvent σ → Option (ServeState σ)
  | .quit b =>
    match s.point with
    | .head => some (s.goTo (if b then .finish 0 else .accept))
    | _ => none
  | .accept r =>
    match s.point with
    | .accept => some (s.accept r)
    | _ => none
  | .isActive =>
    match s.point with
    | .cleanup socket k => some (s.isActive socket k)
    | _ => none
  | .join =>
    match s.point with
    | .join socket k => s.join socket k
    | _ => none
  | .start handler buf =>
    match s.point with
    | .limit socket =>
      if s.workers.length < maxClients then some (s.start socket handler buf) else none
    | _ => none
  | .reject r =>
    match s.point with
    | .limit socket => if s.workers.length < maxClients then none else some (s.reject socket r)
    | _ => none
  | .finish =>
    match s.point with
    | .finish k => s.finish k
    | _ => none
  | .run k events => s.run pf H k events

end ServeState

end CppSocks.Model
