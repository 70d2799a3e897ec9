import CppSocks.Model.Connection
import Mathlib.Data.List.Sort
import Mathlib.Logic.Function.Basic

/-!
# The push servers

The programs `ws_push` and `tcp_push`. The main thread runs `serve`: it starts a
worker for each client and joins the workers that have ended. A worker enters its
connection into the set of an `ElemMgr` when the client has connected, and takes it
out when the client disconnects. One more thread, the pusher, sends a counter to all
connections of the set again and again. A mutex guards the set, a signal ends all
threads.

Connections are known by their addresses `I`, which order the set; an address can be
used again once its connection is destroyed. The threads take their steps in any
order. A call of `Connection::send` is one step here, of which the beginning and the
end can be told apart; how two such calls on one connection can mix is the matter of
`Shared`.
-/

set_option autoImplicit false

namespace CppSocks.Model

open Foundation

/-- What the pusher prints for a counter.
SOURCE: examples/ws_push/pusher.cpp:10, examples/tcp_push/main.cpp:99 -/
def message (cnt : ℕ) : Bytes := ascii (toString cnt) ++ [0x0A]

/-- What the two programs differ in: a connection is entered when the client has connected, or when
it has upgraded; and the call by which a counter is sent. -/
structure PushKind where
  onTcpConnect : Bool
  send : ℕ → Prog ℕ

/-- SOURCE: examples/ws_push/manager.hpp:30, examples/ws_push/handler.cpp:3-12 -/
def wsPush : PushKind := ⟨false, fun cnt => WsConnection.sendText (message cnt)⟩

/-- The terminating NUL is sent too.
SOURCE: examples/tcp_push/main.cpp:43,57-66,100 -/
def tcpPush : PushKind := ⟨true, fun cnt => Prog.sendAll (message cnt ++ [0])⟩

/-- Where a worker stands: at the head of its loop, in the body; waiting for the mutex in `addElem`,
having it there; before `onDisconnect`; waiting for the mutex in `delElem`, having it there; before
`socket->close()`; before the end of `run`; at its end. -/
inductive PushPoint where
  | head
  | body
  | adding
  | inserting
  | leaving
  | removing
  | erasing
  | closing
  | ending
  | done
deriving DecidableEq, Repr

/-- A worker with its handler. `added`: the handler has entered its connection, and has not taken it
out again. -/
structure PushClient where
  point : PushPoint
  added : Bool
  socketClosed : Bool
  conn : Conn
deriving DecidableEq, Repr

/-- How a pass through the loop of a worker comes out: nothing to read; `NUM_EOF`; an exception of the
socket; the handler uses its connection; the request is an upgrade, which is answered. -/
inductive PassResult where
  | idle
  | eof
  | fails
  | handled (p : Prog Unit)
  | upgraded (p : Prog Unit)

/-- The steps of a worker that concern nobody else. -/
inductive WorkerEvent where
  | test
  | pass (r : PassResult)
  | disconnect
  | close
  | finish

namespace PushClient

/-- A pass. What the handler throws ends `run`; what `HttpWsState::onEnter` throws is caught, and the
connection is closed.
SOURCE: tcp/socks_tcp_worker.cpp:27-30,40-52, http/socks_http_states.cpp:44-49 -/
def pass (pf : Platform) (kind : PushKind) (c : PushClient) : PassResult → Option PushClient
  | .idle => some { c with point := .head }
  | .eof => some { c with point := .leaving }
  | .fails => some { c with point := .ending }
  | .handled p =>
    match p.run pf c.conn with
    | (.ret _, conn) => some { c with point := .head, conn := conn }
    | (.exn _, conn) => some { c with point := .ending, conn := conn }
    | (.ub, _) => none
  | .upgraded p =>
    if kind.onTcpConnect || c.added then none
    else
      match p.run pf c.conn with
      | (.ret _, conn) => some { c with point := .adding, conn := conn }
      | (.exn _, conn) => some { c with point := .head, conn := { conn with closed := true } }
      | (.ub, _) => none

/-- SOURCE: tcp/socks_tcp_worker.cpp:18-32,38, http/socks_http_states_ws.cpp:95 -/
def step (pf : Platform) (kind : PushKind) (quit : Bool) (c : PushClient) :
    WorkerEvent → Option PushClient
  | .test =>
    if c.point = .head then
      some { c with point := if quit || c.conn.closed then .leaving else .body }
    else none
  | .pass r => if c.point = .body then c.pass pf kind r else none
  | .disconnect =>
    if c.point = .leaving then some { c with point := if c.added then .removing else .closing }
    else none
  | .close => if c.point = .closing then some { c with point := .ending, socketClosed := true } else none
  | .finish => if c.point = .ending then some { c with point := .done } else none

/-- An exception ends the worker although its connection is still entered. -/
def abandons (c : PushClient) : Bool := c.added && c.point == .ending

end PushClient

/-- Where the main thread stands in `serve` and behind it; `terminated` is the end of the process by
`std::terminate`.
SOURCE: tcp/socks_tcp.cpp:21-55, examples/ws_push/main.cpp:43-53 -/
inductive MainPoint where
  | head
  | accept
  | cleanup (k : ℕ)
  | join (k : ℕ)
  | limit
  | finish (k : ℕ)
  | joinPusher
  | exited
  | terminated
deriving DecidableEq, Repr

/-- Where the pusher stands: at the head of its loop; waiting for the mutex in `push`; at the head of
the loop over the set, with its iterator (`none` is `end()`); in the call of `send` on an element;
behind `push`; at its end. -/
inductive PusherPoint (I : Type) where
  | test
  | lock
  | visit (it : Option I)
  | sending (i : I)
  | sleep
  | ended
deriving DecidableEq, Repr

/-- Who holds the mutex. -/
inductive Holder (I : Type) where
  | pusher
  | worker (i : I)
deriving DecidableEq, Repr

/-- What becomes of the set: an element enters or leaves it, all elements have been sent a counter, or
a worker ends by an exception and leaves its element behind. -/
inductive PushRecord (I : Type) where
  | added (i : I)
  | removed (i : I)
  | pushed
  | abandoned (i : I)
deriving DecidableEq, Repr

/-- The state of the program. `cnt` counts without wrapping around; `inbox` holds what has been sent to
an element since it entered the set. -/
structure PushState (I : Type) where
  main : MainPoint
  pusher : PusherPoint I
  cnt : ℕ
  mtx : Option (Holder I)
  elements : List I
  workers : List I
  client : I → Option PushClient
  signalStatus : Bool
  inbox : I → List ℕ
  log : List (PushRecord I)

/-- How `accept` ends. -/
inductive PushAccept where
  | none
  | client
  | fails
deriving DecidableEq, Repr

/-- A step of one of the threads, or a signal. `start` has the address of the new handler, if it can
be allocated. -/
inductive PushEvent (I : Type) where
  | signal
  | quit
  | accept (r : PushAccept)
  | isActive
  | join
  | start (i : Option I) (script : List WriteResult)
  | reject (ok : Bool)
  | finish
  | joinPusher
  | worker (i : I) (e : WorkerEvent)
  | lock (i : I)
  | update (i : I)
  | push

namespace PushState

variable {I : Type} [LinearOrder I]

/-- The threads are started. -/
def init : PushState I where
  main := .head
  pusher := .test
  cnt := 0
  mtx := none
  elements := []
  workers := []
  client := fun _ => none
  signalStatus := false
  inbox := fun _ => []
  log := []

/-- The main thread goes to a point. -/
def goTo (s : PushState I) (main : MainPoint) : PushState I := { s with main := main }

/-- One more record in the log. -/
def record (s : PushState I) (r : PushRecord I) : PushState I := { s with log := s.log ++ [r] }

/-- The list of workers is destroyed by an exception: a thread that was not joined terminates the
process. -/
def leave (s : PushState I) : PushState I :=
  s.goTo (if s.workers = [] then .joinPusher else .terminated)

/-- The worker at an address is over. -/
def isOver (s : PushState I) (i : I) : Bool :=
  match s.client i with
  | some c => c.point == .done
  | none => false

/-- The client under a name is replaced. -/
def put (s : PushState I) (i : I) (c : Option PushClient) : PushState I :=
  { s with client := Function.update s.client i c }

/-! ## The main thread -/

/-- SOURCE: tcp/socks_tcp.cpp:28-32 -/
def accept (s : PushState I) : PushAccept → PushState I
  | .none => s.goTo .head
  | .client => s.goTo (.cleanup 0)
  | .fails => s.leave

/-- SOURCE: tcp/socks_tcp.cpp:48-51 -/
def isActive (s : PushState I) (k : ℕ) : PushState I :=
  match s.workers[k]? with
  | none => s.goTo .limit
  | some i => s.goTo (if s.isOver i then .join k else .cleanup (k + 1))

/-- The worker is joined, removed from the list and destroyed with its handler.
SOURCE: tcp/socks_tcp.cpp:52-53 -/
def join (s : PushState I) (k : ℕ) : Option (PushState I) :=
  match s.workers[k]? with
  | none => none
  | some i =>
    if s.isOver i then
      some (({ s with workers := s.workers.eraseIdx k }.put i none).goTo (.cleanup k))
    else none

/-- A new worker, whose `run` begins with `onConnect`.
SOURCE: tcp/socks_tcp.cpp:36, tcp/socks_tcp_worker.cpp:22 -/
def start (kind : PushKind) (s : PushState I) (script : List WriteResult) :
    Option I → Option (PushState I)
  | none => some s.leave
  | some i =>
    if s.client i = none then
      let point := if kind.onTcpConnect then .adding else .head
      some (({ s with workers := s.workers ++ [i] }.put i
        (some ⟨point, false, false, Conn.init script⟩)).goTo .head)
    else none

/-- The list of workers is destroyed at the end of `serve`, with their handlers. -/
def served (s : PushState I) : PushState I :=
  { s with
    main := .joinPusher
    workers := []
    client := fun i => if i ∈ s.workers then none else s.client i }

/-- The worker is joined at the end of `serve`.
SOURCE: tcp/socks_tcp.cpp:42-43 -/
def finish (s : PushState I) (k : ℕ) : Option (PushState I) :=
  match s.workers[k]? with
  | none => some s.served
  | some i => if s.isOver i then some (s.goTo (.finish (k + 1))) else none

/-! ## The workers -/

/-- A step that concerns the worker only. -/
def worker (pf : Platform) (kind : PushKind) (s : PushState I) (i : I) (e : WorkerEvent) :
    Option (PushState I) :=
  match s.client i with
  | none => none
  | some c =>
    match c.step pf kind s.signalStatus e with
    | none => none
    | some c' => some (if c'.abandons then (s.put i (some c')).record (.abandoned i)
        else s.put i (some c'))

/-- The worker gets the mutex in `addElem` or `delElem`.
SOURCE: examples/ws_push/manager.hpp:17,23 -/
def lock (s : PushState I) (i : I) : Option (PushState I) :=
  match s.client i, s.mtx with
  | some c, none =>
    match c.point with
    | .adding => some { s.put i (some { c with point := .inserting }) with mtx := some (.worker i) }
    | .removing => some { s.put i (some { c with point := .erasing }) with mtx := some (.worker i) }
    | _ => none
  | _, _ => none

/-- `std::set::insert`.
SOURCE: examples/ws_push/manager.hpp:18 -/
def insert (s : PushState I) (i : I) : PushState I := { s with
  elements := if i ∈ s.elements then s.elements else s.elements.orderedInsert (· ≤ ·) i
  inbox := if i ∈ s.elements then s.inbox else Function.update s.inbox i []
  log := if i ∈ s.elements then s.log else s.log ++ [.added i] }

/-- `std::set::erase`.
SOURCE: examples/ws_push/manager.hpp:24 -/
def erase (s : PushState I) (i : I) : PushState I := { s with
  elements := s.elements.erase i
  log := if i ∈ s.elements then s.log ++ [.removed i] else s.log }

/-- The worker changes the set, and gives the mutex back. -/
def update (s : PushState I) (i : I) : Option (PushState I) :=
  match s.client i with
  | none => none
  | some c =>
    match c.point with
    | .inserting =>
      some { (s.insert i).put i (some { c with point := .head, added := true }) with mtx := none }
    | .erasing =>
      some { (s.erase i).put i (some { c with point := .closing, added := false }) with mtx := none }
    | _ => none

/-! ## The pusher -/

/-- The iterator behind an element.
SOURCE: examples/ws_push/manager.hpp:30 -/
def next (s : PushState I) (i : I) : Option I := s.elements.find? (i < ·)

/-- The call of `send` on an element. An exception in the pusher terminates the process; an element
that has been destroyed must not be used.
SOURCE: examples/ws_push/manager.hpp:30 -/
def send (pf : Platform) (kind : PushKind) (s : PushState I) (i : I) : Option (PushState I) :=
  match s.client i with
  | none => none
  | some c =>
    match (kind.send (s.cnt % SIZE_MOD)).run pf c.conn with
    | (.ret _, conn) => some { s.put i (some { c with conn := conn }) with
        pusher := .visit (s.next i)
        inbox := Function.update s.inbox i (s.inbox i ++ [s.cnt]) }
    | (.exn _, _) => some (s.goTo .terminated)
    | (.ub, _) => none

/-- SOURCE: examples/ws_push/pusher.cpp:6-13, examples/ws_push/manager.hpp:27-31 -/
def push (pf : Platform) (kind : PushKind) (s : PushState I) : Option (PushState I) :=
  match s.pusher with
  | .test => some { s with pusher := if s.signalStatus then .ended else .lock }
  | .lock =>
    match s.mtx with
    | none => some { s with mtx := some .pusher, pusher := .visit s.elements.head? }
    | some _ => none
  | .visit none => some { s.record .pushed with mtx := none, pusher := .sleep }
  | .visit (some i) => some { s with pusher := .sending i }
  | .sending i => s.send pf kind i
  | .sleep => some { s with cnt := s.cnt + 1, pusher := .test }
  | .ended => none

/-! ## The program -/

/-- A step of the main thread. -/
def stepMain (kind : PushKind) (maxClients : ℕ) (s : PushState I) :
    PushEvent I → Option (PushState I)
  | .quit => if s.main = .head then some (s.goTo (if s.signalStatus then .finish 0 else .accept)) else none
  | .accept r => if s.main = .accept then some (s.accept r) else none
  | .isActive =>
    match s.main with
    | .cleanup k => some (s.isActive k)
    | _ => none
  | .join =>
    match s.main with
    | .join k => s.join k
    | _ => none
  | .start i script =>
    if s.main = .limit ∧ s.workers.length < maxClients then s.start kind script i else none
  | .reject ok =>
    if s.main = .limit ∧ maxClients ≤ s.workers.length then
      some (if ok then s.goTo .head else s.leave)
    else none
  | .finish =>
    match s.main with
    | .finish k => s.finish k
    | _ => none
  | .joinPusher =>
    if s.main = .joinPusher ∧ s.pusher = .ended then some (s.goTo .exited) else none
  | _ => none

/-- The process has ended. -/
def IsDown (s : PushState I) : Prop := s.main = .exited ∨ s.main = .terminated

instance (s : PushState I) : Decidable s.IsDown := inferInstanceAs (Decidable (_ ∨ _))

/-- One step; a step with undefined behaviour has no successor. -/
def step (pf : Platform) (kind : PushKind) (maxClients : ℕ) (s : PushState I) (e : PushEvent I) :
    Option (PushState I) :=
  if s.IsDown then none
  else
    match e with
    | .signal => if s.signalStatus then none else some { s with signalStatus := true }
    | .worker i e => s.worker pf kind i e
    | .lock i => s.lock i
    | .update i => s.update i
    | .push => s.push pf kind
    | e => s.stepMain kind maxClients e

end PushState

end CppSocks.Model
