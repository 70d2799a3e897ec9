import CppSocks.Model.SocketLoop
import Mathlib.Data.Finset.Basic
import Mathlib.Logic.Function.Basic

/-!
# The sockets of the POSIX system context

`ContextImpl::createListenSocket`, the `ListenSocket` it returns, and the construction
and the closing of a `SocketImpl`, one system call after the other: a step is a call
that comes back, and what it comes back with is not under the program's control.

The kernel keeps the table of open descriptors; a number is free again when its
descriptor has been closed.
-/

set_option autoImplicit false

namespace CppSocks.Model

/-- A descriptor. `RETVAL_ERROR` is none; a call that returns it has an `Errno`. -/
abbrev Fd := ℕ

/-- The text of `strerror`. -/
def Errno.strerror : Errno → String
  | .EINTR => "Interrupted system call"
  | .EAGAIN => "Resource temporarily unavailable"
  | .other text => text

/-- `BACKLOG`.
SOURCE: examples/system_context/system_posix.cpp:16 -/
def BACKLOG : ℕ := 5

/-- The flag of `fcntl`, with its value on Linux. -/
def O_NONBLOCK : ℕ := 0x800

/-- What the kernel keeps for an open socket: its options, the flags of `fcntl`, the port that `bind`
was given, and the length of the queue if it listens. `bind` binds to the port it is given, but for
port 0 the kernel chooses one, which this record does not know. -/
structure SocketFile where
  reuseAddress : Bool
  noDelay : Bool
  flags : ℕ
  port : Option ℕ
  backlog : Option ℕ
deriving DecidableEq, Repr

/-- A new socket; `O_RDWR` is the only flag. -/
def SocketFile.new : SocketFile := ⟨false, false, 2, none, none⟩

/-- The call that the thread of `serve` waits for; or there is a `ListenSocket` and no call, or there
is none: `createListenSocket` has thrown, or the `ListenSocket` has been destroyed. -/
inductive PosixPoint where
  | socket
  | reuseAddress (fd : Fd)
  | getFlags (fd : Fd)
  | setFlags (fd : Fd) (flags : ℕ)
  | bind (fd : Fd)
  | listen (fd : Fd)
  | giveUp (fd : Fd) (errno : Errno)
  | failed (e : Exc)
  | idle (fd : Fd)
  | poll (fd : Fd)
  | accept (fd : Fd)
  | noDelay (fd client : Fd)
  | closing (fd : Fd)
  | destroyed
deriving DecidableEq, Repr

/-- `clients` are the descriptors of the `SocketImpl` objects whose `close` has not been called yet,
`results` what `ListenSocket::accept` has returned or thrown, in order. -/
structure PosixState where
  point : PosixPoint
  files : Fd → Option SocketFile
  clients : Finset Fd
  results : List (Except Exc (Option Fd))

/-- The call that is waited for returns a number or fails, or it is `poll`; or a call is made from
outside: `ListenSocket::accept`, the destructor of `ListenSocket`, or `SocketImpl::close`, which a
worker calls once in a thread of its own. -/
inductive PosixEvent where
  | returns (r : Except Errno ℕ)
  | polled (r : PollResult)
  | callAccept
  | destroy
  | closeClient (fd : Fd)

namespace PosixState

/-- `createListenSocket` has been called. -/
def init : PosixState := ⟨.socket, fun _ => none, ∅, []⟩

/-- The main thread goes to a point of the source. -/
def goTo (s : PosixState) (point : PosixPoint) : PosixState := { s with point := point }

/-- The file behind a descriptor is replaced. -/
def setFile (s : PosixState) (fd : Fd) (file : Option SocketFile) : PosixState :=
  { s with files := Function.update s.files fd file }

/-- The kernel changes the options of an open socket. -/
def configure (s : PosixState) (fd : Fd) (change : SocketFile → SocketFile) : PosixState :=
  s.setFile fd ((s.files fd).map change)

/-- `ListenSocket::accept` is over. -/
def answer (s : PosixState) (fd : Fd) (result : Except Exc (Option Fd)) : PosixState :=
  { s with point := .idle fd, results := s.results ++ [result] }

/-- A new descriptor; the kernel gives out no number that is in use. -/
def openAt (s : PosixState) (fd : Fd) (point : PosixPoint) : Option PosixState :=
  if (s.files fd).isNone then some ((s.setFile fd (some .new)).goTo point) else none

/-- The call that is waited for comes back. `port` is the argument of `createListenSocket`, which
`htons` takes modulo 2^16. A failing `fcntl` is called again whatever its `errno` is: behind the test
for `EINTR` an exception is made and not thrown. The `close` that is called for a failing `bind` or
`listen` sets `errno` if it fails itself.
SOURCE: examples/system_context/system_posix.cpp:28-103, 153, 158-174, system_impl.hpp:52-53 -/
def returns (port : ℤ) (s : PosixState) (r : Except Errno ℕ) : Option PosixState :=
  match s.point, r with
  | .socket, .ok fd => s.openAt fd (.reuseAddress fd)
  | .socket, .error e => some (s.goTo (.failed (.runtime_error e.strerror)))
  | .reuseAddress fd, .ok _ =>
    some ((s.configure fd fun file => { file with reuseAddress := true }).goTo (.getFlags fd))
  | .reuseAddress _, .error e => some (s.goTo (.failed (.runtime_error e.strerror)))
  | .getFlags fd, .ok flags => some (s.goTo (.setFlags fd (flags ||| O_NONBLOCK)))
  | .getFlags _, .error _ => some s
  | .setFlags fd flags, .ok _ =>
    some ((s.configure fd fun file => { file with flags := flags }).goTo (.bind fd))
  | .setFlags _ _, .error _ => some s
  | .bind fd, .ok _ =>
    some ((s.configure fd fun file => { file with port := some (port % 65536).toNat }).goTo (.listen fd))
  | .bind fd, .error e => some (s.goTo (.giveUp fd e))
  | .listen fd, .ok _ =>
    some ((s.configure fd fun file => { file with backlog := some BACKLOG }).goTo (.idle fd))
  | .listen fd, .error e => some (s.goTo (.giveUp fd e))
  | .giveUp fd e, .ok _ => some ((s.setFile fd none).goTo (.failed (.runtime_error e.strerror)))
  | .giveUp fd _, .error e => some ((s.setFile fd none).goTo (.failed (.runtime_error e.strerror)))
  | .accept fd, .ok client => s.openAt client (.noDelay fd client)
  | .accept fd, .error .EAGAIN => some (s.answer fd (.ok none))
  | .accept fd, .error .EINTR => some (s.answer fd (.ok none))
  | .accept fd, .error (.other text) => some (s.answer fd (.error (.runtime_error text)))
  | .noDelay fd client, .ok _ =>
    some (({ s with clients := insert client s.clients }.configure client fun file =>
      { file with noDelay := true }).answer fd (.ok (some client)))
  | .noDelay fd _, .error e =>
    some (s.answer fd (.error (.runtime_error ("Could not set socket options: " ++ e.strerror))))
  | .closing fd, _ => some ((s.setFile fd none).goTo .destroyed)
  | _, _ => none

/-- `internalPoll` in `accept` comes back.
SOURCE: examples/system_context/system_posix.cpp:138-151, 160-163 -/
def polled (s : PosixState) (r : PollResult) : Option PosixState :=
  match s.point with
  | .poll fd =>
    match SocketImpl.isReadable r with
    | .ret true => some (s.goTo (.accept fd))
    | .ret false => some (s.answer fd (.ok none))
    | .exn e => some (s.answer fd (.error e))
    | .ub => none
  | _ => none

/-- One step of the process: a system call comes back, or the main thread goes on. -/
def step (port : ℤ) (s : PosixState) : PosixEvent → Option PosixState
  | .returns r => s.returns port r
  | .polled r => s.polled r
  | .callAccept =>
    match s.point with
    | .idle fd => some (s.goTo (.poll fd))
    | _ => none
  | .destroy =>
    match s.point with
    | .idle fd => some (s.goTo (.closing fd))
    | _ => none
  | .closeClient fd =>
    if fd ∈ s.clients then some { s.setFile fd none with clients := s.clients.erase fd } else none

end PosixState

end CppSocks.Model
