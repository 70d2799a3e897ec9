import CppSocks.Analysis.PosixDescriptors

/-!
# The options of the sockets

`createListenSocket` prepares its socket call by call; what it has set so far is an invariant
of the process (`Ready`). So there is no `ListenSocket` whose socket does not listen on its
port without blocking, and no `SocketImpl` without `TCP_NODELAY`, however often calls are
interrupted or fail (`sockets_ready`).
-/

set_option autoImplicit false

namespace CppSocks.Analysis

open CppSocks.Model Foundation

/-- `O_NONBLOCK` is one of the flags. -/
def NonBlocking (flags : ℕ) : Prop := flags ||| O_NONBLOCK = flags

/-- Setting the flag makes a descriptor non-blocking, whatever the other flags are. -/
theorem nonBlocking_or (flags : ℕ) : NonBlocking (flags ||| O_NONBLOCK) := by
  rw [NonBlocking, Nat.or_assoc, Nat.or_self]

/-- The socket listens without blocking, its address can be used again, and `bind` was given the port
(if that is 0, the kernel has chosen the one that the socket is bound to). -/
structure Listens (port : ℤ) (file : SocketFile) : Prop where
  reuseAddress : file.reuseAddress = true
  nonBlocking : NonBlocking file.flags
  port : file.port = some (port % 65536).toNat
  backlog : file.backlog = some BACKLOG

/-- What has been set when a call is made. -/
def Prepared (port : ℤ) (file : SocketFile) : PosixPoint → Prop
  | .getFlags _ => file.reuseAddress = true
  | .setFlags _ flags => file.reuseAddress = true ∧ NonBlocking flags
  | .bind _ => file.reuseAddress = true ∧ NonBlocking file.flags
  | .listen _ => file.reuseAddress = true ∧ NonBlocking file.flags ∧ file.port = some (port % 65536).toNat
  | .idle _ | .poll _ | .accept _ | .noDelay _ _ | .closing _ => Listens port file
  | _ => True

/-- The listening socket is as far as the program has come, and the sockets of the clients send without
delay. -/
structure Ready (port : ℤ) (s : PosixState) : Prop where
  listening : ∀ fd file, (ownFds s.point).head? = some fd → s.files fd = some file →
    Prepared port file s.point
  clients : ∀ fd ∈ s.clients, ∀ file, s.files fd = some file → file.noDelay = true

section Steps

variable {port : ℤ} {s s' : PosixState} {lost : Finset Fd}

/-- Before the first system call no descriptor has to be ready. -/
theorem ready_init : Ready port PosixState.init :=
  ⟨(fun _ _ h _ => by cases h), fun _ h => absurd h (Finset.notMem_empty _)⟩

/-- The files of the others stay as they are. -/
theorem files_configure_ne {fd x : Fd} (hx : x ≠ fd) (change : SocketFile → SocketFile) :
    (s.configure fd change).files x = s.files x := Function.update_of_ne hx _ _

/-- A configured descriptor is the old one with its change. -/
theorem files_configure_self {fd : Fd} {change : SocketFile → SocketFile} {file : SocketFile}
    (h : (s.configure fd change).files fd = some file) : ∃ old, s.files fd = some old ∧ change old = file := by
  rw [PosixState.configure, PosixState.setFile] at h
  dsimp only at h
  rw [Function.update_self] at h
  exact Option.map_eq_some_iff.mp h

/-- The listening socket, one call further. -/
theorem ready_configure {fd : Fd} {change : SocketFile → SocketFile} {point : PosixPoint}
    (h : Ready port s) (hacc : Accounted s lost) (hown : ownFds s.point = [fd]) (hown' : ownFds point = [fd])
    (hprepared : ∀ old, Prepared port old s.point → Prepared port (change old) point) :
    Ready port ((s.configure fd change).goTo point) := by
  constructor
  · intro x file hx hfile
    obtain rfl : fd = x := by
      change (ownFds point).head? = some x at hx
      rw [hown'] at hx
      exact Option.some.inj hx
    obtain ⟨old, hold, rfl⟩ := files_configure_self hfile
    exact hprepared old (h.listening fd old (by rw [hown]; rfl) hold)
  · intro x hx file hfile
    have hne : x ≠ fd := by
      rintro rfl
      exact hacc.own_clients x (hown ▸ List.mem_cons_self) hx
    exact h.clients x hx file ((files_configure_ne hne change).symm.trans hfile)

/-- The point changes, the sockets do not. -/
theorem ready_goTo {s' : PosixState} (h : Ready port s) (hfiles : s'.files = s.files)
    (hclients : s'.clients = s.clients) (hhead : ∀ fd, (ownFds s'.point).head? = some fd →
      (ownFds s.point).head? = some fd)
    (hprepared : ∀ fd file, (ownFds s'.point).head? = some fd → Prepared port file s.point →
      Prepared port file s'.point) : Ready port s' := by
  constructor
  · intro fd file hfd hfile
    rw [hfiles] at hfile
    exact hprepared fd file hfd (h.listening fd file (hhead fd hfd) hfile)
  · rw [hclients, hfiles]
    exact h.clients

/-- The socket is closed. -/
theorem ready_release {fd : Fd} {point : PosixPoint} (h : Ready port s) (hacc : Accounted s lost)
    (hown : ownFds s.point = [fd]) (hnone : ownFds point = []) :
    Ready port ((s.setFile fd none).goTo point) := by
  constructor
  · intro x file hx
    change (ownFds point).head? = some x at hx
    rw [hnone] at hx
    cases hx
  · intro x hx file hfile
    have hne : x ≠ fd := by
      rintro rfl
      exact hacc.own_clients x (hown ▸ List.mem_cons_self) hx
    exact h.clients x hx file ((Function.update_of_ne hne _ _).symm.trans hfile)

/-- A new descriptor is nobody's that is known. -/
theorem ready_openAt {fd : Fd} {point : PosixPoint} (h : Ready port s) (hacc : Accounted s lost)
    (hfree : s.files fd = none)
    (hhead : ∀ x file, (ownFds point).head? = some x → x = fd → Prepared port file point)
    (hhead' : ∀ x, (ownFds point).head? = some x → x ≠ fd → (ownFds s.point).head? = some x)
    (hprepared : ∀ file, Prepared port file s.point → Prepared port file point) :
    Ready port ((s.setFile fd (some .new)).goTo point) := by
  obtain ⟨_, hclients, _⟩ := hacc.fresh hfree
  constructor
  · intro x file hx hfile
    by_cases hne : x = fd
    · exact hhead x file hx hne
    · exact hprepared file (h.listening x file (hhead' x hx hne)
        ((Function.update_of_ne hne _ _).symm.trans hfile))
  · intro x hx file hfile
    have hne : x ≠ fd := by
      rintro rfl
      exact hclients hx
    exact h.clients x hx file ((Function.update_of_ne hne _ _).symm.trans hfile)

/-- A client's `SocketImpl` is there. -/
theorem ready_handOver {fd client : Fd} (h : Ready port s) (hacc : Accounted s lost)
    (hpoint : s.point = .noDelay fd client) :
    Ready port (({ s with clients := insert client s.clients }.configure client
      fun file => { file with noDelay := true }).answer fd (.ok (some client))) := by
  have hown : ownFds s.point = [fd, client] := by rw [hpoint]; rfl
  have hnodup := hacc.nodup
  rw [hown] at hnodup
  have hne : fd ≠ client := by simpa using hnodup
  constructor
  · intro x file hx hfile
    obtain rfl : fd = x := Option.some.inj hx
    have hold : s.files fd = some file := (Function.update_of_ne hne _ _).symm.trans hfile
    have hready := h.listening fd file (by rw [hown]; rfl) hold
    rw [hpoint] at hready
    exact hready
  · intro x hx file hfile
    by_cases hxc : x = client
    · subst hxc
      obtain ⟨old, _, rfl⟩ := files_configure_self hfile
      rfl
    · have hmem : x ∈ s.clients := (Finset.mem_insert.mp hx).resolve_left hxc
      exact h.clients x hmem file ((Function.update_of_ne hxc _ _).symm.trans hfile)

/-- A call that comes back. -/
theorem returns_ready {r : Except Errno ℕ} (h : Ready port s) (hacc : Accounted s lost)
    (hstep : s.returns port r = some s') : Ready port s' := by
  obtain ⟨point, files, clients, results⟩ := s
  cases point with
  | socket =>
    cases r with
    | ok fd =>
      obtain ⟨hfree, rfl⟩ := openAt_eq_some hstep
      exact ready_openAt h hacc hfree (fun _ _ _ _ => trivial)
        (fun x hx hne => absurd (Option.some.inj hx).symm hne) fun _ _ => trivial
    | error e =>
      obtain rfl := Option.some.inj hstep
      exact ready_goTo h rfl rfl (fun _ hx => by cases hx) fun _ _ hx => by cases hx
  | reuseAddress fd =>
    cases r with
    | ok n =>
      obtain rfl := Option.some.inj hstep
      exact ready_configure h hacc rfl rfl fun _ _ => rfl
    | error e =>
      obtain rfl := Option.some.inj hstep
      exact ready_goTo h rfl rfl (fun _ hx => by cases hx) fun _ _ hx => by cases hx
  | getFlags fd =>
    cases r with
    | ok flags =>
      obtain rfl := Option.some.inj hstep
      exact ready_goTo h rfl rfl (fun _ hx => hx) fun _ _ _ hready => ⟨hready, nonBlocking_or flags⟩
    | error e => obtain rfl := Option.some.inj hstep; exact h
  | setFlags fd flags =>
    cases r with
    | ok n =>
      obtain rfl := Option.some.inj hstep
      exact ready_configure h hacc rfl rfl fun _ hready => hready
    | error e => obtain rfl := Option.some.inj hstep; exact h
  | bind fd =>
    cases r with
    | ok n =>
      obtain rfl := Option.some.inj hstep
      exact ready_configure h hacc rfl rfl fun _ hready => ⟨hready.1, hready.2, rfl⟩
    | error e =>
      obtain rfl := Option.some.inj hstep
      exact ready_goTo h rfl rfl (fun _ hx => hx) fun _ _ _ _ => trivial
  | listen fd =>
    cases r with
    | ok n =>
      obtain rfl := Option.some.inj hstep
      exact ready_configure h hacc rfl rfl fun _ hready => ⟨hready.1, hready.2.1, hready.2.2, rfl⟩
    | error e =>
      obtain rfl := Option.some.inj hstep
      exact ready_goTo h rfl rfl (fun _ hx => hx) fun _ _ _ _ => trivial
  | giveUp fd e =>
    cases r with
    | ok n => obtain rfl := Option.some.inj hstep; exact ready_release h hacc rfl rfl
    | error e' => obtain rfl := Option.some.inj hstep; exact ready_release h hacc rfl rfl
  | accept fd =>
    cases r with
    | ok client =>
      obtain ⟨hfree, rfl⟩ := openAt_eq_some hstep
      have hne : fd ≠ client := by
        rintro rfl
        exact (hacc.fresh hfree).1 List.mem_cons_self
      exact ready_openAt h hacc hfree
        (fun x _ hx hxc => absurd ((Option.some.inj hx).trans hxc) hne) (fun _ hx _ => hx) fun _ hready => hready
    | error e =>
      have hsame : ∀ result, Ready port (PosixState.answer ⟨.accept fd, files, clients, results⟩ fd result) :=
        fun _ => ready_goTo h rfl rfl (fun _ hx => hx) fun _ _ _ hready => hready
      cases e with
      | EINTR => obtain rfl := Option.some.inj hstep; exact hsame _
      | EAGAIN => obtain rfl := Option.some.inj hstep; exact hsame _
      | other text => obtain rfl := Option.some.inj hstep; exact hsame _
  | noDelay fd client =>
    cases r with
    | ok n => obtain rfl := Option.some.inj hstep; exact ready_handOver h hacc rfl
    | error e =>
      obtain rfl := Option.some.inj hstep
      exact ready_goTo h rfl rfl (fun _ hx => hx) fun _ _ _ hready => hready
  | closing fd => obtain rfl := Option.some.inj hstep; exact ready_release h hacc rfl rfl
  | _ => cases hstep

/-- Every system call and every return keeps the sockets ready. -/
theorem ready_step {event : PosixEvent} (h : Ready port s) (hacc : Accounted s lost)
    (hstep : s.step port event = some s') : Ready port s' := by
  cases event with
  | returns r => exact returns_ready h hacc hstep
  | polled r =>
    obtain ⟨point, files, clients, results⟩ := s
    cases point with
    | poll fd =>
      simp only [PosixState.step, PosixState.polled] at hstep
      split at hstep
      · obtain rfl := Option.some.inj hstep
        exact ready_goTo h rfl rfl (fun _ hx => hx) fun _ _ _ hready => hready
      · obtain rfl := Option.some.inj hstep
        exact ready_goTo h rfl rfl (fun _ hx => hx) fun _ _ _ hready => hready
      · obtain rfl := Option.some.inj hstep
        exact ready_goTo h rfl rfl (fun _ hx => hx) fun _ _ _ hready => hready
      · cases hstep
    | _ => cases hstep
  | callAccept =>
    obtain ⟨point, files, clients, results⟩ := s
    cases point with
    | idle fd =>
      obtain rfl := Option.some.inj hstep
      exact ready_goTo h rfl rfl (fun _ hx => hx) fun _ _ _ hready => hready
    | _ => cases hstep
  | destroy =>
    obtain ⟨point, files, clients, results⟩ := s
    cases point with
    | idle fd =>
      obtain rfl := Option.some.inj hstep
      exact ready_goTo h rfl rfl (fun _ hx => hx) fun _ _ _ hready => hready
    | _ => cases hstep
  | closeClient fd =>
    simp only [PosixState.step] at hstep
    split at hstep
    · rename_i hheld
      obtain rfl := Option.some.inj hstep
      constructor
      · intro x file hx hfile
        have hmem : x ∈ ownFds s.point := List.mem_of_mem_head? hx
        have hne : x ≠ fd := by
          rintro rfl
          exact hacc.own_clients x hmem hheld
        exact h.listening x file hx ((Function.update_of_ne hne _ _).symm.trans hfile)
      · intro x hx file hfile
        obtain ⟨hne, hmem⟩ := Finset.mem_erase.mp hx
        exact h.clients x hmem file ((Function.update_of_ne hne _ _).symm.trans hfile)
    · cases hstep

/-- As long as `fcntl` fails, for whatever reason, `createListenSocket` goes on calling it. -/
theorem fcntl_repeated {fd : Fd} {flags : ℕ} (hpoint : s.point = .getFlags fd ∨ s.point = .setFlags fd flags)
    (errnos : List Errno) :
    System.exec (PosixState.step port) s (errnos.map fun e => .returns (.error e)) = some s := by
  induction errnos with
  | nil => rfl
  | cons e errnos ih =>
    have hsame : s.step port (.returns (.error e)) = some s := by
      obtain ⟨point, files, clients, results⟩ := s
      obtain rfl | rfl := hpoint <;> rfl
    rw [List.map_cons, System.exec, hsame, Option.bind_some]
    exact ih

end Steps

/-- The descriptor of the `ListenSocket`, while there is one. -/
def listenFd : PosixPoint → Option Fd
  | .idle fd | .poll fd | .accept fd | .noDelay fd _ | .closing fd => some fd
  | _ => none

/-- In every state that a process can reach, whatever its system calls come back with: the descriptor of the
`ListenSocket` is an open socket that listens without blocking and was bound with the port, that of every
`SocketImpl` which has not been closed is an open socket that sends without delay; and the descriptors in the hands of
the thread of `serve`, which it may close, are open and those of no `SocketImpl`. -/
theorem sockets_ready (port : ℤ) {events : List PosixEvent} {s : PosixState}
    (hexec : System.exec (PosixState.step port) PosixState.init events = some s) :
    (∀ fd, listenFd s.point = some fd → ∃ file, s.files fd = some file ∧ Listens port file) ∧
      (∀ fd ∈ s.clients, ∃ file, s.files fd = some file ∧ file.noDelay = true) ∧
        ∀ fd ∈ ownFds s.point, (s.files fd).isSome = true ∧ fd ∉ s.clients := by
  obtain ⟨⟨lost, hacc⟩, hready⟩ := (System.run_ofStep_iff.mpr hexec).invariant
    (I := fun s => (∃ lost, Accounted s lost) ∧ Ready port s)
    (fun s event s' ⟨⟨lost, hacc⟩, hready⟩ hstep =>
      ⟨⟨_, accounted_step hacc hstep⟩, ready_step hready hacc hstep⟩)
    ⟨⟨∅, accounted_init⟩, ready_init⟩
  refine ⟨fun fd hfd => ?_, fun fd hfd => ?_, fun fd hfd => ?_⟩
  · have hhead : (ownFds s.point).head? = some fd := by
      cases hpoint : s.point with
      | idle _ | poll _ | accept _ | noDelay _ _ | closing _ => rw [hpoint] at hfd; exact hfd
      | _ => rw [hpoint] at hfd; cases hfd
    obtain ⟨file, hfile⟩ := Option.isSome_iff_exists.mp
      ((hacc.open_iff fd).mpr (Or.inl (List.mem_of_mem_head? hhead)))
    refine ⟨file, hfile, ?_⟩
    have hprepared := hready.listening fd file hhead hfile
    cases hpoint : s.point with
    | idle _ | poll _ | accept _ | noDelay _ _ | closing _ => rw [hpoint] at hprepared; exact hprepared
    | _ => rw [hpoint] at hfd; cases hfd
  · obtain ⟨file, hfile⟩ := Option.isSome_iff_exists.mp ((hacc.open_iff fd).mpr (Or.inr (Or.inl hfd)))
    exact ⟨file, hfile, hready.clients fd hfd file hfile⟩
  · exact ⟨(hacc.open_iff fd).mpr (Or.inl hfd), hacc.own_clients fd hfd⟩

/-- The sockets when a client has been accepted. -/
theorem sockets_ready_client : ∃ s,
    System.exec (PosixState.step 8080) PosixState.init clientAccepted = some s ∧
    (∀ fd, listenFd s.point = some fd → ∃ file, s.files fd = some file ∧ Listens 8080 file) ∧
      (∀ fd ∈ s.clients, ∃ file, s.files fd = some file ∧ file.noDelay = true) ∧
        ∀ fd ∈ ownFds s.point, (s.files fd).isSome = true ∧ fd ∉ s.clients := by
  have hexec : ∃ s, System.exec (PosixState.step 8080) PosixState.init clientAccepted = some s := ⟨_, rfl⟩
  obtain ⟨s, hs⟩ := hexec
  exact ⟨s, hs, sockets_ready 8080 hs⟩

end CppSocks.Analysis
