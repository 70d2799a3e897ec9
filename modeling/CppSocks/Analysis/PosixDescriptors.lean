import CppSocks.Foundation.Transition
import CppSocks.Model.PosixSockets

/-!
# The descriptors of the process

Every open descriptor of a process with one listening socket is the one of the
`ListenSocket` or of the call that makes one, or that of a `SocketImpl` which has not been
closed; or it was forgotten because a `setsockopt` failed (`Accounted`). So nothing is left
open at the end if and only if no `setsockopt` failed (`descriptors_closed_iff`).
-/

set_option autoImplicit false

namespace CppSocks.Analysis

open CppSocks.Model Foundation

/-- The descriptors that the thread of `serve` answers for: that of the listening socket, and behind it
that of a client whose `SocketImpl` is being made. -/
def ownFds : PosixPoint → List Fd
  | .socket | .failed _ | .destroyed => []
  | .reuseAddress fd | .getFlags fd | .setFlags fd _ | .bind fd | .listen fd | .giveUp fd _ | .idle fd
  | .poll fd | .accept fd | .closing fd => [fd]
  | .noDelay fd client => [fd, client]

/-- The descriptor that a failing `setsockopt` leaves to nobody. -/
def forgotten (s : PosixState) : PosixEvent → Option Fd
  | .returns (.error _) =>
    match s.point with
    | .reuseAddress fd => some fd
    | .noDelay _ client => some client
    | _ => none
  | _ => none

/-! ## What a step does to the descriptors -/

/-- The same descriptors are open. -/
def SameOpen (s s' : PosixState) : Prop := ∀ fd, (s'.files fd).isSome = (s.files fd).isSome

/-- The ways in which the descriptors change hands. -/
inductive Passes (s s' : PosixState) : Option Fd → Prop
  | stays (hopen : SameOpen s s') (hown : ownFds s'.point = ownFds s.point) (hclients : s'.clients = s.clients) :
    Passes s s' none
  | opens (fd : Fd) (hfree : s.files fd = none) (hfiles : s'.files = Function.update s.files fd (some .new))
      (hown : ownFds s'.point = ownFds s.point ++ [fd]) (hclients : s'.clients = s.clients) :
    Passes s s' none
  | releases (fd : Fd) (hown : ownFds s.point = [fd]) (hfiles : s'.files = Function.update s.files fd none)
      (hnone : ownFds s'.point = []) (hclients : s'.clients = s.clients) :
    Passes s s' none
  | handsOver (fd client : Fd) (hopen : SameOpen s s') (hown : ownFds s.point = [fd, client])
      (hown' : ownFds s'.point = [fd]) (hclients : s'.clients = insert client s.clients) :
    Passes s s' none
  | forgets (fd : Fd) (hopen : SameOpen s s') (hown : ownFds s.point = ownFds s'.point ++ [fd])
      (hclients : s'.clients = s.clients) :
    Passes s s' (some fd)
  | closes (fd : Fd) (hheld : fd ∈ s.clients) (hfiles : s'.files = Function.update s.files fd none)
      (hown : ownFds s'.point = ownFds s.point) (hclients : s'.clients = s.clients.erase fd) :
    Passes s s' none

section Steps

variable {port : ℤ} {s s' : PosixState}

/-- Setting the options of a socket opens and closes nothing. -/
theorem sameOpen_configure (s : PosixState) (fd : Fd) (change : SocketFile → SocketFile) :
    SameOpen s (s.configure fd change) := by
  intro x
  rw [PosixState.configure, PosixState.setFile]
  dsimp only
  by_cases hx : x = fd
  · rw [hx, Function.update_self, Option.isSome_map]
  · rw [Function.update_of_ne hx]

/-- The kernel gives out a descriptor that is not in use. -/
theorem openAt_eq_some {fd : Fd} {point : PosixPoint} (h : s.openAt fd point = some s') :
    s.files fd = none ∧ s' = (s.setFile fd (some .new)).goTo point := by
  unfold PosixState.openAt at h
  split at h
  · rename_i hfree
    exact ⟨Option.isNone_iff_eq_none.mp hfree, (Option.some.inj h).symm⟩
  · cases h

/-- A call that comes back. -/
theorem returns_passes {r : Except Errno ℕ} (h : s.returns port r = some s') :
    Passes s s' (forgotten s (.returns r)) := by
  obtain ⟨point, files, clients, results⟩ := s
  cases point with
  | socket =>
    cases r with
    | ok fd =>
      obtain ⟨hfree, rfl⟩ := openAt_eq_some h
      exact .opens fd hfree rfl rfl rfl
    | error e =>
      obtain rfl := Option.some.inj h
      exact .stays (fun _ => rfl) rfl rfl
  | reuseAddress fd =>
    cases r with
    | ok n =>
      obtain rfl := Option.some.inj h
      exact .stays (sameOpen_configure _ fd _) rfl rfl
    | error e =>
      obtain rfl := Option.some.inj h
      exact .forgets fd (fun _ => rfl) rfl rfl
  | getFlags fd =>
    cases r with
    | ok flags => obtain rfl := Option.some.inj h; exact .stays (fun _ => rfl) rfl rfl
    | error e => obtain rfl := Option.some.inj h; exact .stays (fun _ => rfl) rfl rfl
  | setFlags fd flags =>
    cases r with
    | ok n => obtain rfl := Option.some.inj h; exact .stays (sameOpen_configure _ fd _) rfl rfl
    | error e => obtain rfl := Option.some.inj h; exact .stays (fun _ => rfl) rfl rfl
  | bind fd =>
    cases r with
    | ok n => obtain rfl := Option.some.inj h; exact .stays (sameOpen_configure _ fd _) rfl rfl
    | error e => obtain rfl := Option.some.inj h; exact .stays (fun _ => rfl) rfl rfl
  | listen fd =>
    cases r with
    | ok n => obtain rfl := Option.some.inj h; exact .stays (sameOpen_configure _ fd _) rfl rfl
    | error e => obtain rfl := Option.some.inj h; exact .stays (fun _ => rfl) rfl rfl
  | giveUp fd e =>
    cases r with
    | ok n => obtain rfl := Option.some.inj h; exact .releases fd rfl rfl rfl rfl
    | error e' => obtain rfl := Option.some.inj h; exact .releases fd rfl rfl rfl rfl
  | accept fd =>
    cases r with
    | ok client =>
      obtain ⟨hfree, rfl⟩ := openAt_eq_some h
      exact .opens client hfree rfl rfl rfl
    | error e =>
      cases e with
      | EINTR => obtain rfl := Option.some.inj h; exact .stays (fun _ => rfl) rfl rfl
      | EAGAIN => obtain rfl := Option.some.inj h; exact .stays (fun _ => rfl) rfl rfl
      | other text => obtain rfl := Option.some.inj h; exact .stays (fun _ => rfl) rfl rfl
  | noDelay fd client =>
    cases r with
    | ok n =>
      obtain rfl := Option.some.inj h
      exact .handsOver fd client (sameOpen_configure ⟨_, files, insert client clients, _⟩ client _) rfl rfl rfl
    | error e =>
      obtain rfl := Option.some.inj h
      exact .forgets client (fun _ => rfl) rfl rfl
  | closing fd =>
    obtain rfl := Option.some.inj h
    have hnone : forgotten ⟨.closing fd, files, clients, results⟩ (.returns r) = none := by
      cases r <;> rfl
    rw [hnone]
    exact .releases fd rfl rfl rfl rfl
  | _ => cases h

/-- Every step of the process passes the descriptors on in one of these ways. -/
theorem step_passes {event : PosixEvent} (h : s.step port event = some s') :
    Passes s s' (forgotten s event) := by
  cases event with
  | returns r => exact returns_passes h
  | polled r =>
    simp only [PosixState.step, PosixState.polled] at h
    split at h
    · rename_i fd hpoint
      split at h
      · obtain rfl := Option.some.inj h
        exact .stays (fun _ => rfl) (by rw [hpoint]; rfl) rfl
      · obtain rfl := Option.some.inj h
        exact .stays (fun _ => rfl) (by rw [hpoint]; rfl) rfl
      · obtain rfl := Option.some.inj h
        exact .stays (fun _ => rfl) (by rw [hpoint]; rfl) rfl
      · cases h
    · cases h
  | callAccept =>
    simp only [PosixState.step] at h
    split at h
    · rename_i fd hpoint
      obtain rfl := Option.some.inj h
      exact .stays (fun _ => rfl) (by rw [hpoint]; rfl) rfl
    · cases h
  | destroy =>
    simp only [PosixState.step] at h
    split at h
    · rename_i fd hpoint
      obtain rfl := Option.some.inj h
      exact .stays (fun _ => rfl) (by rw [hpoint]; rfl) rfl
    · cases h
  | closeClient fd =>
    simp only [PosixState.step] at h
    split at h
    · rename_i hheld
      obtain rfl := Option.some.inj h
      exact .closes fd hheld rfl rfl rfl
    · cases h

end Steps

/-! ## The account -/

/-- Every open descriptor is in one hand, or was forgotten. -/
structure Accounted (s : PosixState) (lost : Finset Fd) : Prop where
  open_iff : ∀ fd, (s.files fd).isSome = true ↔ fd ∈ ownFds s.point ∨ fd ∈ s.clients ∨ fd ∈ lost
  nodup : (ownFds s.point).Nodup
  own_clients : ∀ fd ∈ ownFds s.point, fd ∉ s.clients
  own_lost : ∀ fd ∈ ownFds s.point, fd ∉ lost
  clients_lost : ∀ fd ∈ s.clients, fd ∉ lost

/-- The descriptors that have been forgotten, behind one more step. -/
def withForgotten (lost : Finset Fd) : Option Fd → Finset Fd
  | none => lost
  | some fd => insert fd lost

section Account

variable {port : ℤ} {s s' : PosixState} {lost : Finset Fd}

/-- At the beginning no descriptor is open. -/
theorem accounted_init : Accounted PosixState.init ∅ :=
  ⟨fun _ => by simp [PosixState.init, ownFds], List.nodup_nil, fun _ h => absurd h List.not_mem_nil,
    fun _ h => absurd h List.not_mem_nil, fun _ h => absurd h (Finset.notMem_empty _)⟩

/-- A descriptor that the kernel gives out is in nobody's hand. -/
theorem Accounted.fresh (h : Accounted s lost) {fd : Fd} (hfree : s.files fd = none) :
    fd ∉ ownFds s.point ∧ fd ∉ s.clients ∧ fd ∉ lost := by
  have hclosed : ¬ ((s.files fd).isSome = true) := by rw [hfree]; exact Bool.false_ne_true
  rw [h.open_iff, not_or, not_or] at hclosed
  exact hclosed

/-- Nothing changes hands, as when an option is set. -/
theorem accounted_stays (h : Accounted s lost) (hopen : SameOpen s s')
    (hown : ownFds s'.point = ownFds s.point) (hclients : s'.clients = s.clients) :
    Accounted s' lost := by
  refine ⟨fun fd => ?_, ?_, ?_, ?_, ?_⟩
  · rw [hopen, hown, hclients]
    exact h.open_iff fd
  · exact hown ▸ h.nodup
  · exact hown ▸ hclients ▸ h.own_clients
  · exact hown ▸ h.own_lost
  · exact hclients ▸ h.clients_lost

/-- A descriptor that nobody has comes into the hands of the thread of `serve`. -/
theorem accounted_opens (h : Accounted s lost) {fd : Fd} (hfree : s.files fd = none)
    (hfiles : s'.files = Function.update s.files fd (some .new))
    (hown : ownFds s'.point = ownFds s.point ++ [fd]) (hclients : s'.clients = s.clients) :
    Accounted s' lost := by
  obtain ⟨hnew, hnew', hnew''⟩ := h.fresh hfree
  refine ⟨fun x => ?_, ?_, ?_, ?_, hclients ▸ h.clients_lost⟩
  · rw [hfiles, hown, hclients]
    by_cases hx : x = fd
    · simp [hx]
    · simp [hx, h.open_iff]
  · rw [hown]
    exact h.nodup.append (List.nodup_singleton fd) (List.disjoint_singleton.mpr hnew)
  · intro x hx
    rw [hclients]
    rw [hown, List.mem_append, List.mem_singleton] at hx
    obtain hx | rfl := hx
    · exact h.own_clients x hx
    · exact hnew'
  · intro x hx
    rw [hown, List.mem_append, List.mem_singleton] at hx
    obtain hx | rfl := hx
    · exact h.own_lost x hx
    · exact hnew''

/-- The thread of `serve` closes its only descriptor, which is no client's and was not forgotten. -/
theorem accounted_releases (h : Accounted s lost) {fd : Fd} (hown : ownFds s.point = [fd])
    (hfiles : s'.files = Function.update s.files fd none) (hnone : ownFds s'.point = [])
    (hclients : s'.clients = s.clients) : Accounted s' lost := by
  have hmem : fd ∈ ownFds s.point := hown ▸ List.mem_cons_self
  refine ⟨fun x => ?_, hnone ▸ List.nodup_nil, ?_, ?_, hclients ▸ h.clients_lost⟩
  · rw [hfiles, hnone, hclients]
    by_cases hx : x = fd
    · simp [hx, h.own_clients fd hmem, h.own_lost fd hmem]
    · simp [hx, h.open_iff, hown]
  · rw [hnone]
    exact fun _ hx => by cases hx
  · rw [hnone]
    exact fun _ hx => by cases hx

/-- The descriptor of a client goes from the thread of `serve` to its `SocketImpl`. -/
theorem accounted_handsOver (h : Accounted s lost) {fd client : Fd} (hopen : SameOpen s s')
    (hown : ownFds s.point = [fd, client]) (hown' : ownFds s'.point = [fd])
    (hclients : s'.clients = insert client s.clients) : Accounted s' lost := by
  have hmem : client ∈ ownFds s.point := hown ▸ List.mem_cons_of_mem _ List.mem_cons_self
  have hne : fd ≠ client := by
    have hnodup := h.nodup
    rw [hown] at hnodup
    simpa using hnodup
  refine ⟨fun x => ?_, hown' ▸ List.nodup_singleton fd, ?_, ?_, ?_⟩
  · rw [hopen, h.open_iff, hown, hown', hclients]
    simp only [List.mem_cons, List.not_mem_nil, or_false, Finset.mem_insert]
    rw [or_assoc, or_assoc]
  · intro x hx
    rw [hown', List.mem_singleton] at hx
    subst hx
    rw [hclients, Finset.mem_insert, not_or]
    exact ⟨hne, h.own_clients x (hown ▸ List.mem_cons_self)⟩
  · intro x hx
    rw [hown', List.mem_singleton] at hx
    subst hx
    exact h.own_lost x (hown ▸ List.mem_cons_self)
  · intro x hx
    rw [hclients, Finset.mem_insert] at hx
    obtain rfl | hx := hx
    · exact h.own_lost x hmem
    · exact h.clients_lost x hx

/-- The last descriptor of the thread of `serve` is left open and in nobody's hand. -/
theorem accounted_forgets (h : Accounted s lost) {fd : Fd} (hopen : SameOpen s s')
    (hown : ownFds s.point = ownFds s'.point ++ [fd]) (hclients : s'.clients = s.clients) :
    Accounted s' (insert fd lost) := by
  have hmem : fd ∈ ownFds s.point := hown ▸ List.mem_append_right _ List.mem_cons_self
  have hkept : ∀ x ∈ ownFds s'.point, x ∈ ownFds s.point := fun x hx =>
    hown ▸ List.mem_append_left _ hx
  have hnodup := h.nodup
  rw [hown, List.nodup_append] at hnodup
  refine ⟨fun x => ?_, hnodup.1, ?_, ?_, ?_⟩
  · rw [hopen, h.open_iff, hown, hclients]
    simp only [List.mem_append, List.mem_singleton, Finset.mem_insert]
    tauto
  · intro x hx
    rw [hclients]
    exact h.own_clients x (hkept x hx)
  · intro x hx
    rw [Finset.mem_insert, not_or]
    exact ⟨hnodup.2.2 x hx fd List.mem_cons_self, h.own_lost x (hkept x hx)⟩
  · intro x hx
    rw [hclients] at hx
    rw [Finset.mem_insert, not_or]
    refine ⟨?_, h.clients_lost x hx⟩
    rintro rfl
    exact h.own_clients x hmem hx

/-- A worker closes the descriptor of its `SocketImpl`. -/
theorem accounted_closes (h : Accounted s lost) {fd : Fd} (hheld : fd ∈ s.clients)
    (hfiles : s'.files = Function.update s.files fd none) (hown : ownFds s'.point = ownFds s.point)
    (hclients : s'.clients = s.clients.erase fd) : Accounted s' lost := by
  have hown' : fd ∉ ownFds s.point := fun hmem => h.own_clients fd hmem hheld
  refine ⟨fun x => ?_, hown ▸ h.nodup, ?_, hown ▸ h.own_lost, ?_⟩
  · rw [hfiles, hown, hclients]
    by_cases hx : x = fd
    · simp [hx, hown', h.clients_lost fd hheld]
    · simp [hx, h.open_iff]
  · intro x hx
    rw [hown] at hx
    rw [hclients, Finset.mem_erase, not_and_or]
    exact Or.inr (h.own_clients x hx)
  · intro x hx
    rw [hclients] at hx
    exact h.clients_lost x (Finset.mem_of_mem_erase hx)

/-- In whichever way the descriptors change hands, the account is kept. -/
theorem accounted_passes {o : Option Fd} (h : Accounted s lost) (hpass : Passes s s' o) :
    Accounted s' (withForgotten lost o) := by
  cases hpass with
  | stays hopen hown hclients => exact accounted_stays h hopen hown hclients
  | opens fd hfree hfiles hown hclients => exact accounted_opens h hfree hfiles hown hclients
  | releases fd hown hfiles hnone hclients => exact accounted_releases h hown hfiles hnone hclients
  | handsOver fd client hopen hown hown' hclients =>
    exact accounted_handsOver h hopen hown hown' hclients
  | forgets fd hopen hown hclients => exact accounted_forgets h hopen hown hclients
  | closes fd hheld hfiles hown hclients => exact accounted_closes h hheld hfiles hown hclients

/-- What has been forgotten so far. -/
def noteForgotten (s : PosixState) (event : PosixEvent) (lost : Finset Fd) : Finset Fd :=
  withForgotten lost (forgotten s event)

/-- A step keeps the account, with the descriptor that it forgets on the list. -/
theorem accounted_step {event : PosixEvent} (h : Accounted s lost)
    (hstep : s.step port event = some s') : Accounted s' (noteForgotten s event lost) :=
  accounted_passes h (step_passes hstep)

/-- Every state of a process has an account. -/
theorem exists_accounted {events : List PosixEvent}
    (hexec : System.exec (PosixState.step port) PosixState.init events = some s) :
    ∃ lost, System.exec (System.noted (PosixState.step port) noteForgotten) (PosixState.init, ∅) events =
      some (s, lost) ∧ Accounted s lost :=
  System.exists_noted noteForgotten (fun _ _ _ _ h hstep => accounted_step h hstep) hexec accounted_init

/-- Nothing has been forgotten if and only if no step forgets anything. -/
theorem lost_eq_empty_iff {events : List PosixEvent} {t : PosixState} {lost' : Finset Fd}
    (hexec : System.exec (System.noted (PosixState.step port) noteForgotten) (s, lost) events =
      some (t, lost')) :
    lost' = ∅ ↔ lost = ∅ ∧
      System.Each (PosixState.step port) (fun s event => forgotten s event = none) s events := by
  induction events generalizing s lost with
  | nil =>
    rw [System.exec, Option.some.injEq, Prod.mk.injEq] at hexec
    rw [← hexec.2]
    exact (and_iff_left trivial).symm
  | cons event events ih =>
    rw [System.exec, System.noted] at hexec
    obtain ⟨⟨u, lost₁⟩, hnoted, hrest⟩ := Option.bind_eq_some_iff.mp hexec
    obtain ⟨u', hstep, hpair⟩ := Option.map_eq_some_iff.mp hnoted
    rw [Prod.mk.injEq] at hpair
    obtain ⟨rfl, rfl⟩ := hpair
    have hnote : noteForgotten s event lost = ∅ ↔ lost = ∅ ∧ forgotten s event = none := by
      rw [noteForgotten]
      cases hforgotten : forgotten s event with
      | none => exact (and_iff_left rfl).symm
      | some fd => exact iff_of_false (Finset.insert_ne_empty fd lost) fun h => by cases h.2
    have heach : System.Each (PosixState.step port) (fun s event => forgotten s event = none) s
        (event :: events) ↔ forgotten s event = none ∧
          System.Each (PosixState.step port) (fun s event => forgotten s event = none) u' events := by
      rw [System.Each, hstep]
      simp only [Option.some.injEq, forall_eq']
    rw [ih hrest, hnote, heach, and_assoc]

end Account

/-- In every run of a process, whatever its system calls come back with: when the listening socket is gone
(or was not made) and every client has been closed, no descriptor is left open if and only if no
`setsockopt` failed. -/
theorem descriptors_closed_iff (port : ℤ) {events : List PosixEvent} {s : PosixState}
    (hexec : System.exec (PosixState.step port) PosixState.init events = some s)
    (hover : s.point = .destroyed ∨ ∃ e, s.point = .failed e) (hclients : s.clients = ∅) :
    (∀ fd, s.files fd = none) ↔ System.Each (PosixState.step port)
      (fun s event => forgotten s event = none) PosixState.init events := by
  obtain ⟨lost, hnoted, hacc⟩ := exists_accounted hexec
  have hown : ownFds s.point = [] := by
    obtain hpoint | ⟨e, hpoint⟩ := hover <;> rw [hpoint] <;> rfl
  have hopen : ∀ fd, s.files fd = none ↔ fd ∉ lost := by
    intro fd
    have hiff := hacc.open_iff fd
    rw [hown, hclients] at hiff
    simp only [List.not_mem_nil, Finset.notMem_empty, false_or] at hiff
    rw [← hiff, Bool.not_eq_true, Option.isSome_eq_false_iff, Option.isNone_iff_eq_none]
  have hlost : lost = ∅ ↔ System.Each (PosixState.step port) (fun s event => forgotten s event = none)
      PosixState.init events := (lost_eq_empty_iff hnoted).trans (and_iff_right rfl)
  rw [← hlost, Finset.eq_empty_iff_forall_notMem]
  exact forall_congr' hopen

/-- The listening socket is made, with a call that is interrupted, and a client is accepted. -/
def clientAccepted : List PosixEvent :=
  [.returns (.ok 3), .returns (.ok 0), .returns (.error .EINTR), .returns (.ok 2), .returns (.ok 0),
    .returns (.ok 0), .returns (.ok 0), .callAccept, .polled (.returned 1 true), .returns (.ok 4),
    .returns (.ok 0)]

/-- Then the client and the listening socket are closed. -/
theorem descriptors_closed_iff_client : ∃ s,
    System.exec (PosixState.step 8080) PosixState.init
      (clientAccepted ++ [.closeClient 4, .destroy, .returns (.ok 0)]) = some s ∧
    ((∀ fd, s.files fd = none) ↔ System.Each (PosixState.step 8080)
      (fun s event => forgotten s event = none) PosixState.init
      (clientAccepted ++ [.closeClient 4, .destroy, .returns (.ok 0)])) :=
  ⟨_, rfl, descriptors_closed_iff 8080 rfl (Or.inl rfl) (by decide)⟩

end CppSocks.Analysis
