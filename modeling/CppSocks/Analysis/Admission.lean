import CppSocks.Analysis.LoopPasses
import CppSocks.Analysis.Pairing
import CppSocks.Analysis.ServeSteps

/-!
# Admission control

The workers of `serve` become inactive at any time, and `cleanup` looks at them one
after the other. To say what a run has been through, notes are kept beside it: which
workers are active, and which of them `cleanup` has seen active since the last client
was accepted. The active workers are those in the list whose flag is set, there are
at most `maxClients` workers, and a client is turned away only when so many were seen
active (`admission`).
-/

set_option autoImplicit false

namespace CppSocks.Analysis

open CppSocks.Model Foundation

/-! ## Notes -/

/-- What has been observed of the workers, named by their sockets. -/
structure Observed where
  active : List ℕ
  seen : List ℕ
deriving DecidableEq, Repr

section

variable {σ : Type}

/-- The worker that `cleanup` tests next. -/
def tested (s : ServeState σ) : Option (ServedWorker σ) :=
  match s.point with
  | .cleanup _ k => s.workers[k]?
  | _ => none

/-- What is observed in a step: a worker is active from the start of its thread to the end of
`run`. -/
def noteWorkers (s : ServeState σ) : ServeEvent σ → Observed → Observed
  | .accept _, o => { o with seen := [] }
  | .isActive, o =>
    match tested s with
    | some w => if w.worker.isActive then { o with seen := o.seen ++ [w.socket] } else o
    | none => o
  | .start (.ok _) _, o => { o with active := o.active ++ pending s.point }
  | .run k _, o =>
    match s.workers[k]? with
    | some w => { o with active := o.active.erase w.socket }
    | none => o
  | _, o => o

/-! ## Steps -/

/-- An exception has left `serve`. -/
def Thrown (s : ServeState σ) : Prop := ∃ e, s.point = .thrown e

/-- The active workers are those that are running; they are in the list, which is not longer than
the limit; and `cleanup` has seen the workers it has passed. -/
structure Admitted (maxClients : ℕ) (s : ServeState σ) (o : Observed) : Prop where
  active : ¬ Thrown s → o.active = runningSockets s.workers
  flags : ∀ w ∈ s.workers, w.worker.isActive = w.running
  limit : s.workers.length ≤ maxClients
  passed : ∀ socket k, s.point = .cleanup socket k ∨ s.point = .join socket k →
    o.seen = (s.workers.map ServedWorker.socket).take k
  decided : ∀ socket, s.point = .limit socket → o.seen = s.workers.map ServedWorker.socket

variable {pf : Platform} {H : ServerHandler σ} {maxClients : ℕ} {s t : ServeState σ} {o : Observed}

/-- A state in which no client is to be decided on. -/
theorem admitted_of_idle (hpending : pending t.point = [])
    (hactive : ¬ Thrown t → o.active = runningSockets t.workers)
    (hflags : ∀ w ∈ t.workers, w.worker.isActive = w.running)
    (hlimit : t.workers.length ≤ maxClients) : Admitted maxClients t o := by
  refine ⟨hactive, hflags, hlimit, ?_, ?_⟩
  · rintro socket k (hpoint | hpoint) <;> rw [hpoint] at hpending <;> cases hpending
  · intro socket hpoint
    rw [hpoint] at hpending
    cases hpending

/-- Another point of `serve` is not one behind an exception. -/
theorem not_thrown {point : ServePoint} (hpoint : s.point = point) (hne : ∀ e, point ≠ .thrown e) :
    ¬ Thrown s := by
  rintro ⟨e, he⟩
  exact hne e (hpoint.symm.trans he)

/-- At the beginning there are no workers, so none is counted and none has been seen. -/
theorem admitted_init (maxClients : ℕ) :
    Admitted maxClients (ServeState.init : ServeState σ) ⟨[], []⟩ :=
  admitted_of_idle rfl (fun _ => rfl) (fun _ hw => nomatch hw) (Nat.zero_le _)

/-- Going on to a point without a pending client keeps the bound. -/
theorem admitted_goTo (h : Admitted maxClients s o) {point : ServePoint} (hpending : pending point = [])
    (hthrown : ¬ Thrown s) : Admitted maxClients (s.goTo point) o :=
  admitted_of_idle hpending (fun _ => h.active hthrown) h.flags h.limit

/-- Behind an exception nothing is asked for any more. -/
theorem admitted_thrown (s : ServeState σ) (e : Exc) : Admitted maxClients (s.leave (.thrown e)) o :=
  admitted_of_idle rfl (fun hnot => absurd ⟨e, rfl⟩ hnot) (fun _ hw => nomatch hw) (Nat.zero_le _)

/-- With a new client `cleanup` begins, and no worker has been seen yet. -/
theorem admitted_accepted (h : Admitted maxClients s o) (hpoint : s.point = .accept) :
    Admitted maxClients (acceptedClient s) (noteWorkers s (.accept .client) o) := by
  refine ⟨fun _ => h.active (not_thrown hpoint (fun _ he => nomatch he)), h.flags, h.limit, ?_,
    (fun _ hk => nomatch hk)⟩
  rintro socket k (hk | hk)
  · cases hk
    rfl
  · cases hk

/-- A test in `cleanup`: the workers that have been passed are those that were seen, and behind the
last one the number of workers is compared with the limit. -/
theorem admitted_isActive (h : Admitted maxClients s o) {socket k : ℕ}
    (hpoint : s.point = .cleanup socket k) {point : ServePoint}
    (hpassed : ∀ socket' k', point = .cleanup socket' k' ∨ point = .join socket' k' →
      (noteWorkers s .isActive o).seen = (s.workers.map ServedWorker.socket).take k')
    (hdecided : ∀ socket', point = .limit socket' →
      (noteWorkers s .isActive o).seen = s.workers.map ServedWorker.socket) :
    Admitted maxClients (s.goTo point) (noteWorkers s .isActive o) := by
  have hsame : (noteWorkers s .isActive o).active = o.active := by
    simp only [noteWorkers]
    split
    · split <;> rfl
    · rfl
  refine ⟨fun _ => ?_, h.flags, h.limit, hpassed, hdecided⟩
  rw [hsame]
  exact h.active (not_thrown hpoint (fun _ he => nomatch he))

/-- The worker at the tested position has been passed if it was active. -/
theorem seen_isActive (h : Admitted maxClients s o) {socket k : ℕ}
    (hpoint : s.point = .cleanup socket k) {w : ServedWorker σ} (hw : s.workers[k]? = some w) :
    (noteWorkers s .isActive o).seen =
      (s.workers.map ServedWorker.socket).take (if w.worker.isActive then k + 1 else k) := by
  have hpassed := h.passed socket k (Or.inl hpoint)
  have htested : tested s = some w := by
    rw [tested, hpoint]
    exact hw
  rw [noteWorkers, htested]
  dsimp only
  split
  · rw [List.take_add_one, List.getElem?_map, hw, hpassed]
    rfl
  · exact hpassed

/-- A worker that is joined in `cleanup` makes room, and those behind it move up. -/
theorem admitted_removed (h : Admitted maxClients s o) {socket k : ℕ} {w : ServedWorker σ}
    (hpoint : s.point = .join socket k) (hw : s.workers[k]? = some w) (hidle : w.running = false) :
    Admitted maxClients (removed s socket k w) o := by
  have hsub : (s.workers.eraseIdx k).Sublist s.workers := List.eraseIdx_sublist ..
  refine ⟨fun _ => ?_, fun v hv => h.flags v (hsub.subset hv), hsub.length_le.trans h.limit, ?_,
    (fun _ hk => nomatch hk)⟩
  · rw [h.active (not_thrown hpoint (fun _ he => nomatch he))]
    exact (runningSockets_eraseIdx hw hidle).symm
  · rintro socket' k' (hk | hk)
    · cases hk
      change o.seen = ((s.workers.eraseIdx k).map ServedWorker.socket).take k
      obtain ⟨l₁, l₂, hworkers, hlen⟩ := exists_append hw
      rw [h.passed socket k (Or.inr hpoint), ← List.map_take, ← List.map_take, hworkers, ← hlen,
        List.eraseIdx_append_of_length_le (le_refl _), List.take_left, List.take_left]
    · cases hk

/-- A worker is started only below the limit, so there are never more than it allows. -/
theorem admitted_started (h : Admitted maxClients s o) {socket : ℕ} (handler : σ) (buf : Bytes)
    (hpoint : s.point = .limit socket) (hroom : s.workers.length < maxClients) :
    Admitted maxClients (startedWorker s socket handler buf)
      (noteWorkers s (.start (.ok handler) buf) o) := by
  refine admitted_of_idle rfl (fun _ => ?_) ?_ ?_
  · change o.active ++ pending s.point = runningSockets (s.workers ++ [_])
    rw [runningSockets_append, h.active (not_thrown hpoint (fun _ he => nomatch he)), hpoint]
    rfl
  · intro w hw
    obtain hw | hw := List.mem_append.mp hw
    · exact h.flags w hw
    · rw [List.mem_singleton.mp hw]
      rfl
  · change (s.workers ++ [_]).length ≤ maxClients
    rw [List.length_append]
    exact hroom

/-- A worker that runs to its end stays in the list, and is not active any more. -/
theorem admitted_ran (hord : Orderable s) (h : Admitted maxClients s o) {k : ℕ} {w : ServedWorker σ}
    {events : List LoopEvent} {worker : ClientWorker σ} (hw : s.workers[k]? = some w)
    (hrunning : w.running = true) (hinactive : worker.isActive = false) (c : ℕ) :
    Admitted maxClients (ranWorker s k w worker c) (noteWorkers s (.run k events) o) := by
  have hnotes : noteWorkers s (.run k events) o = { o with active := o.active.erase w.socket } := by
    rw [noteWorkers, hw]
  have hsockets := map_socket_set hw worker
  obtain ⟨before, behind, hbefore, hafter, hnot⟩ := runningSockets_ran hord hw hrunning worker
  rw [hnotes]
  refine ⟨fun hthrown => ?_, ?_, ?_, ?_, ?_⟩
  · have hnot' : w.socket ∉ before := fun hin =>
      hnot (List.mem_append_right _ (List.mem_append_left _ hin))
    change o.active.erase w.socket = runningSockets (s.workers.set k _)
    rw [h.active hthrown, hafter, hbefore, List.erase_append_right _ hnot', List.erase_cons_head]
  · intro v hv
    obtain hv | rfl := List.mem_or_eq_of_mem_set hv
    · exact h.flags v hv
    · exact hinactive
  · change (s.workers.set k _).length ≤ maxClients
    rw [List.length_set]
    exact h.limit
  · intro socket k' hpoint
    change o.seen = ((s.workers.set k _).map ServedWorker.socket).take k'
    rw [hsockets]
    exact h.passed socket k' hpoint
  · intro socket hpoint
    change o.seen = (s.workers.set k _).map ServedWorker.socket
    rw [hsockets]
    exact h.decided socket hpoint

/-- Every step of the server keeps the bound. -/
theorem admitted_step (hord : Orderable s) (h : Admitted maxClients s o) {event : ServeEvent σ}
    (hstep : ServeStep pf H maxClients s event t) : Admitted maxClients t (noteWorkers s event o) := by
  cases hstep with
  | quit b hpoint =>
    have hnot : ¬ Thrown s := not_thrown hpoint (fun _ he => nomatch he)
    cases b with
    | true =>
      change Admitted maxClients (s.goTo (.finish 0)) o
      exact admitted_goTo h rfl hnot
    | false => exact admitted_goTo h rfl hnot
  | noClient hpoint =>
    exact admitted_of_idle rfl (fun _ => h.active (not_thrown hpoint (fun _ he => nomatch he)))
      h.flags h.limit
  | client hpoint => exact admitted_accepted h hpoint
  | acceptFails e | startFails e | rejectFails e => exact admitted_thrown s e
  | @passed socket k hpoint hnone =>
    refine admitted_isActive h hpoint ?_ fun socket' _ => ?_
    · rintro socket' k' (hk | hk) <;> cases hk
    · have htested : tested s = none := by
        rw [tested, hpoint]
        exact hnone
      rw [noteWorkers, htested]
      refine (h.passed socket k (Or.inl hpoint)).trans (List.take_of_length_le ?_)
      rw [List.length_map]
      exact List.getElem?_eq_none_iff.mp hnone
  | seen hpoint hw hactive =>
    refine admitted_isActive h hpoint ?_ (fun _ hk => nomatch hk)
    rintro socket' k' (hk | hk)
    · cases hk
      rw [seen_isActive h hpoint hw, hactive]
      rfl
    · cases hk
  | inactive hpoint hw hactive =>
    refine admitted_isActive h hpoint ?_ (fun _ hk => nomatch hk)
    rintro socket' k' (hk | hk)
    · cases hk
    · cases hk
      rw [seen_isActive h hpoint hw, hactive]
      rfl
  | join hpoint hw hidle => exact admitted_removed h hpoint hw hidle
  | start handler buf hpoint hroom => exact admitted_started h handler buf hpoint hroom
  | reject r hr hpoint =>
    exact admitted_of_idle rfl (fun _ => h.active (not_thrown hpoint (fun _ he => nomatch he)))
      h.flags h.limit
  | @swept k hpoint hnone =>
    refine admitted_of_idle rfl (fun _ => ?_) (fun _ hw => nomatch hw) (Nat.zero_le _)
    have hall : s.workers.take k = s.workers :=
      List.take_of_length_le (List.getElem?_eq_none_iff.mp hnone)
    exact (h.active (not_thrown hpoint (fun _ he => nomatch he))).trans
      (runningSockets_eq_nil (hall ▸ hord.finished k hpoint))
  | sweep hpoint =>
    exact admitted_of_idle rfl (fun _ => h.active (not_thrown hpoint (fun _ he => nomatch he)))
      h.flags h.limit
  | run hw hrunning hrun => exact admitted_ran hord h hw hrunning (run_inactive hrun) _

/-- An active worker stays in the list, unless an exception leaves `serve`. -/
theorem active_kept (hord : Orderable s) (h : Admitted maxClients s o) {event : ServeEvent σ}
    (hstep : ServeStep pf H maxClients s event t) (hthrown : ¬ Thrown t) {n : ℕ} (hn : n ∈ o.active) :
    n ∈ t.workers.map ServedWorker.socket := by
  have hin : ∀ {point : ServePoint}, s.point = point → (∀ e, point ≠ .thrown e) →
      n ∈ runningSockets s.workers := by
    intro point hpoint hne
    rw [← h.active (not_thrown hpoint hne)]
    exact hn
  have hlisted : ∀ {l : List (ServedWorker σ)}, n ∈ runningSockets l →
      n ∈ l.map ServedWorker.socket := fun hrunning => (runningSockets_sublist _).subset hrunning
  cases hstep with
  | quit b hpoint | noClient hpoint | client hpoint | passed hpoint | seen hpoint | inactive hpoint
    | reject r hr hpoint | sweep hpoint =>
    exact hlisted (hin hpoint (fun _ he => nomatch he))
  | acceptFails e | startFails e | rejectFails e => exact absurd ⟨e, rfl⟩ hthrown
  | join hpoint hw hidle =>
    apply hlisted
    change n ∈ runningSockets (s.workers.eraseIdx _)
    rw [runningSockets_eraseIdx hw hidle]
    exact hin hpoint (fun _ he => nomatch he)
  | start handler buf hpoint =>
    apply hlisted
    change n ∈ runningSockets (s.workers ++ [_])
    rw [runningSockets_append]
    exact List.mem_append_left _ (hin hpoint (fun _ he => nomatch he))
  | @swept k hpoint hnone =>
    have hall : s.workers.take k = s.workers :=
      List.take_of_length_le (List.getElem?_eq_none_iff.mp hnone)
    have hnil := hin hpoint (fun _ he => nomatch he)
    rw [runningSockets_eq_nil (hall ▸ hord.finished k hpoint)] at hnil
    cases hnil
  | run hw =>
    change n ∈ (s.workers.set _ _).map ServedWorker.socket
    rw [map_socket_set hw]
    apply hlisted
    rw [← h.active hthrown]
    exact hn

end

/-- In every state of every run there are at most `maxClients` workers in the list. Until an exception
leaves `serve`, the active workers are those in the list whose flag is set, and none of them is taken
out of it. A client is turned away only when `maxClients` workers have been seen active since it was
accepted. -/
theorem admission {σ : Type} (pf : Platform) (H : ServerHandler σ) (maxClients : ℕ)
    (events : List (ServeEvent σ)) {s : ServeState σ}
    (hrun : System.exec (ServeState.step pf H maxClients) ServeState.init events = some s) :
    ∃ o, System.exec (System.noted (ServeState.step pf H maxClients) noteWorkers)
        (ServeState.init, ⟨[], []⟩) events = some (s, o) ∧
      (¬ Thrown s → o.active.Nodup ∧
        (∀ n, n ∈ o.active ↔ ∃ w ∈ s.workers, w.socket = n ∧ w.worker.isActive = true) ∧
          o.active.length ≤ s.workers.length) ∧
      s.workers.length ≤ maxClients ∧
      (∀ event t, s.step pf H maxClients event = some t → ¬ Thrown t →
        ∀ n ∈ o.active, n ∈ t.workers.map ServedWorker.socket) ∧
      ∀ r t, s.step pf H maxClients (.reject r) = some t →
        o.seen.Nodup ∧ o.seen.length = maxClients := by
  obtain ⟨o, ho, hord, h⟩ := System.exists_noted noteWorkers
    (I := fun s o => Orderable s ∧ Admitted maxClients s o) (fun s o event t hs hst =>
      ⟨orderable_step hs.1 (step_cases hst), admitted_step hs.1 hs.2 (step_cases hst)⟩) hrun
    ⟨orderable_init, admitted_init maxClients⟩
  have hnodup : (s.workers.map ServedWorker.socket).Nodup := (List.nodup_append.mp hord.nodup).2.1
  have hsub := runningSockets_sublist s.workers
  refine ⟨o, ho, fun hthrown => ?_, h.limit, ?_, ?_⟩
  · rw [h.active hthrown]
    refine ⟨hnodup.sublist hsub, fun n => ?_, ?_⟩
    · rw [runningSockets, List.mem_map]
      constructor
      · rintro ⟨w, hw, rfl⟩
        obtain ⟨hmem, hrunning⟩ := List.mem_filter.mp hw
        exact ⟨w, hmem, rfl, (h.flags w hmem).trans hrunning⟩
      · rintro ⟨w, hmem, rfl, hactive⟩
        exact ⟨w, List.mem_filter.mpr ⟨hmem, (h.flags w hmem).symm.trans hactive⟩, rfl⟩
    · have := hsub.length_le
      rwa [List.length_map] at this
  · intro event t hst hthrown n hn
    exact active_kept hord h (step_cases hst) hthrown hn
  · intro r t hst
    have hlimit : ∃ socket, s.point = .limit socket ∧ maxClients ≤ s.workers.length := by
      cases step_cases hst with
      | reject r hr hpoint hfull => exact ⟨_, hpoint, hfull⟩
      | rejectFails e hpoint hfull => exact ⟨_, hpoint, hfull⟩
    obtain ⟨socket, hpoint, hfull⟩ := hlimit
    rw [h.decided socket hpoint, List.length_map]
    exact ⟨hnodup, Nat.le_antisymm h.limit hfull⟩

/-- A server for one client, to which a second one connects: the worker of the first one has been seen
active when the second one is turned away. -/
theorem admission_full : ∃ (s : ServeState TcpServerHandler) (o : Observed),
    System.exec (System.noted (ServeState.step .plain
      (TcpServerHandler.serverHandler .plain quietFactories) 1) noteWorkers)
        (ServeState.init, ⟨[], []⟩) [.quit false, .accept .client, .isActive,
          .start (.ok newClient.handler) newClient.buf, .quit false, .accept .client, .isActive,
          .isActive] = some (s, o) ∧ s.point = .limit 1 ∧ o.active.length ≤ s.workers.length ∧
      s.workers.length ≤ 1 ∧ o.seen.length = 1 := by
  obtain ⟨o, ho, hactive, hlimit, _, hreject⟩ := admission .plain
    (TcpServerHandler.serverHandler .plain quietFactories) 1 [.quit false, .accept .client,
      .isActive, .start (.ok newClient.handler) newClient.buf, .quit false, .accept .client,
      .isActive, .isActive] rfl
  refine ⟨_, o, ho, rfl, (hactive ?_).2.2, hlimit, (hreject (.accept 29) _ rfl).2⟩
  rintro ⟨e, he⟩
  cases he

end CppSocks.Analysis
