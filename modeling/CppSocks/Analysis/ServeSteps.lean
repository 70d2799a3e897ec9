import CppSocks.Foundation.Transition
import CppSocks.Model.TcpServer

/-!
# The steps of the server

What one step of `ServeState.step` can be, guards included (`step_cases`). The
invariants of the server are case analyses of `ServeStep` and never unfold the
step function. The first of them is `Orderable`: each socket has at most one
holder, and the workers are joined in order.
-/

set_option autoImplicit false

namespace CppSocks.Analysis

open CppSocks.Model Foundation

section

variable {σ : Type} (pf : Platform) (H : ServerHandler σ) (maxClients : ℕ)

/-- The server behind the run of `w`, which has closed its socket `c` times. -/
def ranWorker (s : ServeState σ) (k : ℕ) (w : ServedWorker σ) (worker : ClientWorker σ) (c : ℕ) :
    ServeState σ where
  point := s.point
  accepted := s.accepted
  workers := s.workers.set k ⟨w.socket, false, worker⟩
  log := s.log ++ List.replicate c (.closed w.socket)

/-- The server behind `worker.finish()` in `cleanup`. -/
def removed (s : ServeState σ) (socket k : ℕ) (w : ServedWorker σ) : ServeState σ where
  point := .cleanup socket k
  accepted := s.accepted
  workers := s.workers.eraseIdx k
  log := s.log ++ [.joined w.socket] ++ [.destroyed w.socket]

/-- The server with a new client, which `cleanup` comes before. -/
def acceptedClient (s : ServeState σ) : ServeState σ where
  point := .cleanup s.accepted 0
  accepted := s.accepted + 1
  workers := s.workers
  log := s.log ++ [.accepted s.accepted]

/-- The server with a new worker. -/
def startedWorker (s : ServeState σ) (socket : ℕ) (handler : σ) (buf : Bytes) : ServeState σ where
  point := .head
  accepted := s.accepted
  workers := s.workers ++ [⟨socket, true, ClientWorker.init handler buf⟩]
  log := s.log ++ [.started socket]

/-- The steps of the server. -/
inductive ServeStep (s : ServeState σ) : ServeEvent σ → ServeState σ → Prop where
  | quit (b : Bool) (hpoint : s.point = .head) :
    ServeStep s (.quit b) (s.goTo (if b then .finish 0 else .accept))
  | noClient (hpoint : s.point = .accept) : ServeStep s (.accept .none) (s.goTo .head)
  | client (hpoint : s.point = .accept) : ServeStep s (.accept .client) (acceptedClient s)
  | acceptFails (e : Exc) (hpoint : s.point = .accept) :
    ServeStep s (.accept (.fails e)) (s.leave (.thrown e))
  | passed {socket k : ℕ} (hpoint : s.point = .cleanup socket k) (hnone : s.workers[k]? = none) :
    ServeStep s .isActive (s.goTo (.limit socket))
  | seen {socket k : ℕ} {w : ServedWorker σ} (hpoint : s.point = .cleanup socket k)
    (hw : s.workers[k]? = some w) (hactive : w.worker.isActive = true) :
    ServeStep s .isActive (s.goTo (.cleanup socket (k + 1)))
  | inactive {socket k : ℕ} {w : ServedWorker σ} (hpoint : s.point = .cleanup socket k)
    (hw : s.workers[k]? = some w) (hactive : w.worker.isActive = false) :
    ServeStep s .isActive (s.goTo (.join socket k))
  | join {socket k : ℕ} {w : ServedWorker σ} (hpoint : s.point = .join socket k)
    (hw : s.workers[k]? = some w) (hidle : w.running = false) :
    ServeStep s .join (removed s socket k w)
  | start {socket : ℕ} (handler : σ) (buf : Bytes) (hpoint : s.point = .limit socket)
    (hroom : s.workers.length < maxClients) :
    ServeStep s (.start (.ok handler) buf) (startedWorker s socket handler buf)
  | startFails {socket : ℕ} (e : Exc) (buf : Bytes) (hpoint : s.point = .limit socket)
    (hroom : s.workers.length < maxClients) :
    ServeStep s (.start (.error e) buf) (s.leave (.thrown e))
  | reject {socket : ℕ} (r : WriteResult) (hr : ∀ e, r ≠ .fail e) (hpoint : s.point = .limit socket)
    (hfull : maxClients ≤ s.workers.length) :
    ServeStep s (.reject r) ((s.record (.rejected socket)).goTo .head)
  | rejectFails {socket : ℕ} (e : Exc) (hpoint : s.point = .limit socket)
    (hfull : maxClients ≤ s.workers.length) :
    ServeStep s (.reject (.fail e)) (s.leave (.thrown e))
  | swept {k : ℕ} (hpoint : s.point = .finish k) (hnone : s.workers[k]? = none) :
    ServeStep s .finish (s.leave .returned)
  | sweep {k : ℕ} {w : ServedWorker σ} (hpoint : s.point = .finish k) (hw : s.workers[k]? = some w)
    (hidle : w.running = false) :
    ServeStep s .finish ((s.record (.joined w.socket)).goTo (.finish (k + 1)))
  | run {k : ℕ} {w : ServedWorker σ} {events : List LoopEvent} {worker : ClientWorker σ}
    (hw : s.workers[k]? = some w) (hrunning : w.running = true)
    (hrun : ClientWorker.run pf H events w.worker = (.ret (), worker)) :
    ServeStep s (.run k events) (ranWorker s k w worker (worker.calls.count .closeSocket))

variable {pf H maxClients} {s t : ServeState σ}

/-- The step that `accept` leads to, for each of its results. -/
theorem serveStep_accept (r : AcceptResult) (hpoint : s.point = .accept) :
    ServeStep pf H maxClients s (.accept r) (s.accept r) := by
  cases r with
  | none => exact .noClient hpoint
  | client => exact .client hpoint
  | fails e => exact .acceptFails e hpoint

/-- A test in `cleanup`: the end of the list, an active worker, or one to be joined. -/
theorem serveStep_isActive {socket k : ℕ} (hpoint : s.point = .cleanup socket k) :
    ServeStep pf H maxClients s .isActive (s.isActive socket k) := by
  rw [ServeState.isActive]
  cases hw : s.workers[k]? with
  | none => exact .passed hpoint hw
  | some w =>
    cases hactive : w.worker.isActive with
    | true => simpa only [hactive] using .seen hpoint hw hactive
    | false => simpa only [hactive] using .inactive hpoint hw hactive

/-- A join in `cleanup` is possible only for a worker whose thread has ended. -/
theorem serveStep_join {socket k : ℕ} (hpoint : s.point = .join socket k)
    (h : s.join socket k = some t) : ServeStep pf H maxClients s .join t := by
  rw [ServeState.join] at h
  cases hw : s.workers[k]? with
  | none => rw [hw] at h; cases h
  | some w =>
    rw [hw] at h
    cases hrunning : w.running with
    | true => simp only [hrunning] at h; cases h
    | false =>
      simp only [hrunning] at h
      exact Option.some.inj h ▸ .join hpoint hw hrunning

/-- Below the limit a worker is started, unless its handler cannot be made. -/
theorem serveStep_start {socket : ℕ} (handler : Except Exc σ) (buf : Bytes)
    (hpoint : s.point = .limit socket) (hroom : s.workers.length < maxClients) :
    ServeStep pf H maxClients s (.start handler buf) (s.start socket handler buf) := by
  cases handler with
  | ok handler => exact .start handler buf hpoint hroom
  | error e => exact .startFails e buf hpoint hroom

/-- At the limit the client is turned away; the write to it can throw. -/
theorem serveStep_reject {socket : ℕ} (r : WriteResult) (hpoint : s.point = .limit socket)
    (hfull : ¬ s.workers.length < maxClients) :
    ServeStep pf H maxClients s (.reject r) (s.reject socket r) := by
  have hle := Nat.le_of_not_lt hfull
  cases r with
  | accept k => exact .reject (.accept k) (fun _ hr => nomatch hr) hpoint hle
  | again => exact .reject .again (fun _ hr => nomatch hr) hpoint hle
  | fail e => exact .rejectFails e hpoint hle

/-- The loop at the end of `serve` waits for one worker after the other, and then returns. -/
theorem serveStep_finish {k : ℕ} (hpoint : s.point = .finish k) (h : s.finish k = some t) :
    ServeStep pf H maxClients s .finish t := by
  rw [ServeState.finish] at h
  cases hw : s.workers[k]? with
  | none =>
    rw [hw] at h
    exact Option.some.inj h ▸ .swept hpoint hw
  | some w =>
    rw [hw] at h
    cases hrunning : w.running with
    | true => simp only [hrunning] at h; cases h
    | false =>
      simp only [hrunning] at h
      exact Option.some.inj h ▸ .sweep hpoint hw hrunning

/-- A worker that runs to its end was running, and its `run` has returned. -/
theorem serveStep_run {k : ℕ} {events : List LoopEvent} (h : s.run pf H k events = some t) :
    ServeStep pf H maxClients s (.run k events) t := by
  rw [ServeState.run] at h
  cases hw : s.workers[k]? with
  | none => rw [hw] at h; cases h
  | some w =>
    rw [hw] at h
    dsimp only at h
    split at h
    · rename_i hrunning
      split at h
      · rename_i u worker hrun
        exact Option.some.inj h ▸ .run hw hrunning hrun
      · cases h
    · cases h

/-- Every step of the server is one of these. The step function looks at the point of `serve` first;
what it does there is one of the lemmas above. -/
theorem step_cases {event : ServeEvent σ} (h : s.step pf H maxClients event = some t) :
    ServeStep pf H maxClients s event t := by
  cases event with
  | quit b =>
    simp only [ServeState.step] at h
    split at h
    · rename_i hpoint
      exact Option.some.inj h ▸ .quit b hpoint
    · cases h
  | accept r =>
    simp only [ServeState.step] at h
    split at h
    · rename_i hpoint
      exact Option.some.inj h ▸ serveStep_accept r hpoint
    · cases h
  | isActive =>
    simp only [ServeState.step] at h
    split at h
    · rename_i socket k hpoint
      exact Option.some.inj h ▸ serveStep_isActive hpoint
    · cases h
  | join =>
    simp only [ServeState.step] at h
    split at h
    · rename_i socket k hpoint
      exact serveStep_join hpoint h
    · cases h
  | start handler buf =>
    simp only [ServeState.step] at h
    split at h
    · rename_i socket hpoint
      split at h
      · rename_i hroom
        exact Option.some.inj h ▸ serveStep_start handler buf hpoint hroom
      · cases h
    · cases h
  | reject r =>
    simp only [ServeState.step] at h
    split at h
    · rename_i socket hpoint
      split at h
      · cases h
      · rename_i hfull
        exact Option.some.inj h ▸ serveStep_reject r hpoint hfull
    · cases h
  | finish =>
    simp only [ServeState.step] at h
    split at h
    · rename_i k hpoint
      exact serveStep_finish hpoint h
    · cases h
  | run k events => exact serveStep_run h

end

/-! ## The order of the server -/

/-- The socket that `serve` has accepted and not yet decided on. -/
def pending : ServePoint → List ℕ
  | .cleanup socket _ => [socket]
  | .join socket _ => [socket]
  | .limit socket => [socket]
  | _ => []

section

variable {σ : Type}

/-- The sockets of the workers whose threads are running. -/
def runningSockets (workers : List (ServedWorker σ)) : List ℕ :=
  (workers.filter ServedWorker.running).map ServedWorker.socket

/-- Every socket has at most one holder; a worker that has not run has done nothing; and the workers
that were joined at the end have run. -/
structure Orderable (s : ServeState σ) : Prop where
  nodup : (pending s.point ++ s.workers.map ServedWorker.socket).Nodup
  lt : ∀ n ∈ pending s.point ++ s.workers.map ServedWorker.socket, n < s.accepted
  fresh : ∀ w ∈ s.workers, w.running = true → w.worker.calls = []
  finished : ∀ k, s.point = .finish k → ∀ w ∈ s.workers.take k, w.running = false
  returned : s.point = .returned → s.workers = []

/-- `serve` was left by an exception, and its workers are gone. -/
def Gone (s : ServeState σ) : Prop := (∃ e, s.point = .thrown e) ∧ s.workers = []

variable {pf : Platform} {H : ServerHandler σ} {maxClients : ℕ} {s t : ServeState σ}

/-- Once `serve` has thrown and its workers are gone, the server makes no step. -/
theorem gone_stuck (h : Gone s) (event : ServeEvent σ) : s.step pf H maxClients event = none := by
  obtain ⟨⟨e, hpoint⟩, hworkers⟩ := h
  cases event with
  | run k events => simp [ServeState.step, ServeState.run, hworkers]
  | _ => simp [ServeState.step, hpoint]

/-- An exception that leaves `serve` destroys all workers. -/
theorem gone_leave (s : ServeState σ) (e : Exc) : Gone (s.leave (.thrown e)) := ⟨⟨e, rfl⟩, rfl⟩

/-- So a run that goes on from there has no steps. -/
theorem gone_exec (h : Gone s) {events : List (ServeEvent σ)}
    (hrun : System.exec (ServeState.step pf H maxClients) s events = some t) : t = s := by
  cases events with
  | nil => exact (Option.some.inj hrun).symm
  | cons event events =>
    rw [System.exec, gone_stuck h] at hrun
    cases hrun

/-- The place of a worker in the list. -/
theorem exists_append {k : ℕ} {w : ServedWorker σ} (h : s.workers[k]? = some w) :
    ∃ l₁ l₂, s.workers = l₁ ++ w :: l₂ ∧ l₁.length = k := by
  obtain ⟨hk, rfl⟩ := List.getElem?_eq_some_iff.mp h
  refine ⟨s.workers.take k, s.workers.drop (k + 1), ?_, by simp; omega⟩
  rw [← List.drop_eq_getElem_cons hk, List.take_append_drop]

/-- A worker keeps its socket when it runs. -/
theorem map_socket_set {k : ℕ} {w : ServedWorker σ} (hw : s.workers[k]? = some w)
    (worker : ClientWorker σ) : (s.workers.set k ⟨w.socket, false, worker⟩).map ServedWorker.socket =
      s.workers.map ServedWorker.socket := by
  obtain ⟨l₁, l₂, hworkers, hlen⟩ := exists_append hw
  rw [hworkers, ← hlen, List.set_append_right _ _ (le_refl _)]
  simp

/-- No two workers have the same socket. -/
theorem Orderable.place_unique (h : Orderable s) {k k' : ℕ} {w w' : ServedWorker σ}
    (hw : s.workers[k]? = some w) (hw' : s.workers[k']? = some w') (heq : w'.socket = w.socket) :
    k' = k := by
  have hnodup : (s.workers.map ServedWorker.socket).Nodup := (List.nodup_append.mp h.nodup).2.1
  have hlen : k' < (s.workers.map ServedWorker.socket).length := by
    rw [List.length_map]
    exact (List.getElem?_eq_some_iff.mp hw').1
  apply (List.getElem?_inj hlen hnodup).mp
  rw [List.getElem?_map, List.getElem?_map, hw, hw', Option.map_some, Option.map_some, heq]

/-- The socket of a worker is not one that `serve` holds, nor one to come. -/
theorem Orderable.not_pending (h : Orderable s) {k : ℕ} {w : ServedWorker σ}
    (hw : s.workers[k]? = some w) : ¬ (w.socket ∈ pending s.point ∨ s.accepted ≤ w.socket) := by
  have hmem : w.socket ∈ s.workers.map ServedWorker.socket :=
    List.mem_map_of_mem (List.mem_of_getElem? hw)
  rintro (hpending | hle)
  · exact (List.nodup_append.mp h.nodup).2.2 _ hpending _ hmem rfl
  · have := h.lt _ (List.mem_append_right _ hmem)
    omega

/-- At the beginning there are no sockets. -/
theorem orderable_init : Orderable (ServeState.init : ServeState σ) :=
  ⟨List.nodup_nil, (fun _ hn => nomatch hn), (fun _ hw => nomatch hw), (fun _ hk => nomatch hk),
    fun _ => rfl⟩

/-- A step that only goes on to another point. -/
theorem orderable_goTo (h : Orderable s) {point : ServePoint} (hpending : pending point = pending s.point)
    (hfinish : ∀ k, point = .finish k → k = 0) (hreturned : point ≠ .returned) :
    Orderable (s.goTo point) := by
  refine ⟨?_, ?_, h.fresh, ?_, fun heq => absurd heq hreturned⟩
  · change (pending point ++ _).Nodup
    rw [hpending]
    exact h.nodup
  · change ∀ n ∈ pending point ++ _, n < s.accepted
    rw [hpending]
    exact h.lt
  · intro k hk
    rw [hfinish k hk]
    simp

/-- The socket of a new client is one that nobody has had before. -/
theorem orderable_accepted (h : Orderable s) (hpoint : s.point = .accept) :
    Orderable (acceptedClient s) := by
  have hnodup := h.nodup
  have hlt := h.lt
  rw [hpoint] at hnodup hlt
  have hnew : s.accepted ∉ s.workers.map ServedWorker.socket := by
    intro hin
    have := hlt s.accepted hin
    omega
  refine ⟨List.nodup_cons.mpr ⟨hnew, hnodup⟩, ?_, h.fresh, (fun _ hk => nomatch hk),
    (fun hk => nomatch hk)⟩
  intro n hn
  change n < s.accepted + 1
  obtain rfl | hn := List.mem_cons.mp hn
  · exact Nat.lt_succ_self _
  · have := hlt n hn
    omega

/-- A worker that is joined in `cleanup` gives its socket up; the others keep theirs. -/
theorem orderable_removed (h : Orderable s) {socket k : ℕ} {w : ServedWorker σ}
    (hpoint : s.point = .join socket k) : Orderable (removed s socket k w) := by
  have hsub : (s.workers.eraseIdx k).Sublist s.workers := List.eraseIdx_sublist ..
  have hholders : ([socket] ++ (s.workers.eraseIdx k).map ServedWorker.socket).Sublist
      (pending s.point ++ s.workers.map ServedWorker.socket) := by
    rw [hpoint]
    exact (hsub.map _).append_left _
  exact ⟨h.nodup.sublist hholders, fun n hn => h.lt n (hholders.subset hn),
    fun v hv => h.fresh v (hsub.subset hv), (fun _ hk => nomatch hk), (fun hk => nomatch hk)⟩

/-- The socket that `serve` holds goes over to the new worker. -/
theorem orderable_started (h : Orderable s) {socket : ℕ} (hpoint : s.point = .limit socket)
    (handler : σ) (buf : Bytes) : Orderable (startedWorker s socket handler buf) := by
  have hperm : (s.workers.map ServedWorker.socket ++ [socket]).Perm
      (pending s.point ++ s.workers.map ServedWorker.socket) := by
    rw [hpoint]
    exact List.perm_append_comm
  have hholders : pending (startedWorker s socket handler buf).point ++
      (startedWorker s socket handler buf).workers.map ServedWorker.socket =
        s.workers.map ServedWorker.socket ++ [socket] :=
    List.map_append
  refine ⟨?_, ?_, ?_, (fun _ hk => nomatch hk), (fun hk => nomatch hk)⟩
  · rw [hholders]
    exact hperm.nodup_iff.mpr h.nodup
  · rw [hholders]
    exact fun n hn => h.lt n (hperm.subset hn)
  · intro v hv hrunning
    obtain hv | hv := List.mem_append.mp hv
    · exact h.fresh v hv hrunning
    · rw [List.mem_singleton.mp hv]
      rfl

/-- A client that is turned away leaves `serve` without a socket. -/
theorem orderable_rejected (h : Orderable s) {socket : ℕ} (hpoint : s.point = .limit socket) :
    Orderable ((s.record (.rejected socket)).goTo .head) := by
  have hnodup := h.nodup
  rw [hpoint] at hnodup
  exact ⟨(List.nodup_cons.mp hnodup).2, fun n hn => h.lt n (List.mem_append_right _ hn), h.fresh,
    (fun _ hk => nomatch hk), (fun hk => nomatch hk)⟩

/-- Once `serve` has been left there is nothing to hold. -/
theorem orderable_leave (s : ServeState σ) {point : ServePoint} (hpending : pending point = []) :
    Orderable (s.leave point) := by
  refine ⟨?_, ?_, (fun _ hw => nomatch hw), fun k _ v hv => ?_, fun _ => rfl⟩
  · change (pending point ++ []).Nodup
    rw [hpending]
    exact List.nodup_nil
  · change ∀ n ∈ pending point ++ [], n < s.accepted
    rw [hpending]
    exact fun _ hn => nomatch hn
  · change v ∈ List.take k [] at hv
    rw [List.take_nil] at hv
    cases hv

/-- At the end the workers are joined in the order of the list, each when it has run. -/
theorem orderable_sweep (h : Orderable s) {k : ℕ} {w : ServedWorker σ} (hpoint : s.point = .finish k)
    (hw : s.workers[k]? = some w) (hidle : w.running = false) :
    Orderable ((s.record (.joined w.socket)).goTo (.finish (k + 1))) := by
  have hnodup := h.nodup
  have hlt := h.lt
  rw [hpoint] at hnodup hlt
  refine ⟨hnodup, hlt, h.fresh, ?_, (fun hk => nomatch hk)⟩
  intro k' hk' v hv
  cases hk'
  obtain ⟨hk, rfl⟩ := List.getElem?_eq_some_iff.mp hw
  change v ∈ s.workers.take (k + 1) at hv
  rw [← List.take_append_getElem hk] at hv
  obtain hv | hv := List.mem_append.mp hv
  · exact h.finished k hpoint v hv
  · rw [List.mem_singleton.mp hv]
    exact hidle

/-- A worker that runs stays at its place in the list with its socket, and is idle then. -/
theorem orderable_ranWorker (h : Orderable s) {k : ℕ} {w : ServedWorker σ}
    (hw : s.workers[k]? = some w) (worker : ClientWorker σ) (c : ℕ) :
    Orderable (ranWorker s k w worker c) := by
  have hmap := map_socket_set hw worker
  refine ⟨hmap ▸ h.nodup, hmap ▸ h.lt, ?_, ?_, ?_⟩
  · intro v hv hrunning
    obtain hv | rfl := List.mem_or_eq_of_mem_set hv
    · exact h.fresh v hv hrunning
    · cases hrunning
  · intro k' hk' v hv
    change v ∈ (s.workers.set k _).take k' at hv
    rw [List.take_set] at hv
    obtain hv | rfl := List.mem_or_eq_of_mem_set hv
    · exact h.finished k' hk' v hv
    · rfl
  · intro hreturned
    rw [h.returned hreturned] at hw
    cases hw

/-- Every step keeps the order. -/
theorem orderable_step (h : Orderable s) {event : ServeEvent σ}
    (hstep : ServeStep pf H maxClients s event t) : Orderable t := by
  cases hstep with
  | quit b hpoint =>
    cases b with
    | true =>
      refine orderable_goTo h (by rw [hpoint]; rfl) (fun k hk => ?_) (fun hk => nomatch hk)
      exact (ServePoint.finish.inj hk).symm
    | false =>
      exact orderable_goTo h (by rw [hpoint]; rfl) (fun _ hk => nomatch hk) (fun hk => nomatch hk)
  | noClient hpoint =>
    exact orderable_goTo h (by rw [hpoint]; rfl) (fun _ hk => nomatch hk) (fun hk => nomatch hk)
  | client hpoint => exact orderable_accepted h hpoint
  | acceptFails e => exact orderable_leave s rfl
  | passed hpoint | seen hpoint | inactive hpoint =>
    exact orderable_goTo h (by rw [hpoint]; rfl) (fun _ hk => nomatch hk) (fun hk => nomatch hk)
  | join hpoint => exact orderable_removed h hpoint
  | start handler buf hpoint => exact orderable_started h hpoint handler buf
  | startFails e => exact orderable_leave s rfl
  | reject r hr hpoint => exact orderable_rejected h hpoint
  | rejectFails e => exact orderable_leave s rfl
  | swept => exact orderable_leave s rfl
  | sweep hpoint hw hidle => exact orderable_sweep h hpoint hw hidle
  | run hw => exact orderable_ranWorker h hw _ _

/-! ## The running workers -/

/-- The running workers of two lists, one behind the other. -/
@[simp]
theorem runningSockets_append (l₁ l₂ : List (ServedWorker σ)) :
    runningSockets (l₁ ++ l₂) = runningSockets l₁ ++ runningSockets l₂ := by
  simp [runningSockets]

/-- The first worker of a list counts if its thread is running. -/
theorem runningSockets_cons (w : ServedWorker σ) (l : List (ServedWorker σ)) :
    runningSockets (w :: l) = (if w.running then [w.socket] else []) ++ runningSockets l := by
  cases h : w.running <;> simp [runningSockets, h]

/-- The sockets of the running workers stand among all sockets in the same order. -/
theorem runningSockets_sublist (l : List (ServedWorker σ)) :
    (runningSockets l).Sublist (l.map ServedWorker.socket) :=
  List.filter_sublist.map _

/-- Where every thread has ended no socket is in use by a worker. -/
theorem runningSockets_eq_nil {l : List (ServedWorker σ)} (h : ∀ w ∈ l, w.running = false) :
    runningSockets l = [] := by
  rw [runningSockets, List.filter_eq_nil_iff.mpr (by simpa using h), List.map_nil]

/-- A worker that has run is not missed among the running ones. -/
theorem runningSockets_eraseIdx {k : ℕ} {w : ServedWorker σ} (hw : s.workers[k]? = some w)
    (hidle : w.running = false) :
    runningSockets (s.workers.eraseIdx k) = runningSockets s.workers := by
  obtain ⟨l₁, l₂, hworkers, hlen⟩ := exists_append hw
  have herase : s.workers.eraseIdx k = l₁ ++ l₂ := by
    rw [hworkers, ← hlen, List.eraseIdx_append_of_length_le (le_refl _)]
    simp
  rw [herase]
  simp [hworkers, runningSockets_cons, hidle]

/-- A worker that runs is taken out of the running ones; nobody else has its socket. -/
theorem runningSockets_ran (h : Orderable s) {k : ℕ} {w : ServedWorker σ}
    (hw : s.workers[k]? = some w) (hrunning : w.running = true) (worker : ClientWorker σ) :
    ∃ before behind, runningSockets s.workers = before ++ w.socket :: behind ∧
      runningSockets (s.workers.set k ⟨w.socket, false, worker⟩) = before ++ behind ∧
        w.socket ∉ pending s.point ++ (before ++ behind) := by
  obtain ⟨l₁, l₂, hworkers, hlen⟩ := exists_append hw
  have hbefore : runningSockets s.workers = runningSockets l₁ ++ w.socket :: runningSockets l₂ := by
    simp [hworkers, runningSockets_cons, hrunning]
  refine ⟨runningSockets l₁, runningSockets l₂, hbefore, ?_, ?_⟩
  · rw [hworkers, ← hlen, List.set_append_right _ _ (le_refl _)]
    simp [runningSockets_cons]
  · have hnodup := h.nodup.sublist ((runningSockets_sublist s.workers).append_left _)
    rw [hbefore, ← List.append_assoc] at hnodup
    have hcons := List.perm_middle.nodup_iff.mp hnodup
    rw [List.append_assoc] at hcons
    exact (List.nodup_cons.mp hcons).1

end

end CppSocks.Analysis
