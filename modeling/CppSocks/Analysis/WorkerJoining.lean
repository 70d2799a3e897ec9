import CppSocks.Analysis.Pairing
import CppSocks.Analysis.ServeSteps

/-!
# Joining the workers

A thread that is still joinable when its worker is destroyed ends the process.
`cleanup` and the sweep at the end of `serve` join a worker before it goes; an
exception that leaves `serve` destroys the list as it is. So all workers are
joined in time if and only if no exception leaves `serve` while there are workers
in the list (`workers_joined_iff`).
-/

set_option autoImplicit false

namespace CppSocks.Analysis

open CppSocks.Model Foundation

/-! ## The log of the workers -/

/-- A worker has been joined exactly once when it is destroyed. -/
def JoinedFirst (log : List ServeRecord) : Prop :=
  ∀ pre n post, log = pre ++ .destroyed n :: post → pre.count (.joined n) = 1

section Log

variable {log rest : List ServeRecord}

/-- Nothing has been destroyed. -/
theorem joinedFirst_nil : JoinedFirst [] := by
  intro pre n post heq
  cases pre <;> cases heq

/-- What holds of a log holds of its beginning. -/
theorem JoinedFirst.left (h : JoinedFirst (log ++ rest)) : JoinedFirst log := by
  intro pre n post heq
  apply h pre n (post ++ rest)
  rw [heq, List.append_assoc, List.cons_append]

/-- One more record; if it is a destruction, the worker was joined once before. -/
theorem joinedFirst_snoc (h : JoinedFirst log) {e : ServeRecord}
    (he : ∀ n, e = .destroyed n → log.count (.joined n) = 1) : JoinedFirst (log ++ [e]) := by
  intro pre n post heq
  obtain rfl | ⟨post', last, rfl⟩ := List.eq_nil_or_concat post
  · obtain ⟨rfl, hlast⟩ := List.append_inj' heq rfl
    exact he n (List.cons.inj hlast).1
  · rw [List.concat_eq_append, ← List.cons_append, ← List.append_assoc] at heq
    exact h pre n post' (List.append_inj' heq rfl).1

/-- Nothing is destroyed in between. -/
theorem joinedFirst_append (h : JoinedFirst log) (hrest : ∀ n, .destroyed n ∉ rest) :
    JoinedFirst (log ++ rest) := by
  induction rest generalizing log with
  | nil => rwa [List.append_nil]
  | cons e rest ih =>
    have hsnoc : JoinedFirst (log ++ [e]) :=
      joinedFirst_snoc h fun n he => absurd (he ▸ List.mem_cons_self) (hrest n)
    have := ih hsnoc fun n hn => hrest n (List.mem_cons_of_mem e hn)
    rwa [List.append_assoc, List.singleton_append] at this

/-- Workers that have been joined can be destroyed. -/
theorem joinedFirst_destroyed (h : JoinedFirst log) {sockets : List ℕ}
    (hjoined : ∀ n ∈ sockets, log.count (.joined n) = 1) :
    JoinedFirst (log ++ sockets.map ServeRecord.destroyed) := by
  induction sockets generalizing log with
  | nil => rwa [List.map_nil, List.append_nil]
  | cons m sockets ih =>
    have hsnoc : JoinedFirst (log ++ [.destroyed m]) := by
      refine joinedFirst_snoc h fun n hn => ?_
      rw [← ServeRecord.destroyed.inj hn]
      exact hjoined m List.mem_cons_self
    have hrest : ∀ n ∈ sockets,
        (log ++ [ServeRecord.destroyed m]).count (ServeRecord.joined n) = 1 := by
      intro n hn
      rw [List.count_append, hjoined n (List.mem_cons_of_mem m hn)]
      rfl
    have := ih hsnoc hrest
    rwa [List.append_assoc, List.singleton_append] at this

/-- Joining one worker does not count for another one. -/
theorem count_joined_ne {n m : ℕ} (h : n ≠ m) :
    (log ++ [ServeRecord.joined m]).count (.joined n) = log.count (.joined n) := by
  rw [List.count_append, List.count_singleton, if_neg (by simpa using Ne.symm h), Nat.add_zero]

/-- Joining a worker counts for it. -/
theorem count_joined_self (n : ℕ) :
    (log ++ [ServeRecord.joined n]).count (.joined n) = log.count (.joined n) + 1 := by
  rw [List.count_append, List.count_singleton_self]

end Log

/-! ## Steps -/

/-- The exceptions that `serve` does not handle: those of `accept`, of `createServerHandler` and of the
write to a client that is turned away. -/
def ServeThrows {σ : Type} : ServeEvent σ → Prop
  | .accept (.fails _) => True
  | .start (.error _) _ => True
  | .reject (.fail _) => True
  | _ => False

/-- No exception leaves `serve` while there are workers. -/
def Calm {σ : Type} (s : ServeState σ) (event : ServeEvent σ) : Prop :=
  ServeThrows event → s.workers = []

/-- `serve` has returned or was left by an exception. -/
def Left : ServePoint → Prop
  | .returned => True
  | .thrown _ => True
  | _ => False

/-- The workers at the beginning of the list that the sweep has joined. -/
def swept : ServePoint → ℕ
  | .finish k => k
  | _ => 0

section Steps

variable {σ : Type} {pf : Platform} {H : ServerHandler σ} {maxClients : ℕ} {s t : ServeState σ}

/-- A worker in the list has been joined if the sweep has come by, and not otherwise; a socket without
a worker has not been joined; and a worker that is not in the list any more was destroyed. -/
structure Joining (s : ServeState σ) : Prop where
  first : JoinedFirst s.log
  unjoined : ∀ n, n ∈ pending s.point ∨ s.accepted ≤ n → s.log.count (.joined n) = 0
  joined : ∀ k w, s.workers[k]? = some w →
    s.log.count (.joined w.socket) = if k < swept s.point then 1 else 0
  destroyed : ∀ n, .started n ∈ s.log → n ∈ s.workers.map ServedWorker.socket ∨ .destroyed n ∈ s.log
  left : Left s.point → s.workers = []

/-- At the beginning nobody has been joined. -/
theorem joining_init : Joining (ServeState.init : ServeState σ) :=
  ⟨joinedFirst_nil, fun _ _ => rfl, (fun _ _ hw => nomatch hw), (fun _ hn => nomatch hn), fun _ => rfl⟩

/-- A step that records nothing about workers, and keeps them. -/
theorem joining_of_same (h : Joining s) {rest : List ServeRecord} (hlog : t.log = s.log ++ rest)
    (hrest : ∀ n, .destroyed n ∉ rest ∧ .joined n ∉ rest ∧ .started n ∉ rest)
    (hworkers : t.workers.map ServedWorker.socket = s.workers.map ServedWorker.socket)
    (hpending : ∀ n, n ∈ pending t.point ∨ t.accepted ≤ n → n ∈ pending s.point ∨ s.accepted ≤ n)
    (hswept : swept t.point = swept s.point) (hleft : ¬ Left t.point) : Joining t := by
  have hcount : ∀ n, t.log.count (.joined n) = s.log.count (.joined n) := by
    intro n
    rw [hlog, List.count_append, List.count_eq_zero_of_not_mem (hrest n).2.1, Nat.add_zero]
  refine ⟨?_, ?_, ?_, ?_, fun hl => absurd hl hleft⟩
  · rw [hlog]
    exact joinedFirst_append h.first fun n => (hrest n).1
  · intro n hn
    rw [hcount]
    exact h.unjoined n (hpending n hn)
  · intro k w hw
    have hk : (s.workers.map ServedWorker.socket)[k]? = some w.socket := by
      rw [← hworkers, List.getElem?_map, hw]
      rfl
    rw [List.getElem?_map, Option.map_eq_some_iff] at hk
    obtain ⟨v, hv, hsocket⟩ := hk
    rw [hcount, hswept, ← hsocket]
    exact h.joined k v hv
  · intro n hn
    rw [hlog] at hn ⊢
    obtain hn | hn := List.mem_append.mp hn
    · rw [hworkers]
      exact (h.destroyed n hn).imp_right (List.mem_append_left rest)
    · exact absurd hn (hrest n).2.2

/-- Going on to another point joins nobody and destroys nobody. -/
theorem joining_goTo (h : Joining s) {point : ServePoint} (hpending : pending point = pending s.point)
    (hswept : swept point = swept s.point) (hleft : ¬ Left point) : Joining (s.goTo point) := by
  have hlog : (s.goTo point).log = s.log ++ [] := (List.append_nil _).symm
  refine joining_of_same h hlog (fun n => by simp) rfl ?_ hswept hleft
  change ∀ n, n ∈ pending point ∨ s.accepted ≤ n → _
  rw [hpending]
  exact fun n hn => hn

/-- Workers whose joins are recorded leave the list. -/
theorem joining_leave (h : Joining s) {point : ServePoint} (hpending : pending point = [])
    (hjoined : ∀ w ∈ s.workers, s.log.count (.joined w.socket) = 1) :
    Joining (s.leave point) := by
  have hsockets : s.workers.map (fun w => ServeRecord.destroyed w.socket) =
      (s.workers.map ServedWorker.socket).map ServeRecord.destroyed := by
    rw [List.map_map]
    rfl
  have hcount : ∀ n, (s.leave point).log.count (.joined n) = s.log.count (.joined n) := by
    intro n
    change (s.log ++ s.workers.map fun w => ServeRecord.destroyed w.socket).count _ = _
    rw [hsockets, List.count_append, List.count_eq_zero (l := List.map _ _).mpr (by simp),
      Nat.add_zero]
  refine ⟨?_, ?_, (fun _ _ hw => nomatch hw), ?_, fun _ => rfl⟩
  · change JoinedFirst (s.log ++ _)
    rw [hsockets]
    refine joinedFirst_destroyed h.first fun n hn => ?_
    obtain ⟨w, hw, rfl⟩ := List.mem_map.mp hn
    exact hjoined w hw
  · intro n hn
    rw [hcount]
    change n ∈ pending point ∨ s.accepted ≤ n at hn
    rw [hpending] at hn
    exact h.unjoined n (hn.elim (fun hin => nomatch hin) Or.inr)
  · intro n hn
    right
    obtain hn | hn := List.mem_append.mp hn
    · obtain hin | hin := h.destroyed n hn
      · obtain ⟨w, hw, rfl⟩ := List.mem_map.mp hin
        exact List.mem_append_right _ (List.mem_map.mpr ⟨w, hw, rfl⟩)
      · exact List.mem_append_left _ hin
    · rw [hsockets] at hn
      simp at hn

/-- A worker that leaves the list leaves the sockets of the others. -/
theorem mem_sockets_eraseIdx {k n : ℕ} {w : ServedWorker σ} (hw : s.workers[k]? = some w)
    (hn : n ∈ s.workers.map ServedWorker.socket) (hne : n ≠ w.socket) :
    n ∈ (s.workers.eraseIdx k).map ServedWorker.socket := by
  obtain ⟨v, hv, rfl⟩ := List.mem_map.mp hn
  obtain ⟨j, hj⟩ := List.mem_iff_getElem?.mp hv
  have hplace : j ≠ k := by
    rintro rfl
    rw [hw, Option.some.injEq] at hj
    exact hne (hj ▸ rfl)
  exact List.mem_map_of_mem (List.mem_eraseIdx_iff_getElem?.mpr ⟨j, hplace, hj⟩)

/-- In `cleanup` a worker is joined right before it is destroyed. -/
theorem joining_removed (hord : Orderable s) (h : Joining s) {socket k : ℕ} {w : ServedWorker σ}
    (hpoint : s.point = .join socket k) (hw : s.workers[k]? = some w) :
    Joining (removed s socket k w) := by
  have hlog : (removed s socket k w).log = s.log ++ [.joined w.socket] ++ [.destroyed w.socket] := rfl
  have hzero : ∀ {j : ℕ} {v : ServedWorker σ}, s.workers[j]? = some v →
      s.log.count (.joined v.socket) = 0 := by
    intro j v hv
    have := h.joined j v hv
    rw [hpoint] at this
    exact this.trans (if_neg (Nat.not_lt_zero j))
  have hcount : ∀ n, (removed s socket k w).log.count (.joined n) =
      (s.log ++ [ServeRecord.joined w.socket]).count (.joined n) := by
    intro n
    rw [hlog, List.count_append, List.count_singleton, if_neg (by simp), Nat.add_zero]
  refine ⟨?_, ?_, ?_, ?_, fun hl => absurd hl id⟩
  · rw [hlog]
    refine joinedFirst_snoc (joinedFirst_append h.first (by simp)) fun n hn => ?_
    rw [← ServeRecord.destroyed.inj hn, count_joined_self, hzero hw]
  · intro n hn
    have hpending : n ∈ pending s.point ∨ s.accepted ≤ n := by
      rw [hpoint]
      exact hn
    have hne : n ≠ w.socket := by
      rintro rfl
      exact hord.not_pending hw hpending
    rw [hcount, count_joined_ne hne]
    exact h.unjoined n hpending
  · intro j v hv
    change (s.workers.eraseIdx k)[j]? = some v at hv
    obtain ⟨j', hj', hv'⟩ := List.mem_eraseIdx_iff_getElem?.mp (List.mem_of_getElem? hv)
    have hne : v.socket ≠ w.socket := fun heq => hj' (hord.place_unique hw hv' heq)
    rw [hcount, count_joined_ne hne, hzero hv']
    rfl
  · intro n hn
    have hstarted : .started n ∈ s.log := by
      rw [hlog] at hn
      simpa using hn
    obtain hin | hin := h.destroyed n hstarted
    · by_cases heq : n = w.socket
      · right
        rw [hlog, heq]
        exact List.mem_append_right _ List.mem_cons_self
      · left
        exact mem_sockets_eraseIdx hw hin heq
    · right
      rw [hlog]
      exact List.mem_append_left _ (List.mem_append_left _ hin)

/-- A new worker has not been joined. -/
theorem joining_started (h : Joining s) {socket : ℕ} (hpoint : s.point = .limit socket)
    (handler : σ) (buf : Bytes) : Joining (startedWorker s socket handler buf) := by
  have hcount : ∀ n, (startedWorker s socket handler buf).log.count (.joined n) =
      s.log.count (.joined n) := by
    intro n
    change (s.log ++ [ServeRecord.started socket]).count _ = _
    rw [List.count_append, List.count_singleton, if_neg (by simp), Nat.add_zero]
  refine ⟨joinedFirst_append h.first (by simp), ?_, ?_, ?_, fun hl => absurd hl id⟩
  · intro n hn
    rw [hcount]
    exact h.unjoined n (hn.elim (fun hin => nomatch hin) Or.inr)
  · intro k v hv
    have hzero : s.log.count (.joined v.socket) = 0 := by
      change (s.workers ++ [_])[k]? = some v at hv
      rw [List.getElem?_append] at hv
      split at hv
      · have := h.joined k v hv
        rw [hpoint] at this
        exact this.trans (if_neg (Nat.not_lt_zero k))
      · rw [List.mem_singleton.mp (List.mem_of_getElem? hv)]
        apply h.unjoined
        rw [hpoint]
        exact Or.inl List.mem_cons_self
    rw [hcount, hzero]
    rfl
  · intro n hn
    change n ∈ (s.workers ++ [_]).map ServedWorker.socket ∨ _
    rw [List.map_append]
    obtain hn | hn := List.mem_append.mp hn
    · exact (h.destroyed n hn).imp (List.mem_append_left _) (List.mem_append_left _)
    · rw [ServeRecord.started.inj (List.mem_singleton.mp hn)]
      exact Or.inl (List.mem_append_right _ List.mem_cons_self)

/-- At the end each worker is joined once, and the list is destroyed when all have been. -/
theorem joining_sweep (hord : Orderable s) (h : Joining s) {k : ℕ} {w : ServedWorker σ}
    (hpoint : s.point = .finish k) (hw : s.workers[k]? = some w) :
    Joining ((s.record (.joined w.socket)).goTo (.finish (k + 1))) := by
  have hlog : ((s.record (.joined w.socket)).goTo (.finish (k + 1))).log =
      s.log ++ [.joined w.socket] := rfl
  refine ⟨joinedFirst_append h.first (by simp), ?_, ?_, ?_, fun hl => absurd hl id⟩
  · intro n hn
    have hle : s.accepted ≤ n := hn.elim (fun hin => nomatch hin) id
    have hne : n ≠ w.socket := by
      rintro rfl
      exact hord.not_pending hw (Or.inr hle)
    rw [hlog, count_joined_ne hne]
    exact h.unjoined n (Or.inr hle)
  · intro j v hv
    have hjoined := h.joined j v hv
    rw [hpoint] at hjoined
    rw [hlog]
    change _ = if j < k + 1 then 1 else 0
    by_cases hjk : j = k
    · subst hjk
      obtain rfl := Option.some.inj (hw.symm.trans hv)
      rw [count_joined_self, hjoined, swept, if_neg (lt_irrefl j), if_pos (Nat.lt_succ_self j)]
    · have hne : v.socket ≠ w.socket := fun heq => hjk (hord.place_unique hw hv heq)
      rw [count_joined_ne hne, hjoined, swept]
      congr 1
      rw [eq_iff_iff]
      omega
  · intro n hn
    rw [hlog] at hn ⊢
    exact (h.destroyed n (by simpa using hn)).imp_right (List.mem_append_left _)

/-- A step that is not left by an exception while there are workers keeps the joins in order. -/
theorem joining_step (hord : Orderable s) (h : Joining s) {event : ServeEvent σ}
    (hstep : ServeStep pf H maxClients s event t) (hcalm : Calm s event) : Joining t := by
  have hnone : ∀ {e : Exc}, s.workers = [] → Joining (s.leave (.thrown e)) := by
    intro e hworkers
    refine joining_leave h rfl fun w hw => ?_
    rw [hworkers] at hw
    cases hw
  cases hstep with
  | quit b hpoint =>
    cases b with
    | true => exact joining_goTo h (by rw [hpoint]; rfl) (by rw [hpoint]; rfl) id
    | false => exact joining_goTo h (by rw [hpoint]; rfl) (by rw [hpoint]; rfl) id
  | noClient hpoint | passed hpoint | seen hpoint | inactive hpoint =>
    exact joining_goTo h (by rw [hpoint]; rfl) (by rw [hpoint]; rfl) id
  | client hpoint =>
    refine joining_of_same h rfl (fun n => by simp) rfl (fun n hn => ?_) (by rw [hpoint]; rfl) id
    obtain hn | hn := hn
    · exact Or.inr (le_of_eq (List.mem_singleton.mp hn).symm)
    · exact Or.inr (Nat.le_of_succ_le hn)
  | acceptFails e => exact hnone (hcalm trivial)
  | join hpoint hw => exact joining_removed hord h hpoint hw
  | start handler buf hpoint => exact joining_started h hpoint handler buf
  | startFails e => exact hnone (hcalm trivial)
  | reject r hr hpoint =>
    refine joining_of_same h rfl (fun n => by simp) rfl (fun n hn => ?_) (by rw [hpoint]; rfl) id
    exact Or.inr (hn.elim (fun hin => nomatch hin) id)
  | rejectFails e => exact hnone (hcalm trivial)
  | swept hpoint hend =>
    refine joining_leave h rfl fun w hw => ?_
    obtain ⟨j, hj⟩ := List.mem_iff_getElem?.mp hw
    have hjoined := h.joined j w hj
    rw [hpoint, swept, if_pos] at hjoined
    · exact hjoined
    · have := List.getElem?_eq_none_iff.mp hend
      have := (List.getElem?_eq_some_iff.mp hj).1
      omega
  | sweep hpoint hw => exact joining_sweep hord h hpoint hw
  | run hw =>
    refine joining_of_same h rfl (fun n => by simp) (map_socket_set hw _) (fun n hn => hn) rfl ?_
    intro hl
    have hnil : s.workers = [] := h.left hl
    rw [hnil] at hw
    cases hw

/-- An exception that leaves `serve` while there are workers destroys the first of them unjoined. -/
theorem not_joinedFirst_leave (h : Joining s) (hswept : swept s.point = 0) (hne : s.workers ≠ [])
    (point : ServePoint) : ¬ JoinedFirst (s.leave point).log := by
  intro hfirst
  obtain ⟨w, rest, hworkers⟩ := List.exists_cons_of_ne_nil hne
  have hzero : s.log.count (.joined w.socket) = 0 := by
    have := h.joined 0 w (by rw [hworkers]; rfl)
    rwa [hswept, if_neg (lt_irrefl 0)] at this
  have hone : s.log.count (.joined w.socket) = 1 := by
    refine hfirst s.log w.socket (rest.map fun w => ServeRecord.destroyed w.socket) ?_
    change s.log ++ s.workers.map (fun w => ServeRecord.destroyed w.socket) = _
    rw [hworkers, List.map_cons]
  omega

/-- An exception that leaves `serve` while workers are in the list destroys them before they are
joined. -/
theorem not_calm_step (h : Joining s) {event : ServeEvent σ}
    (hstep : ServeStep pf H maxClients s event t) (hcalm : ¬ Calm s event) :
    Gone t ∧ ¬ JoinedFirst t.log := by
  have hthrows : ServeThrows event ∧ s.workers ≠ [] := Classical.not_imp.mp hcalm
  cases hstep with
  | acceptFails e hpoint | startFails e buf hpoint | rejectFails e hpoint =>
    exact ⟨gone_leave s e, not_joinedFirst_leave h (by rw [hpoint]; rfl) hthrows.2 _⟩
  | reject r hr =>
    cases r with
    | fail e => exact absurd rfl (hr e)
    | accept k => exact absurd hthrows.1 id
    | again => exact absurd hthrows.1 id
  | _ => exact absurd hthrows.1 id

/-- From a state in order, the joins stay in order if and only if every step is calm. -/
theorem joining_exec (hord : Orderable s) (h : Joining s) {events : List (ServeEvent σ)}
    (hrun : System.exec (ServeState.step pf H maxClients) s events = some t) :
    (JoinedFirst t.log ∧ (Left t.point → ∀ n, .started n ∈ t.log → .destroyed n ∈ t.log)) ↔
      System.Each (ServeState.step pf H maxClients) Calm s events := by
  induction events generalizing s with
  | nil =>
    obtain rfl : s = t := Option.some.inj hrun
    refine iff_of_true ⟨h.first, fun hleft n hn => ?_⟩ trivial
    obtain hin | hin := h.destroyed n hn
    · rw [h.left hleft] at hin
      cases hin
    · exact hin
  | cons event events ih =>
    rw [System.exec] at hrun
    obtain ⟨u, hu, hrest⟩ := Option.bind_eq_some_iff.mp hrun
    have hstep := step_cases hu
    by_cases hcalm : Calm s event
    · rw [ih (orderable_step hord hstep) (joining_step hord h hstep hcalm) hrest]
      constructor
      · intro heach
        refine ⟨hcalm, fun u' hu' => ?_⟩
        rw [hu, Option.some.injEq] at hu'
        exact hu' ▸ heach
      · intro heach
        exact heach.2 u hu
    · obtain ⟨hgone, hbroken⟩ := not_calm_step h hstep hcalm
      rw [gone_exec hgone hrest]
      exact iff_of_false (fun hgood => hbroken hgood.1) fun heach => hcalm heach.1

end Steps

/-- Every worker that was started is joined exactly once before it is destroyed, and destroyed when
`serve` is left, if and only if no exception leaves `serve` while there are workers. -/
theorem workers_joined_iff {σ : Type} (pf : Platform) (H : ServerHandler σ) (maxClients : ℕ)
    (events : List (ServeEvent σ)) {s : ServeState σ}
    (hrun : System.exec (ServeState.step pf H maxClients) ServeState.init events = some s) :
    (JoinedFirst s.log ∧ (Left s.point → ∀ n, .started n ∈ s.log → .destroyed n ∈ s.log)) ↔
      System.Each (ServeState.step pf H maxClients) Calm ServeState.init events :=
  joining_exec orderable_init joining_init hrun

/-- A server whose only client connects and goes away. -/
theorem workers_joined_iff_oneClient : ∃ s : ServeState TcpServerHandler,
    System.exec (ServeState.step .plain (TcpServerHandler.serverHandler .plain quietFactories) 1)
      ServeState.init [.quit false, .accept .client, .isActive,
        .start (.ok newClient.handler) newClient.buf, .run 0 [.eof], .quit true, .finish,
        .finish] = some s ∧ s.point = .returned ∧
    ((JoinedFirst s.log ∧ (Left s.point → ∀ n, .started n ∈ s.log → .destroyed n ∈ s.log)) ↔
      System.Each
        (ServeState.step .plain (TcpServerHandler.serverHandler .plain quietFactories) 1) Calm
        ServeState.init
        [.quit false, .accept .client, .isActive,
          .start (.ok newClient.handler) newClient.buf, .run 0 [.eof], .quit true, .finish,
          .finish]) :=
  ⟨_, rfl, rfl, workers_joined_iff _ _ _ _ rfl⟩

/-- A server for one client, to which a second one connects that goes away before it is told to: the
worker of the first one is destroyed while its thread can still be joined. -/
theorem hungUp_not_joined : ∃ s : ServeState TcpServerHandler,
    System.exec (ServeState.step .plain (TcpServerHandler.serverHandler .plain quietFactories) 1)
      ServeState.init [.quit false, .accept .client, .isActive,
        .start (.ok newClient.handler) newClient.buf, .quit false, .accept .client, .isActive,
        .isActive, .reject (.fail (.runtime_error "Broken pipe"))] = some s ∧
    .started 0 ∈ s.log ∧ ¬ JoinedFirst s.log := by
  refine ⟨_, rfl, by decide +kernel, fun hfirst => ?_⟩
  have hjoined := hfirst [.accepted 0, .started 0, .accepted 1] 0 [] rfl
  exact absurd hjoined (by decide)

end CppSocks.Analysis
