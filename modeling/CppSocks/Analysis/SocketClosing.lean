import CppSocks.Analysis.Pairing
import CppSocks.Analysis.ServeSteps
import CppSocks.Foundation.Ledger
import CppSocks.Model.TcpServer

/-!
# The descriptors of accepted sockets

A socket is held by `serve` until it has decided what to do with the client, and
then by the client's worker; it is closed if `ClientWorker::run` gets to the end of
its `try` block. The steps of the server are entries of a ledger of sockets
(`step_entered`): a client that is turned away and a worker that ends by an
exception lose theirs (`sockets_closed_iff`).
-/

set_option autoImplicit false

namespace CppSocks.Analysis

open CppSocks.Model Foundation

/-! ## One worker -/

section Worker

variable {σ : Type} {pf : Platform} {H : ServerHandler σ}

/-- Neither the handler nor the socket throws while the worker runs. -/
def EndsNormally (pf : Platform) (H : ServerHandler σ) (events : List LoopEvent)
    (w : ClientWorker σ) : Prop :=
  ∃ h, H.onConnect w.handler = (.ret (), h) ∧
    Along pf H (Undisturbed pf H) events (connectedWorker w h) ∧
      (H.onDisconnect (ClientWorker.loop pf H events (connectedWorker w h)).2.handler).1 = .ret ()

variable (pf H) in
/-- A run ends normally exactly when its try block returns. -/
theorem endsNormally_iff (events : List LoopEvent) {w : ClientWorker σ} (hcalls : w.calls = []) :
    EndsNormally pf H events w ↔ (tryBlock pf H events w).1.isRet = true := by
  rcases ho : H.onConnect w.handler with ⟨r, h⟩
  have hstop : r.isRet = false →
      (EndsNormally pf H events w ↔ (tryBlock pf H events w).1.isRet = true) := by
    intro hr
    have hon : (H.onConnect w.handler).1.isRet = false := by rw [ho, hr]
    rw [(tryBlock_of_not_connected pf hon events).1]
    refine iff_of_false ?_ Bool.false_ne_true
    rintro ⟨h', hret, _⟩
    rw [hret] at hon
    cases hon
  cases r with
  | ret u =>
    rw [tryBlock_of_connected hcalls ho, loopAndClose_returns_iff, loop_returns_iff]
    constructor
    · rintro ⟨h', hret, hend⟩
      rw [ho, Prod.mk.injEq] at hret
      rw [hret.2]
      exact hend
    · intro hend
      exact ⟨h, ho, hend⟩
  | exn e => exact hstop rfl
  | ub => exact hstop rfl

/-- Receiving chunks closes no socket. -/
theorem count_closeSocket_receives (chunks : List Bytes) :
    (chunks.map WorkerCall.receive).count .closeSocket = 0 := by
  rw [List.count_eq_zero]
  simp

/-- The socket is closed if and only if the loop and `onDisconnect` return. -/
theorem loopAndClose_closes (events : List LoopEvent) (w : ClientWorker σ) :
    (ClientWorker.loopAndClose pf H events w).2.calls.count .closeSocket =
      w.calls.count .closeSocket + (ClientWorker.loopAndClose pf H events w).1.isRet.toNat := by
  obtain ⟨chunks, hcalls⟩ := loop_calls pf H events w
  have hloop : (ClientWorker.loop pf H events w).2.calls.count .closeSocket =
      w.calls.count .closeSocket := by
    rw [hcalls, List.count_append, count_closeSocket_receives, Nat.add_zero]
  rcases hr : ClientWorker.loop pf H events w with ⟨r, w'⟩
  rw [hr] at hloop
  cases r with
  | exn e =>
    rw [ClientWorker.loopAndClose, Act.bind_of_exn hr]
    exact hloop
  | ub =>
    rw [ClientWorker.loopAndClose, Act.bind_of_ub hr]
    exact hloop
  | ret u =>
    have hdisconnect : (w'.calls ++ [WorkerCall.disconnect]).count
        WorkerCall.closeSocket = w.calls.count .closeSocket := by
      rw [List.count_append, hloop]
      rfl
    rw [ClientWorker.loopAndClose, Act.bind_of_ret hr, Act.bind_of_ret (Act.modify_apply _ _),
      Act.bind_apply, ClientWorker.handle, Act.zoom]
    rcases hd : H.onDisconnect (ClientWorker.record .disconnect w').handler with ⟨r, h'⟩
    cases r with
    | ret v =>
      change (w'.calls ++ [WorkerCall.disconnect] ++ [WorkerCall.closeSocket]).count
        WorkerCall.closeSocket = _
      rw [List.count_append, hdisconnect]
      rfl
    | exn e => exact hdisconnect
    | ub => exact hdisconnect

variable (pf H) in
/-- A worker closes its socket once if it ends normally, and not at all otherwise. -/
theorem run_closes (events : List LoopEvent) {w : ClientWorker σ} (hw : w.calls = []) :
    (ClientWorker.run pf H events w).2.calls.count .closeSocket =
      (tryBlock pf H events w).1.isRet.toNat := by
  obtain ⟨tail, htail, hcalls⟩ := finishRun_calls (tryBlock pf H events) w
  have hnone : tail.count .closeSocket = 0 := by
    obtain rfl | rfl := htail <;> rfl
  rw [run_eq, hcalls, List.count_append, hnone, Nat.add_zero]
  cases hret : (H.onConnect w.handler).1.isRet with
  | true =>
    obtain ⟨u, hu⟩ := (Res.isRet_iff _).mp hret
    have ho : H.onConnect w.handler = (.ret (), (H.onConnect w.handler).2) := Prod.ext hu rfl
    rw [tryBlock_of_connected hw ho, loopAndClose_closes]
    simp [connectedWorker]
  | false =>
    obtain ⟨hstop, hsame⟩ := tryBlock_of_not_connected pf hret events
    rw [hstop, hsame, hw]
    rfl

end Worker

/-! ## The ledger of sockets -/

section Ledger

variable {σ : Type} (pf : Platform) (H : ServerHandler σ) (s : ServeState σ)

/-- The sockets held by `serve` and by the threads of the workers. -/
def heldSockets : Finset ℕ := (pending s.point ++ runningSockets s.workers).toFinset

/-- The account that the server keeps of its sockets. -/
def account : Ledger ℕ where
  acquired := Finset.range s.accepted
  held := heldSockets s
  released := fun n => s.log.count (.closed n)

/-- The entries in the ledger that a step makes. -/
def entries : ServeEvent σ → List (Ledger.Entry ℕ)
  | .accept .client => [.acquire s.accepted]
  | .reject _ => (pending s.point).map .lose
  | .run k events =>
    match s.workers[k]? with
    | some w =>
      if (tryBlock pf H events w.worker).1.isRet then [.release w.socket] else [.lose w.socket]
    | none => []
  | _ => []

/-- No client is turned away, and no worker ends by an exception. -/
def Orderly : ServeEvent σ → Prop
  | .reject _ => False
  | .run k events => ∀ w, s.workers[k]? = some w → EndsNormally pf H events w.worker
  | _ => True

end Ledger

section Steps

variable {σ : Type} {pf : Platform} {H : ServerHandler σ} {maxClients : ℕ} {s t : ServeState σ}

/-- A socket is held by the main thread, which has just accepted it, or by its worker. -/
theorem mem_heldSockets {n : ℕ} :
    n ∈ heldSockets s ↔ n ∈ pending s.point ∨ n ∈ runningSockets s.workers := by
  simp [heldSockets]

/-- The account of a state is determined by the sockets acquired, held and released. -/
theorem account_eq {l : Ledger ℕ} (hacquired : Finset.range s.accepted = l.acquired)
    (hheld : ∀ n, n ∈ heldSockets s ↔ n ∈ l.held)
    (hreleased : ∀ n, s.log.count (.closed n) = l.released n) : account s = l := by
  obtain ⟨acquired, held, released⟩ := l
  rw [account, Ledger.mk.injEq]
  exact ⟨hacquired, Finset.ext hheld, funext hreleased⟩

/-- What a step does to the ledger. -/
def Entered (s : ServeState σ) (es : List (Ledger.Entry ℕ)) (t : ServeState σ) : Prop :=
  (Ledger.system ℕ).Run (account s) es (account t)

/-- A step that leaves the sockets where they are. -/
theorem entered_of_same (haccepted : t.accepted = s.accepted)
    (hheld : ∀ n, n ∈ heldSockets t ↔ n ∈ heldSockets s)
    (hclosed : ∀ n, t.log.count (.closed n) = s.log.count (.closed n)) : Entered s [] t := by
  have haccount : account t = account s :=
    account_eq (congrArg Finset.range haccepted) hheld hclosed
  rw [Entered, haccount]
  exact .nil _

/-- Moving to a point with the same pending socket hands nothing over. -/
theorem entered_goTo {point : ServePoint} (hpending : pending point = pending s.point) :
    Entered s [] (s.goTo point) := by
  refine entered_of_same rfl (fun n => ?_) fun _ => rfl
  rw [mem_heldSockets, mem_heldSockets, ← hpending]
  rfl

/-- An accepted socket is acquired. -/
theorem entered_accepted (hpoint : s.point = .accept) :
    Entered s [.acquire s.accepted] (acceptedClient s) := by
  have haccount : account (acceptedClient s) = ⟨insert s.accepted (account s).acquired,
      insert s.accepted (account s).held, (account s).released⟩ := by
    refine account_eq Finset.range_add_one (fun n => ?_) fun n => ?_
    · change n ∈ heldSockets (acceptedClient s) ↔ n ∈ insert s.accepted (heldSockets s)
      rw [Finset.mem_insert, mem_heldSockets, mem_heldSockets, hpoint]
      change n ∈ [s.accepted] ∨ n ∈ runningSockets s.workers ↔ n = s.accepted ∨ n ∈ [] ∨ _
      simp
    · change (s.log ++ [_]).count _ = s.log.count _
      simp
  rw [Entered, haccount]
  refine .single (.acquire fun hin => ?_)
  exact absurd (Finset.mem_range.mp hin) (lt_irrefl _)

/-- A worker that is removed from the list has run, so it holds nothing. -/
theorem entered_removed {socket k : ℕ} {w : ServedWorker σ} (hpoint : s.point = .join socket k)
    (hw : s.workers[k]? = some w) (hidle : w.running = false) :
    Entered s [] (removed s socket k w) := by
  have hheld : runningSockets s.workers = runningSockets (s.workers.eraseIdx k) :=
    (runningSockets_eraseIdx hw hidle).symm
  refine entered_of_same rfl (fun n => ?_) fun n => ?_
  · rw [mem_heldSockets, mem_heldSockets, hpoint, hheld]
    rfl
  · change (s.log ++ [_] ++ [_]).count _ = s.log.count _
    simp

/-- The socket of a client that is admitted passes to its worker. -/
theorem entered_started {socket : ℕ} (hpoint : s.point = .limit socket) (handler : σ) (buf : Bytes) :
    Entered s [] (startedWorker s socket handler buf) := by
  refine entered_of_same rfl (fun n => ?_) fun n => ?_
  · rw [mem_heldSockets, mem_heldSockets, hpoint]
    change n ∈ [] ∨ n ∈ runningSockets (s.workers ++ [_]) ↔ n ∈ [socket] ∨ _
    simp [runningSockets_cons, runningSockets_eq_nil, or_comm]
  · change (s.log ++ [_]).count _ = s.log.count _
    simp

/-- The socket of a client that is turned away is lost. -/
theorem entered_rejected (h : Orderable s) {socket : ℕ} (hpoint : s.point = .limit socket) :
    Entered s [.lose socket] ((s.record (.rejected socket)).goTo .head) := by
  have hnodup := h.nodup
  rw [hpoint] at hnodup
  have hnot : socket ∉ runningSockets s.workers := fun hin =>
    (List.nodup_cons.mp hnodup).1 ((runningSockets_sublist _).subset hin)
  have haccount : account ((s.record (.rejected socket)).goTo .head) =
      ⟨(account s).acquired, (account s).held.erase socket, (account s).released⟩ := by
    refine account_eq rfl (fun n => ?_) fun n => ?_
    · change _ ↔ n ∈ (heldSockets s).erase socket
      rw [Finset.mem_erase, mem_heldSockets, mem_heldSockets, hpoint]
      change n ∈ [] ∨ n ∈ runningSockets s.workers ↔ _ ∧ (n ∈ [socket] ∨ _)
      constructor
      · rintro (hn | hn)
        · cases hn
        · exact ⟨fun heq => hnot (heq ▸ hn), Or.inr hn⟩
      · rintro ⟨hne, hn | hn⟩
        · exact absurd (List.mem_singleton.mp hn) hne
        · exact Or.inr hn
    · change (s.log ++ [_]).count _ = s.log.count _
      simp
  rw [Entered, haccount]
  refine .single (.lose ?_)
  change socket ∈ heldSockets s
  rw [mem_heldSockets, hpoint]
  exact Or.inl List.mem_cons_self

/-- When all workers have been joined, nobody holds a socket. -/
theorem entered_swept (h : Orderable s) {k : ℕ} (hpoint : s.point = .finish k)
    (hnone : s.workers[k]? = none) : Entered s [] (s.leave .returned) := by
  have hall : s.workers.take k = s.workers :=
    List.take_of_length_le (List.getElem?_eq_none_iff.mp hnone)
  have hidle : runningSockets s.workers = [] :=
    runningSockets_eq_nil (hall ▸ h.finished k hpoint)
  refine entered_of_same rfl (fun n => ?_) fun n => ?_
  · rw [mem_heldSockets, mem_heldSockets, hpoint, hidle]
    rfl
  · have hclosed : (s.workers.map fun w => ServeRecord.destroyed w.socket).count (.closed n) = 0 :=
      List.count_eq_zero.mpr (by simp)
    change (s.log ++ _).count _ = s.log.count _
    rw [List.count_append, hclosed, Nat.add_zero]

/-- Joining a finished worker hands nothing over. -/
theorem entered_sweep {k : ℕ} (w : ServedWorker σ) (hpoint : s.point = .finish k) :
    Entered s [] ((s.record (.joined w.socket)).goTo (.finish (k + 1))) := by
  refine entered_of_same rfl (fun n => ?_) fun n => ?_
  · rw [mem_heldSockets, mem_heldSockets, hpoint]
    rfl
  · change (s.log ++ [_]).count _ = s.log.count _
    simp

/-- A worker that has run holds its socket no longer. -/
theorem account_ranWorker (h : Orderable s) {k : ℕ} {w : ServedWorker σ}
    (hw : s.workers[k]? = some w) (hrunning : w.running = true) (worker : ClientWorker σ) (c : ℕ) :
    w.socket ∈ (account s).held ∧
      account (ranWorker s k w worker c) = ⟨(account s).acquired, (account s).held.erase w.socket,
        fun n => (account s).released n + if n = w.socket then c else 0⟩ := by
  obtain ⟨before, behind, hbefore, hafter, hnot⟩ := runningSockets_ran h hw hrunning worker
  constructor
  · change w.socket ∈ heldSockets s
    rw [mem_heldSockets, hbefore]
    simp
  · refine account_eq rfl (fun n => ?_) fun n => ?_
    · change _ ↔ n ∈ (heldSockets s).erase w.socket
      rw [Finset.mem_erase, mem_heldSockets, mem_heldSockets, hbefore]
      change n ∈ pending s.point ∨ n ∈ runningSockets (s.workers.set k _) ↔ _
      rw [hafter]
      constructor
      · intro hn
        refine ⟨fun heq => hnot (heq ▸ List.mem_append.mpr hn), ?_⟩
        exact hn.imp_right fun hn => (List.perm_middle.mem_iff).mpr (List.mem_cons_of_mem _ hn)
      · rintro ⟨hne, hn⟩
        exact hn.imp_right fun hn => List.mem_of_ne_of_mem hne (List.perm_middle.mem_iff.mp hn)
    · change (s.log ++ List.replicate c _).count _ = s.log.count _ + _
      rw [List.count_append, List.count_replicate]
      simp only [beq_iff_eq, ServeRecord.closed.injEq, @eq_comm _ w.socket n]

/-- The socket of a worker is released or lost when the worker runs. -/
theorem entered_ran (h : Orderable s) {k : ℕ} {w : ServedWorker σ} {events : List LoopEvent}
    {worker : ClientWorker σ} (hw : s.workers[k]? = some w) (hrunning : w.running = true)
    (hrun : ClientWorker.run pf H events w.worker = (.ret (), worker)) :
    Entered s (entries pf H s (.run k events))
      (ranWorker s k w worker (worker.calls.count .closeSocket)) := by
  have hcloses := run_closes pf H events (h.fresh w (List.mem_of_getElem? hw) hrunning)
  rw [hrun] at hcloses
  obtain ⟨hheld, haccount⟩ :=
    account_ranWorker h hw hrunning worker (worker.calls.count .closeSocket)
  rw [Entered, haccount, entries, hw]
  dsimp only at hcloses ⊢
  rw [hcloses]
  cases (tryBlock pf H events w.worker).1.isRet with
  | true => exact .single (.release hheld)
  | false =>
    simp only [Bool.toNat_false, ite_self, Nat.add_zero]
    exact .single (.lose hheld)

/-- Every step makes its entries in the ledger, unless it leaves `serve` by an exception. -/
theorem step_entered (h : Orderable s) {event : ServeEvent σ}
    (hstep : ServeStep pf H maxClients s event t) : Gone t ∨ Entered s (entries pf H s event) t := by
  cases hstep with
  | quit b hpoint =>
    right
    cases b with
    | true => exact entered_goTo (by rw [hpoint]; rfl)
    | false => exact entered_goTo (by rw [hpoint]; rfl)
  | noClient hpoint => exact Or.inr (entered_goTo (by rw [hpoint]; rfl))
  | client hpoint => exact Or.inr (entered_accepted hpoint)
  | acceptFails e => exact Or.inl (gone_leave s e)
  | passed hpoint | seen hpoint | inactive hpoint =>
    exact Or.inr (entered_goTo (by rw [hpoint]; rfl))
  | join hpoint hw hidle => exact Or.inr (entered_removed hpoint hw hidle)
  | start handler buf hpoint => exact Or.inr (entered_started hpoint handler buf)
  | startFails e => exact Or.inl (gone_leave s e)
  | @reject socket r hr hpoint =>
    have hentries : entries pf H s (.reject r) = [.lose socket] := by
      rw [entries, hpoint]
      rfl
    rw [hentries]
    exact Or.inr (entered_rejected h hpoint)
  | rejectFails e => exact Or.inl (gone_leave s e)
  | swept hpoint hnone => exact Or.inr (entered_swept h hpoint hnone)
  | sweep hpoint => exact Or.inr (entered_sweep _ hpoint)
  | run hw hrunning hrun => exact Or.inr (entered_ran h hw hrunning hrun)

/-- A step loses a socket if and only if it is not orderly. -/
theorem orderly_iff (h : Orderable s) {event : ServeEvent σ}
    (hstep : ServeStep pf H maxClients s event t) :
    Orderly pf H s event ↔ ∀ n, .lose n ∉ entries pf H s event := by
  have hreject : ∀ {socket : ℕ} (r : WriteResult), s.point = .limit socket →
      (Orderly pf H s (.reject r) ↔ ∀ n, .lose n ∉ entries pf H s (.reject r)) := by
    intro socket r hpoint
    refine iff_of_false id fun hnone => hnone socket ?_
    rw [entries, hpoint]
    exact List.mem_cons_self
  cases hstep with
  | reject r hr hpoint => exact hreject r hpoint
  | rejectFails e hpoint => exact hreject (.fail e) hpoint
  | @run k w events worker hw hrunning hrun =>
    have hends := endsNormally_iff pf H events (h.fresh w (List.mem_of_getElem? hw) hrunning)
    simp only [Orderly, entries, hw, Option.some.injEq, forall_eq', hends]
    cases (tryBlock pf H events w.worker).1.isRet with
    | true => simp
    | false => simp
  | _ => simp [Orderly, entries]

/-! ## Whole runs -/

/-- Before the first accept the account is empty. -/
theorem account_init : account (ServeState.init : ServeState σ) = Ledger.empty :=
  account_eq rfl (fun _ => Iff.rfl) fun _ => rfl

/-- A run of `serve` that returns is a run of the ledger, in which a socket is lost if and only if a
step was not orderly. -/
theorem exec_entered (h : Orderable s) {events : List (ServeEvent σ)}
    (hrun : System.exec (ServeState.step pf H maxClients) s events = some t)
    (hreturned : t.point = .returned) :
    Orderable t ∧ ∃ es, Entered s es t ∧
      (System.Each (ServeState.step pf H maxClients) (Orderly pf H) s events ↔ ∀ n, .lose n ∉ es) := by
  induction events generalizing s with
  | nil =>
    rw [System.exec, Option.some.injEq] at hrun
    subst hrun
    exact ⟨h, [], .nil _, iff_of_true trivial fun _ => List.not_mem_nil⟩
  | cons event events ih =>
    rw [System.exec] at hrun
    obtain ⟨u, hu, hrest⟩ := Option.bind_eq_some_iff.mp hrun
    have hgone : ¬ Gone u := by
      intro hgone
      obtain ⟨e, hthrown⟩ := hgone.1
      rw [gone_exec hgone hrest, hthrown] at hreturned
      cases hreturned
    have horder := orderable_step h (step_cases hu)
    have hentries := (step_entered h (step_cases hu)).resolve_left hgone
    obtain ⟨ht, es, hes, hiff⟩ := ih horder hrest
    refine ⟨ht, entries pf H s event ++ es, hentries.append hes, ?_⟩
    have hrest' : (∀ v, s.step pf H maxClients event = some v →
        System.Each (ServeState.step pf H maxClients) (Orderly pf H) v events) ↔
        ∀ n, .lose n ∉ es := by
      simp only [hu, Option.some.injEq, forall_eq', hiff]
    rw [System.Each, hrest', orderly_iff h (step_cases hu)]
    simp only [List.mem_append, not_or, forall_and]

end Steps

/-- `serve` has closed every socket it accepted exactly once when it returns if and only if it has
turned no client away and no worker was ended by an exception. -/
theorem sockets_closed_iff {σ : Type} (pf : Platform) (H : ServerHandler σ) (maxClients : ℕ)
    (events : List (ServeEvent σ)) {s : ServeState σ}
    (hrun : System.exec (ServeState.step pf H maxClients) ServeState.init events = some s)
    (hreturned : s.point = .returned) :
    (∀ n < s.accepted, s.log.count (.closed n) = 1) ↔
      System.Each (ServeState.step pf H maxClients) (Orderly pf H) ServeState.init events := by
  obtain ⟨horder, es, hes, hiff⟩ := exec_entered orderable_init hrun hreturned
  have hheld : (account s).held = ∅ := by
    change heldSockets s = ∅
    rw [heldSockets, hreturned, horder.returned hreturned]
    rfl
  rw [Entered, account_init] at hes
  rw [hiff, ← Ledger.balanced_iff hes hheld]
  refine forall_congr' fun n => ?_
  rw [← Finset.mem_range]
  rfl

/-- A server whose only client connects and goes away. -/
theorem sockets_closed_iff_oneClient : ∃ s : ServeState TcpServerHandler,
    System.exec (ServeState.step .plain (TcpServerHandler.serverHandler .plain quietFactories) 1)
      ServeState.init [.quit false, .accept .client, .isActive,
        .start (.ok newClient.handler) newClient.buf, .run 0 [.eof], .quit true, .finish,
        .finish] = some s ∧ s.point = .returned ∧
    ((∀ n < s.accepted, s.log.count (.closed n) = 1) ↔
      System.Each
        (ServeState.step .plain (TcpServerHandler.serverHandler .plain quietFactories) 1)
        (Orderly .plain (TcpServerHandler.serverHandler .plain quietFactories)) ServeState.init
        [.quit false, .accept .client, .isActive,
          .start (.ok newClient.handler) newClient.buf, .run 0 [.eof], .quit true, .finish,
          .finish]) :=
  ⟨_, rfl, rfl, sockets_closed_iff _ _ _ _ rfl rfl⟩

/-- A server for one client to which a second one connects: the socket of the second one is never
closed. -/
theorem turnedAway_not_closed : ∃ s : ServeState TcpServerHandler,
    System.exec (ServeState.step .plain (TcpServerHandler.serverHandler .plain quietFactories) 1)
      ServeState.init [.quit false, .accept .client, .isActive,
        .start (.ok newClient.handler) newClient.buf, .quit false, .accept .client, .isActive,
        .isActive, .reject (.accept 29), .run 0 [.eof], .quit true, .finish, .finish] = some s ∧
    s.point = .returned ∧ s.accepted = 2 ∧ s.log.count (.closed 0) = 1 ∧
      s.log.count (.closed 1) = 0 :=
  ⟨_, rfl, rfl, rfl, by decide +kernel, by decide +kernel⟩

end CppSocks.Analysis
