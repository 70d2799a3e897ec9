import CppSocks.Foundation.Transition
import CppSocks.Model.PushServer

/-!
# The steps of a push server

What one step of `PushState.step` can be, guards included (`step_cases`): the main
thread goes on and leaves the rest alone (`MainMove`), a worker goes on by itself
(`PushMove`), or one of the steps that change what the threads share. The invariants
of the push servers are case analyses of these and never unfold the step function.
-/

set_option autoImplicit false

namespace CppSocks.Analysis.Push

open CppSocks.Model Foundation

/-! ## Workers -/

/-- The ways of a worker between two points; `added` as in `PushClient`. -/
inductive PushMove (added : Bool) : PushPoint → PushPoint → Prop where
  | enter : PushMove added .head .body
  | leave : PushMove added .head .leaving
  | again : PushMove added .body .head
  | eof : PushMove added .body .leaving
  | fail : PushMove added .body .ending
  | upgrade (hnew : added = false) : PushMove added .body .adding
  | remove (hadded : added = true) : PushMove added .leaving .removing
  | skip (hnew : added = false) : PushMove added .leaving .closing
  | close : PushMove added .closing .ending
  | done : PushMove added .ending .done

/-- What a step of a worker by itself can do. -/
structure LocalStep (quit : Bool) (c c' : PushClient) : Prop where
  move : PushMove c.added c.point c'.point
  added : c'.added = c.added
  socketClosed : c'.socketClosed = c.socketClosed ∨ c.point = .closing
  quit : quit = true → c'.point ≠ .body

section

variable {pf : Platform} {kind : PushKind} {c c' : PushClient} {quit : Bool}

/-- A pass through the body of the loop is one of the local steps: it goes back to the head, on to
`onDisconnect`, to the end of `run`, or to the mutex of `addElem`. -/
theorem pass_cases {r : PassResult} (hbody : c.point = .body) (h : c.pass pf kind r = some c') :
    LocalStep quit c c' := by
  have hstep : PushMove c.added .body c'.point → c'.added = c.added →
      c'.socketClosed = c.socketClosed → c'.point ≠ .body → LocalStep quit c c' :=
    fun hmove hadded hsock hne => ⟨hbody ▸ hmove, hadded, Or.inl hsock, fun _ => hne⟩
  unfold PushClient.pass at h
  cases r with
  | idle =>
    rw [← Option.some.inj h] at hstep ⊢
    exact hstep .again rfl rfl nofun
  | eof =>
    rw [← Option.some.inj h] at hstep ⊢
    exact hstep .eof rfl rfl nofun
  | fails =>
    rw [← Option.some.inj h] at hstep ⊢
    exact hstep .fail rfl rfl nofun
  | handled p =>
    dsimp only at h
    split at h
    · rw [← Option.some.inj h] at hstep ⊢
      exact hstep .again rfl rfl nofun
    · rw [← Option.some.inj h] at hstep ⊢
      exact hstep .fail rfl rfl nofun
    · cases h
  | upgraded p =>
    dsimp only at h
    split at h
    · cases h
    · rename_i hnew
      rw [Bool.or_eq_true, not_or, Bool.not_eq_true, Bool.not_eq_true] at hnew
      split at h
      · rw [← Option.some.inj h] at hstep ⊢
        exact hstep (.upgrade hnew.2) rfl rfl nofun
      · rw [← Option.some.inj h] at hstep ⊢
        exact hstep .again rfl rfl nofun
      · cases h

/-- Every step that a worker makes by itself is one of the local steps. -/
theorem client_cases {e : WorkerEvent} (h : c.step pf kind quit e = some c') : LocalStep quit c c' := by
  unfold PushClient.step at h
  cases e with
  | test =>
    obtain ⟨hpoint, hc⟩ := Option.ite_none_right_eq_some.mp h
    obtain rfl := Option.some.inj hc
    refine ⟨?_, rfl, Or.inl rfl, ?_⟩
    · rw [hpoint]
      dsimp only
      split
      · exact .leave
      · exact .enter
    · rintro rfl
      simp
  | pass r =>
    obtain ⟨hpoint, hpass⟩ := Option.ite_none_right_eq_some.mp h
    exact pass_cases hpoint hpass
  | disconnect =>
    obtain ⟨hpoint, hc⟩ := Option.ite_none_right_eq_some.mp h
    obtain rfl := Option.some.inj hc
    refine ⟨?_, rfl, Or.inl rfl, ?_⟩
    · rw [hpoint]
      dsimp only
      split
      · rename_i hadded
        exact .remove hadded
      · rename_i hnew
        exact .skip (Bool.not_eq_true _ ▸ hnew)
    · intro _
      dsimp only
      split
      · exact nofun
      · exact nofun
  | close =>
    obtain ⟨hpoint, hc⟩ := Option.ite_none_right_eq_some.mp h
    obtain rfl := Option.some.inj hc
    exact ⟨hpoint ▸ .close, rfl, Or.inr hpoint, fun _ => nofun⟩
  | finish =>
    obtain ⟨hpoint, hc⟩ := Option.ite_none_right_eq_some.mp h
    obtain rfl := Option.some.inj hc
    exact ⟨hpoint ▸ .done, rfl, Or.inl rfl, fun _ => nofun⟩

end

/-! ## The program -/

section

variable {I : Type} [LinearOrder I]

/-- The ways of the main thread that leave everything else alone. -/
inductive MainMove (s : PushState I) : MainPoint → Prop where
  | quit (hpoint : s.main = .head) (hquit : s.signalStatus = true) : MainMove s (.finish 0)
  | goOn (hpoint : s.main = .head) (hquit : s.signalStatus = false) : MainMove s .accept
  | noClient (hpoint : s.main = .accept) : MainMove s .head
  | client (hpoint : s.main = .accept) : MainMove s (.cleanup 0)
  | leave (hpoint : s.main = .accept ∨ s.main = .limit) (hnone : s.workers = []) :
    MainMove s .joinPusher
  | terminate (hpoint : s.main = .accept ∨ s.main = .limit) : MainMove s .terminated
  | passed {k : ℕ} (hpoint : s.main = .cleanup k) (hnone : s.workers[k]? = none) : MainMove s .limit
  | seen {k : ℕ} {i : I} (hpoint : s.main = .cleanup k) (hi : s.workers[k]? = some i) :
    MainMove s (.cleanup (k + 1))
  | inactive {k : ℕ} {i : I} (hpoint : s.main = .cleanup k) (hi : s.workers[k]? = some i)
    (hover : s.isOver i = true) : MainMove s (.join k)
  | reject (hpoint : s.main = .limit) : MainMove s .head
  | sweep {k : ℕ} {i : I} (hpoint : s.main = .finish k) (hi : s.workers[k]? = some i)
    (hover : s.isOver i = true) : MainMove s (.finish (k + 1))
  | exit (hpoint : s.main = .joinPusher) (hended : s.pusher = .ended) : MainMove s .exited

/-- The program behind the join of a worker in `cleanup`. -/
def joined (s : PushState I) (k : ℕ) (i : I) : PushState I :=
  ({ s with workers := s.workers.eraseIdx k }.put i none).goTo (.cleanup k)

/-- The program with a new worker. -/
def started (s : PushState I) (i : I) (c : PushClient) : PushState I :=
  ({ s with workers := s.workers ++ [i] }.put i (some c)).goTo .head

/-- A worker goes to a point at which it holds the mutex. -/
def locked (s : PushState I) (i : I) (c : PushClient) (point : PushPoint) : PushState I :=
  { s.put i (some { c with point := point }) with mtx := some (.worker i) }

/-- The program when a call of `send` by the pusher has returned. -/
def sentTo (s : PushState I) (i : I) (c : PushClient) (conn : Conn) : PushState I :=
  { s.put i (some { c with conn := conn }) with
    pusher := .visit (s.next i)
    inbox := Function.update s.inbox i (s.inbox i ++ [s.cnt]) }

/-- The steps of a push server. -/
inductive PushStep (pf : Platform) (kind : PushKind) (maxClients : ℕ) (s : PushState I) :
    PushEvent I → PushState I → Prop where
  | signal (hquit : s.signalStatus = false) :
    PushStep pf kind maxClients s .signal { s with signalStatus := true }
  | main {e : PushEvent I} {main : MainPoint} (hmove : MainMove s main) :
    PushStep pf kind maxClients s e (s.goTo main)
  | join {k : ℕ} {i : I} (hpoint : s.main = .join k) (hi : s.workers[k]? = some i)
    (hover : s.isOver i = true) : PushStep pf kind maxClients s .join (joined s k i)
  | start {i : I} {point : PushPoint} {script : List WriteResult} (hpoint : s.main = .limit)
    (hnew : s.client i = none) (hstart : point = if kind.onTcpConnect then .adding else .head) :
    PushStep pf kind maxClients s (.start (some i) script)
      (started s i ⟨point, false, false, Conn.init script⟩)
  | finish {k : ℕ} (hpoint : s.main = .finish k) (hnone : s.workers[k]? = none) :
    PushStep pf kind maxClients s .finish s.served
  | worker {i : I} {e : WorkerEvent} {c c' : PushClient} (hc : s.client i = some c)
    (hstep : c.step pf kind s.signalStatus e = some c') (hkeeps : c'.abandons = false) :
    PushStep pf kind maxClients s (.worker i e) (s.put i (some c'))
  | abandon {i : I} {e : WorkerEvent} {c c' : PushClient} (hc : s.client i = some c)
    (hstep : c.step pf kind s.signalStatus e = some c') (hleaves : c'.abandons = true) :
    PushStep pf kind maxClients s (.worker i e) ((s.put i (some c')).record (.abandoned i))
  | lockAdd {i : I} {c : PushClient} (hc : s.client i = some c) (hpoint : c.point = .adding)
    (hfree : s.mtx = none) : PushStep pf kind maxClients s (.lock i) (locked s i c .inserting)
  | lockRemove {i : I} {c : PushClient} (hc : s.client i = some c) (hpoint : c.point = .removing)
    (hfree : s.mtx = none) : PushStep pf kind maxClients s (.lock i) (locked s i c .erasing)
  | insert {i : I} {c : PushClient} (hc : s.client i = some c) (hpoint : c.point = .inserting) :
    PushStep pf kind maxClients s (.update i)
      { (s.insert i).put i (some { c with point := .head, added := true }) with mtx := none }
  | erase {i : I} {c : PushClient} (hc : s.client i = some c) (hpoint : c.point = .erasing) :
    PushStep pf kind maxClients s (.update i)
      { (s.erase i).put i (some { c with point := .closing, added := false }) with mtx := none }
  | test (hpoint : s.pusher = .test) :
    PushStep pf kind maxClients s .push { s with pusher := if s.signalStatus then .ended else .lock }
  | lock (hpoint : s.pusher = .lock) (hfree : s.mtx = none) :
    PushStep pf kind maxClients s .push
      { s with mtx := some .pusher, pusher := .visit s.elements.head? }
  | pushed (hpoint : s.pusher = .visit none) :
    PushStep pf kind maxClients s .push { s.record .pushed with mtx := none, pusher := .sleep }
  | visit {i : I} (hpoint : s.pusher = .visit (some i)) :
    PushStep pf kind maxClients s .push { s with pusher := .sending i }
  | sent {i : I} {c : PushClient} {conn : Conn} {n : ℕ} (hpoint : s.pusher = .sending i)
    (hc : s.client i = some c)
    (hsend : (kind.send (s.cnt % SIZE_MOD)).run pf c.conn = (.ret n, conn)) :
    PushStep pf kind maxClients s .push (sentTo s i c conn)
  | sendFails {i : I} (hpoint : s.pusher = .sending i) :
    PushStep pf kind maxClients s .push (s.goTo .terminated)
  | wake (hpoint : s.pusher = .sleep) :
    PushStep pf kind maxClients s .push { s with cnt := s.cnt + 1, pusher := .test }

variable {pf : Platform} {kind : PushKind} {maxClients : ℕ} {s t : PushState I}

omit [LinearOrder I] in
/-- An exception that leaves `serve` either finds no worker, and the pusher is joined next, or it
destroys a thread that was not joined, which ends the process. -/
theorem leave_cases (s : PushState I) :
    s.leave = s.goTo .joinPusher ∧ s.workers = [] ∨ s.leave = s.goTo .terminated := by
  unfold PushState.leave
  split
  · rename_i hnone
    exact Or.inl ⟨rfl, hnone⟩
  · exact Or.inr rfl

/-- The two points at which `serve` can throw: in `accept`, and where a worker is started or a
client is turned away. -/
theorem step_leave {e : PushEvent I} (hpoint : s.main = .accept ∨ s.main = .limit) :
    PushStep pf kind maxClients s e s.leave := by
  obtain ⟨heq, hnone⟩ | heq := leave_cases s
  · exact heq ▸ .main (.leave hpoint hnone)
  · exact heq ▸ .main (.terminate hpoint)

/-- The step that `accept` leads to, for each of its results. -/
theorem pushStep_accept (r : PushAccept) (hpoint : s.main = .accept) :
    PushStep pf kind maxClients s (.accept r) (s.accept r) := by
  cases r with
  | none => exact .main (.noClient hpoint)
  | client => exact .main (.client hpoint)
  | fails => exact step_leave (Or.inl hpoint)

/-- A test in `cleanup`: the end of the list, a worker that goes on, or one to be joined. -/
theorem pushStep_isActive {k : ℕ} (hpoint : s.main = .cleanup k) :
    PushStep pf kind maxClients s .isActive (s.isActive k) := by
  unfold PushState.isActive
  cases hi : s.workers[k]? with
  | none => exact .main (.passed hpoint hi)
  | some i =>
    cases hover : s.isOver i with
    | true => simpa only [hover] using .main (.inactive hpoint hi hover)
    | false => simpa only [hover] using .main (.seen hpoint hi)

/-- A join in `cleanup` is possible only for a worker that is over. -/
theorem pushStep_join {k : ℕ} (hpoint : s.main = .join k) (h : s.join k = some t) :
    PushStep pf kind maxClients s .join t := by
  unfold PushState.join at h
  cases hi : s.workers[k]? with
  | none => rw [hi] at h; cases h
  | some i =>
    rw [hi] at h
    obtain ⟨hover, ht⟩ := Option.ite_none_right_eq_some.mp h
    exact Option.some.inj ht ▸ .join hpoint hi hover

/-- Below the limit a worker is started under a new address, unless its handler cannot be made. -/
theorem pushStep_start {i : Option I} {script : List WriteResult} (hpoint : s.main = .limit)
    (h : s.start kind script i = some t) : PushStep pf kind maxClients s (.start i script) t := by
  cases i with
  | none => exact Option.some.inj h ▸ step_leave (Or.inr hpoint)
  | some i =>
    unfold PushState.start at h
    obtain ⟨hnew, ht⟩ := Option.ite_none_right_eq_some.mp h
    exact Option.some.inj ht ▸ .start hpoint hnew rfl

/-- The loop at the end of `serve` waits for one worker after the other, and then returns. -/
theorem pushStep_finish {k : ℕ} (hpoint : s.main = .finish k) (h : s.finish k = some t) :
    PushStep pf kind maxClients s .finish t := by
  unfold PushState.finish at h
  cases hi : s.workers[k]? with
  | none =>
    rw [hi] at h
    exact Option.some.inj h ▸ .finish hpoint hi
  | some i =>
    rw [hi] at h
    obtain ⟨hover, ht⟩ := Option.ite_none_right_eq_some.mp h
    exact Option.some.inj ht ▸ .main (.sweep hpoint hi hover)

/-- Every step of the main thread is one of the steps of the program. -/
theorem main_cases {e : PushEvent I} (h : s.stepMain kind maxClients e = some t) :
    PushStep pf kind maxClients s e t := by
  unfold PushState.stepMain at h
  cases e with
  | quit =>
    obtain ⟨hpoint, ht⟩ := Option.ite_none_right_eq_some.mp h
    rw [← Option.some.inj ht]
    cases hquit : s.signalStatus with
    | true => exact .main (.quit hpoint hquit)
    | false => exact .main (.goOn hpoint hquit)
  | accept r =>
    obtain ⟨hpoint, ht⟩ := Option.ite_none_right_eq_some.mp h
    exact Option.some.inj ht ▸ pushStep_accept r hpoint
  | isActive =>
    dsimp only at h
    split at h
    · rename_i k hpoint
      exact Option.some.inj h ▸ pushStep_isActive hpoint
    · cases h
  | join =>
    dsimp only at h
    split at h
    · rename_i k hpoint
      exact pushStep_join hpoint h
    · cases h
  | start i script =>
    obtain ⟨⟨hpoint, _⟩, hstart⟩ := Option.ite_none_right_eq_some.mp h
    exact pushStep_start hpoint hstart
  | reject ok =>
    obtain ⟨⟨hpoint, _⟩, ht⟩ := Option.ite_none_right_eq_some.mp h
    rw [← Option.some.inj ht]
    cases ok with
    | true => exact .main (.reject hpoint)
    | false => exact step_leave (Or.inr hpoint)
  | finish =>
    dsimp only at h
    split at h
    · rename_i k hpoint
      exact pushStep_finish hpoint h
    · cases h
  | joinPusher =>
    obtain ⟨⟨hpoint, hended⟩, ht⟩ := Option.ite_none_right_eq_some.mp h
    exact Option.some.inj ht ▸ .main (.exit hpoint hended)
  | _ => cases h

/-- A step of a worker is one of the steps of the program; it is recorded if the worker leaves its
element behind by it. -/
theorem worker_cases {i : I} {e : WorkerEvent} (h : s.worker pf kind i e = some t) :
    PushStep pf kind maxClients s (.worker i e) t := by
  unfold PushState.worker at h
  split at h
  · cases h
  · rename_i c hc
    split at h
    · cases h
    · rename_i c' hstep
      rw [← Option.some.inj h]
      split
      · rename_i hleaves
        exact .abandon hc hstep hleaves
      · rename_i hkeeps
        exact .worker hc hstep (Bool.not_eq_true _ ▸ hkeeps)

/-- A worker that gets the mutex was waiting for it in `addElem` or in `delElem`, and nobody had it.
-/
theorem lock_cases {i : I} (h : s.lock i = some t) : PushStep pf kind maxClients s (.lock i) t := by
  unfold PushState.lock at h
  split at h
  · rename_i c hc hfree
    split at h
    · rename_i hpoint
      exact Option.some.inj h ▸ .lockAdd hc hpoint hfree
    · rename_i hpoint
      exact Option.some.inj h ▸ .lockRemove hc hpoint hfree
    · cases h
  · cases h

/-- A worker that changes the set has the mutex, and gives it back with this step. -/
theorem update_cases {i : I} (h : s.update i = some t) :
    PushStep pf kind maxClients s (.update i) t := by
  unfold PushState.update at h
  split at h
  · cases h
  · rename_i c hc
    split at h
    · rename_i hpoint
      exact Option.some.inj h ▸ .insert hc hpoint
    · rename_i hpoint
      exact Option.some.inj h ▸ .erase hc hpoint
    · cases h

/-- A call of `send` by the pusher returns, and the iterator goes on, or it throws, which ends the
process. -/
theorem send_cases {i : I} (hpoint : s.pusher = .sending i) (h : s.send pf kind i = some t) :
    PushStep pf kind maxClients s .push t := by
  unfold PushState.send at h
  split at h
  · cases h
  · rename_i c hc
    split at h
    · rename_i n conn hsend
      exact Option.some.inj h ▸ .sent hpoint hc hsend
    · exact Option.some.inj h ▸ .sendFails hpoint
    · cases h

/-- Every step of the pusher is one of the steps of the program. -/
theorem push_cases (h : s.push pf kind = some t) : PushStep pf kind maxClients s .push t := by
  unfold PushState.push at h
  split at h
  · rename_i hpoint
    exact Option.some.inj h ▸ .test hpoint
  · rename_i hpoint
    split at h
    · rename_i hfree
      exact Option.some.inj h ▸ .lock hpoint hfree
    · cases h
  · rename_i hpoint
    exact Option.some.inj h ▸ .pushed hpoint
  · rename_i i hpoint
    exact Option.some.inj h ▸ .visit hpoint
  · rename_i i hpoint
    exact send_cases hpoint h
  · rename_i hpoint
    exact Option.some.inj h ▸ .wake hpoint
  · cases h

/-- Every step of a push server is one of these, and none follows the end of the process. -/
theorem step_cases {e : PushEvent I} (h : s.step pf kind maxClients e = some t) :
    ¬ s.IsDown ∧ PushStep pf kind maxClients s e t := by
  unfold PushState.step at h
  obtain ⟨hup, hstep⟩ := Option.ite_none_left_eq_some.mp h
  refine ⟨hup, ?_⟩
  cases e with
  | signal =>
    obtain ⟨hquit, ht⟩ := Option.ite_none_left_eq_some.mp hstep
    exact Option.some.inj ht ▸ .signal (Bool.not_eq_true _ ▸ hquit)
  | worker i e => exact worker_cases hstep
  | lock i => exact lock_cases hstep
  | update i => exact update_cases hstep
  | push => exact push_cases hstep
  | _ => exact main_cases hstep

end

end CppSocks.Analysis.Push
