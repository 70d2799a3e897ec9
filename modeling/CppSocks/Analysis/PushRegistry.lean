import CppSocks.Analysis.PushSteps

/-!
# The set of the push servers

Two invariants that need nothing else. `Listed`: the workers in the list are those
whose objects exist, and `serve` joins none that is still running. `Guarded`: at most
one thread is between `lock` and `unlock`; so nobody changes the set while the pusher
goes through it, and its iterator is valid wherever it stands.
-/

set_option autoImplicit false

namespace CppSocks.Analysis.Push

open CppSocks.Model Foundation

section

variable {I : Type} [LinearOrder I]

/-! ## Objects -/

section Client

variable {s : PushState I} {i j : I} {c c' : PushClient}

/-- The worker that is put at an address is found there. -/
theorem client_put_self (s : PushState I) (i : I) (o : Option PushClient) :
    (s.put i o).client i = o := by
  simp [PushState.put]

/-- The workers at the other addresses stay as they are. -/
theorem client_put_ne (s : PushState I) (h : j ≠ i) (o : Option PushClient) :
    (s.put i o).client j = s.client j := by
  simp [PushState.put, h]

/-- What holds of the client at `i` and of all others holds of all clients. -/
theorem forall_put {P : I → PushClient → Prop} (hi : P i c')
    (h : ∀ j c, s.client j = some c → P j c) :
    ∀ j c, (s.put i (some c')).client j = some c → P j c := by
  intro j c hc
  by_cases hji : j = i
  · subst hji
    rw [client_put_self, Option.some.injEq] at hc
    exact hc ▸ hi
  · rw [client_put_ne s hji] at hc
    exact h j c hc

omit [LinearOrder I] in
/-- A worker that is over. -/
theorem isOver_iff : s.isOver i = true ↔ ∃ c, s.client i = some c ∧ c.point = .done := by
  unfold PushState.isOver
  cases s.client i with
  | none => simp
  | some c => simp

/-- A worker that is over stays so. -/
theorem isOver_put (hc : s.client i = some c) (hkeep : c.point = .done → c'.point = .done)
    (h : s.isOver j = true) : (s.put i (some c')).isOver j = true := by
  obtain ⟨d, hd, hover⟩ := isOver_iff.mp h
  rw [isOver_iff]
  by_cases hji : j = i
  · subst hji
    rw [hc, Option.some.injEq] at hd
    exact ⟨c', client_put_self s j _, hkeep (hd ▸ hover)⟩
  · exact ⟨d, (client_put_ne s hji _).trans hd, hover⟩

end Client

/-- The point of a worker between `lock` and `unlock`. -/
def IsCritical (p : PushPoint) : Prop := p = .inserting ∨ p = .erasing

/-- A worker that moves by itself is not at its end, and neither leaves nor enters a critical
section by it: for that it needs the mutex. -/
theorem PushMove.source {added : Bool} {p q : PushPoint} (h : PushMove added p q) :
    p ≠ .done ∧ ¬ IsCritical p ∧ ¬ IsCritical q := by
  unfold IsCritical
  cases h <;> simp

/-! ## The list of workers -/

/-- The workers in the list are those that exist; what `serve` has joined, or is about to, is over. -/
structure Listed (s : PushState I) : Prop where
  mem : ∀ i, s.client i ≠ none ↔ i ∈ s.workers
  nodup : s.workers.Nodup
  join : ∀ k, s.main = .join k → ∃ i, s.workers[k]? = some i ∧ s.isOver i = true
  finish : ∀ k, s.main = .finish k → ∀ i ∈ s.workers.take k, s.isOver i = true
  done : s.main = .joinPusher ∨ s.main = .exited → s.workers = []

omit [LinearOrder I] in
/-- At the beginning there are no workers and no clients. -/
theorem listed_init : Listed (PushState.init : PushState I) where
  mem := fun i => by simp [PushState.init]
  nodup := List.nodup_nil
  join := fun _ h => by cases h
  finish := fun _ h => by cases h
  done := fun h => by simp [PushState.init] at h

section Listed

variable {s t : PushState I} {i : I} {c c' : PushClient}

omit [LinearOrder I] in
/-- A step at which the main thread stands still and no worker begins or goes away. -/
theorem Listed.of_still (h : Listed s) (hmain : t.main = s.main) (hworkers : t.workers = s.workers)
    (hclient : ∀ j, t.client j ≠ none ↔ s.client j ≠ none)
    (hover : ∀ j, s.isOver j = true → t.isOver j = true) : Listed t where
  mem := fun j => by rw [hclient, hworkers, h.mem]
  nodup := hworkers ▸ h.nodup
  join := fun k hk => by
    obtain ⟨j, hj, hjover⟩ := h.join k (hmain ▸ hk)
    exact ⟨j, hworkers ▸ hj, hover j hjover⟩
  finish := fun k hk j hj => hover j (h.finish k (hmain ▸ hk) j (hworkers ▸ hj))
  done := fun hdone => by rw [hworkers, h.done (hmain ▸ hdone)]

/-- A worker that moves is neither made nor destroyed by it. -/
theorem client_put_ne_none (hc : s.client i = some c) (j : I) :
    (s.put i (some c')).client j ≠ none ↔ s.client j ≠ none := by
  by_cases hji : j = i
  · subst hji
    rw [client_put_self, hc]
    simp
  · rw [client_put_ne s hji]

/-- A step of one worker. -/
theorem Listed.of_put (h : Listed s) (hc : s.client i = some c)
    (hkeep : c.point = .done → c'.point = .done) (hmain : t.main = s.main)
    (hworkers : t.workers = s.workers) (hclient : t.client = (s.put i (some c')).client) :
    Listed t := by
  refine h.of_still hmain hworkers (fun j => by rw [hclient, client_put_ne_none hc]) fun j hj => ?_
  rw [PushState.isOver, hclient]
  exact isOver_put hc hkeep hj

omit [LinearOrder I] in
/-- The main thread goes on. -/
theorem Listed.of_main (h : Listed s) {main : MainPoint} (hmove : MainMove s main) :
    Listed (s.goTo main) where
  mem := h.mem
  nodup := h.nodup
  join := by
    rintro k rfl
    cases hmove with
    | inactive _ hi hover => exact ⟨_, hi, hover⟩
  finish := by
    rintro k rfl
    cases hmove with
    | quit _ _ =>
      intro i hi
      simp at hi
    | @sweep k i hpoint hi hover =>
      intro j hj
      rw [List.take_add_one, List.mem_append, Option.mem_toList] at hj
      obtain hj | hj := hj
      · exact h.finish k hpoint j hj
      · have hji : i = j := Option.some.inj (hi.symm.trans hj)
        exact hji ▸ hover
  done := by
    intro hdone
    cases hmove with
    | leave _ hnone => exact hnone
    | exit hpoint _ => exact h.done (Or.inl hpoint)
    | _ => simp [PushState.goTo] at hdone

omit [LinearOrder I] in
/-- When all workers have been joined. -/
theorem Listed.all_over (h : Listed s) {k : ℕ} (hpoint : s.main = .finish k)
    (hnone : s.workers[k]? = none) : ∀ i ∈ s.workers, s.isOver i = true := by
  have hall := h.finish k hpoint
  rwa [List.take_of_length_le (List.getElem?_eq_none_iff.mp hnone)] at hall

/-- Every step of the program keeps the list of workers: its members are the live clients, each
once, and those that the main thread has passed at the end are over. -/
theorem listed_step {pf : Platform} {kind : PushKind} {maxClients : ℕ} {e : PushEvent I}
    (h : Listed s) (hstep : PushStep pf kind maxClients s e t) : Listed t := by
  cases hstep with
  | main hmove => exact h.of_main hmove
  | @join k i hpoint hi hover =>
    have hmem : i ∈ s.workers := List.mem_of_getElem? hi
    have herase : s.workers.eraseIdx k = s.workers.erase i := by
      have hk : k < s.workers.length := (List.getElem?_eq_some_iff.mp hi).1
      have hget : s.workers[k] = i := (List.getElem?_eq_some_iff.mp hi).2
      rw [← hget, List.Nodup.erase_getElem h.nodup k hk]
    refine ⟨fun j => ?_, h.nodup.sublist (List.eraseIdx_sublist _ k), nofun, nofun, nofun⟩
    change (s.put i none).client j ≠ none ↔ j ∈ s.workers.eraseIdx k
    rw [herase, h.nodup.mem_erase_iff]
    by_cases hji : j = i
    · subst hji
      simp [client_put_self]
    · rw [client_put_ne s hji, h.mem]
      exact (and_iff_right hji).symm
  | @start i _ _ _ hnew _ =>
    have hnot : i ∉ s.workers := fun hmem => (h.mem i).mpr hmem hnew
    refine ⟨fun j => ?_, ?_, nofun, nofun, nofun⟩
    · change (s.put i _).client j ≠ none ↔ j ∈ s.workers ++ [i]
      rw [List.mem_append, List.mem_singleton]
      by_cases hji : j = i
      · subst hji
        simp [client_put_self]
      · rw [client_put_ne s hji, h.mem]
        exact (or_iff_left hji).symm
    · exact List.nodup_append.mpr ⟨h.nodup, List.nodup_singleton i, fun a ha b hb => by
        rintro rfl
        exact hnot (List.mem_singleton.mp hb ▸ ha)⟩
  | finish hpoint hnone =>
    refine ⟨fun j => ?_, List.nodup_nil, nofun, nofun, fun _ => rfl⟩
    change (if j ∈ s.workers then none else s.client j) ≠ none ↔ j ∈ []
    by_cases hj : j ∈ s.workers
    · simp [hj]
    · rw [if_neg hj, h.mem]
      simpa using hj
  | worker hc hstep _ =>
    exact h.of_put hc (fun hover => absurd hover (client_cases hstep).move.source.1) rfl rfl rfl
  | abandon hc hstep _ =>
    exact h.of_put hc (fun hover => absurd hover (client_cases hstep).move.source.1) rfl rfl rfl
  | lockAdd hc hpoint _ => exact h.of_put hc (fun hover => by simp [hpoint] at hover) rfl rfl rfl
  | lockRemove hc hpoint _ => exact h.of_put hc (fun hover => by simp [hpoint] at hover) rfl rfl rfl
  | insert hc hpoint => exact h.of_put hc (fun hover => by simp [hpoint] at hover) rfl rfl rfl
  | erase hc hpoint => exact h.of_put hc (fun hover => by simp [hpoint] at hover) rfl rfl rfl
  | @sent i c conn _ _ hc _ =>
    have hclient : (sentTo s i c conn).client = (s.put i (some { c with conn := conn })).client := rfl
    refine h.of_put hc ?_ rfl rfl hclient
    exact id
  | sendFails _ => exact ⟨h.mem, h.nodup, nofun, nofun, nofun⟩
  | _ => exact h.of_still rfl rfl (fun _ => Iff.rfl) fun _ => id

end Listed

/-! ## The mutex -/

/-- The pusher is between `lock` and `unlock`. -/
def InPush : PusherPoint I → Prop
  | .visit _ | .sending _ => True
  | _ => False

/-- The worker at an address is between `lock` and `unlock`. -/
def InCritical (s : PushState I) (i : I) : Prop := ∃ c, s.client i = some c ∧ IsCritical c.point

/-- The mutex is held by the thread that is between `lock` and `unlock`, and is free if none is; the
iterator of the pusher is at an element of the set. -/
structure Guarded (s : PushState I) : Prop where
  sorted : s.elements.Pairwise (· < ·)
  pusher : s.mtx = some .pusher ↔ InPush s.pusher
  worker : ∀ i, s.mtx = some (.worker i) ↔ InCritical s i
  iterator : ∀ i, s.pusher = .visit (some i) ∨ s.pusher = .sending i → i ∈ s.elements

omit [LinearOrder I] in
/-- Where there is no worker, nobody is in a critical section. -/
theorem not_inCritical_of_none {s : PushState I} {i : I} (h : s.client i = none) :
    ¬ InCritical s i := by
  rintro ⟨c, hc, _⟩
  rw [h] at hc
  cases hc

omit [LinearOrder I] in
/-- A worker that is over is in no critical section, so it can be destroyed. -/
theorem not_inCritical_of_isOver {s : PushState I} {i : I} (h : s.isOver i = true) :
    ¬ InCritical s i := by
  rintro ⟨c, hc, hcrit⟩
  obtain ⟨d, hd, hover⟩ := isOver_iff.mp h
  rw [hc, Option.some.injEq] at hd
  subst hd
  unfold IsCritical at hcrit
  rw [hover] at hcrit
  simp at hcrit

/-- Whether a worker is in a critical section is decided by its point. -/
theorem inCritical_put_self {s : PushState I} {i : I} {c : PushClient} :
    InCritical (s.put i (some c)) i ↔ IsCritical c.point := by
  unfold InCritical
  rw [client_put_self]
  simp

/-- The step of one worker does not move another one in or out of a critical section. -/
theorem inCritical_put_ne {s : PushState I} {i j : I} (hji : j ≠ i) (o : Option PushClient) :
    InCritical (s.put i o) j ↔ InCritical s j := by
  unfold InCritical
  rw [client_put_ne s hji]

/-- At the beginning the mutex is free and nobody is in a critical section. -/
theorem guarded_init : Guarded (PushState.init : PushState I) where
  sorted := List.Pairwise.nil
  pusher := by simp [PushState.init, InPush]
  worker := fun i => by simp [PushState.init, InCritical]
  iterator := fun i h => by simp [PushState.init] at h

section Guarded

variable {s t : PushState I} {i : I} {c c' : PushClient}

/-- A step that has nothing to do with the mutex. -/
theorem Guarded.of_aside (h : Guarded s) (helements : t.elements = s.elements)
    (hpusher : t.pusher = s.pusher) (hmtx : t.mtx = s.mtx)
    (hcrit : ∀ j, InCritical t j ↔ InCritical s j) : Guarded t where
  sorted := helements ▸ h.sorted
  pusher := by rw [hmtx, hpusher, h.pusher]
  worker := fun j => by rw [hmtx, hcrit, h.worker]
  iterator := fun j hj => helements ▸ h.iterator j (hpusher ▸ hj)

/-- A worker begins, goes on, or goes away, all of it outside of `addElem` and `delElem`. -/
theorem Guarded.of_put (h : Guarded s) (hout : ¬ InCritical s i) {o : Option PushClient}
    (hnot : ∀ c, o = some c → ¬ IsCritical c.point) (helements : t.elements = s.elements)
    (hpusher : t.pusher = s.pusher) (hmtx : t.mtx = s.mtx) (hclient : t.client = (s.put i o).client) :
    Guarded t := by
  refine h.of_aside helements hpusher hmtx fun j => ?_
  have hput : InCritical t j ↔ InCritical (s.put i o) j := by
    unfold InCritical
    rw [hclient]
  rw [hput]
  by_cases hji : j = i
  · subst hji
    refine iff_of_false ?_ hout
    rintro ⟨c, hc, hcrit⟩
    rw [client_put_self] at hc
    exact hnot c hc hcrit
  · exact inCritical_put_ne hji o

omit [LinearOrder I] in
/-- A worker at another point is in no critical section. -/
theorem not_inCritical_of_some (hc : s.client i = some c) (h : ¬ IsCritical c.point) :
    ¬ InCritical s i := by
  rintro ⟨d, hd, hcrit⟩
  rw [hc, Option.some.injEq] at hd
  exact h (hd ▸ hcrit)

/-- A worker gets the mutex. -/
theorem Guarded.of_locked (h : Guarded s) (hfree : s.mtx = none) {point : PushPoint}
    (hcrit : IsCritical point) : Guarded (locked s i c point) where
  sorted := h.sorted
  pusher := by
    have hnot : ¬ InPush s.pusher := fun hin => by simpa [hfree] using h.pusher.mpr hin
    exact iff_of_false nofun hnot
  worker := fun j => by
    change some (Holder.worker i) = some (.worker j) ↔ InCritical (s.put i _) j
    by_cases hji : j = i
    · subst hji
      exact iff_of_true rfl (inCritical_put_self.mpr hcrit)
    · have hnot : ¬ InCritical s j := fun hin => by simpa [hfree] using (h.worker j).mpr hin
      rw [inCritical_put_ne hji]
      exact iff_of_false (by simpa using Ne.symm hji) hnot
  iterator := h.iterator

/-- A worker that holds the mutex changes the set and gives the mutex back. -/
theorem Guarded.of_unlocked (h : Guarded s) (hc : s.client i = some c) (hcrit : IsCritical c.point)
    (hsorted : t.elements.Pairwise (· < ·)) (hpusher : t.pusher = s.pusher) (hmtx : t.mtx = none)
    (hclient : t.client = (s.put i (some c')).client) (hnot : ¬ IsCritical c'.point) : Guarded t := by
  have hheld : s.mtx = some (.worker i) := (h.worker i).mpr ⟨c, hc, hcrit⟩
  have hout : ¬ InPush t.pusher := by
    rw [hpusher, ← h.pusher, hheld]
    simp
  refine ⟨hsorted, by rw [hmtx]; exact iff_of_false nofun hout, fun j => ?_, fun j hj => ?_⟩
  · rw [hmtx]
    refine iff_of_false nofun ?_
    have hput : InCritical t j ↔ InCritical (s.put i (some c')) j := by
      unfold InCritical
      rw [hclient]
    rw [hput]
    by_cases hji : j = i
    · subst hji
      rwa [inCritical_put_self]
    · rw [inCritical_put_ne hji, ← h.worker, hheld]
      simpa using Ne.symm hji
  · refine absurd ?_ hout
    obtain hj | hj := hj
    · rw [hj]
      trivial
    · rw [hj]
      trivial

/-- The pusher goes on within `push`. -/
theorem Guarded.of_inPush (h : Guarded s) (hin : InPush s.pusher) (hin' : InPush t.pusher)
    (helements : t.elements = s.elements) (hmtx : t.mtx = s.mtx)
    (hcrit : ∀ j, InCritical t j ↔ InCritical s j)
    (hiter : ∀ j, t.pusher = .visit (some j) ∨ t.pusher = .sending j → j ∈ s.elements) :
    Guarded t where
  sorted := helements ▸ h.sorted
  pusher := by rw [hmtx, h.pusher]; exact iff_of_true hin hin'
  worker := fun j => by rw [hmtx, hcrit, h.worker]
  iterator := fun j hj => helements ▸ hiter j hj

/-- The pusher goes on outside of `push`. -/
theorem Guarded.of_notInPush (h : Guarded s) (hout : ¬ InPush s.pusher) (hout' : ¬ InPush t.pusher)
    (helements : t.elements = s.elements) (hmtx : t.mtx = s.mtx)
    (hcrit : ∀ j, InCritical t j ↔ InCritical s j) : Guarded t where
  sorted := helements ▸ h.sorted
  pusher := by rw [hmtx, h.pusher]; exact iff_of_false hout hout'
  worker := fun j => by rw [hmtx, hcrit, h.worker]
  iterator := fun j hj => by
    refine absurd ?_ hout'
    obtain hj | hj := hj
    · rw [hj]
      trivial
    · rw [hj]
      trivial

/-- The iterator behind an element is at a later element of the set, or at its end. -/
theorem mem_of_next {j : I} (h : s.next i = some j) : j ∈ s.elements ∧ i < j := by
  unfold PushState.next at h
  exact ⟨List.mem_of_find?_eq_some h, by simpa using List.find?_some h⟩

/-- An insertion keeps the set sorted, and without repetitions. -/
theorem sorted_insert (h : s.elements.Pairwise (· < ·)) (i : I) :
    (s.insert i).elements.Pairwise (· < ·) := by
  change (if i ∈ s.elements then s.elements else _).Pairwise (· < ·)
  split
  · exact h
  · rename_i hnew
    have hle : (s.elements.orderedInsert (· ≤ ·) i).Pairwise (· ≤ ·) :=
      List.Pairwise.orderedInsert i _ (h.imp le_of_lt)
    have hne : (s.elements.orderedInsert (· ≤ ·) i).Nodup := by
      rw [(List.perm_orderedInsert (· ≤ ·) i s.elements).nodup_iff, List.nodup_cons]
      exact ⟨hnew, h.imp ne_of_lt⟩
    exact hle.imp₂ (fun _ _ hle hne => lt_of_le_of_ne hle hne) hne

/-- An erasure keeps the set sorted. -/
theorem sorted_erase (h : s.elements.Pairwise (· < ·)) (i : I) :
    (s.erase i).elements.Pairwise (· < ·) :=
  h.sublist List.erase_sublist

/-- A worker that changes the set holds the mutex, so the pusher is not in `push`. -/
theorem not_inPush_of_critical (h : Guarded s) (hc : s.client i = some c)
    (hcrit : IsCritical c.point) : ¬ InPush s.pusher := by
  have hheld := (h.worker i).mpr ⟨c, hc, hcrit⟩
  rw [← h.pusher, hheld]
  exact nofun

/-- A new worker begins outside of its critical sections. -/
theorem guarded_started (h : Guarded s) (hnew : s.client i = none) (hout : ¬ IsCritical c.point) :
    Guarded (started s i c) := by
  refine h.of_put (not_inCritical_of_none hnew) (fun d hd => ?_) rfl rfl rfl rfl
  rwa [← Option.some.inj hd]

/-- When `serve` returns, all workers are over. -/
theorem guarded_served (h : Guarded s) (hover : ∀ j ∈ s.workers, s.isOver j = true) :
    Guarded s.served := by
  refine h.of_aside rfl rfl rfl fun j => ?_
  by_cases hj : j ∈ s.workers
  · exact iff_of_false (not_inCritical_of_none (if_pos hj)) (not_inCritical_of_isOver (hover j hj))
  · have hclient : (s.served).client j = s.client j := if_neg hj
    unfold InCritical
    rw [hclient]

/-- The pusher gets the mutex; its iterator is at the first element. -/
theorem guarded_lock (h : Guarded s) (hfree : s.mtx = none) :
    Guarded { s with mtx := some .pusher, pusher := .visit s.elements.head? } := by
  refine ⟨h.sorted, iff_of_true rfl trivial, fun j => iff_of_false nofun ?_, fun j hj => ?_⟩
  · have hsame : InCritical { s with mtx := some .pusher, pusher := .visit s.elements.head? } j ↔
        InCritical s j := Iff.rfl
    rw [hsame, ← h.worker, hfree]
    exact nofun
  · obtain hj | hj := hj
    · exact List.mem_of_head? (PusherPoint.visit.inj hj)
    · cases hj

/-- The pusher gives the mutex back. -/
theorem guarded_pushed (h : Guarded s) (hin : InPush s.pusher) :
    Guarded { s.record .pushed with mtx := none, pusher := .sleep } := by
  have hheld : s.mtx = some .pusher := h.pusher.mpr hin
  refine ⟨h.sorted, iff_of_false nofun id, fun j => iff_of_false nofun ?_, fun j hj => ?_⟩
  · have hsame : InCritical { s.record .pushed with mtx := none, pusher := .sleep } j ↔
        InCritical s j := Iff.rfl
    rw [hsame, ← h.worker, hheld]
    exact nofun
  · simp at hj

/-- The pusher has sent to an element, and its iterator goes on to the next one. -/
theorem guarded_sentTo (h : Guarded s) (hin : InPush s.pusher) (hc : s.client i = some c) (conn : Conn) :
    Guarded (sentTo s i c conn) := by
  refine h.of_inPush hin trivial rfl rfl (fun j => ?_) fun j hj => ?_
  · have hput : InCritical (sentTo s i c conn) j ↔
        InCritical (s.put i (some { c with conn := conn })) j := Iff.rfl
    rw [hput]
    by_cases hji : j = i
    · subst hji
      rw [inCritical_put_self]
      unfold InCritical
      rw [hc]
      simp
    · exact inCritical_put_ne hji _
  · obtain hj | hj := hj
    · exact (mem_of_next (PusherPoint.visit.inj hj)).1
    · cases hj

/-- Every step of the program keeps the mutex with the one thread that is in its critical section,
and the iterator of the pusher in the set. -/
theorem guarded_step {pf : Platform} {kind : PushKind} {maxClients : ℕ} {e : PushEvent I}
    (h : Guarded s) (hlisted : Listed s) (hstep : PushStep pf kind maxClients s e t) : Guarded t := by
  cases hstep with
  | signal _ => exact h.of_aside rfl rfl rfl fun _ => Iff.rfl
  | main _ => exact h.of_aside rfl rfl rfl fun _ => Iff.rfl
  | join _ _ hover => exact h.of_put (not_inCritical_of_isOver hover) (fun c hc => by cases hc) rfl rfl rfl rfl
  | @start i point _ _ hnew hstart =>
    refine guarded_started h hnew ?_
    change ¬ IsCritical point
    rw [hstart]
    unfold IsCritical
    split <;> simp
  | finish hpoint hnone => exact guarded_served h (hlisted.all_over hpoint hnone)
  | worker hc hstep _ =>
    obtain ⟨_, hout, hout'⟩ := (client_cases hstep).move.source
    exact h.of_put (not_inCritical_of_some hc hout) (fun c hc => Option.some.inj hc ▸ hout') rfl rfl rfl
      rfl
  | abandon hc hstep _ =>
    obtain ⟨_, hout, hout'⟩ := (client_cases hstep).move.source
    exact h.of_put (not_inCritical_of_some hc hout) (fun c hc => Option.some.inj hc ▸ hout') rfl rfl rfl
      rfl
  | lockAdd _ _ hfree => exact h.of_locked hfree (Or.inl rfl)
  | lockRemove _ _ hfree => exact h.of_locked hfree (Or.inr rfl)
  | insert hc hpoint =>
    exact h.of_unlocked hc (Or.inl hpoint) (sorted_insert h.sorted _) rfl rfl rfl (by simp [IsCritical])
  | erase hc hpoint =>
    exact h.of_unlocked hc (Or.inr hpoint) (sorted_erase h.sorted _) rfl rfl rfl (by simp [IsCritical])
  | test hpoint =>
    refine h.of_notInPush ?_ ?_ rfl rfl fun _ => Iff.rfl
    · rw [hpoint]
      exact id
    · change ¬ InPush (if s.signalStatus then _ else _)
      split
      · exact id
      · exact id
  | wake hpoint =>
    refine h.of_notInPush ?_ id rfl rfl fun _ => Iff.rfl
    rw [hpoint]
    exact id
  | lock _ hfree => exact guarded_lock h hfree
  | pushed hpoint => exact guarded_pushed h (by rw [hpoint]; trivial)
  | @visit i hpoint =>
    refine h.of_inPush (by rw [hpoint]; trivial) trivial rfl rfl (fun _ => Iff.rfl) fun j hj => ?_
    have hji : i = j := by simpa using hj
    exact hji ▸ h.iterator i (Or.inl hpoint)
  | sent hpoint hc _ => exact guarded_sentTo h (by rw [hpoint]; trivial) hc _
  | sendFails _ => exact h.of_aside rfl rfl rfl fun _ => Iff.rfl

end Guarded

/-! ## The set is not changed under the pusher -/

/-- The runs of a push server. -/
def pushServer (pf : Platform) (kind : PushKind) (maxClients : ℕ) :
    System (PushState I) (PushEvent I) := .ofStep (PushState.step pf kind maxClients)

variable {pf : Platform} {kind : PushKind} {maxClients : ℕ} {s : PushState I}
  {es : List (PushEvent I)}

/-- In every state of a run the mutex is with the thread that is in its critical section. -/
theorem guarded_of_run (h : (pushServer pf kind maxClients).Run .init es s) : Guarded s := by
  have hboth : Listed s ∧ Guarded s :=
    h.invariant (I := fun s => Listed s ∧ Guarded s)
      (fun _ _ _ hs hstep => ⟨listed_step hs.1 (step_cases hstep).2,
        guarded_step hs.2 hs.1 (step_cases hstep).2⟩) ⟨listed_init, guarded_init⟩
  exact hboth.2

/-- Only a worker that holds the mutex changes the set. -/
theorem elements_of_step {e : PushEvent I} {t : PushState I}
    (hstep : PushStep pf kind maxClients s e t) :
    t.elements = s.elements ∨ ∃ i, e = .update i ∧ InCritical s i := by
  cases hstep with
  | insert hc hpoint => exact Or.inr ⟨_, rfl, _, hc, Or.inl hpoint⟩
  | erase hc hpoint => exact Or.inr ⟨_, rfl, _, hc, Or.inr hpoint⟩
  | _ => exact Or.inl rfl

/-- In every state that any interleaving of the threads can reach: at most one thread is between
`lock` and `unlock`; the set is in order and has no element twice; wherever the pusher stands in its
loop over the set, its iterator is at an element of it; and no step changes the set before the pusher
has left `push`. -/
theorem push_exclusive (h : (pushServer pf kind maxClients).Run .init es s) :
    (∀ i j, InCritical s i → InCritical s j → i = j) ∧
      s.elements.Pairwise (· < ·) ∧
      (InPush s.pusher → (∀ i, ¬ InCritical s i) ∧
        (∀ i, s.pusher = .visit (some i) ∨ s.pusher = .sending i → i ∈ s.elements) ∧
        ∀ e t, s.step pf kind maxClients e = some t → t.elements = s.elements) := by
  have hguarded := guarded_of_run h
  refine ⟨fun i j hi hj => ?_, hguarded.sorted, fun hin => ?_⟩
  · have hheld := (hguarded.worker i).mpr hi
    rw [(hguarded.worker j).mpr hj] at hheld
    exact ((Holder.worker.injEq j i ▸ Option.some.inj hheld : j = i)).symm
  · have hheld := hguarded.pusher.mpr hin
    have hnone : ∀ i, ¬ InCritical s i := by
      intro i
      rw [← hguarded.worker, hheld]
      exact nofun
    refine ⟨hnone, hguarded.iterator, fun e t hstep => ?_⟩
    obtain hsame | ⟨i, _, hcrit⟩ := elements_of_step (step_cases hstep).2
    · exact hsame
    · exact absurd hcrit (hnone i)

end

/-! ## A run -/

/-- A client connects and upgrades, and the pusher begins to send it a counter. -/
def firstPush : List (PushEvent ℕ) :=
  [.quit, .accept .client, .isActive, .start (some 7) [], .worker 7 .test,
    .worker 7 (.pass (.upgraded (.ret ()))), .push, .lock 7, .update 7, .push, .push]

/-- While the pusher sends to the only element, no worker is in a critical section. -/
theorem push_exclusive_firstPush :
    ∃ s, System.exec (PushState.step .plain wsPush 2) .init firstPush = some s ∧
      s.pusher = .sending 7 ∧ s.elements = [7] ∧ InPush s.pusher ∧ ∀ i, ¬ InCritical s i :=
  ⟨_, rfl, rfl, rfl, trivial,
    ((push_exclusive (System.run_ofStep_iff.mpr rfl :
      (pushServer .plain wsPush 2).Run .init firstPush _)).2.2 trivial).1⟩

end CppSocks.Analysis.Push
