import CppSocks.Analysis.PushRegistry

/-!
# The lifetime of pushed connections

A connection must not be sent anything once it is destroyed. The set has plain
pointers, so this rests on the workers: each takes its connection out before it
closes the socket and ends. A worker that ends by an exception does not; from then
on its element is left behind.

`Members` connects the set with the workers. The pusher uses a connection that no
longer exists only if a worker has left its element behind at that address
(`pusher_uses_live`), and then it does (`pusher_uses_destroyed`).
-/

set_option autoImplicit false

namespace CppSocks.Analysis.Push

open CppSocks.Model Foundation

/-! ## One worker -/

/-- What a worker has done about its element where it stands. -/
structure ClientOk (c : PushClient) : Prop where
  fresh : c.point = .adding ∨ c.point = .inserting ∨ c.point = .closing → c.added = false
  entered : c.point = .removing ∨ c.point = .erasing → c.added = true
  socket : c.socketClosed = true → (c.point = .ending ∨ c.point = .done) ∧ c.added = false

section

variable {quit : Bool} {c c' : PushClient}

/-- The steps of a worker by itself keep what its point says about it: only an entered client can be
on its way to `delElem`, and only one that has left the set closes its socket. -/
theorem ClientOk.of_local (h : ClientOk c) (hstep : LocalStep quit c c') : ClientOk c' := by
  have hmove := hstep.move
  constructor
  · intro hpoint
    rw [hstep.added]
    generalize c.point = p, c'.point = q at hmove hpoint
    cases hmove with
    | upgrade hnew => exact hnew
    | skip hnew => exact hnew
    | _ => simp at hpoint
  · intro hpoint
    rw [hstep.added]
    generalize c.point = p, c'.point = q at hmove hpoint
    cases hmove with
    | remove hadded => exact hadded
    | _ => simp at hpoint
  · intro hclosed
    rw [hstep.added]
    have hbefore : (c.point = .closing ∨ c.point = .ending ∨ c.point = .done) ∧ c.added = false := by
      obtain hsame | hpoint := hstep.socketClosed
      · obtain ⟨hpoint, hnew⟩ := h.socket (hsame ▸ hclosed)
        exact ⟨Or.inr hpoint, hnew⟩
      · exact ⟨Or.inl hpoint, h.fresh (Or.inr (Or.inr hpoint))⟩
    refine ⟨?_, hbefore.2⟩
    have hpoint := hbefore.1
    generalize c.point = p, c'.point = q at hmove hpoint
    cases hmove with
    | close => exact Or.inl rfl
    | done => exact Or.inr rfl
    | _ => simp at hpoint

/-- A worker that is still entered does not end unless it leaves its element behind. -/
theorem alive_of_local (hstep : LocalStep quit c c') (hkeeps : c'.abandons = false)
    (hbefore : c.added = true → c.point ≠ .ending ∧ c.point ≠ .done) :
    c'.added = true → c'.point ≠ .ending ∧ c'.point ≠ .done := by
  intro hadded
  have hentered : c.added = true := hstep.added ▸ hadded
  have hmove := hstep.move
  constructor
  · intro hpoint
    unfold PushClient.abandons at hkeeps
    rw [hadded, hpoint] at hkeeps
    cases hkeeps
  · intro hpoint
    rw [hpoint] at hmove
    generalize hp : c.point = p at hmove
    cases hmove with
    | done => exact (hbefore hentered).1 hp

end

/-! ## The set and the workers -/

section

variable {I : Type} [LinearOrder I]

/-- Who is entered is in the set; and unless an element has been left behind at its address, an
element belongs to a worker that is entered and has not ended. -/
structure Members (s : PushState I) : Prop where
  ok : ∀ i c, s.client i = some c → ClientOk c
  entered : ∀ i c, s.client i = some c → c.added = true → i ∈ s.elements
  kept : ∀ i, .abandoned i ∉ s.log → i ∈ s.elements → ∃ c, s.client i = some c ∧ c.added = true
  alive : ∀ i c, s.client i = some c → .abandoned i ∉ s.log → c.added = true →
    c.point ≠ .ending ∧ c.point ≠ .done

omit [LinearOrder I] in
/-- At the beginning the set is empty, and nobody claims to be in it. -/
theorem members_init : Members (PushState.init : PushState I) where
  ok := fun _ _ h => by cases h
  entered := fun _ _ h => by cases h
  kept := fun _ _ h => by cases h
  alive := fun _ _ h => by cases h

variable {s t : PushState I} {i : I} {c c' : PushClient}

omit [LinearOrder I] in
/-- A step that has nothing to do with the set and the workers. -/
theorem Members.of_aside (h : Members s) (helements : t.elements = s.elements)
    (hclient : t.client = s.client) (hlog : ∀ j, .abandoned j ∈ s.log → .abandoned j ∈ t.log) :
    Members t where
  ok := fun j c hc => h.ok j c (hclient ▸ hc)
  entered := fun j c hc hadded => helements ▸ h.entered j c (hclient ▸ hc) hadded
  kept := fun j hnot hmem => by
    rw [hclient]
    exact h.kept j (fun hin => hnot (hlog j hin)) (helements ▸ hmem)
  alive := fun j c hc hnot => h.alive j c (hclient ▸ hc) fun hin => hnot (hlog j hin)

/-- A step of one worker that does not change the set. -/
theorem Members.of_put (h : Members s) (hc : s.client i = some c) (hok : ClientOk c')
    (hadded : c'.added = c.added)
    (halive : .abandoned i ∉ t.log → c'.added = true → c'.point ≠ .ending ∧ c'.point ≠ .done)
    (helements : t.elements = s.elements) (hclient : t.client = (s.put i (some c')).client)
    (hlog : ∀ j, .abandoned j ∈ s.log → .abandoned j ∈ t.log) : Members t where
  ok := fun j d hd => forall_put (P := fun _ d => ClientOk d) hok h.ok j d (hclient ▸ hd)
  entered := fun j d hd => helements ▸ forall_put (P := fun j d => d.added = true → j ∈ s.elements)
    (fun hin => h.entered i c hc (hadded ▸ hin)) h.entered j d (hclient ▸ hd)
  kept := fun j hnot hmem => by
    obtain ⟨d, hd, hin⟩ := h.kept j (fun hin => hnot (hlog j hin)) (helements ▸ hmem)
    rw [hclient]
    by_cases hji : j = i
    · subst hji
      rw [hc, Option.some.injEq] at hd
      exact ⟨c', client_put_self s j _, hadded.trans (hd ▸ hin)⟩
    · exact ⟨d, (client_put_ne s hji _).trans hd, hin⟩
  alive := fun j d hd => forall_put
    (P := fun j d => .abandoned j ∉ t.log → d.added = true → d.point ≠ .ending ∧ d.point ≠ .done)
    halive (fun j d hd hnot => h.alive j d hd fun hin => hnot (hlog j hin)) j d (hclient ▸ hd)

omit [LinearOrder I] in
/-- A worker that is over, and whose element has not been left behind, is not in the set. -/
theorem Members.not_mem_of_over (h : Members s) (hnot : .abandoned i ∉ s.log)
    (hover : s.isOver i = true) : i ∉ s.elements := by
  intro hmem
  obtain ⟨c, hc, hadded⟩ := h.kept i hnot hmem
  obtain ⟨d, hd, hpoint⟩ := isOver_iff.mp hover
  rw [hc, Option.some.injEq] at hd
  exact (h.alive i c hc hnot hadded).2 (hd ▸ hpoint)

/-- What is in the set behind an insertion. -/
theorem mem_insert {j : I} : j ∈ (s.insert i).elements ↔ j = i ∨ j ∈ s.elements := by
  change j ∈ (if i ∈ s.elements then s.elements else _) ↔ _
  split
  · rename_i hmem
    refine ⟨Or.inr, ?_⟩
    rintro (rfl | hj)
    · exact hmem
    · exact hj
  · rw [List.mem_orderedInsert]

/-- What is in the set behind an erasure; no element is in it twice, since it is sorted. -/
theorem mem_erase (h : s.elements.Pairwise (· < ·)) {j : I} :
    j ∈ (s.erase i).elements ↔ j ≠ i ∧ j ∈ s.elements :=
  List.Nodup.mem_erase_iff (h.imp ne_of_lt)

/-- An insertion abandons nobody. -/
theorem abandoned_insert {j : I} : .abandoned j ∈ (s.insert i).log ↔ .abandoned j ∈ s.log := by
  change _ ∈ (if i ∈ s.elements then s.log else s.log ++ [.added i]) ↔ _
  split <;> simp

/-- An erasure abandons nobody. -/
theorem abandoned_erase {j : I} : .abandoned j ∈ (s.erase i).log ↔ .abandoned j ∈ s.log := by
  change _ ∈ (if i ∈ s.elements then s.log ++ [.removed i] else s.log) ↔ _
  split <;> simp

/-- When `addElem` gives the mutex back, its client is in the set and knows it. -/
theorem Members.of_insert (h : Members s) (hc : s.client i = some c) (hpoint : c.point = .inserting) :
    Members { (s.insert i).put i (some { c with point := .head, added := true }) with mtx := none } := by
  have hok : ClientOk { c with point := .head, added := true } := by
    refine ⟨by simp, by simp, fun hclosed => ?_⟩
    have hend := ((h.ok i c hc).socket hclosed).1
    simp [hpoint] at hend
  refine ⟨forall_put (P := fun _ d => ClientOk d) hok h.ok, ?_, fun j hnot hmem => ?_, ?_⟩
  · exact forall_put (P := fun j d => d.added = true → j ∈ (s.insert i).elements)
      (fun _ => mem_insert.mpr (Or.inl rfl))
      fun j d hd hadded => mem_insert.mpr (Or.inr (h.entered j d hd hadded))
  · by_cases hji : j = i
    · subst hji
      exact ⟨_, client_put_self s j _, rfl⟩
    · have hin := (mem_insert.mp hmem).resolve_left hji
      obtain ⟨d, hd, hadded⟩ := h.kept j (fun hlog => hnot (abandoned_insert.mpr hlog)) hin
      exact ⟨d, (client_put_ne s hji _).trans hd, hadded⟩
  · refine forall_put (P := fun j d => .abandoned j ∉ (s.insert i).log → d.added = true →
      d.point ≠ .ending ∧ d.point ≠ .done) ?_ ?_
    · exact fun _ _ => ⟨nofun, nofun⟩
    · exact fun j d hd hnot => h.alive j d hd fun hlog => hnot (abandoned_insert.mpr hlog)

/-- When `delElem` gives the mutex back, its client is no longer in the set, and may close its
socket and be destroyed. -/
theorem Members.of_erase (h : Members s) (hsorted : s.elements.Pairwise (· < ·))
    (hc : s.client i = some c) (hpoint : c.point = .erasing) :
    Members { (s.erase i).put i (some { c with point := .closing, added := false }) with
      mtx := none } := by
  have hok : ClientOk { c with point := .closing, added := false } := by
    refine ⟨fun _ => rfl, by simp, fun hclosed => ?_⟩
    have hend := ((h.ok i c hc).socket hclosed).1
    simp [hpoint] at hend
  have hsome : ∀ j d, ((s.erase i).put i (some { c with point := .closing, added := false })).client
      j = some d → d.added = true → j ≠ i ∧ s.client j = some d := by
    intro j d hd hadded
    by_cases hji : j = i
    · subst hji
      rw [client_put_self, Option.some.injEq] at hd
      rw [← hd] at hadded
      cases hadded
    · exact ⟨hji, (client_put_ne (s.erase i) hji _).symm.trans hd⟩
  refine ⟨forall_put (P := fun _ d => ClientOk d) hok h.ok, fun j d hd hadded => ?_,
    fun j hnot hmem => ?_, fun j d hd hnot hadded => ?_⟩
  · obtain ⟨hji, hold⟩ := hsome j d hd hadded
    exact (mem_erase hsorted).mpr ⟨hji, h.entered j d hold hadded⟩
  · obtain ⟨hji, hin⟩ := (mem_erase hsorted).mp hmem
    obtain ⟨d, hd, hadded⟩ := h.kept j (fun hlog => hnot (abandoned_erase.mpr hlog)) hin
    exact ⟨d, (client_put_ne s hji _).trans hd, hadded⟩
  · obtain ⟨_, hold⟩ := hsome j d hd hadded
    exact h.alive j d hold (fun hlog => hnot (abandoned_erase.mpr hlog)) hadded

omit [LinearOrder I] in
/-- A worker is destroyed when it is over. -/
theorem Members.of_destroyed (h : Members s) (helements : t.elements = s.elements)
    (hlog : t.log = s.log)
    (hclient : ∀ j, t.client j = s.client j ∨ (t.client j = none ∧ s.isOver j = true)) :
    Members t := by
  have hsome : ∀ j d, t.client j = some d → s.client j = some d := by
    intro j d hd
    obtain hsame | ⟨hnone, _⟩ := hclient j
    · exact hsame ▸ hd
    · rw [hnone] at hd
      cases hd
  refine ⟨fun j d hd => h.ok j d (hsome j d hd),
    fun j d hd hadded => helements ▸ h.entered j d (hsome j d hd) hadded, fun j hnot hmem => ?_,
    fun j d hd hnot => h.alive j d (hsome j d hd) (hlog ▸ hnot)⟩
  rw [hlog] at hnot
  rw [helements] at hmem
  obtain hsame | ⟨_, hover⟩ := hclient j
  · rw [hsame]
    exact h.kept j hnot hmem
  · exact absurd hmem (h.not_mem_of_over hnot hover)

/-- A worker begins. -/
theorem Members.of_started (h : Members s) (hnew : s.client i = none) (hok : ClientOk c)
    (hadded : c.added = false) : Members (started s i c) := by
  refine ⟨forall_put (P := fun _ d => ClientOk d) hok h.ok, ?_, fun j hnot hmem => ?_, ?_⟩
  · exact forall_put (P := fun j d => d.added = true → j ∈ s.elements)
      (fun hin => by rw [hadded] at hin; cases hin) h.entered
  · obtain ⟨d, hd, hin⟩ := h.kept j hnot hmem
    have hji : j ≠ i := by
      rintro rfl
      rw [hnew] at hd
      cases hd
    exact ⟨d, (client_put_ne s hji _).trans hd, hin⟩
  · exact forall_put (P := fun j d => .abandoned j ∉ s.log → d.added = true →
        d.point ≠ .ending ∧ d.point ≠ .done)
      (fun _ hin => by rw [hadded] at hin; cases hin) h.alive

/-- Every step of the program keeps the set to the entered clients that are alive, apart from those
that an exception has left behind. -/
theorem members_step {pf : Platform} {kind : PushKind} {maxClients : ℕ} {e : PushEvent I}
    (h : Members s) (hlisted : Listed s) (hguarded : Guarded s)
    (hstep : PushStep pf kind maxClients s e t) : Members t := by
  cases hstep with
  | @join k i _ _ hover =>
    refine h.of_destroyed rfl rfl fun j => ?_
    by_cases hji : j = i
    · subst hji
      exact Or.inr ⟨client_put_self s j _, hover⟩
    · exact Or.inl (client_put_ne s hji _)
  | @start i point _ _ hnew hstart =>
    refine h.of_started hnew ⟨fun _ => rfl, fun hpoint => ?_, nofun⟩ rfl
    dsimp only at hpoint
    rw [hstart] at hpoint
    split at hpoint <;> simp at hpoint
  | finish hpoint hnone =>
    refine h.of_destroyed rfl rfl fun j => ?_
    by_cases hj : j ∈ s.workers
    · exact Or.inr ⟨if_pos hj, hlisted.all_over hpoint hnone j hj⟩
    · exact Or.inl (if_neg hj)
  | worker hc hstep hkeeps =>
    have hlocal := client_cases hstep
    exact h.of_put hc ((h.ok _ _ hc).of_local hlocal) hlocal.added
      (fun hnot => alive_of_local hlocal hkeeps (h.alive _ _ hc hnot)) rfl rfl fun _ => id
  | @abandon i _ _ _ hc hstep _ =>
    have hlocal := client_cases hstep
    exact h.of_put hc ((h.ok _ _ hc).of_local hlocal) hlocal.added
      (fun hnot => absurd (List.mem_append_right _ (List.mem_singleton_self _)) hnot) rfl rfl
      fun _ => List.mem_append_left _
  | @lockAdd i c hc hpoint _ =>
    have hok : ClientOk { c with point := .inserting } := by
      refine ⟨fun _ => (h.ok i c hc).fresh (Or.inl hpoint), by simp, fun hclosed => ?_⟩
      have hend := ((h.ok i c hc).socket hclosed).1
      simp [hpoint] at hend
    exact h.of_put hc hok rfl (fun _ _ => ⟨nofun, nofun⟩) rfl rfl fun _ => id
  | @lockRemove i c hc hpoint _ =>
    have hok : ClientOk { c with point := .erasing } := by
      refine ⟨by simp, fun _ => (h.ok i c hc).entered (Or.inl hpoint), fun hclosed => ?_⟩
      have hend := ((h.ok i c hc).socket hclosed).1
      simp [hpoint] at hend
    exact h.of_put hc hok rfl (fun _ _ => ⟨nofun, nofun⟩) rfl rfl fun _ => id
  | insert hc hpoint => exact h.of_insert hc hpoint
  | erase hc hpoint => exact h.of_erase hguarded.sorted hc hpoint
  | pushed _ => exact h.of_aside rfl rfl fun _ => List.mem_append_left _
  | @sent i c conn _ _ hc _ =>
    have hok : ClientOk { c with conn := conn } :=
      ⟨(h.ok i c hc).fresh, (h.ok i c hc).entered, (h.ok i c hc).socket⟩
    exact h.of_put hc hok rfl (h.alive i c hc) rfl rfl fun _ => id
  | _ => exact h.of_aside rfl rfl fun _ => id

/-! ## The pusher -/

variable {pf : Platform} {kind : PushKind} {maxClients : ℕ} {es : List (PushEvent I)}

/-- So it is in every state of a run, whatever the order of the steps. -/
theorem members_of_run (h : (pushServer pf kind maxClients).Run .init es s) : Members s := by
  have hall : Listed s ∧ Guarded s ∧ Members s :=
    h.invariant (I := fun s => Listed s ∧ Guarded s ∧ Members s)
      (fun _ _ _ hs hstep => ⟨listed_step hs.1 (step_cases hstep).2,
        guarded_step hs.2.1 hs.1 (step_cases hstep).2,
        members_step hs.2.2 hs.1 hs.2.1 (step_cases hstep).2⟩)
      ⟨listed_init, guarded_init, members_init⟩
  exact hall.2.2

/-- An element of the set belongs to a worker that is entered, with an open socket, unless it has been
left behind. -/
theorem live_of_mem (h : (pushServer pf kind maxClients).Run .init es s) {i : I} (hmem : i ∈ s.elements)
    (hnot : .abandoned i ∉ s.log) :
    ∃ c, s.client i = some c ∧ c.added = true ∧ c.socketClosed = false ∧ c.point ≠ .ending ∧
      c.point ≠ .done ∧ c.point ≠ .closing ∧ c.point ≠ .adding ∧ c.point ≠ .inserting := by
  have hmembers := members_of_run h
  obtain ⟨c, hc, hadded⟩ := hmembers.kept i hnot hmem
  have hok := hmembers.ok i c hc
  obtain ⟨hnotEnding, hnotOver⟩ := hmembers.alive i c hc hnot hadded
  have hsocket : c.socketClosed = false := by
    refine Bool.not_eq_true _ ▸ fun hclosed => ?_
    rw [(hok.socket hclosed).2] at hadded
    cases hadded
  have hfresh : ¬ (c.point = .adding ∨ c.point = .inserting ∨ c.point = .closing) := by
    intro hpoint
    rw [hok.fresh hpoint] at hadded
    cases hadded
  rw [not_or, not_or] at hfresh
  exact ⟨c, hc, hadded, hsocket, hnotEnding, hnotOver, hfresh.2.2, hfresh.1, hfresh.2.1⟩

/-- Unless a worker was ended by an exception and left its element behind at this address, a connection
exists, is entered and has an open socket as long as the pusher uses it; and its worker is in its loop
or waits for the mutex. -/
theorem pusher_uses_live (h : (pushServer pf kind maxClients).Run .init es s) (i : I)
    (huse : s.pusher = .visit (some i) ∨ s.pusher = .sending i) (hnot : .abandoned i ∉ s.log) :
    ∃ c, s.client i = some c ∧ c.added = true ∧ c.socketClosed = false ∧
      (c.point = .head ∨ c.point = .body ∨ c.point = .leaving ∨ c.point = .removing) := by
  have hguarded := guarded_of_run h
  obtain ⟨c, hc, hadded, hsocket, hpoint⟩ := live_of_mem h (hguarded.iterator i huse) hnot
  have hin : InPush s.pusher := by
    obtain huse | huse := huse
    · rw [huse]
      trivial
    · rw [huse]
      trivial
  have hcrit : ¬ IsCritical c.point := by
    intro hcrit
    have hheld := (hguarded.worker i).mpr ⟨c, hc, hcrit⟩
    rw [hguarded.pusher.mpr hin] at hheld
    cases hheld
  refine ⟨c, hc, hadded, hsocket, ?_⟩
  unfold IsCritical at hcrit
  generalize c.point = p at hpoint hcrit
  cases p <;> simp at hpoint hcrit ⊢

end

/-! ## Runs -/

/-- The pusher sends to the client that has just entered. -/
theorem pusher_uses_live_firstPush :
    ∃ s, System.exec (PushState.step .plain wsPush 2) .init firstPush = some s ∧
      s.pusher = .sending 7 ∧ ∃ c, s.client 7 = some c ∧ c.added = true ∧ c.socketClosed = false ∧
        (c.point = .head ∨ c.point = .body ∨ c.point = .leaving ∨ c.point = .removing) :=
  ⟨_, rfl, rfl, pusher_uses_live (System.run_ofStep_iff.mpr rfl :
    (pushServer .plain wsPush 2).Run .init firstPush _) 7 (Or.inr rfl) (by decide)⟩

/-- A client that is reset: its worker ends by the exception of `read` and is destroyed when the next
client connects. -/
def resetClient : List (PushEvent ℕ) :=
  [.quit, .accept .client, .isActive, .start (some 7) [], .worker 7 .test,
    .worker 7 (.pass (.upgraded (.ret ()))), .lock 7, .update 7, .worker 7 .test,
    .worker 7 (.pass .fails), .worker 7 .finish, .quit, .accept .client, .isActive, .join, .push, .push,
    .push]

/-- The condition is needed: here the pusher uses a connection that no longer exists. -/
theorem pusher_uses_destroyed :
    ∃ s, System.exec (PushState.step .plain wsPush 2) .init resetClient = some s ∧
      s.pusher = .sending 7 ∧ s.client 7 = none ∧ s.log = [.added 7, .abandoned 7] :=
  ⟨_, rfl, rfl, rfl, rfl⟩

end CppSocks.Analysis.Push
