import CppSocks.Analysis.PushRegistry
import CppSocks.Foundation.Broadcast

/-!
# A push is a broadcast

The loop over the set takes many steps, between which the other threads run. Seen
from the set it is one step nevertheless: the moment at which the pusher leaves
`push`. Each run of a push server is matched by a run of `Broadcast`, whose joins and
leaves are the changes of the set (`shows_of_run`).

So an element that has entered the set and not left it has been sent the counters
of all rounds since then, each once and in order (`rounds_delivered`).
-/

set_option autoImplicit false

namespace CppSocks.Model

open Foundation

/-- What a record means to the group. -/
def PushRecord.label {I : Type} : PushRecord I → Option (Broadcast.Label I)
  | .added i => some (.join i)
  | .removed i => some (.leave i)
  | .pushed => some .push
  | .abandoned _ => none

end CppSocks.Model

namespace CppSocks.Analysis.Push

open CppSocks.Model Foundation

section

variable {I : Type} [LinearOrder I]

/-- The iterator has passed the place of an element. -/
def Passed (it : Option I) (i : I) : Prop := ∀ j, it = some j → i < j

/-- The pusher has sent the current counter to an element. -/
def Visited (p : PusherPoint I) (i : I) : Prop :=
  match p with
  | .visit it => Passed it i
  | .sending j => i < j
  | _ => False

/-- The number of the round that is not yet over. -/
def nextRound (s : PushState I) : ℕ := if s.pusher = .sleep then s.cnt + 1 else s.cnt

/-- The group that a state shows: its members are the elements of the set, and they have the counters
of the rounds that are over. -/
structure Shows (s : PushState I) (b : Broadcast I) : Prop where
  round : b.round = nextRound s
  member : ∀ i ∈ s.elements, ∃ got, b.inbox i = some got ∧
    (Visited s.pusher i → s.inbox i = got ++ [s.cnt]) ∧ (¬ Visited s.pusher i → s.inbox i = got)
  stranger : ∀ i, i ∉ s.elements → b.inbox i = none

/-- A push server that has not begun shows an empty broadcast. -/
theorem shows_init : Shows (PushState.init : PushState I) Broadcast.empty :=
  ⟨rfl, nofun, fun _ _ => rfl⟩

variable {s t : PushState I} {b : Broadcast I} {i j : I}

/-- An iterator at an element has passed the elements before it. -/
theorem passed_some {k : I} : Passed (some k) i ↔ i < k := by
  simp [Passed]

/-- Outside of `push` no element has been visited in the round. -/
theorem visited_of_not_inPush {p : PusherPoint I} (h : ¬ InPush p) (i : I) : ¬ Visited p i := by
  cases p with
  | visit it => exact absurd trivial h
  | sending j => exact absurd trivial h
  | _ => exact id

/-- No element lies in front of the first. -/
theorem not_passed_head (h : s.elements.Pairwise (· < ·)) (hi : i ∈ s.elements) :
    ¬ Passed s.elements.head? i := by
  intro hpassed
  cases hl : s.elements with
  | nil => rw [hl] at hi; cases hi
  | cons k l =>
    rw [hl] at hpassed hi h
    have hlt : i < k := hpassed k rfl
    obtain rfl | hi := List.mem_cons.mp hi
    · exact lt_irrefl i hlt
    · exact lt_asymm hlt (List.rel_of_pairwise_cons h hi)

/-- The first that meets a condition in an ordered list comes before all others that meet it. -/
theorem find?_le {p : I → Bool} {l : List I} (h : l.Pairwise (· < ·)) {k : I}
    (hk : l.find? p = some k) (hj : j ∈ l) (hp : p j = true) : k ≤ j := by
  induction l with
  | nil => cases hj
  | cons a l ih =>
    rw [List.find?_cons] at hk
    split at hk
    · rw [← Option.some.inj hk]
      obtain rfl | hj := List.mem_cons.mp hj
      · exact le_refl j
      · exact le_of_lt (List.rel_of_pairwise_cons h hj)
    · rename_i hnot
      obtain rfl | hj := List.mem_cons.mp hj
      · rw [hp] at hnot
        cases hnot
      · exact ih (List.Pairwise.of_cons h) hk hj

/-- The iterator behind an element has passed what comes up to it. -/
theorem passed_next (h : s.elements.Pairwise (· < ·)) (hj : j ∈ s.elements) :
    Passed (s.next i) j ↔ j ≤ i := by
  unfold Passed PushState.next
  constructor
  · intro hpassed
    by_contra hlt
    rw [not_le] at hlt
    cases hk : s.elements.find? (i < ·) with
    | none =>
      have hnone := List.find?_eq_none.mp hk j hj
      simp [hlt] at hnone
    | some k =>
      have hle := find?_le h hk hj (by simpa using hlt)
      exact not_lt_of_ge hle (hpassed k hk)
  · intro hle k hk
    have hlt : i < k := by simpa using List.find?_some hk
    exact lt_of_le_of_lt hle hlt

/-- A step that leaves the set and the pusher alone. -/
theorem Shows.of_aside (h : Shows s b) (helements : t.elements = s.elements)
    (hpusher : t.pusher = s.pusher) (hcnt : t.cnt = s.cnt) (hinbox : t.inbox = s.inbox) :
    Shows t b where
  round := by rw [h.round, nextRound, nextRound, hpusher, hcnt]
  member := fun i hi => by
    rw [hpusher, hcnt, hinbox]
    exact h.member i (helements ▸ hi)
  stranger := fun i hi => h.stranger i (helements ▸ hi)

/-- A step of the pusher that sends nothing. -/
theorem Shows.of_pusher (h : Shows s b) (helements : t.elements = s.elements)
    (hinbox : t.inbox = s.inbox) (hround : nextRound t = nextRound s)
    (hvisited : ∀ i ∈ s.elements, Visited t.pusher i ↔ Visited s.pusher i)
    (hcnt : ∀ i ∈ s.elements, Visited s.pusher i → t.cnt = s.cnt) : Shows t b where
  round := by rw [h.round, hround]
  member := fun i hi => by
    rw [helements] at hi
    obtain ⟨got, hgot, hyes, hno⟩ := h.member i hi
    refine ⟨got, hgot, fun hv => ?_, fun hv => ?_⟩
    · have hv' := (hvisited i hi).mp hv
      rw [hinbox, hyes hv', hcnt i hi hv']
    · rw [hinbox, hno (fun hv' => hv ((hvisited i hi).mpr hv'))]
  stranger := fun i hi => h.stranger i (helements ▸ hi)

/-- An element enters the set. -/
theorem shows_insert (h : Shows s b) (hnot : i ∉ s.elements) (hout : ¬ InPush s.pusher)
    (hpusher : t.pusher = s.pusher) (hcnt : t.cnt = s.cnt)
    (helements : t.elements = s.elements.orderedInsert (· ≤ ·) i)
    (hinbox : t.inbox = Function.update s.inbox i []) : Shows t (b.put i (some [])) where
  round := by rw [Broadcast.put_round, h.round, nextRound, nextRound, hpusher, hcnt]
  member := fun j hj => by
    rw [helements, List.mem_orderedInsert] at hj
    rw [hpusher, hinbox]
    have hv := visited_of_not_inPush hout j
    by_cases hji : j = i
    · subst hji
      refine ⟨[], Broadcast.put_inbox_self b j _, fun hyes => absurd hyes hv, fun _ => ?_⟩
      exact Function.update_self j [] s.inbox
    · obtain ⟨got, hgot, _, hno⟩ := h.member j (hj.resolve_left hji)
      refine ⟨got, (Broadcast.put_inbox_ne b hji _).trans hgot, fun hyes => absurd hyes hv,
        fun _ => ?_⟩
      rw [Function.update_of_ne hji, hno hv]
  stranger := fun j hj => by
    rw [helements, List.mem_orderedInsert, not_or] at hj
    rw [Broadcast.put_inbox_ne b hj.1, h.stranger j hj.2]

/-- An element leaves the set. -/
theorem shows_erase (h : Shows s b) (hsorted : s.elements.Pairwise (· < ·))
    (hpusher : t.pusher = s.pusher) (hcnt : t.cnt = s.cnt)
    (helements : t.elements = s.elements.erase i) (hinbox : t.inbox = s.inbox) :
    Shows t (b.put i none) where
  round := by rw [Broadcast.put_round, h.round, nextRound, nextRound, hpusher, hcnt]
  member := fun j hj => by
    rw [helements, List.Nodup.mem_erase_iff (hsorted.imp ne_of_lt)] at hj
    rw [hpusher, hcnt, hinbox, Broadcast.put_inbox_ne b hj.1]
    exact h.member j hj.2
  stranger := fun j hj => by
    rw [helements, List.Nodup.mem_erase_iff (hsorted.imp ne_of_lt)] at hj
    by_cases hji : j = i
    · rw [hji, Broadcast.put_inbox_self]
    · rw [Broadcast.put_inbox_ne b hji]
      exact h.stranger j fun hmem => hj ⟨hji, hmem⟩

/-- An element has been sent the current counter. -/
theorem shows_sent (h : Shows s b) (hsorted : s.elements.Pairwise (· < ·))
    (hpoint : s.pusher = .sending i) {c : PushClient} {conn : Conn} : Shows (sentTo s i c conn) b where
  round := by
    have hround : nextRound (sentTo s i c conn) = nextRound s := by
      simp [nextRound, sentTo, hpoint, PushState.put]
    rw [h.round, hround]
  member := fun j hj => by
    obtain ⟨got, hgot, hyes, hno⟩ := h.member j hj
    rw [hpoint] at hyes hno
    have hvisited : Visited (sentTo s i c conn).pusher j ↔ j ≤ i := passed_next hsorted hj
    have hinbox : (sentTo s i c conn).inbox j =
        Function.update s.inbox i (s.inbox i ++ [s.cnt]) j := rfl
    refine ⟨got, hgot, ?_⟩
    rw [hvisited, hinbox]
    by_cases hji : j = i
    · subst hji
      rw [Function.update_self, hno (lt_irrefl j)]
      exact ⟨fun _ => rfl, fun hnot => absurd (le_refl j) hnot⟩
    · rw [Function.update_of_ne hji]
      exact ⟨fun hle => hyes (lt_of_le_of_ne hle hji), fun hnle => hno fun hlt => hnle (le_of_lt hlt)⟩
  stranger := fun j hj => h.stranger j hj

/-- The pusher leaves `push`. -/
theorem shows_pushed (h : Shows s b) (hpoint : s.pusher = .visit none) :
    Shows { s.record .pushed with mtx := none, pusher := .sleep } b.push where
  round := by
    have hround : b.round = s.cnt := by
      rw [h.round, nextRound, hpoint, if_neg (by simp)]
    simp [Broadcast.push, nextRound, PushState.record, hround]
  member := fun j hj => by
    obtain ⟨got, hgot, hyes, _⟩ := h.member j hj
    have hround : b.round = s.cnt := by
      rw [h.round, nextRound, hpoint, if_neg (by simp)]
    have hall : Visited s.pusher j := by
      rw [hpoint]
      exact nofun
    refine ⟨got ++ [s.cnt], ?_, fun hv => absurd hv id, fun _ => hyes hall⟩
    rw [Broadcast.push_inbox, hgot, Option.map_some, hround]
  stranger := fun j hj => by
    rw [Broadcast.push_inbox, h.stranger j hj, Option.map_none]

/-- Each step is matched by the steps of the group that its records mean. -/
theorem shows_step {pf : Platform} {kind : PushKind} {maxClients : ℕ} {e : PushEvent I}
    (h : Shows s b) (hguarded : Guarded s) (hstep : PushStep pf kind maxClients s e t) :
    ∃ rs b', t.log = s.log ++ rs ∧ (Broadcast.system I).Run b (rs.filterMap PushRecord.label) b' ∧
      Shows t b' := by
  have hsilent : ∀ rs, t.log = s.log ++ rs → rs.filterMap PushRecord.label = [] → Shows t b →
      ∃ rs b', t.log = s.log ++ rs ∧ (Broadcast.system I).Run b (rs.filterMap PushRecord.label) b' ∧
        Shows t b' :=
    fun rs hlog hnone hshows => ⟨rs, b, hlog, hnone ▸ .nil b, hshows⟩
  have hnil : s.log = s.log ++ [] := (List.append_nil s.log).symm
  cases hstep with
  | abandon _ _ _ => exact hsilent [.abandoned _] rfl rfl (h.of_aside rfl rfl rfl rfl)
  | @insert i c hc hpoint =>
    have hout := not_inPush_of_critical hguarded hc (Or.inl hpoint)
    by_cases hmem : i ∈ s.elements
    · refine hsilent [] ?_ rfl (h.of_aside ?_ rfl rfl ?_)
      · exact (if_pos hmem).trans hnil
      · exact if_pos hmem
      · exact if_pos hmem
    · refine ⟨[.added i], b.put i (some []), if_neg hmem, .single (.join (h.stranger i hmem)), ?_⟩
      exact shows_insert h hmem hout rfl rfl (if_neg hmem) (if_neg hmem)
  | @erase i c hc hpoint =>
    by_cases hmem : i ∈ s.elements
    · obtain ⟨got, hgot, _⟩ := h.member i hmem
      refine ⟨[.removed i], b.put i none, if_pos hmem, .single (.leave hgot), ?_⟩
      exact shows_erase h hguarded.sorted rfl rfl rfl rfl
    · refine hsilent [] ?_ rfl (h.of_aside ?_ rfl rfl rfl)
      · exact (if_neg hmem).trans hnil
      · exact List.erase_of_not_mem hmem
  | test hpoint =>
    have hout : ¬ InPush s.pusher := by
      rw [hpoint]
      exact id
    have hout' : ¬ InPush (if s.signalStatus then PusherPoint.ended else .lock : PusherPoint I) := by
      split
      · exact id
      · exact id
    refine hsilent [] hnil rfl (h.of_pusher rfl rfl ?_ (fun i _ => ?_) fun _ _ _ => rfl)
    · simp only [nextRound, hpoint]
      split
      · rfl
      · rfl
    · exact iff_of_false (visited_of_not_inPush hout' i) (visited_of_not_inPush hout i)
  | wake hpoint =>
    have hout : ¬ InPush s.pusher := by
      rw [hpoint]
      exact id
    refine hsilent [] hnil rfl (h.of_pusher rfl rfl ?_ (fun i _ => ?_) fun i _ hv => ?_)
    · simp [nextRound, hpoint]
    · exact iff_of_false id (visited_of_not_inPush hout i)
    · exact absurd hv (visited_of_not_inPush hout i)
  | lock hpoint _ =>
    have hout : ¬ InPush s.pusher := by
      rw [hpoint]
      exact id
    refine hsilent [] hnil rfl (h.of_pusher rfl rfl ?_ (fun i hi => ?_) fun _ _ _ => rfl)
    · simp [nextRound, hpoint]
    · exact iff_of_false (not_passed_head hguarded.sorted hi) (visited_of_not_inPush hout i)
  | visit hpoint =>
    refine hsilent [] hnil rfl (h.of_pusher rfl rfl ?_ (fun i _ => ?_) fun _ _ _ => rfl)
    · simp [nextRound, hpoint]
    · rw [hpoint]
      exact passed_some.symm
  | sent hpoint hc _ => exact hsilent [] hnil rfl (shows_sent h hguarded.sorted hpoint)
  | pushed hpoint => exact ⟨[.pushed], b.push, rfl, .single .push, shows_pushed h hpoint⟩
  | _ => exact hsilent [] hnil rfl (h.of_aside rfl rfl rfl rfl)

variable {pf : Platform} {kind : PushKind} {maxClients : ℕ} {es : List (PushEvent I)}

/-- A run of a push server is a run of the group. -/
theorem shows_of_run (h : (pushServer pf kind maxClients).Run .init es s) :
    ∃ b, (Broadcast.system I).Run .empty (s.log.filterMap PushRecord.label) b ∧ Shows s b := by
  have hall : (Listed s ∧ Guarded s) ∧
      ∃ b, (Broadcast.system I).Run .empty (s.log.filterMap PushRecord.label) b ∧ Shows s b := by
    refine h.invariant (I := fun s => (Listed s ∧ Guarded s) ∧
      ∃ b, (Broadcast.system I).Run .empty (s.log.filterMap PushRecord.label) b ∧ Shows s b) ?_
      ⟨⟨listed_init, guarded_init⟩, .empty, .nil _, shows_init⟩
    rintro u e v ⟨⟨hlisted, hguarded⟩, b, hrun, hshows⟩ hstep
    have hcases := (step_cases hstep).2
    refine ⟨⟨listed_step hlisted hcases, guarded_step hguarded hlisted hcases⟩, ?_⟩
    obtain ⟨rs, b', hlog, hmatch, hshows'⟩ := shows_step hshows hguarded hcases
    refine ⟨b', ?_, hshows'⟩
    rw [hlog, List.filterMap_append]
    exact hrun.append hmatch
  exact hall.2

/-- The rounds of a broadcast are the completed calls of `push` in the log. -/
theorem count_label (rs : List (PushRecord I)) :
    Broadcast.rounds (rs.filterMap PushRecord.label) = rs.count .pushed := by
  induction rs with
  | nil => rfl
  | cons r rs ih =>
    unfold Broadcast.rounds at *
    cases r with
    | added i =>
      rw [List.filterMap_cons_some (rfl : PushRecord.label (.added i) = some (.join i)), List.count_cons_of_ne (by simp), ih,
        List.count_cons_of_ne (by simp)]
    | removed i =>
      rw [List.filterMap_cons_some (rfl : PushRecord.label (.removed i) = some (.leave i)), List.count_cons_of_ne (by simp), ih,
        List.count_cons_of_ne (by simp)]
    | pushed =>
      rw [List.filterMap_cons_some (rfl : PushRecord.label (.pushed : PushRecord I) = some .push),
        List.count_cons_self, ih, List.count_cons_self]
    | abandoned i => rw [List.filterMap_cons_none rfl, ih, List.count_cons_of_ne (by simp)]

/-- In every state that any interleaving of the threads can reach, an element that entered the set and
has not left it since has been sent exactly the counters of the rounds that were completed since then,
and that of the current round if the pusher has passed it: in order, without a gap, each once. -/
theorem rounds_delivered (h : (pushServer pf kind maxClients).Run .init es s) (i : I)
    (pre post : List (PushRecord I)) (hlog : s.log = pre ++ .added i :: post)
    (hstays : .removed i ∉ post) :
    i ∈ s.elements ∧
      (Visited s.pusher i →
        s.inbox i = List.range' (pre.count .pushed) (post.count .pushed + 1)) ∧
      (¬ Visited s.pusher i →
        s.inbox i = List.range' (pre.count .pushed) (post.count .pushed)) := by
  obtain ⟨b, hrun, hshows⟩ := shows_of_run h
  have hlabels : s.log.filterMap PushRecord.label =
      pre.filterMap PushRecord.label ++ .join i :: post.filterMap PushRecord.label := by
    rw [hlog, List.filterMap_append,
      List.filterMap_cons_some (rfl : PushRecord.label (.added i) = some (.join i))]
  have hleave : .leave i ∉ post.filterMap PushRecord.label := by
    intro hmem
    obtain ⟨r, hr, hlabel⟩ := List.mem_filterMap.mp hmem
    cases r with
    | removed j =>
      simp only [PushRecord.label, Option.some.injEq, Broadcast.Label.leave.injEq] at hlabel
      exact hstays (hlabel ▸ hr)
    | _ => simp [PushRecord.label] at hlabel
  have hround := Broadcast.round_eq hrun
  rw [hlabels] at hrun
  have hinbox := Broadcast.inbox_of_joined hrun hleave
  rw [count_label, count_label] at hinbox
  have hmem : i ∈ s.elements := by
    by_contra hnot
    rw [hshows.stranger i hnot] at hinbox
    cases hinbox
  obtain ⟨got, hgot, hyes, hno⟩ := hshows.member i hmem
  have heq : got = List.range' (pre.count .pushed) (post.count .pushed) :=
    Option.some.inj (hgot.symm.trans hinbox)
  refine ⟨hmem, fun hv => ?_, fun hv => heq ▸ hno hv⟩
  have hcnt : s.cnt = pre.count .pushed + post.count .pushed := by
    have hsleep : s.pusher ≠ .sleep := by
      intro hpoint
      rw [hpoint] at hv
      exact hv
    rw [hshows.round, nextRound, if_neg hsleep, count_label, hlog, List.count_append,
      List.count_cons_of_ne (by simp)] at hround
    simpa [Broadcast.empty] using hround
  rw [hyes hv, heq, hcnt, List.range'_concat, Nat.one_mul]

end

/-! ## A run -/

/-- One round, and a second one that has not ended. -/
def twoRounds : List (PushEvent ℕ) := firstPush ++ [.push, .push, .push, .push, .push, .push, .push]

/-- A client that has been sent two rounds. -/
theorem rounds_delivered_twoRounds :
    ∃ s, System.exec (PushState.step .plain wsPush 2) .init twoRounds = some s ∧ 7 ∈ s.elements ∧
      (Visited s.pusher 7 → s.inbox 7 = List.range' 0 2) ∧
      (¬ Visited s.pusher 7 → s.inbox 7 = List.range' 0 1) := by
  have hlog : (System.exec (PushState.step .plain wsPush 2) .init twoRounds).map PushState.log =
      some [.added 7, .pushed] := by decide +kernel
  obtain ⟨s, hs, hlog⟩ := Option.map_eq_some_iff.mp hlog
  exact ⟨s, hs, rounds_delivered (System.run_ofStep_iff.mpr hs) 7 [] [.pushed] hlog (by simp)⟩

end CppSocks.Analysis.Push
