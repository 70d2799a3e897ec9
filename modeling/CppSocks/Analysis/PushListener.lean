import CppSocks.Analysis.PushDelivery
import CppSocks.Analysis.PushLifetime
import CppSocks.Analysis.PushWire

/-!
# What a listening client reads

A client of a push server that sends nothing itself. From the moment at which its
connection has been entered, all bytes on the connection come from the pusher, and
the client reads from them the counters it has been sent, one after the other,
whatever the other threads do and however the stream is cut.
-/

set_option autoImplicit false

namespace CppSocks.Analysis.Push

open CppSocks.Model CppSocks.Interface Foundation

section

variable {I : Type} [LinearOrder I]

/-- A step at which the worker at an address does not use the connection, nor change the set. -/
def IsSilent (i : I) (e : PushEvent I) : Prop :=
  e ≠ .update i ∧ ∀ p, e ≠ .worker i (.pass (.handled p))

section

variable {pf : Platform} {kind : PushKind} {quit : Bool} {c c' : PushClient}

/-- A worker that is entered uses its connection only where its handler does. -/
theorem conn_of_silent {e : WorkerEvent} (h : c.step pf kind quit e = some c') (hadded : c.added = true)
    (hsilent : ∀ p, e ≠ .pass (.handled p)) : c'.conn = c.conn := by
  unfold PushClient.step at h
  cases e with
  | pass r =>
    obtain ⟨_, hpass⟩ := Option.ite_none_right_eq_some.mp h
    unfold PushClient.pass at hpass
    cases r with
    | handled p => exact absurd rfl (hsilent p)
    | upgraded p =>
      obtain ⟨hnew, _⟩ := Option.ite_none_left_eq_some.mp hpass
      simp [hadded] at hnew
    | _ =>
      obtain rfl := Option.some.inj hpass
      rfl
  | _ =>
    obtain ⟨_, hc⟩ := Option.ite_none_right_eq_some.mp h
    obtain rfl := Option.some.inj hc
    rfl

end

/-- What a client has read since a moment at which it had been sent `got` and its connection had
`before`: the counters that it has been sent since. -/
structure Heard (wire : ℕ → Bytes) (got : List ℕ) (before : Bytes) (inbox : List ℕ) (conn : Conn) :
    Prop where
  isOpen : conn.closed = false
  accepts : Accepts conn
  heard : ∃ cnts, inbox = got ++ cnts ∧ conn.log.written = before ++ cnts.flatMap wire

/-- One more counter is sent: its item is on the wire behind the others, as a whole. -/
theorem heard_sent {pf : Platform} {kind : PushKind} {wire : ℕ → Bytes} (hwired : Wired pf kind wire)
    {got : List ℕ} {before : Bytes} {inbox : List ℕ} {c c' : Conn} {cnt n : ℕ}
    (h : Heard wire got before inbox c)
    (hsend : (kind.send (cnt % SIZE_MOD)).run pf c = (.ret n, c')) :
    Heard wire got before (inbox ++ [cnt]) c' := by
  obtain ⟨d, hd, hopen, hacc, hwritten⟩ := send_accepts (hwired.length_lt cnt) h.isOpen h.accepts
  obtain ⟨m, hrun⟩ := hwired.ret cnt c d _ hd
  have hc' : d = c' := (Prod.mk.inj (hrun.symm.trans hsend)).2
  obtain ⟨cnts, hinbox, hbytes⟩ := h.heard
  refine ⟨hc' ▸ hopen, hc' ▸ hacc, cnts ++ [cnt], by rw [hinbox, List.append_assoc], ?_⟩
  rw [← hc', hwritten, hbytes, List.flatMap_append, List.append_assoc]
  simp

section

variable {pf : Platform} {kind : PushKind} {maxClients : ℕ} {s t : PushState I} {i : I}
  {wire : ℕ → Bytes} {got : List ℕ} {before : Bytes}

/-- The client at `i` has heard what it has been sent. -/
def Hears (wire : ℕ → Bytes) (got : List ℕ) (before : Bytes) (s : PushState I) (i : I) : Prop :=
  ∀ c, s.client i = some c → c.added = true → Heard wire got before (s.inbox i) c.conn

omit [LinearOrder I] in
/-- A step that leaves the client, or what it has been sent and its connection, alone. -/
theorem Hears.of_same (h : Hears wire got before s i) (hinbox : t.inbox i = s.inbox i)
    (hclient : ∀ c, t.client i = some c → c.added = true →
      ∃ d, s.client i = some d ∧ d.added = true ∧ c.conn = d.conn) : Hears wire got before t i := by
  intro c hc hadded
  obtain ⟨d, hd, hin, hconn⟩ := hclient c hc hadded
  rw [hinbox, hconn]
  exact h d hd hin

/-- A step of another client, or one that neither enters this client nor uses its connection, does
not change what it hears. -/
theorem Hears.of_put {j : I} {c c' : PushClient} (h : Hears wire got before s i) (hc : s.client j = some c)
    (hinbox : t.inbox i = s.inbox i) (hclient : t.client = (s.put j (some c')).client)
    (hsame : j = i → c'.added = true → c.added = true ∧ c'.conn = c.conn) :
    Hears wire got before t i := by
  refine h.of_same hinbox fun d hd hadded => ?_
  rw [hclient] at hd
  by_cases hij : i = j
  · subst hij
    rw [client_put_self, Option.some.injEq] at hd
    subst hd
    obtain ⟨hin, hconn⟩ := hsame rfl hadded
    exact ⟨c, hc, hin, hconn⟩
  · exact ⟨d, (client_put_ne s hij _).symm.trans hd, hadded, rfl⟩

/-- Every step of the program keeps what an entered client has heard, if its own worker writes
nothing. -/
theorem hears_step (hwired : Wired pf kind wire) {e : PushEvent I} (h : Hears wire got before s i)
    (hsilent : IsSilent i e) (hstep : PushStep pf kind maxClients s e t) : Hears wire got before t i := by
  cases hstep with
  | @join k j _ _ _ =>
    refine h.of_same rfl fun c hc hadded => ?_
    by_cases hij : i = j
    · subst hij
      have hnone : (joined s k i).client i = none := client_put_self s i _
      rw [hnone] at hc
      cases hc
    · exact ⟨c, (client_put_ne s hij _).symm.trans hc, hadded, rfl⟩
  | @start j point script _ _ _ =>
    refine h.of_same rfl fun c hc hadded => ?_
    by_cases hij : i = j
    · subst hij
      have hself : (started s i ⟨point, false, false, Conn.init script⟩).client i =
          some ⟨point, false, false, Conn.init script⟩ := client_put_self s i _
      rw [hself, Option.some.injEq] at hc
      rw [← hc] at hadded
      cases hadded
    · exact ⟨c, (client_put_ne s hij _).symm.trans hc, hadded, rfl⟩
  | finish _ _ =>
    refine h.of_same rfl fun c hc hadded => ⟨c, ?_, hadded, rfl⟩
    change (if i ∈ s.workers then none else s.client i) = some c at hc
    split at hc
    · cases hc
    · exact hc
  | @worker j e c c' hc hstep _ =>
    refine h.of_put hc rfl rfl ?_
    rintro rfl hadded
    have hin : c.added = true := (client_cases hstep).added ▸ hadded
    exact ⟨hin, conn_of_silent hstep hin fun p hp => hsilent.2 p (hp ▸ rfl)⟩
  | @abandon j e c c' hc hstep _ =>
    refine h.of_put hc rfl rfl ?_
    rintro rfl hadded
    have hin : c.added = true := (client_cases hstep).added ▸ hadded
    exact ⟨hin, conn_of_silent hstep hin fun p hp => hsilent.2 p (hp ▸ rfl)⟩
  | lockAdd hc _ _ => exact h.of_put hc rfl rfl fun _ hadded => ⟨hadded, rfl⟩
  | lockRemove hc _ _ => exact h.of_put hc rfl rfl fun _ hadded => ⟨hadded, rfl⟩
  | @insert j c hc _ =>
    have hji : j ≠ i := fun hji => hsilent.1 (hji ▸ rfl)
    refine h.of_put hc ?_ rfl fun heq => absurd heq hji
    change (if j ∈ s.elements then s.inbox else Function.update s.inbox j []) i = s.inbox i
    split
    · rfl
    · exact Function.update_of_ne (Ne.symm hji) _ _
  | @erase j c hc _ =>
    have hji : j ≠ i := fun hji => hsilent.1 (hji ▸ rfl)
    exact h.of_put hc rfl rfl fun heq => absurd heq hji
  | @sent j c conn n hpoint hc hsend =>
    have hclient : (sentTo s j c conn).client = (s.put j (some { c with conn := conn })).client := rfl
    have hinbox : (sentTo s j c conn).inbox = Function.update s.inbox j (s.inbox j ++ [s.cnt]) := rfl
    by_cases hji : j = i
    · subst hji
      intro d hd hadded
      rw [hclient, client_put_self, Option.some.injEq] at hd
      rw [hinbox, Function.update_self, ← hd]
      exact heard_sent hwired (h c hc (hd ▸ hadded : ({ c with conn := conn } : PushClient).added = true))
        hsend
    · refine h.of_put hc ?_ hclient fun heq => absurd heq hji
      rw [hinbox]
      exact Function.update_of_ne (Ne.symm hji) _ _
  | _ => exact h

/-- From a moment at which a connection has been entered and is open, the bytes on it are those of the
counters that the pusher sends it, as long as its worker does not use it. -/
theorem hears_run (hwired : Wired pf kind wire) {es : List (PushEvent I)} {c c' : PushClient}
    (h : (pushServer pf kind maxClients).Run s es t) (hsilent : ∀ e ∈ es, IsSilent i e)
    (hc : s.client i = some c) (hopen : c.conn.closed = false) (hacc : Accepts c.conn)
    (hc' : t.client i = some c') (hadded : c'.added = true) :
    ∃ cnts, t.inbox i = s.inbox i ++ cnts ∧
      c'.conn.log.written = c.conn.log.written ++ cnts.flatMap wire := by
  have hstart : Hears wire (s.inbox i) c.conn.log.written s i := by
    intro d hd _
    rw [hc, Option.some.injEq] at hd
    rw [← hd]
    exact ⟨hopen, hacc, [], by rw [List.append_nil], by rw [List.flatMap_nil, List.append_nil]⟩
  have hall : Hears wire (s.inbox i) c.conn.log.written t i := by
    clear hc hopen hacc hc' hadded
    generalize s.inbox i = got, c.conn.log.written = before at hstart
    induction h with
    | nil s => exact hstart
    | cons hst _ ih =>
      refine ih (fun e he => hsilent e (List.mem_cons_of_mem _ he)) ?_
      exact hears_step hwired hstart (hsilent _ List.mem_cons_self) (step_cases hst).2
  exact (hall c' hc' hadded).heard

/-! ## What it reads -/

/-- What an element of the set has been sent are consecutive counters. -/
theorem inbox_consecutive {es : List (PushEvent I)} (h : (pushServer pf kind maxClients).Run .init es s)
    (hi : i ∈ s.elements) : ∃ first n, s.inbox i = List.range' first n := by
  obtain ⟨b, hrun, hshows⟩ := shows_of_run h
  obtain ⟨got, hgot, hyes, hno⟩ := hshows.member i hi
  obtain ⟨first, hrange, hround⟩ := Broadcast.inbox_consecutive hrun hgot
  by_cases hv : Visited s.pusher i
  · have hsleep : s.pusher ≠ .sleep := by
      intro hpoint
      rw [hpoint] at hv
      exact hv
    have hcnt : b.round = s.cnt := by rw [hshows.round, nextRound, if_neg hsleep]
    refine ⟨first, got.length + 1, ?_⟩
    rw [hyes hv, List.range'_concat, ← hrange, Nat.one_mul, hround, hcnt]
  · exact ⟨first, got.length, (hno hv).trans hrange⟩

/-- The end of a list of consecutive numbers. -/
theorem append_eq_range' {before cnts : List ℕ} {first n : ℕ} (h : before ++ cnts = List.range' first n) :
    cnts = List.range' (first + before.length) (n - before.length) := by
  have hdrop := congrArg (List.drop before.length) h
  rw [List.drop_left, List.drop_range', Nat.mul_one] at hdrop
  exact hdrop

variable {es es' : List (PushEvent I)} {c c' : PushClient} {read : List Bytes → List (Option ℕ)}

/-- What both programs have in common: the client reads consecutive counters from the bytes,
whatever reads these are cut into. -/
theorem reads_counters (hread : ∀ pieces cnts, pieces.flatten = List.flatMap wire cnts →
      read pieces = cnts.map fun cnt => some (cnt % SIZE_MOD)) (hwired : Wired pf kind wire)
    (h : (pushServer pf kind maxClients).Run .init es s) (hc : s.client i = some c)
    (hopen : c.conn.closed = false) (hacc : Accepts c.conn)
    (hrun : (pushServer pf kind maxClients).Run s es' t) (hsilent : ∀ e ∈ es', IsSilent i e)
    (hc' : t.client i = some c') (hadded : c'.added = true) (pieces : List Bytes)
    (hpieces : c'.conn.log.written = c.conn.log.written ++ pieces.flatten) :
    ∃ first n, t.inbox i = s.inbox i ++ List.range' first n ∧
      read pieces = (List.range' first n).map fun cnt => some (cnt % SIZE_MOD) := by
  obtain ⟨cnts, hinbox, hbytes⟩ := hears_run hwired hrun hsilent hc hopen hacc hc' hadded
  have hall := h.append hrun
  obtain ⟨first, n, hrange⟩ := inbox_consecutive hall ((members_of_run hall).entered i c' hc' hadded)
  have hcnts := append_eq_range' (hinbox.symm.trans hrange)
  refine ⟨first + (s.inbox i).length, n - (s.inbox i).length, hcnts ▸ hinbox, ?_⟩
  rw [← hcnts]
  exact hread pieces cnts (List.append_cancel_left (hpieces.symm.trans hbytes))

/-- A client that is entered, and that sends nothing, reads consecutive counters, modulo the range of
the counter, whatever all other threads and clients do and however the network cuts the stream. They
are what `push` has sent it since. -/
theorem listener_reads_counters
    (hkind : kind = wsPush ∧ read = readFrames ∨ kind = tcpPush ∧ read = readStrings)
    (h : (pushServer pf kind maxClients).Run .init es s) (hc : s.client i = some c)
    (hopen : c.conn.closed = false) (hacc : Accepts c.conn)
    (hrun : (pushServer pf kind maxClients).Run s es' t) (hsilent : ∀ e ∈ es', IsSilent i e)
    (hc' : t.client i = some c') (hadded : c'.added = true) (pieces : List Bytes)
    (hpieces : c'.conn.log.written = c.conn.log.written ++ pieces.flatten) :
    ∃ first n, t.inbox i = s.inbox i ++ List.range' first n ∧
      read pieces = (List.range' first n).map fun cnt => some (cnt % SIZE_MOD) := by
  obtain ⟨rfl, rfl⟩ | ⟨rfl, rfl⟩ := hkind
  · exact reads_counters (fun _ _ => readFrames_counters) (wired_wsPush pf) h hc hopen hacc hrun hsilent
      hc' hadded pieces hpieces
  · exact reads_counters (fun _ _ => readStrings_counters) (wired_tcpPush pf) h hc hopen hacc hrun
      hsilent hc' hadded pieces hpieces

end

end

/-! ## A run -/

/-- The first counter in a frame, read in two pieces. -/
theorem listener_reads_counters_firstPush :
    ∃ s t, System.exec (PushState.step .plain wsPush 2) .init firstPush = some s ∧
      System.exec (PushState.step .plain wsPush 2) s [.push] = some t ∧
      ∃ first n, t.inbox 7 = s.inbox 7 ++ List.range' first n ∧
        readFrames [[0x81, 0x02, 0x30], [0x0A]] =
          (List.range' first n).map fun cnt => some (cnt % SIZE_MOD) := by
  have hboth : ((System.exec (PushState.step .plain wsPush 2) .init firstPush).bind fun s =>
      (System.exec (PushState.step .plain wsPush 2) s [.push]).map fun t => (s.client 7, t.client 7)) =
      some (some ⟨.head, true, false, Conn.init []⟩,
        some ⟨.head, true, false, { Conn.init [] with log := [.wrote [0x81, 0x02, 0x30, 0x0A]] }⟩) := by
    decide +kernel
  obtain ⟨s, hs, hboth⟩ := Option.bind_eq_some_iff.mp hboth
  obtain ⟨t, ht, hclients⟩ := Option.map_eq_some_iff.mp hboth
  obtain ⟨hc, hc'⟩ := Prod.mk.inj hclients
  refine ⟨s, t, hs, ht, ?_⟩
  exact listener_reads_counters (Or.inl ⟨rfl, rfl⟩) (System.run_ofStep_iff.mpr hs) hc rfl nofun
    (System.run_ofStep_iff.mpr ht) (by simp [IsSilent]) hc' rfl _ rfl

end CppSocks.Analysis.Push
