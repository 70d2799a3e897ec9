import CppSocks.Analysis.LoopPasses
import CppSocks.Model.SocketLoop

/-!
# What the worker hands over

The loop hands each chunk that `read` returns to the handler, as it is, until a pass
that it does not complete: the quit condition holds at the loop head, or the connection
is closed there, or `read` returns `NUM_EOF`, or something throws (`stream_handed_over`).
`socketLoop_eq` connects the loop over the socket to the loop over the outcomes of its
passes.
-/

set_option autoImplicit false

namespace CppSocks.Analysis

open CppSocks.Model Foundation

section Refinement

variable {σ : Type} {pf : Platform} {H : ServerHandler σ}

/-- The number of bytes passes unchanged through the two integer types. -/
theorem size_of_chunk (chunk : Chunk) :
    ((chunk.bytes.length : ℤ) % SIZE_MOD).toNat = chunk.bytes.length := by
  have hle := chunk.le
  have hmax : MAX_SIZE = 4096 := rfl
  have hmod : (SIZE_MOD : ℤ) = 18446744073709551616 := rfl
  rw [hmod]
  omega

/-- The handler is given what `read` stored. -/
theorem onReceive_filled (chunk : Chunk) (w : ClientWorker σ) :
    ClientWorker.onReceive pf H chunk.bytes.length
        { w with buf := ClientWorker.fill w.buf chunk } =
      ClientWorker.receive pf H chunk w := by
  have hbegin : (ClientWorker.bufMem pf (ClientWorker.fill w.buf chunk)).StartsWith chunk.bytes :=
    ClientWorker.bufMem_fill_startsWith pf w.buf (List.append_nil _).symm
  rw [receive_apply]
  simp only [ClientWorker.onReceive, Act.bind_apply, Act.gets_apply, Act.modify_apply,
    size_of_chunk, hbegin.filterMap, ClientWorker.record, ClientWorker.handle, Act.zoom]

/-- `read` into the buffer of the worker. -/
def readBuf (r : RecvResult) : Action (ClientWorker σ) ℤ :=
  Act.zoom ClientWorker.buf (fun buf w => { w with buf := buf }) (SocketImpl.read r)

variable (pf H) in
/-- The part of a pass behind `isReadable`, if there is something to read. -/
def readPass (r : RecvResult) (rest : Action (ClientWorker σ) Unit) :
    Action (ClientWorker σ) Unit := do
  let len ← readBuf r
  if len = NUM_EOF then pure ()
  else if len = NUM_CONTINUE then rest
  else do
    ClientWorker.onReceive pf H len
    rest

/-- A chunk that was read is handed over. -/
theorem readPass_chunk (chunk : Chunk) (rest : Action (ClientWorker σ) Unit) (w : ClientWorker σ) :
    readPass pf H (.received chunk.bytes chunk.le) rest w =
      (ClientWorker.receive pf H chunk >>= fun _ => rest) w := by
  have hpos := chunk.pos
  have hread : readBuf (.received chunk.bytes chunk.le) w =
      (.ret (chunk.bytes.length : ℤ), { w with buf := ClientWorker.fill w.buf chunk }) := rfl
  have heof : ¬ (chunk.bytes.length : ℤ) = NUM_EOF := by
    rw [NUM_EOF]
    omega
  have hcontinue : ¬ (chunk.bytes.length : ℤ) = NUM_CONTINUE := by
    rw [NUM_CONTINUE]
    omega
  rw [readPass, Act.bind_of_ret hread, if_neg heof, if_neg hcontinue, Act.bind_apply,
    onReceive_filled, ← Act.bind_apply]

/-- A pass at whose loop head the quit condition holds. -/
theorem socketLoop_quit {p : Pass} (hquit : p.quit = true) (passes : List Pass)
    (w : ClientWorker σ) : ClientWorker.socketLoop pf H (p :: passes) w = (.ret (), w) := by
  rw [ClientWorker.socketLoop, Act.bind_of_ret (Act.gets_apply _ w), hquit]
  rfl

/-- A closed connection ends the loop before its pass. -/
theorem socketLoop_closed {p : Pass} {w : ClientWorker σ} (hclosed : H.isClosed w.handler = true)
    (passes : List Pass) : ClientWorker.socketLoop pf H (p :: passes) w = (.ret (), w) := by
  rw [ClientWorker.socketLoop, Act.bind_of_ret (Act.gets_apply _ w), hclosed, Bool.not_true,
    Bool.and_false]
  rfl

/-- A pass that gets behind the loop head. -/
theorem socketLoop_open {p : Pass} (hquit : p.quit = false) {w : ClientWorker σ}
    (hopen : H.isClosed w.handler = false) (passes : List Pass) :
    ClientWorker.socketLoop pf H (p :: passes) w =
      (Act.lift (SocketImpl.isReadable p.poll) >>= fun readable =>
        if readable then readPass pf H p.recv (ClientWorker.socketLoop pf H passes)
        else ClientWorker.socketLoop pf H passes) w := by
  rw [ClientWorker.socketLoop, Act.bind_of_ret (Act.gets_apply _ w), hquit, hopen]
  rfl

/-- `isReadable` has a result or throws. -/
theorem isReadable_cases (poll : PollResult) :
    (∃ readable, SocketImpl.isReadable poll = .ret readable) ∨
      ∃ e, SocketImpl.isReadable poll = .exn e := by
  cases poll with
  | returned r revents => exact Or.inl ⟨_, rfl⟩
  | failed errno =>
    cases errno with
    | EINTR => exact Or.inl ⟨false, rfl⟩
    | EAGAIN => exact Or.inl ⟨false, rfl⟩
    | other text => exact Or.inr ⟨_, rfl⟩

/-- The outcomes of the passes that are made before the quit condition holds. -/
def outcomes (passes : List Pass) : List LoopEvent :=
  (passes.takeWhile fun p => !p.quit).map Pass.event

/-- A pass on which quit is not set shows its event to the worker. -/
theorem outcomes_cons {p : Pass} (hquit : p.quit = false) (passes : List Pass) :
    outcomes (p :: passes) = p.event :: outcomes passes := by
  rw [outcomes, List.takeWhile_cons_of_pos (by rw [hquit]; rfl)]
  rfl

/-- The loop over the socket is the loop over the outcomes of its passes. -/
theorem socketLoop_eq (passes : List Pass) (w : ClientWorker σ) :
    ClientWorker.socketLoop pf H passes w = ClientWorker.loop pf H (outcomes passes) w := by
  induction passes generalizing w with
  | nil => rfl
  | cons p passes ih =>
    have hrest : ClientWorker.socketLoop pf H passes = ClientWorker.loop pf H (outcomes passes) :=
      funext ih
    cases hquit : p.quit with
    | true =>
      have hnone : outcomes (p :: passes) = [] := by
        rw [outcomes, List.takeWhile_cons_of_neg (by rw [hquit]; decide), List.map_nil]
      rw [socketLoop_quit hquit, hnone]
      rfl
    | false =>
      rw [outcomes_cons hquit]
      cases hclosed : H.isClosed w.handler with
      | true => rw [socketLoop_closed hclosed, loop_closed hclosed]
      | false =>
        rw [socketLoop_open hquit hclosed, loop_open hclosed, hrest]
        obtain ⟨readable, hpoll⟩ | ⟨e, hpoll⟩ := isReadable_cases p.poll
        · rw [hpoll, Act.bind_of_ret (Act.lift_apply _ w)]
          cases readable with
          | false =>
            rw [if_neg Bool.false_ne_true]
            simp only [Pass.event, hpoll]
          | true =>
            rw [if_pos rfl]
            simp only [Pass.event, hpoll]
            rcases p.recv with ⟨_ | ⟨b, bytes⟩, le⟩ | _ | _ | text
            · rfl
            · exact readPass_chunk ⟨b :: bytes, Pass.length_cons_pos b bytes, le⟩ _ w
            · rfl
            · rfl
            · rfl
        · rw [hpoll, Act.bind_of_exn (Act.lift_apply _ w)]
          simp only [Pass.event, hpoll]
          rfl

end Refinement

/-! ## One pass -/

section Pass

variable {σ : Type} {pf : Platform} {H : ServerHandler σ}

/-- What a pass that gets behind the loop head can be. -/
theorem event_cases (p : Pass) :
    (p.atEnd = true ∧ p.event = .eof) ∨
      (p.raises = true ∧ ∃ e, p.event = .pollFails e ∨ p.event = .readFails e) ∨
      (p.atEnd = false ∧ p.raises = false ∧ p.chunk = none ∧
        (p.event = .notReadable ∨ p.event = .again)) ∨
      (p.atEnd = false ∧ p.raises = false ∧
        ∃ chunk, p.chunk = some chunk.bytes ∧ p.event = .data chunk) := by
  obtain ⟨readable, hpoll⟩ | ⟨e, hpoll⟩ := isReadable_cases p.poll
  · simp only [Pass.atEnd, Pass.raises, Pass.chunk, Pass.event, hpoll]
    cases readable with
    | false => simp
    | true =>
      rcases p.recv with ⟨_ | ⟨b, bytes⟩, le⟩ | _ | _ | text
      · simp
      · right; right; right
        exact ⟨rfl, rfl, ⟨b :: bytes, Pass.length_cons_pos b bytes, le⟩, rfl, rfl⟩
      · simp
      · simp
      · simp
  · simp only [Pass.atEnd, Pass.raises, Pass.chunk, Pass.event, hpoll]
    simp

/-- The loop ends in the pass without a call of the handler. -/
def Ends (H : ServerHandler σ) (p : Pass) (w : ClientWorker σ) : Prop :=
  p.quit = true ∨ H.isClosed w.handler = true ∨ p.atEnd = true ∨ p.raises = true

variable (pf H) in
/-- The handler does not return from the call with what is read in the pass. -/
def Escapes (p : Pass) (w : ClientWorker σ) : Prop :=
  ∃ chunk : Chunk, p.chunk = some chunk.bytes ∧
    (H.onReceive (ClientWorker.bufMem pf (ClientWorker.fill w.buf chunk)) chunk.bytes.length
      w.handler).1.isRet = false

variable (pf H) in
/-- The pass leads from `w` to `w'`: the loop goes on there, or a call of the handler that does not
return has left it. -/
def LeadsTo (p : Pass) (w w' : ClientWorker σ) : Prop :=
  (∀ passes, ClientWorker.socketLoop pf H (p :: passes) w =
      ClientWorker.socketLoop pf H passes w') ∨
    (Escapes pf H p w ∧ ∀ passes, (ClientWorker.socketLoop pf H (p :: passes) w).2 = w')

/-- A chunk leads to where its call of the handler leads. -/
theorem leadsTo_receive {p : Pass} {w : ClientWorker σ} {chunk : Chunk} (hquit : p.quit = false)
    (hopen : H.isClosed w.handler = false) (hchunk : p.chunk = some chunk.bytes)
    (hevent : p.event = .data chunk) :
    LeadsTo pf H p w (ClientWorker.receive pf H chunk w).2 := by
  have hgo : ∀ passes, ClientWorker.socketLoop pf H (p :: passes) w =
      (ClientWorker.receive pf H chunk >>= fun _ => ClientWorker.socketLoop pf H passes) w := by
    intro passes
    rw [socketLoop_eq, outcomes_cons hquit, hevent, loop_data hopen, ← funext (socketLoop_eq passes)]
  have hescapes : (ClientWorker.receive pf H chunk w).1.isRet = false → Escapes pf H p w := by
    rw [receive_apply]
    exact fun h => ⟨chunk, hchunk, h⟩
  rcases hr : ClientWorker.receive pf H chunk w with ⟨r, w'⟩
  rw [hr] at hescapes
  cases r with
  | ret u =>
    left
    intro passes
    rw [hgo, Act.bind_of_ret hr]
  | exn e =>
    right
    refine ⟨hescapes rfl, fun passes => ?_⟩
    rw [hgo, Act.bind_of_exn hr]
  | ub =>
    right
    refine ⟨hescapes rfl, fun passes => ?_⟩
    rw [hgo, Act.bind_of_ub hr]

variable (pf H) in
/-- The step lemma: the loop ends in the pass and leaves the worker as it is, or the pass hands over
what was read. -/
theorem pass_cases (p : Pass) (w : ClientWorker σ) :
    (Ends H p w ∧ ∀ passes, (ClientWorker.socketLoop pf H (p :: passes) w).2 = w) ∨
      (¬ Ends H p w ∧ ∃ w', w'.calls = w.calls ++ p.chunk.toList.map .receive ∧
        LeadsTo pf H p w w') := by
  cases hquit : p.quit with
  | true =>
    left
    refine ⟨Or.inl hquit, fun passes => ?_⟩
    rw [socketLoop_quit hquit]
  | false =>
    cases hclosed : H.isClosed w.handler with
    | true =>
      left
      refine ⟨Or.inr (Or.inl hclosed), fun passes => ?_⟩
      rw [socketLoop_closed hclosed]
    | false =>
      have hgo : ∀ passes, ClientWorker.socketLoop pf H (p :: passes) w =
          ClientWorker.loop pf H (p.event :: outcomes passes) w := by
        intro passes
        rw [socketLoop_eq, outcomes_cons hquit]
      obtain ⟨hend, hevent⟩ | ⟨hraises, hevent⟩ | ⟨hend, hraises, hchunk, hevent⟩ |
        ⟨hend, hraises, chunk, hchunk, hevent⟩ := event_cases p
      · left
        refine ⟨Or.inr (Or.inr (Or.inl hend)), fun passes => ?_⟩
        rw [hgo]
        exact loop_last hclosed (Or.inl hevent) _
      · left
        refine ⟨Or.inr (Or.inr (Or.inr hraises)), fun passes => ?_⟩
        rw [hgo]
        exact loop_last hclosed (Or.inr hevent) _
      · right
        refine ⟨by simp [Ends, hquit, hclosed, hend, hraises], w, by simp [hchunk], Or.inl ?_⟩
        intro passes
        rw [hgo, loop_idle hclosed hevent, socketLoop_eq]
      · right
        refine ⟨by simp [Ends, hquit, hclosed, hend, hraises], _, ?_,
          leadsTo_receive hquit hclosed hchunk hevent⟩
        rw [receive_apply, hchunk]
        rfl

end Pass

/-! ## Runs -/

section Run

variable {σ : Type} (pf : Platform) (H : ServerHandler σ)

/-- The chunks that `read` returns in these passes. -/
def chunksOf (passes : List Pass) : List Bytes := passes.filterMap Pass.chunk

/-- The worker when pass `k` begins; if the loop was left before, the worker then. -/
def atHead (passes : List Pass) (w : ClientWorker σ) (k : ℕ) : ClientWorker σ :=
  (ClientWorker.socketLoop pf H (passes.take k) w).2

/-- The loop ends in pass `k` without a call of the handler. -/
def EndsAt (passes : List Pass) (w : ClientWorker σ) (k : ℕ) : Prop :=
  ∃ p, passes[k]? = some p ∧ Ends H p (atHead pf H passes w k)

/-- The call of the handler in pass `k` does not return. -/
def EscapesAt (passes : List Pass) (w : ClientWorker σ) (k : ℕ) : Prop :=
  ∃ p, passes[k]? = some p ∧ Escapes pf H p (atHead pf H passes w k)

variable {pf H} {p : Pass} {passes : List Pass} {w w' : ClientWorker σ} {k : ℕ}

/-- The chunks of the passes in their order. -/
theorem chunksOf_cons (p : Pass) (passes : List Pass) :
    chunksOf (p :: passes) = p.chunk.toList ++ chunksOf passes := by
  rw [chunksOf, List.filterMap_cons]
  cases p.chunk <;> rfl

/-- A chunk has between 1 and `MAX_SIZE` bytes. -/
theorem length_of_mem_chunksOf {bytes : Bytes} (h : bytes ∈ chunksOf passes) :
    1 ≤ bytes.length ∧ bytes.length ≤ MAX_SIZE := by
  obtain ⟨p, _, hp⟩ := List.mem_filterMap.mp h
  unfold Pass.chunk at hp
  split at hp
  · rename_i b rest le _ _
    rw [Option.some.injEq] at hp
    exact hp ▸ ⟨Pass.length_cons_pos b rest, le⟩
  · cases hp

/-- The loop ends at its first pass when that pass ends it. -/
theorem endsAt_zero : EndsAt pf H (p :: passes) w 0 ↔ Ends H p w := by
  constructor
  · rintro ⟨q, hq, h⟩
    cases hq
    exact h
  · exact fun h => ⟨p, rfl, h⟩

/-- Behind a pass that the loop completes, the run is that of the other passes. -/
theorem atHead_succ (hgo : ∀ passes, ClientWorker.socketLoop pf H (p :: passes) w =
    ClientWorker.socketLoop pf H passes w') (passes : List Pass) (k : ℕ) :
    atHead pf H (p :: passes) w (k + 1) = atHead pf H passes w' k := by
  rw [atHead, List.take_succ_cons, hgo]
  rfl

/-- A first pass that goes on moves the end to the passes behind it. -/
theorem endsAt_succ (hgo : ∀ passes, ClientWorker.socketLoop pf H (p :: passes) w =
    ClientWorker.socketLoop pf H passes w') :
    EndsAt pf H (p :: passes) w (k + 1) ↔ EndsAt pf H passes w' k := by
  rw [EndsAt, EndsAt, atHead_succ hgo]
  rfl

/-- Nothing is done on a connection that a loop head finds closed. -/
theorem final_of_closed (passes : List Pass) (w : ClientWorker σ) (k : ℕ)
    (h : H.isClosed (atHead pf H passes w k).handler = true) :
    (ClientWorker.socketLoop pf H passes w).2 = atHead pf H passes w k := by
  induction passes generalizing w k with
  | nil => rw [atHead, List.take_nil]
  | cons p passes ih =>
    cases k with
    | zero =>
      have hw : H.isClosed w.handler = true := h
      rw [socketLoop_closed hw]
      rfl
    | succ k =>
      obtain ⟨_, hlast⟩ | ⟨_, w', _, hgo | ⟨_, hlast⟩⟩ := pass_cases pf H p w
      · rw [atHead, List.take_succ_cons, hlast, hlast]
      · rw [atHead_succ hgo] at h ⊢
        rw [hgo]
        exact ih w' k h
      · rw [atHead, List.take_succ_cons, hlast, hlast]

variable (pf H) in
/-- The calls of a run, and where it comes to its end. -/
theorem calls_of_run (passes : List Pass) (w : ClientWorker σ) :
    ∃ n ≤ passes.length,
      (ClientWorker.socketLoop pf H passes w).2.calls =
        w.calls ++ (chunksOf (passes.take n)).map .receive ∧
      (∀ k < n, ¬ EndsAt pf H passes w k) ∧
      (n = passes.length ∨ EndsAt pf H passes w n ∨
        ∃ k, n = k + 1 ∧ EscapesAt pf H passes w k) := by
  induction passes generalizing w with
  | nil => exact ⟨0, le_refl _, (List.append_nil _).symm, fun k hk => absurd hk (Nat.not_lt_zero k),
      Or.inl rfl⟩
  | cons p passes ih =>
    obtain ⟨hend, hlast⟩ | ⟨hnot, w', hcalls, hgo | ⟨hescapes, hleft⟩⟩ := pass_cases pf H p w
    · refine ⟨0, Nat.zero_le _, ?_, fun k hk => absurd hk (Nat.not_lt_zero k),
        Or.inr (Or.inl (endsAt_zero.mpr hend))⟩
      rw [hlast]
      exact (List.append_nil _).symm
    · obtain ⟨n, hn, hrun, hbefore, hstop⟩ := ih w'
      refine ⟨n + 1, Nat.succ_le_succ hn, ?_, ?_, ?_⟩
      · rw [hgo, hrun, hcalls, List.take_succ_cons, chunksOf_cons, List.map_append,
          List.append_assoc]
      · intro k hk
        cases k with
        | zero => exact fun h => hnot (endsAt_zero.mp h)
        | succ k => exact fun h => hbefore k (Nat.lt_of_succ_lt_succ hk) ((endsAt_succ hgo).mp h)
      · obtain rfl | hends | ⟨k, rfl, q, hq, hescapes⟩ := hstop
        · exact Or.inl rfl
        · exact Or.inr (Or.inl ((endsAt_succ hgo).mpr hends))
        · right; right
          refine ⟨k + 1, rfl, q, hq, ?_⟩
          rw [atHead_succ hgo]
          exact hescapes
    · refine ⟨1, Nat.succ_le_succ (Nat.zero_le _), ?_, ?_, Or.inr (Or.inr ⟨0, rfl, p, rfl, hescapes⟩)⟩
      · rw [hleft, hcalls, List.take_succ_cons, List.take_zero, chunksOf_cons]
        exact congrArg (fun chunks => w.calls ++ List.map _ chunks) (List.append_nil _).symm
      · intro k hk
        obtain rfl : k = 0 := by omega
        exact fun h => hnot (endsAt_zero.mp h)

/-- For every handler and whatever the system shows the loop: the calls of `onReceive` are made with
the chunks that `read` returns in the first `n` passes, in their order. None of these passes meets the
end of the stream, or a loop head that sees the quit condition or a closed connection; behind them the
run is not looked at, or the next pass does or throws, or the last call of the handler has not
returned. Once a call has closed the connection, nothing follows. -/
theorem stream_handed_over (pf : Platform) (H : ServerHandler σ) (passes : List Pass)
    (w : ClientWorker σ) :
    (∃ n ≤ passes.length,
      (ClientWorker.socketLoop pf H passes w).2.calls =
        w.calls ++ (chunksOf (passes.take n)).map .receive ∧
      (∀ bytes ∈ chunksOf (passes.take n), 1 ≤ bytes.length ∧ bytes.length ≤ MAX_SIZE) ∧
      (∀ k < n, ¬ EndsAt pf H passes w k) ∧
      (n = passes.length ∨ EndsAt pf H passes w n ∨
        ∃ k, n = k + 1 ∧ EscapesAt pf H passes w k)) ∧
    ∀ k, H.isClosed (atHead pf H passes w k).handler = true →
      (ClientWorker.socketLoop pf H passes w).2 = atHead pf H passes w k := by
  obtain ⟨n, hn, hcalls, hbefore, hstop⟩ := calls_of_run pf H passes w
  exact ⟨⟨n, hn, hcalls, fun _ => length_of_mem_chunksOf, hbefore, hstop⟩, final_of_closed passes w⟩

end Run

end CppSocks.Analysis
