import CppSocks.Model.ClientWorker

/-!
# The passes of the worker's loop

`Along P` says that `P` holds of every pass that the loop makes, in the state in
which the pass begins. A statement about single passes becomes one about runs by
`along_congr` and `along_of_forall`. The loop comes to its end without an exception
exactly if no pass raises one (`loop_returns_iff`).
-/

set_option autoImplicit false

namespace CppSocks.Analysis

open CppSocks.Model Foundation

section

variable {σ : Type} (pf : Platform) (H : ServerHandler σ)

/-- The worker at the next loop head, if the pass gets there. -/
def nextPass : LoopEvent → ClientWorker σ → Option (ClientWorker σ)
  | .notReadable, w => some w
  | .again, w => some w
  | .data chunk, w =>
    match ClientWorker.receive pf H chunk w with
    | (.ret _, w') => some w'
    | _ => none
  | _, _ => none

/-- `P` holds of every pass that the loop makes. -/
def Along (P : LoopEvent → ClientWorker σ → Prop) : List LoopEvent → ClientWorker σ → Prop
  | [], _ => True
  | event :: events, w =>
    H.isClosed w.handler = false →
      P event w ∧ ∀ w', nextPass pf H event w = some w' → Along P events w'

/-- The pass raises no exception: neither the socket nor the handler throws. -/
def Undisturbed : LoopEvent → ClientWorker σ → Prop
  | .pollFails _, _ => False
  | .readFails _, _ => False
  | .data chunk, w => (ClientWorker.receive pf H chunk w).1 = .ret ()
  | _, _ => True

variable {pf H}

/-- The call of the handler for a chunk. -/
theorem receive_apply (chunk : Chunk) (w : ClientWorker σ) :
    ClientWorker.receive pf H chunk w =
      ((H.onReceive (ClientWorker.bufMem pf (ClientWorker.fill w.buf chunk)) chunk.bytes.length
          w.handler).1,
        { w with
          handler := (H.onReceive (ClientWorker.bufMem pf (ClientWorker.fill w.buf chunk))
            chunk.bytes.length w.handler).2
          buf := ClientWorker.fill w.buf chunk
          calls := w.calls ++ [.receive chunk.bytes] }) := by
  simp only [ClientWorker.receive, Act.bind_apply, Act.modify_apply, Act.gets_apply,
    ClientWorker.record, ClientWorker.handle, Act.zoom]

/-- A pass that goes on after a chunk has received that chunk without an exception. -/
theorem nextPass_data {chunk : Chunk} {w w' : ClientWorker σ}
    (h : nextPass pf H (.data chunk) w = some w') :
    ClientWorker.receive pf H chunk w = (.ret (), w') := by
  simp only [nextPass] at h
  rcases hr : ClientWorker.receive pf H chunk w with ⟨r, w''⟩
  rw [hr] at h
  cases r with
  | ret u =>
    simp only [Option.some.injEq] at h
    rw [h]
  | exn e => cases h
  | ub => cases h

/-- A property of states that every pass keeps lets two statements about passes be exchanged that
agree on such states. -/
theorem along_congr {P Q : LoopEvent → ClientWorker σ → Prop} {I : ClientWorker σ → Prop}
    (hkeep : ∀ event w w', I w → H.isClosed w.handler = false →
      nextPass pf H event w = some w' → I w')
    (hPQ : ∀ event w, I w → H.isClosed w.handler = false → (P event w ↔ Q event w))
    (events : List LoopEvent) {w : ClientWorker σ} (hw : I w) :
    Along pf H P events w ↔ Along pf H Q events w := by
  induction events generalizing w with
  | nil => exact Iff.rfl
  | cons event events ih =>
    unfold Along
    refine imp_congr_right fun hopen => ?_
    refine and_congr (hPQ event w hw hopen) ?_
    exact forall_congr' fun w' => imp_congr_right fun hnext => ih (hkeep event w w' hw hopen hnext)

/-- What holds of every pass holds along every run. -/
theorem along_of_forall {P : LoopEvent → ClientWorker σ → Prop} (h : ∀ event w, P event w)
    (events : List LoopEvent) (w : ClientWorker σ) : Along pf H P events w := by
  induction events generalizing w with
  | nil => exact trivial
  | cons event events ih => exact fun _ => ⟨h event w, fun w' _ => ih w'⟩

/-- The loop over a first event: the test of `isClosed`, and then what the event asks for. -/
theorem loop_cons (event : LoopEvent) (events : List LoopEvent) :
    ClientWorker.loop pf H (event :: events) = (do
      let closed ← Act.gets fun w => H.isClosed w.handler
      if closed then pure ()
      else
        match event with
        | .notReadable => ClientWorker.loop pf H events
        | .pollFails e => Act.throw e
        | .eof => pure ()
        | .again => ClientWorker.loop pf H events
        | .readFails e => Act.throw e
        | .data chunk => do
          ClientWorker.receive pf H chunk
          ClientWorker.loop pf H events) := by
  cases event <;> rfl

/-- On a closed connection there is no further pass. -/
theorem loop_closed {event : LoopEvent} {events : List LoopEvent} {w : ClientWorker σ}
    (h : H.isClosed w.handler = true) : ClientWorker.loop pf H (event :: events) w = (.ret (), w) := by
  rw [loop_cons, Act.bind_of_ret (Act.gets_apply _ w), h, if_pos rfl]
  rfl

/-- On an open connection the loop does what the outcome of the pass asks for. -/
theorem loop_open {event : LoopEvent} {w : ClientWorker σ} (hopen : H.isClosed w.handler = false)
    (events : List LoopEvent) :
    ClientWorker.loop pf H (event :: events) w =
      (match event with
      | .notReadable => ClientWorker.loop pf H events
      | .pollFails e => Act.throw e
      | .eof => pure ()
      | .again => ClientWorker.loop pf H events
      | .readFails e => Act.throw e
      | .data chunk => do
        ClientWorker.receive pf H chunk
        ClientWorker.loop pf H events) w := by
  rw [loop_cons, Act.bind_of_ret (Act.gets_apply _ w), hopen, if_neg Bool.false_ne_true]

/-- A pass in which `read` returns `NUM_EOF` or the socket throws is the last one. -/
theorem loop_last {event : LoopEvent} {w : ClientWorker σ} (hopen : H.isClosed w.handler = false)
    (hevent : event = .eof ∨ ∃ e, event = .pollFails e ∨ event = .readFails e)
    (events : List LoopEvent) : (ClientWorker.loop pf H (event :: events) w).2 = w := by
  rw [loop_open hopen]
  obtain rfl | ⟨e, rfl | rfl⟩ := hevent
  · rfl
  · rfl
  · rfl

/-- A pass without a chunk. -/
theorem loop_idle {event : LoopEvent} {w : ClientWorker σ} (hopen : H.isClosed w.handler = false)
    (hevent : event = .notReadable ∨ event = .again) (events : List LoopEvent) :
    ClientWorker.loop pf H (event :: events) w = ClientWorker.loop pf H events w := by
  rw [loop_open hopen]
  obtain rfl | rfl := hevent
  · rfl
  · rfl

/-- A pass with a chunk. -/
theorem loop_data {w : ClientWorker σ} (hopen : H.isClosed w.handler = false) (chunk : Chunk)
    (events : List LoopEvent) :
    ClientWorker.loop pf H (.data chunk :: events) w =
      (ClientWorker.receive pf H chunk >>= fun _ => ClientWorker.loop pf H events) w := by
  rw [loop_open hopen]

/-- A pass that raises nothing, and either ends the loop or is followed by the others. -/
theorem loop_step {event : LoopEvent} (events : List LoopEvent) {w : ClientWorker σ}
    (hopen : H.isClosed w.handler = false) (h : Undisturbed pf H event w) :
    (∃ w', nextPass pf H event w = some w' ∧
        ClientWorker.loop pf H (event :: events) w = ClientWorker.loop pf H events w') ∨
      (nextPass pf H event w = none ∧ ClientWorker.loop pf H (event :: events) w = (.ret (), w)) := by
  rw [loop_open hopen]
  cases event with
  | notReadable => exact Or.inl ⟨w, rfl, rfl⟩
  | again => exact Or.inl ⟨w, rfl, rfl⟩
  | eof => exact Or.inr ⟨rfl, rfl⟩
  | pollFails e => exact absurd h id
  | readFails e => exact absurd h id
  | data chunk =>
    left
    rcases hr : ClientWorker.receive pf H chunk w with ⟨r, w'⟩
    have hret : r = .ret () := by
      simpa only [Undisturbed, hr] using h
    subst hret
    refine ⟨w', by rw [nextPass, hr], ?_⟩
    exact Act.bind_of_ret hr _

/-- A pass that raises something is the last one. -/
theorem loop_disturbed {event : LoopEvent} (events : List LoopEvent) {w : ClientWorker σ}
    (hopen : H.isClosed w.handler = false) (h : ¬ Undisturbed pf H event w) :
    (ClientWorker.loop pf H (event :: events) w).1.isRet = false ∧
      ((ClientWorker.loop pf H (event :: events) w).2 = w ∨
        ∃ chunk, event = .data chunk ∧ (ClientWorker.loop pf H (event :: events) w).2 =
          (ClientWorker.receive pf H chunk w).2) := by
  rw [loop_open hopen]
  cases event with
  | notReadable => exact absurd trivial h
  | again => exact absurd trivial h
  | eof => exact absurd trivial h
  | pollFails e => exact ⟨rfl, Or.inl rfl⟩
  | readFails e => exact ⟨rfl, Or.inl rfl⟩
  | data chunk =>
    rcases hr : ClientWorker.receive pf H chunk w with ⟨r, w'⟩
    cases r with
    | ret u =>
      refine absurd ?_ h
      simp only [Undisturbed, hr]
    | exn e =>
      dsimp only
      rw [Act.bind_of_exn hr]
      exact ⟨rfl, Or.inr ⟨chunk, rfl, by rw [hr]⟩⟩
    | ub =>
      dsimp only
      rw [Act.bind_of_ub hr]
      exact ⟨rfl, Or.inr ⟨chunk, rfl, by rw [hr]⟩⟩

/-- The loop ends without an exception if and only if no pass raises one. -/
theorem loop_returns_iff (events : List LoopEvent) (w : ClientWorker σ) :
    (ClientWorker.loop pf H events w).1.isRet = true ↔ Along pf H (Undisturbed pf H) events w := by
  induction events generalizing w with
  | nil => exact iff_of_true rfl trivial
  | cons event events ih =>
    unfold Along
    cases hclosed : H.isClosed w.handler with
    | true =>
      rw [loop_closed hclosed]
      exact iff_of_true rfl fun h => Bool.noConfusion h
    | false =>
      simp only [forall_const]
      by_cases hund : Undisturbed pf H event w
      · obtain ⟨w', hnext, hloop⟩ | ⟨hnone, hloop⟩ := loop_step events hclosed hund
        · rw [hloop, ih w']
          constructor
          · intro h
            refine ⟨hund, fun w'' hw'' => ?_⟩
            rw [hnext, Option.some.injEq] at hw''
            exact hw'' ▸ h
          · intro h
            exact h.2 w' hnext
        · rw [hloop]
          refine iff_of_true rfl ⟨hund, fun w'' hw'' => ?_⟩
          rw [hnone] at hw''
          cases hw''
      · have hstop := (loop_disturbed events hclosed hund).1
        rw [hstop]
        exact iff_of_false Bool.false_ne_true fun h => hund h.1

variable (pf H) in
/-- The rule of the loop: `I` holds at its head, `J` wherever it stops. -/
theorem loop_rule {I J : ClientWorker σ → Prop} (hIJ : ∀ w, I w → J w)
    (hrec : ∀ chunk w, I w → H.isClosed w.handler = false →
      J (ClientWorker.receive pf H chunk w).2 ∧
        ((ClientWorker.receive pf H chunk w).1 = .ret () →
          I (ClientWorker.receive pf H chunk w).2))
    (events : List LoopEvent) {w : ClientWorker σ} (hw : I w) :
    J (ClientWorker.loop pf H events w).2 ∧
      ((ClientWorker.loop pf H events w).1.isRet = true →
        I (ClientWorker.loop pf H events w).2) := by
  induction events generalizing w with
  | nil => exact ⟨hIJ w hw, fun _ => hw⟩
  | cons event events ih =>
    cases hclosed : H.isClosed w.handler with
    | true =>
      rw [loop_closed hclosed]
      exact ⟨hIJ w hw, fun _ => hw⟩
    | false =>
      by_cases hund : Undisturbed pf H event w
      · obtain ⟨w', hnext, hloop⟩ | ⟨_, hloop⟩ := loop_step events hclosed hund
        · rw [hloop]
          apply ih
          cases event with
          | data chunk =>
            have hkeep := hrec chunk w hw hclosed
            rw [nextPass_data hnext] at hkeep
            exact hkeep.2 rfl
          | notReadable => exact Option.some.inj hnext ▸ hw
          | again => exact Option.some.inj hnext ▸ hw
          | eof => cases hnext
          | pollFails e => cases hnext
          | readFails e => cases hnext
        · rw [hloop]
          exact ⟨hIJ w hw, fun _ => hw⟩
      · obtain ⟨hstop, hsame⟩ := loop_disturbed events hclosed hund
        refine ⟨?_, fun hret => ?_⟩
        · obtain hsame | ⟨chunk, _, hsame⟩ := hsame
          · rw [hsame]
            exact hIJ w hw
          · rw [hsame]
            exact (hrec chunk w hw hclosed).1
        · rw [hstop] at hret
          cases hret

variable (pf H) in
/-- What every call of the handler keeps, however the call ends, the loop keeps. -/
theorem loop_keeps {I : ClientWorker σ → Prop}
    (hkeep : ∀ chunk w, I w → I (ClientWorker.receive pf H chunk w).2)
    (events : List LoopEvent) {w : ClientWorker σ} (hw : I w) :
    I (ClientWorker.loop pf H events w).2 :=
  (loop_rule pf H (fun _ h => h)
    (fun chunk w h _ => ⟨hkeep chunk w h, fun _ => hkeep chunk w h⟩) events hw).1

/-! ## The rest of `run` -/

variable (pf H) in
/-- The loop makes no other calls than `onReceive`. -/
theorem loop_calls (events : List LoopEvent) (w : ClientWorker σ) :
    ∃ chunks : List Bytes, (ClientWorker.loop pf H events w).2.calls =
      w.calls ++ chunks.map .receive := by
  refine loop_keeps pf H (w := w) (I := fun w' => ∃ chunks : List Bytes,
    w'.calls = w.calls ++ chunks.map .receive) ?_ events ⟨[], by simp⟩
  rintro chunk w' ⟨chunks, hw'⟩
  refine ⟨chunks ++ [chunk.bytes], ?_⟩
  rw [receive_apply, hw']
  simp

/-- A loop that returns is followed by `onDisconnect`, and by `closeSocket` unless `onDisconnect`
throws. -/
theorem loopAndClose_of_returns {events : List LoopEvent} {w : ClientWorker σ}
    (h : (ClientWorker.loop pf H events w).1.isRet = true) :
    ∃ tail, (tail = [] ∨ tail = [.closeSocket]) ∧
      (ClientWorker.loopAndClose pf H events w).2.calls =
        (ClientWorker.loop pf H events w).2.calls ++ .disconnect :: tail ∧
      (ClientWorker.loopAndClose pf H events w).2.handler =
        (H.onDisconnect (ClientWorker.loop pf H events w).2.handler).2 := by
  rcases hl : ClientWorker.loop pf H events w with ⟨r, w'⟩
  rw [hl] at h
  obtain ⟨u, rfl⟩ := (Res.isRet_iff r).mp h
  rw [ClientWorker.loopAndClose, Act.bind_of_ret hl, Act.bind_of_ret (Act.modify_apply _ _),
    Act.bind_apply, ClientWorker.handle, Act.zoom]
  rcases hd : H.onDisconnect w'.handler with ⟨r, h'⟩
  have hrec : (ClientWorker.record .disconnect w').handler = w'.handler := rfl
  rw [hrec, hd]
  cases r with
  | ret u => exact ⟨[.closeSocket], Or.inr rfl, by simp [ClientWorker.record], rfl⟩
  | exn e => exact ⟨[], Or.inl rfl, rfl, rfl⟩
  | ub => exact ⟨[], Or.inl rfl, rfl, rfl⟩

/-- What the loop throws is thrown before anything is disconnected or closed. -/
theorem loopAndClose_of_not_returns {events : List LoopEvent} {w : ClientWorker σ}
    (h : (ClientWorker.loop pf H events w).1.isRet = false) :
    (ClientWorker.loopAndClose pf H events w).2 = (ClientWorker.loop pf H events w).2 := by
  rcases hl : ClientWorker.loop pf H events w with ⟨r, w'⟩
  rw [hl] at h
  cases r with
  | ret u => cases h
  | exn e => rw [ClientWorker.loopAndClose, Act.bind_of_exn hl]
  | ub => rw [ClientWorker.loopAndClose, Act.bind_of_ub hl]

/-- The socket is closed if the loop and `onDisconnect` return, and then `run` has nothing else to
do that could fail. -/
theorem loopAndClose_returns_iff (events : List LoopEvent) (w : ClientWorker σ) :
    (ClientWorker.loopAndClose pf H events w).1.isRet = true ↔
      (ClientWorker.loop pf H events w).1.isRet = true ∧
        (H.onDisconnect (ClientWorker.loop pf H events w).2.handler).1 = .ret () := by
  rcases hl : ClientWorker.loop pf H events w with ⟨r, w'⟩
  cases r with
  | exn e =>
    rw [ClientWorker.loopAndClose, Act.bind_of_exn hl]
    simp
  | ub =>
    rw [ClientWorker.loopAndClose, Act.bind_of_ub hl]
    simp
  | ret u =>
    rw [ClientWorker.loopAndClose, Act.bind_of_ret hl, Act.bind_of_ret (Act.modify_apply _ _),
      Act.bind_apply, ClientWorker.handle, Act.zoom]
    have hrec : (ClientWorker.record .disconnect w').handler = w'.handler := rfl
    rcases hd : H.onDisconnect w'.handler with ⟨r, h'⟩
    rw [hrec, hd]
    cases r with
    | ret u => simp
    | exn e => simp
    | ub => simp

/-- The `try` block of `ClientWorker::run`. -/
def tryBlock (pf : Platform) (H : ServerHandler σ) (events : List LoopEvent) :
    Action (ClientWorker σ) Unit := do
  ClientWorker.handle H.onConnect
  Act.modify (ClientWorker.record .connected)
  ClientWorker.loopAndClose pf H events

/-- A run is its try block and what comes behind it. -/
theorem run_eq (events : List LoopEvent) :
    ClientWorker.run pf H events = ClientWorker.finishRun (tryBlock pf H events) := rfl

/-- The worker when its loop begins. -/
def connectedWorker (w : ClientWorker σ) (h : σ) : ClientWorker σ :=
  { w with handler := h, calls := [.connected] }

/-- Once `onConnect` has returned, the try block is the loop and the closing behind it. -/
theorem tryBlock_of_connected {w : ClientWorker σ} {h : σ} (hcalls : w.calls = [])
    (hon : H.onConnect w.handler = (.ret (), h)) (events : List LoopEvent) :
    tryBlock pf H events w = ClientWorker.loopAndClose pf H events (connectedWorker w h) := by
  have hhandle : ClientWorker.handle H.onConnect w = (.ret (), { w with handler := h }) := by
    rw [ClientWorker.handle, Act.zoom, hon]
  have hstart : ClientWorker.record .connected { w with handler := h } = connectedWorker w h := by
    simp [ClientWorker.record, connectedWorker, hcalls]
  rw [tryBlock, Act.bind_of_ret hhandle, Act.bind_of_ret (Act.modify_apply _ _), hstart]

variable (pf) in
/-- If `onConnect` does not return, nothing else is done. -/
theorem tryBlock_of_not_connected {w : ClientWorker σ}
    (hon : (H.onConnect w.handler).1.isRet = false) (events : List LoopEvent) :
    (tryBlock pf H events w).1.isRet = false ∧ (tryBlock pf H events w).2.calls = w.calls := by
  rcases ho : H.onConnect w.handler with ⟨r, h⟩
  have hhandle : ClientWorker.handle H.onConnect w = (r, { w with handler := h }) := by
    rw [ClientWorker.handle, Act.zoom, ho]
  rw [ho] at hon
  unfold tryBlock
  cases r with
  | ret u => cases hon
  | exn e =>
    rw [Act.bind_of_exn hhandle]
    exact ⟨rfl, rfl⟩
  | ub =>
    rw [Act.bind_of_ub hhandle]
    exact ⟨rfl, rfl⟩

/-- The end of `run` adds at most the record that the worker is inactive. -/
theorem finishRun_calls (x : Action (ClientWorker σ) Unit) (w : ClientWorker σ) :
    ∃ tail, (tail = [] ∨ tail = [.inactive]) ∧
      (ClientWorker.finishRun x w).2.calls = (x w).2.calls ++ tail := by
  unfold ClientWorker.finishRun
  rcases hx : x w with ⟨r, w'⟩
  cases r with
  | ret u =>
    rw [Act.bind_of_ret (Act.tryCatch_of_ret hx _)]
    exact ⟨[.inactive], Or.inr rfl, rfl⟩
  | exn e =>
    have hcatch : Act.tryCatch x (fun _ => pure ()) w = (.ret (), w') := Act.tryCatch_of_exn hx _
    rw [Act.bind_of_ret hcatch]
    exact ⟨[.inactive], Or.inr rfl, rfl⟩
  | ub =>
    rw [Act.bind_of_ub (Act.tryCatch_of_ub hx _)]
    exact ⟨[], Or.inl rfl, by simp⟩

/-- The end of `run` does not touch the handler. -/
theorem finishRun_handler (x : Action (ClientWorker σ) Unit) (w : ClientWorker σ) :
    (ClientWorker.finishRun x w).2.handler = (x w).2.handler := by
  unfold ClientWorker.finishRun
  rcases hx : x w with ⟨r, w'⟩
  cases r with
  | ret u =>
    rw [Act.bind_of_ret (Act.tryCatch_of_ret hx _)]
    rfl
  | exn e =>
    have hcatch : Act.tryCatch x (fun _ => pure ()) w = (.ret (), w') := Act.tryCatch_of_exn hx _
    rw [Act.bind_of_ret hcatch]
    rfl
  | ub => rw [Act.bind_of_ub (Act.tryCatch_of_ub hx _)]

/-- A worker whose `run` is over is inactive. -/
theorem run_inactive {events : List LoopEvent} {w w' : ClientWorker σ} {u : Unit}
    (h : ClientWorker.run pf H events w = (.ret u, w')) : w'.isActive = false := by
  rw [run_eq, ClientWorker.finishRun, Act.bind_apply] at h
  rcases hx : Act.tryCatch (tryBlock pf H events) (fun _ => pure ()) w with ⟨r, v⟩
  rw [hx] at h
  cases r with
  | ret a =>
    rw [← (Prod.mk.inj h).2]
  | exn e => cases (Prod.mk.inj h).1
  | ub => cases (Prod.mk.inj h).1

end

end CppSocks.Analysis
