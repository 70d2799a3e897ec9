import CppSocks.Analysis.LoopPasses

/-!
# Whole runs of a worker

Passes in which the socket has nothing to read change nothing, so a run is one over
the other passes (`loop_filter`). A run whose loop comes to its end, and whose
handler takes the end of the connection, closes the socket (`run_of_loop`).
-/

set_option autoImplicit false

namespace CppSocks.Analysis

open CppSocks.Model Foundation

/-- There was something to see in the pass. -/
def isBusy : LoopEvent → Bool
  | .notReadable => false
  | .again => false
  | _ => true

section

variable {σ : Type} {pf : Platform} {H : ServerHandler σ}

/-- The loop over a closed connection returns at once. -/
theorem loop_end {events : List LoopEvent} {w : ClientWorker σ} (h : H.isClosed w.handler = true) :
    ClientWorker.loop pf H events w = (.ret (), w) := by
  cases events with
  | nil => rfl
  | cons event events => exact loop_closed h

/-- The idle passes can be left out. -/
theorem loop_filter (events : List LoopEvent) (w : ClientWorker σ) :
    ClientWorker.loop pf H events w = ClientWorker.loop pf H (events.filter isBusy) w := by
  induction events generalizing w with
  | nil => rfl
  | cons event events ih =>
    cases hclosed : H.isClosed w.handler with
    | true => rw [loop_end hclosed, loop_end hclosed]
    | false =>
      cases event with
      | notReadable => rw [loop_idle hclosed (Or.inl rfl), ih, List.filter_cons_of_neg (by decide)]
      | again => rw [loop_idle hclosed (Or.inr rfl), ih, List.filter_cons_of_neg (by decide)]
      | data chunk =>
        rw [List.filter_cons_of_pos rfl, loop_data hclosed, loop_data hclosed, Act.bind_apply,
          Act.bind_apply]
        rcases ClientWorker.receive pf H chunk w with ⟨r, w'⟩
        cases r with
        | ret u => exact ih w'
        | exn e => rfl
        | ub => rfl
      | _ =>
        rw [List.filter_cons_of_pos rfl, loop_open hclosed, loop_open hclosed]

/-- The loop over chunks and other passes behind them. -/
theorem loop_append_data (chunks : List Chunk) (rest : List LoopEvent) (w : ClientWorker σ) :
    ClientWorker.loop pf H (chunks.map .data ++ rest) w =
      (ClientWorker.loop pf H (chunks.map .data) >>= fun _ => ClientWorker.loop pf H rest) w := by
  induction chunks generalizing w with
  | nil => rfl
  | cons chunk chunks ih =>
    cases hclosed : H.isClosed w.handler with
    | true => rw [loop_end hclosed, Act.bind_of_ret (loop_end hclosed), loop_end hclosed]
    | false =>
      rw [List.map_cons, List.cons_append, loop_data hclosed, Act.bind_apply, Act.bind_apply,
        loop_data hclosed, Act.bind_apply]
      rcases ClientWorker.receive pf H chunk w with ⟨r, w'⟩
      cases r with
      | ret u => exact (ih w').trans (Act.bind_apply _ _ w')
      | exn e => rfl
      | ub => rfl

/-- A run that is told of the end of its loop. -/
theorem run_of_loop {events : List LoopEvent} {w w' : ClientWorker σ} {h h' : σ} (hcalls : w.calls = [])
    (hconnect : H.onConnect w.handler = (.ret (), h))
    (hloop : ClientWorker.loop pf H events (connectedWorker w h) = (.ret (), w'))
    (hend : H.onDisconnect w'.handler = (.ret (), h')) :
    ClientWorker.run pf H events w = (.ret (), { w' with
      handler := h'
      isActive := false
      calls := w'.calls ++ [.disconnect, .closeSocket, .inactive] }) := by
  have hhandle : ClientWorker.handle H.onDisconnect (w'.record .disconnect) =
      (.ret (), { w'.record .disconnect with handler := h' }) := by
    rw [ClientWorker.handle, Act.zoom]
    exact congrArg (fun x => (x.1, { w'.record .disconnect with handler := x.2 })) hend
  have hclose : ClientWorker.loopAndClose pf H events (connectedWorker w h) =
      (.ret (), ClientWorker.record .closeSocket { w'.record .disconnect with handler := h' }) := by
    rw [ClientWorker.loopAndClose, Act.bind_of_ret hloop, Act.bind_of_ret (Act.modify_apply _ _),
      Act.bind_of_ret hhandle]
    rfl
  have htry : tryBlock pf H events w =
      (.ret (), ClientWorker.record .closeSocket { w'.record .disconnect with handler := h' }) :=
    (tryBlock_of_connected hcalls hconnect events).trans hclose
  rw [run_eq, ClientWorker.finishRun, Act.bind_of_ret (Act.tryCatch_of_ret htry _), Act.modify_apply]
  simp only [ClientWorker.record, List.append_assoc, List.cons_append, List.nil_append]

end

end CppSocks.Analysis
