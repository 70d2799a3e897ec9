import CppSocks.Analysis.ExampleServers
import CppSocks.Analysis.FrameSession
import CppSocks.Analysis.Isolation

/-!
# Clients that ask for no WebSocket

The static handler joins the clients of a server that are upgraded. A client that is not
upgraded is left alone: in every interleaving its worker does what it does for the same
passes when there is no other client (`plain_client_alone`). So a client that requests a
file gets it, whatever the others do (`file_served_among`).
-/

set_option autoImplicit false

namespace CppSocks.Analysis

open CppSocks.Model CppSocks.Interface Foundation

/-- A WebSocket handler has been asked for. -/
def Upgraded (h : TcpServerHandler) : Prop := .createWsHandler ∈ h.conn.log

/-! ## One worker -/

section Life

variable {pf : Platform} {log : Log} {p : Phase}

/-- The stages on the way of a WebSocket. -/
def IsWsPhase (p : Phase) : Prop :=
  p = .creatingWs ∨ p = .handedOver ∨ p = .connecting ∨ p = .connected ∨ p = .talking

/-- A connection that is or was in the WebSocket state has had its handler made. -/
theorem created_of_isWsPhase (h : (lifecycle pf).Run .fresh log p) (hp : IsWsPhase p) :
    .createWsHandler ∈ log := by
  refine h.history (J := fun log p => IsWsPhase p → .createWsHandler ∈ log) ?_ ?_ hp
  · intro hfresh
    simp [IsWsPhase] at hfresh
  · intro log s e t hlog hstep ht
    by_cases hs : IsWsPhase s
    · exact List.mem_append_left _ (hlog hs)
    · cases hstep with
      | createWsHandler => exact List.mem_append_right _ List.mem_cons_self
      | io _ _ => exact absurd ht hs
      | _ => simp [IsWsPhase] at hs ht

/-- A connection on which no request has been dispatched has had no handler made. -/
theorem not_created_of_fresh (h : (lifecycle pf).Run .fresh log .fresh) : .createWsHandler ∉ log := by
  have hcount := count_created h
  rw [Phase.created] at hcount
  exact List.count_eq_zero.mp (by omega)

end Life

section Alone

variable {pf : Platform} {f : Factories} {h : TcpServerHandler} {w : ClientWorker TcpServerHandler}

/-- A client in the WebSocket state has been upgraded. -/
theorem kind_of_not_upgraded (hinv : Inv pf h) (hplain : ¬ Upgraded h) : h.curState.kind ≠ .ws := by
  obtain hs | hs | hs := hinv
  · obtain ⟨s, hcur⟩ := hs.2.1
    rw [hcur]
    exact StateKind.noConfusion
  · exact hs.2.2.2
  · exact absurd (created_of_isWsPhase hs.1 (by simp [IsWsPhase])) hplain

/-- An upgrade is not undone. -/
theorem upgraded_onReceive (hinv : Inv pf h) (hopen : h.conn.closed = false) (hup : Upgraded h) (mem : Mem)
    (len : ℕ) : Upgraded (TcpServerHandler.onReceive pf f mem len h).2 := by
  obtain hs | hs | hs := hinv
  · exact absurd hup (not_created_of_fresh hs.1)
  · rw [hs.2.1] at hopen
    cases hopen
  · obtain ⟨evs, hlog, _⟩ := inWebSocket_log f mem len hs.2
    unfold Upgraded
    rw [hlog]
    exact List.mem_append_left _ hup

/-- A chunk that is handled without an exception keeps the lifecycle of the connection. -/
theorem receive_inv (hinv : Inv pf w.handler) (hopen : w.handler.conn.closed = false) (chunk : Chunk)
    (hret : (ClientWorker.receive pf (TcpServerHandler.serverHandler pf f) chunk w).1 = .ret ()) :
    Inv pf (ClientWorker.receive pf (TcpServerHandler.serverHandler pf f) chunk w).2.handler := by
  rw [receive_apply] at hret ⊢
  exact (onReceive_inv hinv hopen _ _).2 hret

/-- Once a connection has been upgraded, no further pass undoes that. -/
theorem upgraded_loop (events : List LoopEvent) (hinv : Inv pf w.handler) (hup : Upgraded w.handler) :
    Upgraded (ClientWorker.loop pf (TcpServerHandler.serverHandler pf f) events w).2.handler := by
  refine (loop_rule pf (TcpServerHandler.serverHandler pf f)
    (I := fun w => Inv pf w.handler ∧ Upgraded w.handler) (J := fun w => Upgraded w.handler)
    (fun _ hw => hw.2) ?_ events ⟨hinv, hup⟩).1
  rintro chunk w ⟨hinv, hup⟩ hopen
  rw [receive_apply]
  have hkept := upgraded_onReceive (f := f) hinv hopen hup
  exact ⟨hkept _ _, fun hret => ⟨(onReceive_inv hinv hopen _ _).2 hret, hkept _ _⟩⟩

/-- What was upgraded in the first passes is upgraded in all of them. -/
theorem upgraded_append (passes rest : List LoopEvent) (hinv : Inv pf w.handler)
    (hup : Upgraded (ClientWorker.loop pf (TcpServerHandler.serverHandler pf f) passes w).2.handler) :
    Upgraded
      (ClientWorker.loop pf (TcpServerHandler.serverHandler pf f) (passes ++ rest) w).2.handler := by
  induction passes generalizing w with
  | nil => exact upgraded_loop rest hinv hup
  | cons event passes ih =>
    cases hopen : (TcpServerHandler.serverHandler pf f).isClosed w.handler with
    | true =>
      rw [loop_end hopen] at hup
      rw [loop_end hopen]
      exact hup
    | false =>
      rw [List.cons_append]
      cases event with
      | notReadable =>
        rw [loop_idle hopen (Or.inl rfl)] at hup ⊢
        exact ih hinv hup
      | again =>
        rw [loop_idle hopen (Or.inr rfl)] at hup ⊢
        exact ih hinv hup
      | data chunk =>
        rw [loop_data hopen, Act.bind_apply] at hup ⊢
        have hnext := receive_inv (f := f) hinv hopen chunk
        rcases hr : ClientWorker.receive pf (TcpServerHandler.serverHandler pf f) chunk w with ⟨r, w'⟩
        rw [hr] at hup hnext
        cases r with
        | ret u => exact ih (hnext rfl) hup
        | exn e => exact hup
        | ub => exact hup
      | _ =>
        rw [loop_open hopen] at hup ⊢
        exact hup

/-- The end of the worker does not take back the upgrade. -/
theorem upgraded_onDisconnect (hinv : Inv pf h) (hup : Upgraded h) :
    Upgraded (TcpServerHandler.onDisconnect pf h).2 := by
  by_cases hkind : h.curState.kind = .ws
  · obtain hs | hs | hs := hinv
    · exact absurd hup (not_created_of_fresh hs.1)
    · exact absurd hkind hs.2.2.2
    · obtain ⟨evs, hlog, _⟩ := onDisconnect_ws hs.2
      unfold Upgraded
      rw [hlog]
      exact List.mem_append_left _ hup
  · rw [onDisconnect_of_kind hkind]
    exact hup

/-- A new connection is at the beginning of its lifecycle. -/
theorem inv_init (script : List WriteResult) : Inv pf (TcpServerHandler.init script) :=
  Or.inl ⟨.nil _, ⟨HttpInitState.init, rfl⟩, rfl⟩

variable (pf f) in
/-- What was upgraded in the loop is so behind the whole run. -/
theorem upgraded_run {script : List WriteResult} {buf : Bytes} {events : List LoopEvent}
    (hup : Upgraded (ClientWorker.loop pf (TcpServerHandler.serverHandler pf f) events
      (connectedClient script buf)).2.handler) :
    Upgraded (ClientWorker.run pf (TcpServerHandler.serverHandler pf f) events
      (.init (TcpServerHandler.init script) buf)).2.handler := by
  have hclose : (ClientWorker.run pf (TcpServerHandler.serverHandler pf f) events
      (.init (TcpServerHandler.init script) buf)).2.handler =
        (ClientWorker.loopAndClose pf (TcpServerHandler.serverHandler pf f) events
          (connectedClient script buf)).2.handler := by
    rw [run_eq, finishRun_handler, tryBlock_of_connected rfl rfl]
    rfl
  rw [hclose]
  cases hret : (ClientWorker.loop pf (TcpServerHandler.serverHandler pf f) events
      (connectedClient script buf)).1.isRet with
  | true =>
    obtain ⟨_, _, _, hhandler⟩ := loopAndClose_of_returns hret
    have hinv := (loop_rule pf (TcpServerHandler.serverHandler pf f)
      (I := fun w => Inv pf w.handler) (J := fun _ => True) (w := connectedClient script buf)
      (fun _ _ => trivial) (fun chunk w hw hopen => ⟨trivial, receive_inv hw hopen chunk⟩) events
      (inv_init script)).2 hret
    rw [hhandler]
    exact upgraded_onDisconnect hinv hup
  | false =>
    rw [loopAndClose_of_not_returns hret]
    exact hup

/-- A run whose loop was left with an exception. -/
theorem run_of_loop_exn {σ : Type} {H : ServerHandler σ} {events : List LoopEvent} {w w' : ClientWorker σ}
    {h : σ} {e : Exc} (hcalls : w.calls = []) (hconnect : H.onConnect w.handler = (.ret (), h))
    (hloop : ClientWorker.loop pf H events (connectedWorker w h) = (.exn e, w')) :
    ClientWorker.run pf H events w = (.ret (), { w'.record .inactive with isActive := false }) := by
  have hclose : ClientWorker.loopAndClose pf H events (connectedWorker w h) = (.exn e, w') := by
    rw [ClientWorker.loopAndClose, Act.bind_of_exn hloop]
  have htry : tryBlock pf H events w = (.exn e, w') :=
    (tryBlock_of_connected hcalls hconnect events).trans hclose
  rw [run_eq, ClientWorker.finishRun, Act.bind_of_ret (Act.tryCatch_of_exn htry _)]
  rfl

end Alone

/-! ## The worker of a client among others -/

section Stands

variable (pf : Platform) (f : HttpHandlerFactory)

/-- The worker of a server with the factory for the static handler. -/
abbrev nullHandler : ServerHandler TcpServerHandler :=
  TcpServerHandler.serverHandler pf ⟨f, WsHandlerNullFactory⟩

/-- The client stands where these passes alone would have led its worker. -/
inductive Stands (script : List WriteResult) (buf : Bytes) (passes : List LoopEvent) (c : Client) : Prop
  | going (w : ClientWorker TcpServerHandler)
      (hloop : ∀ rest, ClientWorker.loop pf (nullHandler pf f) (passes ++ rest) (connectedClient script buf) =
        ClientWorker.loop pf (nullHandler pf f) rest w)
      (hhandler : w.handler = c.handler) (hbuf : w.buf = c.buf) (hinv : Inv pf c.handler)
      (hpoint : c.point = .head ∨ c.point = .body ∧ c.handler.conn.closed = false)
  | ended (r : Res Exc Unit) (w : ClientWorker TcpServerHandler)
      (hloop : ClientWorker.loop pf (nullHandler pf f) passes (connectedClient script buf) = (r, w))
      (hub : r ≠ .ub) (hhandler : w.handler = c.handler) (hinv : r = .ret () → Inv pf c.handler)
      (hpoint : c.point = .leaving ∧ r = .ret () ∨ c.point = .over)

variable {pf f} {script : List WriteResult} {buf : Bytes} {passes : List LoopEvent} {c : Client}

/-- Behind the test of the loop head the connection is open. -/
theorem Stands.body (h : Stands pf f script buf passes c) (hpoint : c.point = .body) :
    ∃ w, (∀ rest, ClientWorker.loop pf (nullHandler pf f) (passes ++ rest) (connectedClient script buf) =
        ClientWorker.loop pf (nullHandler pf f) rest w) ∧
      w.handler = c.handler ∧ w.buf = c.buf ∧ Inv pf c.handler ∧ w.handler.conn.closed = false := by
  cases h with
  | ended r w _ _ _ _ hend =>
    rw [hpoint] at hend
    simp at hend
  | going w hloop hhandler hbuf hinv hgoing =>
    obtain hhead | ⟨_, hopen⟩ := hgoing
    · rw [hpoint] at hhead
      cases hhead
    · exact ⟨w, hloop, hhandler, hbuf, hinv, hhandler ▸ hopen⟩

/-- One pass behind the others. -/
theorem loop_snoc {w : ClientWorker TcpServerHandler}
    (hloop : ∀ rest, ClientWorker.loop pf (nullHandler pf f) (passes ++ rest) (connectedClient script buf) =
      ClientWorker.loop pf (nullHandler pf f) rest w) (event : LoopEvent) (rest : List LoopEvent) :
    ClientWorker.loop pf (nullHandler pf f) (passes ++ [event] ++ rest) (connectedClient script buf) =
      ClientWorker.loop pf (nullHandler pf f) (event :: rest) w := by
  rw [List.append_assoc, List.singleton_append, hloop]

/-- What the loop over the passes leaves. -/
theorem Stands.loop (h : Stands pf f script buf passes c) :
    ∃ r w, ClientWorker.loop pf (nullHandler pf f) passes (connectedClient script buf) = (r, w) ∧
      r ≠ .ub ∧ w.handler = c.handler ∧ (r = .ret () → Inv pf c.handler) := by
  cases h with
  | going w hloop hhandler _ hinv _ =>
    have hstop := hloop []
    rw [List.append_nil] at hstop
    exact ⟨_, w, hstop, (fun hub => by cases hub), hhandler, fun _ => hinv⟩
  | ended r w hloop hub hhandler hinv _ => exact ⟨r, w, hloop, hub, hhandler, hinv⟩

/-- A client that is not upgraded has what the run over the passes leaves. -/
theorem Stands.run (h : Stands pf f script buf passes c) (hplain : ¬ Upgraded c.handler) :
    ∃ w, ClientWorker.run pf (nullHandler pf f) passes (.init (TcpServerHandler.init script) buf) =
      (.ret (), w) ∧ w.handler = c.handler := by
  obtain ⟨r, w, hloop, hub, hhandler, hinv⟩ := h.loop
  cases r with
  | ub => exact absurd rfl hub
  | exn e => exact ⟨_, run_of_loop_exn rfl rfl hloop, hhandler⟩
  | ret u =>
    have hend : TcpServerHandler.onDisconnect pf w.handler = (.ret (), w.handler) := by
      rw [hhandler]
      exact onDisconnect_of_kind (kind_of_not_upgraded (hinv rfl) hplain)
    exact ⟨_, run_of_loop rfl rfl hloop hend, hhandler⟩

end Stands

/-! ## The others -/

section Others

variable {I : Type} [DecidableEq I] {pf : Platform} {f : HttpHandlerFactory} {s s' : Clients I} {i j : I}
  {slot : Slot}

/-- The client is as before, and the static handler has not its connection. -/
def Apart (i : I) (slot : Slot) (s : Clients I) : Prop := s.slot i = slot ∧ s.wsHandlerNull ≠ some i

/-- What is put into the slot of another client does not concern this one. -/
theorem apart_put (h : Apart i slot s) (hne : i ≠ j) (slot' : Slot) : Apart i slot (s.put j slot') :=
  ⟨(slot_put_ne s hne slot').trans h.1, h.2⟩

/-- The way of another worker through its loop does not concern this client. -/
theorem apart_goTo (h : Apart i slot s) (hne : i ≠ j) (point : WorkerPoint) :
    Apart i slot (s.goTo j point) := by
  unfold Clients.goTo
  split
  · exact apart_put h hne _
  · exact h

/-- What another client's handler does with its own connection does not concern this client. -/
theorem apart_withHandler {α : Type} (h : Apart i slot s) (hne : i ≠ j) (x : Action TcpServerHandler α) :
    Apart i slot (Clients.withHandler j x s).2 := by
  unfold Clients.withHandler
  split
  · exact apart_put h hne _
  · exact h

/-- The connection of another client is used without a change of this one. -/
theorem keeps_apart (hne : i ≠ j) : Keeps (Clients.connection j) (Apart i slot) :=
  fun x _ h => apart_withHandler h hne (TcpServerHandler.tcpConnection x)

/-- The connection that the static handler was made with is used without a change of this client,
unless it is this client's. -/
theorem keeps_apart_null : Keeps (Clients.nullConnection (I := I)) (Apart i slot) := by
  intro α x s h
  unfold Clients.nullConnection
  dsimp only
  split
  · rename_i j hj
    have hne : i ≠ j := fun heq => h.2 (heq ▸ hj)
    exact keeps_apart hne x s h
  · exact h

omit [DecidableEq I] in
/-- The static handler that another client makes gets that client's connection. -/
theorem apart_initStatic (h : Apart i slot s) (hne : i ≠ j) : Apart i slot (Clients.initStatic j s) := by
  refine ⟨(congrFun (slot_initStatic j s) i).trans h.1, ?_⟩
  unfold Clients.initStatic
  split
  · split
    · dsimp only
      cases howner : s.wsHandlerNull with
      | none => exact fun heq => hne (Option.some.inj heq).symm
      | some k => exact howner ▸ h.2
    · exact h.2
  · exact h.2

/-- A chunk for another client does not concern this one, even if it goes to the static handler. -/
theorem apart_onReceive (h : Apart i slot s) (hne : i ≠ j) (mem : Mem) (len : ℕ) :
    Apart i slot (Clients.onReceive pf f j mem len s).2 := by
  unfold Clients.onReceive
  split
  · split
    · rename_i handler st _
      have hws : Apart i slot (Clients.wsReceive pf j handler st mem len s).2 :=
        apart_withHandler (preserves_onReceive pf handler (keeps_apart hne) keeps_apart_null mem len
          (st, s) h) hne _
      rw [Act.bind_apply]
      rcases hr : Clients.wsReceive pf j handler st mem len s with ⟨r, t⟩
      rw [hr] at hws
      cases r with
      | ret u => exact apart_withHandler hws hne _
      | exn e => exact hws
      | ub => exact hws
    · exact apart_initStatic (apart_withHandler h hne _) hne
  · exact h

variable (pf f) in
/-- The call of `onReceive` by another worker does not concern this client. -/
theorem apart_receive (h : Apart i slot s) (hne : i ≠ j) (chunk : Chunk) :
    Apart i slot (Clients.receive pf f j chunk s).2 := by
  unfold Clients.receive
  split
  · exact apart_onReceive (apart_put h hne _) hne _ _
  · exact h

/-- The client that an event happens at. -/
def clientOf : ClientEvent I → I
  | .accept i _ _ => i
  | .test i _ => i
  | .pass i _ => i
  | .disconnect i => i
  | .destroy i => i

/-- What happens at another client leaves the client alone. -/
theorem apart_step (h : Apart i slot s) {event : ClientEvent I} (hne : i ≠ clientOf event)
    (hstep : Clients.step pf f s event = some s') : Apart i slot s' := by
  cases event with
  | accept j script buf =>
    simp only [Clients.step] at hstep
    split at hstep
    · exact Option.some.inj hstep ▸ apart_put h hne _
    · cases hstep
  | test j quit =>
    simp only [Clients.step] at hstep
    split at hstep
    · exact Option.some.inj hstep ▸ apart_goTo h hne _
    · cases hstep
  | pass j event =>
    change i ≠ j at hne
    simp only [Clients.step] at hstep
    split at hstep
    · cases event with
      | data chunk =>
        have hreceive := apart_receive pf f h hne chunk
        unfold Clients.pass at hstep
        dsimp only at hstep
        rcases hr : Clients.receive pf f j chunk s with ⟨r, t⟩
        rw [hr] at hstep hreceive
        cases r with
        | ret u => exact Option.some.inj hstep ▸ apart_goTo hreceive hne .head
        | exn e => exact Option.some.inj hstep ▸ apart_goTo hreceive hne .over
        | ub => cases hstep
      | _ => exact Option.some.inj hstep ▸ apart_goTo h hne _
    · cases hstep
  | disconnect j =>
    change i ≠ j at hne
    have hleave := apart_withHandler h hne (TcpServerHandler.onDisconnect pf)
    simp only [Clients.step] at hstep
    split at hstep
    · rcases hr : Clients.withHandler j (TcpServerHandler.onDisconnect pf) s with ⟨r, t⟩
      rw [hr] at hstep hleave
      cases r with
      | ret u => exact Option.some.inj hstep ▸ apart_goTo hleave hne .over
      | exn e => exact Option.some.inj hstep ▸ apart_goTo hleave hne .over
      | ub => cases hstep
    · cases hstep
  | destroy j =>
    simp only [Clients.step] at hstep
    split at hstep
    · exact Option.some.inj hstep ▸ apart_put h hne _
    · cases hstep

end Others

/-! ## Its own steps -/

section Own

variable {I : Type} [DecidableEq I]

/-- The pass that the worker of the client makes with the event. -/
def passOf (i : I) : ClientEvent I → Option LoopEvent
  | .pass j event => if j = i then some event else none
  | _ => none

/-- The passes of the worker of the client. -/
def passesOf (i : I) (events : List (ClientEvent I)) : List LoopEvent := events.filterMap (passOf i)

variable {pf : Platform} {f : HttpHandlerFactory} {s s' : Clients I} {i : I} {c : Client}
  {script : List WriteResult} {buf : Bytes} {passes : List LoopEvent}

/-- A live worker that goes on keeps its handler and its buffer. -/
theorem goTo_live (hslot : s.slot i = .live c) (point : WorkerPoint) :
    s.goTo i point = s.put i (.live { c with point := point }) := by
  unfold Clients.goTo
  rw [hslot]

/-- The slot of a live worker that has gone on. -/
theorem slot_goTo (hslot : s.slot i = .live c) (point : WorkerPoint) :
    (s.goTo i point).slot i = .live { c with point := point } := by
  rw [goTo_live hslot, slot_put_self]

/-- Going on does not make the static handler. -/
theorem wsHandlerNull_goTo (hslot : s.slot i = .live c) (point : WorkerPoint) :
    (s.goTo i point).wsHandlerNull = s.wsHandlerNull := by
  rw [goTo_live hslot, wsHandlerNull_put]

/-- Of two slots that are put for one client the second one counts. -/
theorem put_put (s : Clients I) (i : I) (slot slot' : Slot) :
    (s.put i slot).put i slot' = s.put i slot' := by
  unfold Clients.put
  rw [Function.update_idem]

/-- The call of the handler for a chunk, in front of the WebSocket state. -/
theorem receive_http (hslot : s.slot i = .live c) (hkind : c.handler.curState.kind ≠ .ws) (chunk : Chunk)
    {r : Res Exc Unit} {h' : TcpServerHandler}
    (hcall : TcpServerHandler.onReceive pf ⟨f, WsHandlerNullFactory⟩
      (ClientWorker.bufMem pf (ClientWorker.fill c.buf chunk)) chunk.bytes.length c.handler = (r, h')) :
    Clients.receive pf f i chunk s = (r, Clients.initStatic i
      (s.put i (.live ⟨h', ClientWorker.fill c.buf chunk, c.point⟩))) := by
  have hput : (s.put i (.live { c with buf := ClientWorker.fill c.buf chunk })).slot i =
      .live { c with buf := ClientWorker.fill c.buf chunk } := slot_put_self s i _
  have hwith := withHandler_of_live (TcpServerHandler.onReceive pf ⟨f, WsHandlerNullFactory⟩
    (ClientWorker.bufMem pf (ClientWorker.fill c.buf chunk)) chunk.bytes.length) hput
  rw [hcall, put_put] at hwith
  unfold Clients.receive
  rw [hslot]
  dsimp only
  unfold Clients.onReceive
  rw [hput]
  dsimp only
  cases hcur : c.handler.curState with
  | ws handler st => rw [hcur] at hkind; exact absurd rfl hkind
  | init st => rw [hwith]
  | get handler => rw [hwith]

omit [DecidableEq I] in
/-- Only an upgrade makes the static handler. -/
theorem owner_initStatic (hslot : s.slot i = .live c) (howner : s.wsHandlerNull ≠ some i)
    (hplain : ¬ Upgraded c.handler) : (Clients.initStatic i s).wsHandlerNull ≠ some i := by
  unfold Clients.initStatic
  rw [hslot]
  have hlog : .createWsHandler ∉ c.handler.conn.log := hplain
  dsimp only
  rw [if_neg hlog]
  exact howner

/-- The test of the loop head. -/
theorem stands_test (h : Stands pf f script buf passes c) (hslot : s.slot i = .live c) {quit : Bool}
    (hstep : Clients.step pf f s (.test i quit) = some s') :
    ∃ c', s'.slot i = .live c' ∧ Stands pf f script buf passes c' ∧
      s'.wsHandlerNull = s.wsHandlerNull := by
  obtain ⟨handler, b, point⟩ := c
  simp only [Clients.step, hslot] at hstep
  cases point with
  | head =>
    dsimp only at hstep
    obtain rfl := Option.some.inj hstep
    refine ⟨_, slot_goTo hslot _, ?_, wsHandlerNull_goTo hslot _⟩
    cases h with
    | ended r w _ _ _ _ hpoint => simp at hpoint
    | going w hloop hhandler hbuf hinv _ =>
      cases hquit : quit || handler.conn.closed with
      | true =>
        have hstop := hloop []
        rw [List.append_nil] at hstop
        exact .ended _ w hstop (fun hub => by cases hub) hhandler (fun _ => hinv) (Or.inl ⟨rfl, rfl⟩)
      | false =>
        have hopen : handler.conn.closed = false := (Bool.or_eq_false_iff.mp hquit).2
        exact .going w hloop hhandler hbuf hinv (Or.inr ⟨rfl, hopen⟩)
  | _ => cases hstep

/-- The end of the connection. -/
theorem stands_disconnect (h : Stands pf f script buf passes c) (hslot : s.slot i = .live c)
    (hplain : ¬ Upgraded c.handler) (hstep : Clients.step pf f s (.disconnect i) = some s') :
    ∃ c', s'.slot i = .live c' ∧ Stands pf f script buf passes c' ∧
      s'.wsHandlerNull = s.wsHandlerNull := by
  obtain ⟨handler, b, point⟩ := c
  simp only [Clients.step, hslot] at hstep
  cases point with
  | leaving =>
    cases h with
    | going w _ _ _ _ hpoint => simp at hpoint
    | ended r w hloop hub hhandler hinv hpoint =>
      obtain ⟨_, rfl⟩ | hpoint := hpoint
      · have hend : TcpServerHandler.onDisconnect pf handler = (.ret (), handler) :=
          onDisconnect_of_kind (kind_of_not_upgraded (hinv rfl) hplain)
        have hwith := withHandler_of_live (TcpServerHandler.onDisconnect pf) hslot
        rw [hend] at hwith
        dsimp only at hstep
        rw [hwith] at hstep
        dsimp only at hstep
        obtain rfl := Option.some.inj hstep
        rw [goTo_live (slot_put_self s i _), put_put]
        exact ⟨_, slot_put_self s i _, .ended _ w hloop hub hhandler hinv (Or.inr rfl), rfl⟩
      · cases hpoint
  | _ => cases hstep

/-- A pass on the open connection in which the handler is not called. -/
theorem stands_quiet_pass (h : Stands pf f script buf passes c) (hslot : s.slot i = .live c)
    {event : LoopEvent} (hevent : ∀ chunk, event ≠ .data chunk)
    (hstep : Clients.step pf f s (.pass i event) = some s') :
    ∃ c', s'.slot i = .live c' ∧ Stands pf f script buf (passes ++ [event]) c' ∧
      s'.wsHandlerNull = s.wsHandlerNull := by
  obtain ⟨handler, b, point⟩ := c
  simp only [Clients.step, hslot] at hstep
  cases point with
  | body =>
    obtain ⟨w, hloop, hhandler, hbuf, hinv, hopen⟩ := h.body rfl
    have hlast := hloop [event]
    rw [loop_open hopen] at hlast
    have hidle : event = .notReadable ∨ event = .again → ∀ rest,
        ClientWorker.loop pf (nullHandler pf f) (passes ++ [event] ++ rest) (connectedClient script buf) =
          ClientWorker.loop pf (nullHandler pf f) rest w := fun hevent rest =>
      (loop_snoc hloop event rest).trans (loop_idle hopen hevent rest)
    cases event with
    | data chunk => exact absurd rfl (hevent chunk)
    | notReadable =>
      obtain rfl := Option.some.inj hstep
      exact ⟨_, slot_goTo hslot .head, .going w (hidle (Or.inl rfl)) hhandler hbuf hinv (Or.inl rfl),
        wsHandlerNull_goTo hslot .head⟩
    | again =>
      obtain rfl := Option.some.inj hstep
      exact ⟨_, slot_goTo hslot .head, .going w (hidle (Or.inr rfl)) hhandler hbuf hinv (Or.inl rfl),
        wsHandlerNull_goTo hslot .head⟩
    | eof =>
      obtain rfl := Option.some.inj hstep
      exact ⟨_, slot_goTo hslot .leaving, .ended _ w hlast (fun hub => by cases hub) hhandler
        (fun _ => hinv) (Or.inl ⟨rfl, rfl⟩), wsHandlerNull_goTo hslot .leaving⟩
    | pollFails e =>
      obtain rfl := Option.some.inj hstep
      exact ⟨_, slot_goTo hslot .over, .ended _ w hlast (fun hub => by cases hub) hhandler
        (fun _ => hinv) (Or.inr rfl), wsHandlerNull_goTo hslot .over⟩
    | readFails e =>
      obtain rfl := Option.some.inj hstep
      exact ⟨_, slot_goTo hslot .over, .ended _ w hlast (fun hub => by cases hub) hhandler
        (fun _ => hinv) (Or.inr rfl), wsHandlerNull_goTo hslot .over⟩
  | _ => cases hstep

/-- A pass in which the handler is called for a chunk. -/
theorem stands_chunk (h : Stands pf f script buf passes c) (hslot : s.slot i = .live c)
    (howner : s.wsHandlerNull ≠ some i) (hplain : ¬ Upgraded c.handler) {chunk : Chunk}
    (hstep : Clients.step pf f s (.pass i (.data chunk)) = some s') :
    ∃ c', s'.slot i = .live c' ∧ Stands pf f script buf (passes ++ [.data chunk]) c' ∧
      (¬ Upgraded c'.handler → s'.wsHandlerNull ≠ some i) := by
  obtain ⟨handler, b, point⟩ := c
  cases point with
  | body =>
    obtain ⟨w, hloop, hhandler, hbuf, hinv, hopen⟩ := h.body rfl
    -- the same call, made by the worker alone
    rcases hcall : TcpServerHandler.onReceive pf ⟨f, WsHandlerNullFactory⟩
      (ClientWorker.bufMem pf (ClientWorker.fill b chunk)) chunk.bytes.length handler with ⟨r, h'⟩
    let w' : ClientWorker TcpServerHandler :=
      ⟨h', ClientWorker.fill b chunk, w.isActive, w.calls ++ [.receive chunk.bytes]⟩
    have hreceive : ClientWorker.receive pf (nullHandler pf f) chunk w = (r, w') := by
      have hsame : (nullHandler pf f).onReceive (ClientWorker.bufMem pf (ClientWorker.fill b chunk))
          chunk.bytes.length handler = (r, h') := hcall
      rw [receive_apply, hbuf, hhandler, hsame]
    have hinv' : r = .ret () → Inv pf h' := by
      have hkept := receive_inv (f := ⟨f, WsHandlerNullFactory⟩) (hhandler ▸ hinv) hopen chunk
      rw [hreceive] at hkept
      exact hkept
    have hdata := fun rest => (loop_snoc hloop (.data chunk) rest).trans (loop_data hopen chunk rest)
    -- the call among the others
    let t := Clients.initStatic i (s.put i (.live ⟨h', ClientWorker.fill b chunk, .body⟩))
    have hslot_t : t.slot i = .live ⟨h', ClientWorker.fill b chunk, .body⟩ :=
      (congrFun (slot_initStatic i _) i).trans (slot_put_self s i _)
    have howner_t : ∀ point, ¬ Upgraded h' → (t.goTo i point).wsHandlerNull ≠ some i := by
      intro point hplain'
      rw [wsHandlerNull_goTo hslot_t]
      exact owner_initStatic (slot_put_self s i _) howner hplain'
    simp only [Clients.step, hslot, Clients.pass] at hstep
    rw [receive_http hslot (kind_of_not_upgraded hinv hplain) chunk hcall] at hstep
    cases r with
    | ub => cases hstep
    | ret u =>
      obtain rfl := Option.some.inj hstep
      refine ⟨_, slot_goTo hslot_t .head, .going w' (fun rest => ?_) rfl rfl (hinv' rfl) (Or.inl rfl),
        howner_t .head⟩
      rw [hdata, Act.bind_of_ret hreceive]
    | exn e =>
      obtain rfl := Option.some.inj hstep
      refine ⟨_, slot_goTo hslot_t .over, .ended (.exn e) w' ?_ (fun hub => by cases hub) rfl
        (fun hret => by cases hret) (Or.inr rfl), howner_t .over⟩
      have hstop := hdata []
      rw [List.append_nil, Act.bind_of_exn hreceive] at hstop
      exact hstop
  | _ =>
    simp only [Clients.step, hslot] at hstep
    cases hstep

end Own

/-! ## The run of the server -/

section Run

variable {I : Type} [DecidableEq I] {pf : Platform} {f : HttpHandlerFactory} {s s' : Clients I} {i : I}
  {events : List (ClientEvent I)} {event : ClientEvent I}

variable (pf f s i events) in
/-- The client stands where its own passes led it, and has not made the static handler. -/
inductive Follows : Prop
  | unused (howner : s.wsHandlerNull ≠ some i) (hslot : s.slot i = .unused) (hpasses : passesOf i events = [])
      (haccept : ∀ script buf, .accept i script buf ∉ events)
  | live (howner : s.wsHandlerNull ≠ some i) (c : Client) (script : List WriteResult) (buf : Bytes)
      (hslot : s.slot i = .live c) (hmem : .accept i script buf ∈ events)
      (haccept : ∀ script' buf', .accept i script' buf' ∈ events → script' = script ∧ buf' = buf)
      (hstands : Stands pf f script buf (passesOf i events) c)
  | destroyed (howner : s.wsHandlerNull ≠ some i) (hslot : s.slot i = .destroyed)

variable (pf f i events) in
/-- Alone with its passes, the client would not be upgraded. -/
def PlainAlone : Prop :=
  ∀ script buf, .accept i script buf ∈ events → ¬ Upgraded (ClientWorker.loop pf (nullHandler pf f)
    (passesOf i events) (connectedClient script buf)).2.handler

/-- The passes of a client behind one more event. -/
theorem passesOf_snoc : passesOf i (events ++ [event]) = passesOf i events ++ (passOf i event).toList := by
  rw [passesOf, List.filterMap_append, ← passesOf]
  cases hpass : passOf i event with
  | none => rw [List.filterMap_cons_none hpass, List.filterMap_nil, Option.toList_none]
  | some pass => rw [List.filterMap_cons_some hpass, List.filterMap_nil, Option.toList_some]

/-- A client that its passes do not upgrade was not upgraded by the earlier ones. -/
theorem plainAlone_of_snoc (h : PlainAlone pf f i (events ++ [event])) : PlainAlone pf f i events := by
  intro script buf hmem hup
  refine h script buf (List.mem_append_left _ hmem) ?_
  rw [passesOf_snoc]
  exact upgraded_append _ _ (inv_init script) hup

/-- The client itself is not upgraded if its worker alone would not be. -/
theorem Stands.not_upgraded {script : List WriteResult} {buf : Bytes} {passes : List LoopEvent} {c : Client}
    (h : Stands pf f script buf passes c) (hplain : ¬ Upgraded (ClientWorker.loop pf (nullHandler pf f)
      passes (connectedClient script buf)).2.handler) : ¬ Upgraded c.handler := by
  obtain ⟨r, w, hloop, _, hhandler, _⟩ := h.loop
  rw [hloop] at hplain
  rw [← hhandler]
  exact hplain

/-- What happens at another client. -/
theorem follows_other (h : Follows pf f s i events) (hne : i ≠ clientOf event)
    (hstep : Clients.step pf f s event = some s') : Follows pf f s' i (events ++ [event]) := by
  have hpasses : passesOf i (events ++ [event]) = passesOf i events := by
    have hnone : passOf i event = none := by
      cases event with
      | pass j event => exact if_neg fun heq => hne heq.symm
      | _ => rfl
    rw [passesOf_snoc, hnone, Option.toList_none, List.append_nil]
  have haccepted : ∀ script buf, .accept i script buf ∈ events ++ [event] → .accept i script buf ∈ events := by
    intro script buf hmem
    obtain hmem | hmem := List.mem_append.mp hmem
    · exact hmem
    · rw [← List.mem_singleton.mp hmem] at hne
      exact absurd rfl hne
  cases h with
  | unused howner hslot hnil haccept =>
    obtain ⟨hslot', howner'⟩ := apart_step ⟨hslot, howner⟩ hne hstep
    exact .unused howner' hslot' (hpasses.trans hnil) fun script buf hmem =>
      haccept script buf (haccepted script buf hmem)
  | live howner c script buf hslot hmem haccept hstands =>
    obtain ⟨hslot', howner'⟩ := apart_step ⟨hslot, howner⟩ hne hstep
    exact .live howner' c script buf hslot' (List.mem_append_left _ hmem)
      (fun script' buf' hmem' => haccept script' buf' (haccepted script' buf' hmem')) (hpasses ▸ hstands)
  | destroyed howner hslot =>
    obtain ⟨hslot', howner'⟩ := apart_step ⟨hslot, howner⟩ hne hstep
    exact .destroyed howner' hslot'

/-- What happens at the client itself, behind its connection. -/
theorem follows_live (howner : s.wsHandlerNull ≠ some i) {c : Client} {script : List WriteResult}
    {buf : Bytes} (hslot : s.slot i = .live c) (hmem : .accept i script buf ∈ events)
    (haccept : ∀ script' buf', .accept i script' buf' ∈ events → script' = script ∧ buf' = buf)
    (hstands : Stands pf f script buf (passesOf i events) c) (hown : clientOf event = i)
    (hstep : Clients.step pf f s event = some s') (hplain : PlainAlone pf f i (events ++ [event])) :
    Follows pf f s' i (events ++ [event]) := by
  have hbefore : ¬ Upgraded c.handler :=
    hstands.not_upgraded (plainAlone_of_snoc hplain script buf hmem)
  have hmem' : .accept i script buf ∈ events ++ [event] := List.mem_append_left _ hmem
  have hquiet : ∀ c', s'.slot i = .live c' → Stands pf f script buf (passesOf i (events ++ [event])) c' →
      (¬ Upgraded c'.handler → s'.wsHandlerNull ≠ some i) →
      (∀ script' buf', event ≠ .accept i script' buf') → Follows pf f s' i (events ++ [event]) := by
    intro c' hslot' hstands' howner' hno
    refine .live (howner' (hstands'.not_upgraded (hplain script buf hmem'))) c' script buf hslot' hmem' ?_
      hstands'
    intro script' buf' hacc
    obtain hacc | hacc := List.mem_append.mp hacc
    · exact haccept script' buf' hacc
    · exact absurd (List.mem_singleton.mp hacc).symm (hno script' buf')
  have hpasses : passesOf i (events ++ [event]) = passesOf i events ++ (passOf i event).toList := passesOf_snoc
  cases event with
  | accept j script' buf' =>
    obtain rfl : j = i := hown
    simp only [Clients.step, hslot] at hstep
    cases hstep
  | test j quit =>
    obtain rfl : j = i := hown
    obtain ⟨c', hslot', hstands', hnull⟩ := stands_test hstands hslot hstep
    have hsame := hpasses.trans (List.append_nil _)
    exact hquiet c' hslot' (hsame ▸ hstands') (fun _ => hnull ▸ howner) fun _ _ heq => by cases heq
  | pass j event =>
    obtain rfl : j = i := hown
    rw [passOf, if_pos rfl, Option.toList_some] at hpasses
    by_cases hdata : ∃ chunk, event = .data chunk
    · obtain ⟨chunk, rfl⟩ := hdata
      obtain ⟨c', hslot', hstands', hnull⟩ := stands_chunk hstands hslot howner hbefore hstep
      exact hquiet c' hslot' (hpasses ▸ hstands') hnull fun _ _ heq => by cases heq
    · obtain ⟨c', hslot', hstands', hnull⟩ := stands_quiet_pass hstands hslot
        (fun chunk heq => hdata ⟨chunk, heq⟩) hstep
      exact hquiet c' hslot' (hpasses ▸ hstands') (fun _ => hnull ▸ howner) fun _ _ heq => by cases heq
  | disconnect j =>
    obtain rfl : j = i := hown
    obtain ⟨c', hslot', hstands', hnull⟩ := stands_disconnect hstands hslot hbefore hstep
    have hsame := hpasses.trans (List.append_nil _)
    exact hquiet c' hslot' (hsame ▸ hstands') (fun _ => hnull ▸ howner) fun _ _ heq => by cases heq
  | destroy j =>
    obtain rfl : j = i := hown
    simp only [Clients.step] at hstep
    split at hstep
    · obtain rfl := Option.some.inj hstep
      exact .destroyed howner (slot_put_self s j _)
    · cases hstep

/-- A client makes steps when it is live; the first one makes it so. -/
theorem step_own (hown : clientOf event = i) (hstep : Clients.step pf f s event = some s') :
    (∃ c, s.slot i = .live c) ∨ ∃ script buf, event = .accept i script buf ∧ s.slot i = .unused ∧
      s' = s.put i (.live ⟨TcpServerHandler.init script, buf, .head⟩) := by
  subst hown
  cases event with
  | accept j script buf =>
    simp only [Clients.step] at hstep
    split at hstep
    · rename_i hslot
      exact Or.inr ⟨script, buf, rfl, hslot, (Option.some.inj hstep).symm⟩
    · cases hstep
  | _ =>
    simp only [Clients.step] at hstep
    split at hstep
    · rename_i hslot
      exact Or.inl ⟨_, hslot⟩
    · cases hstep

/-- Whatever happens, the client follows its passes. -/
theorem follows_step (h : Follows pf f s i events) (hstep : Clients.step pf f s event = some s')
    (hplain : PlainAlone pf f i (events ++ [event])) : Follows pf f s' i (events ++ [event]) := by
  by_cases hown : i = clientOf event
  · have hlive := step_own hown.symm hstep
    cases h with
    | live howner c script buf hslot hmem haccept hstands =>
      exact follows_live howner hslot hmem haccept hstands hown.symm hstep hplain
    | destroyed howner hslot =>
      rw [hslot] at hlive
      obtain ⟨c, hc⟩ | ⟨script, buf, _, hunused, _⟩ := hlive
      · cases hc
      · cases hunused
    | unused howner hslot hnil haccept =>
      rw [hslot] at hlive
      obtain ⟨c, hc⟩ | ⟨script, buf, rfl, _, rfl⟩ := hlive
      · cases hc
      · have hpasses : passesOf i (events ++ [.accept i script buf]) = [] := by
          rw [passesOf_snoc]
          exact (List.append_nil _).trans hnil
        refine .live howner ⟨TcpServerHandler.init script, buf, .head⟩ script buf (slot_put_self s i _)
          (List.mem_append_right _ List.mem_cons_self) ?_ ?_
        · intro script' buf' hmem
          obtain hmem | hmem := List.mem_append.mp hmem
          · exact absurd hmem (haccept script' buf')
          · cases List.mem_singleton.mp hmem
            exact ⟨rfl, rfl⟩
        · rw [hpasses]
          exact .going (connectedClient script buf) (fun _ => rfl) rfl rfl (inv_init script) (Or.inl rfl)
  · exact follows_other h hown hstep

/-- So in every state of a run the client stands where its passes have led it. -/
theorem follows_run (hexec : System.exec (Clients.step pf f) Clients.init events = some s)
    (hplain : PlainAlone pf f i events) : Follows pf f s i events := by
  refine (System.run_ofStep_iff.mpr hexec).history
    (J := fun events s => PlainAlone pf f i events → Follows pf f s i events) ?_ ?_ hplain
  · intro _
    exact .unused (fun heq => by cases heq) rfl rfl fun _ _ hmem => List.not_mem_nil hmem
  · intro events s event s' h hstep hplain
    exact follows_step (h (plainAlone_of_snoc hplain)) hstep hplain

/-- What the worker of a client alone would do with the client's passes, in the whole run so far. -/
def aloneRun (pf : Platform) (f : HttpHandlerFactory) (script : List WriteResult) (buf : Bytes) (i : I)
    (events : List (ClientEvent I)) : Res Exc Unit × ClientWorker TcpServerHandler :=
  ClientWorker.run pf (nullHandler pf f) (passesOf i events) (.init (TcpServerHandler.init script) buf)

/-- A live client whose passes alone do not lead to an upgrade stands where they lead. -/
theorem stands_of_live (hexec : System.exec (Clients.step pf f) Clients.init events = some s) {c : Client}
    (hslot : s.slot i = .live c)
    (hplain : ∀ script buf, .accept i script buf ∈ events →
      ¬ Upgraded (aloneRun pf f script buf i events).2.handler) :
    ∃ script buf, .accept i script buf ∈ events ∧ Stands pf f script buf (passesOf i events) c ∧
      ¬ Upgraded c.handler := by
  have halone : PlainAlone pf f i events := fun script buf hmem hup =>
    hplain script buf hmem (upgraded_run pf _ hup)
  cases follows_run hexec halone with
  | unused _ hslot' => rw [hslot] at hslot'; cases hslot'
  | destroyed _ hslot' => rw [hslot] at hslot'; cases hslot'
  | live _ d script buf hslot' hmem _ hstands =>
    rw [hslot, Slot.live.injEq] at hslot'
    subst hslot'
    exact ⟨script, buf, hmem, hstands, hstands.not_upgraded (halone script buf hmem)⟩

end Run

/-- In every run of a server, with any number of clients and in any order of their steps, a client whose
passes alone do not lead to an upgrade is where these passes alone lead its worker: its state, its
connection and all that has been written on it do not depend on the other clients. -/
theorem plain_client_alone {I : Type} [DecidableEq I] (pf : Platform) (f : HttpHandlerFactory)
    {events : List (ClientEvent I)} {s : Clients I}
    (hexec : System.exec (Clients.step pf f) Clients.init events = some s) {i : I} {c : Client}
    (hslot : s.slot i = .live c)
    (hplain : ∀ script buf, .accept i script buf ∈ events →
      ¬ Upgraded (aloneRun pf f script buf i events).2.handler) :
    ∃ script buf w, .accept i script buf ∈ events ∧ aloneRun pf f script buf i events = (.ret (), w) ∧
      w.handler = c.handler := by
  obtain ⟨script, buf, hmem, hstands, hnot⟩ := stands_of_live hexec hslot hplain
  obtain ⟨w, hrun, hhandler⟩ := hstands.run hnot
  exact ⟨script, buf, w, hmem, hrun, hhandler⟩

/-- One client requests the index page, in two chunks, while another one is upgraded and sends a close
frame. -/
def pageAmongSockets : List (ClientEvent Bool) :=
  [.accept false [] [], .accept true [] [], .test true false, .test false false,
    .pass true (.data browserChunks[0]), .pass false (.data upgradeRequest), .test false false,
    .test true false, .pass true .again, .pass false (.data closeChunk), .test true false,
    .pass true (.data browserChunks[1]), .test false false, .test true false, .disconnect true]

/-- The client with the page is accepted once, and its writes are not limited. -/
theorem accept_pageAmongSockets {script : List WriteResult} {buf : Bytes}
    (h : .accept true script buf ∈ pageAmongSockets) : script = [] ∧ buf = [] := by
  simpa [pageAmongSockets] using h

/-- The slot has a client. -/
def isLive : Slot → Bool
  | .live _ => true
  | _ => false

/-- The server at the end of these steps. -/
theorem exec_pageAmongSockets : ∃ s c,
    System.exec (Clients.step fullPlatform (HttpFileHandlerFactory [])) Clients.init pageAmongSockets = some s ∧
      s.slot true = .live c := by
  have hexec : (System.exec (Clients.step fullPlatform (HttpFileHandlerFactory [])) Clients.init
      pageAmongSockets).map (fun s => isLive (s.slot true)) = some true := by
    decide +kernel
  obtain ⟨s, hs, hlive⟩ := Option.map_eq_some_iff.mp hexec
  cases hslot : s.slot true with
  | unused => rw [hslot] at hlive; cases hlive
  | destroyed => rw [hslot] at hlive; cases hlive
  | live c => exact ⟨s, c, hs, hslot⟩

/-- The client with the page, while another one has made the static handler. -/
theorem plain_client_alone_page : ∃ s c script buf w,
    System.exec (Clients.step fullPlatform (HttpFileHandlerFactory [])) Clients.init pageAmongSockets = some s ∧
      s.slot true = .live c ∧ .accept true script buf ∈ pageAmongSockets ∧
      aloneRun fullPlatform (HttpFileHandlerFactory []) script buf true pageAmongSockets = (.ret (), w) ∧
      w.handler = c.handler := by
  obtain ⟨s, c, hexec, hslot⟩ := exec_pageAmongSockets
  obtain ⟨script, buf, w, halone⟩ := plain_client_alone fullPlatform (HttpFileHandlerFactory []) hexec hslot
    (fun script buf hmem => by
      obtain ⟨rfl, rfl⟩ := accept_pageAmongSockets hmem
      unfold Upgraded
      decide +kernel)
  exact ⟨s, c, script, buf, w, hexec, hslot, halone⟩

/-! ## Files among WebSockets -/

section File

variable {pf : Platform} {f : Factories} {script : List WriteResult} {buf : Bytes} {request : Bytes}
  {events : List LoopEvent}

variable (buf) in
/-- The handler behind the run of a client whose request is dispatched. -/
theorem run_of_request (hshows : ShowsFirst events request) (hterm : TerminatedOnce request)
    (hlen : request.length ≤ 4096) (hhead : request.head? = some 0x47) {bytes : Bytes} {h' : TcpServerHandler}
    (hdispatch : (dispatchRequest pf f (gathered request) >>= fun _ => TcpServerHandler.installNextState)
      (TcpServerHandler.init script) = (.ret (), h'))
    (hfinished : Finished [] bytes h') :
    (ClientWorker.run pf (TcpServerHandler.serverHandler pf f) events
      (.init (TcpServerHandler.init script) buf)).2.handler = h' := by
  obtain ⟨chunks, rest, hbusy, hcut⟩ := hshows
  have hne : chunks ≠ [] := by
    rintro rfl
    rw [← hcut] at hhead
    cases hhead
  obtain ⟨w, hloop, rfl⟩ := loop_request hterm hlen hhead hne (gathers_init pf script buf) rfl rfl hcut hdispatch
  have hwhole : ClientWorker.loop pf (TcpServerHandler.serverHandler pf f) events
      (connectedClient script buf) = (.ret (), w) := by
    rw [loop_filter, hbusy, loop_append_data, Act.bind_of_ret hloop]
    exact loop_end hfinished.closed
  rw [run_of_loop rfl rfl hwhole (onDisconnect_of_kind hfinished.kind)]

/-- Where the handler of a GET request was made, no other one is. -/
theorem not_upgraded_of_created {h : TcpServerHandler} (hlives : Lives pf h.conn)
    (hcreated : .createHttpHandler ∈ h.conn.log) : ¬ Upgraded h := by
  intro hup
  obtain ⟨p, hrun⟩ := hlives
  have hle := created_le_one hrun
  have hhttp := List.count_pos_iff.mpr hcreated
  have hws := List.count_pos_iff.mpr hup
  omega

end File

/-- In every run of a file server, with any number of clients in any order of their steps, among them
clients with WebSockets: when what a client has shown its worker begins with a GET request, in any
number of pieces, the answer to its path has been written to it, and nothing else, and its connection is
closed. -/
theorem file_served_among {I : Type} [DecidableEq I] (pf : Platform) (basePath : Bytes)
    {events : List (ClientEvent I)} {s : Clients I}
    (hexec : System.exec (Clients.step pf (HttpFileHandlerFactory basePath)) Clients.init events = some s)
    {i : I} {c : Client} (hslot : s.slot i = .live c)
    (hscript : ∀ script buf, .accept i script buf ∈ events → ∀ r ∈ script, ∃ k, r = .accept k)
    (line : RequestLine) (lines : List HeaderLine) {target version : Bytes}
    (hline : GetLine line.val target version) (hplain : ∀ l ∈ lines, l.Plain)
    (hdistinct : DistinctNames lines) (hget : ¬ Spelled lines)
    (hfit : (pathOf target).length < MAX_PATH_LEN) (hlen : (requestText line lines).length < 4096)
    (hshows : ShowsFirst (passesOf i events) (requestText line lines)) :
    c.handler.conn.closed = true ∧ c.handler.conn.log.written = fileAnswer pf (pathOf target) := by
  obtain ⟨hparse, htype⟩ := parse_get hline hplain hdistinct hget hfit
  have hterm := terminatedOnce_requestText line lines
  have hhead : (requestText line lines).head? = some 0x47 := by
    rw [requestText, hline.eq]
    rfl
  have hcreate : ∀ log, (HttpFileHandlerFactory basePath).createHttpHandler log =
      .ret (HttpFileHandler basePath) := fun _ => rfl
  -- what the worker of the client does alone
  have halone : ∀ script buf, .accept i script buf ∈ events →
      Finished [] (fileAnswer pf (pathOf target))
          (aloneRun pf (HttpFileHandlerFactory basePath) script buf i events).2.handler ∧
        ¬ Upgraded (aloneRun pf (HttpFileHandlerFactory basePath) script buf i events).2.handler := by
    intro script buf hmem
    obtain ⟨h', hdispatch, hfinished, hcreated⟩ := dispatch_get (h := TcpServerHandler.init script)
      (f := ⟨HttpFileHandlerFactory basePath, WsHandlerNullFactory⟩) hlen rfl rfl (hscript script buf hmem)
      hparse htype hcreate fun _ => (writes_fileAnswer basePath _).outputs
    have hhandler := run_of_request buf hshows hterm (Nat.le_of_lt hlen) hhead hdispatch hfinished
    have hlives := run_lives pf ⟨HttpFileHandlerFactory basePath, WsHandlerNullFactory⟩ script buf
      (passesOf i events)
    rw [hhandler] at hlives
    rw [aloneRun, hhandler]
    exact ⟨hfinished, not_upgraded_of_created hlives hcreated⟩
  obtain ⟨script, buf, hmem, hstands, hnot⟩ :=
    stands_of_live hexec hslot fun script buf hmem => (halone script buf hmem).2
  obtain ⟨w, hrun, hhandler⟩ := hstands.run hnot
  have hfinished := (halone script buf hmem).1
  rw [aloneRun, hrun] at hfinished
  exact hhandler ▸ ⟨hfinished.closed, hfinished.written⟩

/-- The page is sent while another client has a WebSocket. -/
theorem file_served_among_page : ∃ s c,
    System.exec (Clients.step fullPlatform (HttpFileHandlerFactory [])) Clients.init pageAmongSockets = some s ∧
      s.slot true = .live c ∧ c.handler.conn.closed = true ∧
      c.handler.conn.log.written = fileAnswer fullPlatform (pathOf (ascii "/")) := by
  obtain ⟨s, c, hexec, hslot⟩ := exec_pageAmongSockets
  refine ⟨s, c, hexec, hslot, file_served_among fullPlatform [] hexec
    hslot ?_ indexLine browserLines getLine_indexLine plain_browserLines distinct_browserLines
    not_spelled_browserLines (by decide +kernel) (by decide +kernel)
    ⟨browserChunks, [], rfl, by decide +kernel⟩⟩
  intro script buf hmem r hr
  obtain ⟨rfl, rfl⟩ := accept_pageAmongSockets hmem
  cases hr

end CppSocks.Analysis
