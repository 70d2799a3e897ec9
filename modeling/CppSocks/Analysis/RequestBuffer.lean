import CppSocks.Analysis.LoopPasses
import CppSocks.Analysis.Segmentation
import CppSocks.Analysis.StateMachine

/-!
# The request buffer

As long as `HttpInitState` is the current state of an open connection, `recvBuf`
holds the bytes that have been received, with zeros behind them (`Gathers`). One
call of `onReceive` copies its chunk behind the end of the buffer, waits, or goes
on to parse (`onReceive_overrun`, `onReceive_waits`, `onReceive_dispatches`). All
accesses are within the buffer if and only if the received bytes are at least four
and fit (`requestBuffer_inBounds_iff`).
-/

set_option autoImplicit false

namespace CppSocks.Analysis

open CppSocks.Model Foundation

/-! ## The buffer -/

/-- The state object once these bytes have been received. -/
def gathered (received : Bytes) : HttpInitState where
  recvBuf := received ++ List.replicate (4096 - received.length) 0
  numRecv := received.length

section Buffer

variable {received bytes : Bytes}

/-- The gathered buffer keeps the size of `recvBuf`, whatever part of it is filled. -/
theorem length_recvBuf (h : received.length ≤ 4096) : (gathered received).recvBuf.length = 4096 := by
  rw [gathered, List.length_append, List.length_replicate]
  omega

/-- More bytes that fit. -/
theorem append_gathered (h : received.length + bytes.length ≤ 4096) :
    (gathered received).append bytes = .ret (gathered (received ++ bytes)) := by
  rw [HttpInitState.append, length_recvBuf (by omega)]
  refine (if_pos h).trans (congrArg Res.ret ?_)
  unfold gathered
  dsimp only
  rw [List.take_left, ← List.drop_drop, List.drop_left, List.drop_replicate, List.length_append,
    Nat.sub_sub]

/-- More bytes than fit. -/
theorem append_overrun (hr : received.length ≤ 4096) (h : 4096 < received.length + bytes.length) :
    (gathered received).append bytes = .ub := by
  rw [HttpInitState.append, length_recvBuf hr]
  exact if_neg (Nat.not_le.mpr h)

end Buffer

/-! ## One call of `onReceive` -/

/-- The buffer with `\0` in its last place. -/
def terminated (s : HttpInitState) : HttpInitState :=
  { s with recvBuf := s.recvBuf.set (s.recvBuf.length - 1) 0 }

/-- What `onReceive` does if it does not wait: it terminates and parses the buffer and changes the
state, or closes the connection. -/
def dispatchRequest (pf : Platform) (f : Factories) (s : HttpInitState) :
    Action TcpServerHandler Unit := do
  Act.modify fun h => { h with curState := .init (terminated s) }
  let returned ← Act.tryCatch (HttpInitState.parseAndEnter pf f (terminated s)) fun _ => pure false
  if returned then pure () else TcpServerHandler.tcpConnection Connection.close

section Call

variable {pf : Platform} {f : Factories} {received bytes : Bytes} {mem : Mem} {h : TcpServerHandler}

/-- The bytes a memory starts with can be read from it in one piece. -/
theorem readRange_startsWith (hmem : mem.StartsWith bytes) :
    mem.readRange 0 bytes.length = .ret bytes := by
  refine Mem.readRange_eq fun i hi => ?_
  rw [Nat.zero_add]
  exact hmem i hi

/-- A chunk that does not fit behind the bytes already gathered is copied past the end of `recvBuf`,
which is undefined. -/
theorem onReceive_overrun (hmem : mem.StartsWith bytes) (hr : received.length ≤ 4096)
    (hover : 4096 < received.length + bytes.length) :
    HttpInitState.onReceive pf f (gathered received) mem bytes.length h = (.ub, h) := by
  have hrequest : HttpInitState.receiveRequest pf f (gathered received) mem bytes.length h =
      (.ub, h) := by
    rw [HttpInitState.receiveRequest, readRange_startsWith hmem,
      Act.bind_of_ret (Act.lift_apply _ h), append_overrun hr hover,
      Act.bind_of_ub (Act.lift_apply _ h)]
  rw [HttpInitState.onReceive, Act.bind_of_ub (Act.tryCatch_of_ub hrequest _)]

/-- A chunk that fits and does not complete the request is gathered, and nothing else happens. -/
theorem onReceive_waits (hmem : mem.StartsWith bytes)
    (hfit : received.length + bytes.length ≤ 4096)
    (hwait : (gathered (received ++ bytes)).incomplete pf = true) :
    HttpInitState.onReceive pf f (gathered received) mem bytes.length h =
      (.ret (), { h with curState := .init (gathered (received ++ bytes)) }) := by
  have hrequest : HttpInitState.receiveRequest pf f (gathered received) mem bytes.length h =
      (.ret true, { h with curState := .init (gathered (received ++ bytes)) }) := by
    rw [HttpInitState.receiveRequest, readRange_startsWith hmem,
      Act.bind_of_ret (Act.lift_apply _ h), append_gathered hfit,
      Act.bind_of_ret (Act.lift_apply _ h), Act.bind_of_ret (Act.modify_apply _ h), if_pos hwait]
    rfl
  rw [HttpInitState.onReceive, Act.bind_of_ret (Act.tryCatch_of_ret hrequest _)]
  rfl

/-- A chunk that fits and completes the request is gathered and handed to `dispatchRequest`. -/
theorem onReceive_dispatches (hmem : mem.StartsWith bytes)
    (hfit : received.length + bytes.length ≤ 4096)
    (hcomplete : (gathered (received ++ bytes)).incomplete pf = false) :
    HttpInitState.onReceive pf f (gathered received) mem bytes.length h =
      dispatchRequest pf f (gathered (received ++ bytes))
        { h with curState := .init (gathered (received ++ bytes)) } := by
  have hrequest : HttpInitState.receiveRequest pf f (gathered received) mem bytes.length h =
      HttpInitState.parseAndEnter pf f (terminated (gathered (received ++ bytes)))
        { h with curState := .init (terminated (gathered (received ++ bytes))) } := by
    rw [HttpInitState.receiveRequest, readRange_startsWith hmem,
      Act.bind_of_ret (Act.lift_apply _ h), append_gathered hfit,
      Act.bind_of_ret (Act.lift_apply _ h), Act.bind_of_ret (Act.modify_apply _ h),
      if_neg (by rw [hcomplete]; exact Bool.false_ne_true), Act.bind_of_ret (Act.modify_apply _ _)]
    rfl
  rw [HttpInitState.onReceive, dispatchRequest, Act.bind_of_ret (Act.modify_apply _ _),
    Act.bind_apply, Act.bind_apply, Act.tryCatch, hrequest]
  rfl

/-- The call of the handler, if `HttpInitState` is the current state. -/
theorem tcp_onReceive_init {s : HttpInitState} (hcur : h.curState = .init s) (mem : Mem) (len : ℕ) :
    TcpServerHandler.onReceive pf f mem len h =
      (HttpInitState.onReceive pf f s mem len >>= fun _ => TcpServerHandler.installNextState) h := by
  have hstate : TcpServerHandler.stateReceive pf f mem len h =
      HttpInitState.onReceive pf f s mem len h := by
    rw [TcpServerHandler.stateReceive, hcur]
  rw [TcpServerHandler.onReceive, Act.bind_apply, Act.bind_apply, hstate]

/-- Without a chosen state there is nothing to install. -/
theorem installNextState_none (hnext : h.nextState = none) :
    TcpServerHandler.installNextState h = (.ret (), h) := by
  rw [TcpServerHandler.installNextState, Act.modify_apply, hnext]

/-- Dispatching a request chooses the next state or fails with the connection closed; what it throws
leaves a possible life behind. -/
theorem triple_dispatchRequest (s : HttpInitState) :
    Act.Triple (Waits pf) (dispatchRequest pf f s)
      (fun _ h => Chosen pf h ∨ (Failed pf h ∧ h.conn.closed = true))
      (fun h => Lives pf h.conn) := by
  have hfail : ∀ h, Waits pf h → Failed pf h := fun h hs => ⟨hs.1.lives, hs.2⟩
  unfold dispatchRequest
  refine Act.triple_bind (Q := fun _ => Waits pf)
    (Act.triple_modify fun h hs => ⟨hs.1, ⟨_, rfl⟩, hs.2.2⟩) fun _ => ?_
  refine Act.triple_bind (Q := fun returned h => if returned then Chosen pf h else Failed pf h)
    (Act.triple_tryCatch (J := Failed pf) ((triple_parseAndEnter _).mono (fun _ hs => hs) ?_
      fun _ hs => hs) (fun e => Act.triple_pure fun _ hs => hs) fun h hs => hs.1) fun returned => ?_
  · intro returned h hs
    cases returned with
    | true => exact hs
    | false => exact hfail h hs
  · cases returned with
    | true => exact Act.triple_pure fun h hs => Or.inl hs
    | false => exact Act.triple_modify fun h hs => Or.inr ⟨hs, rfl⟩

/-- `HttpInitState` has been left, or the connection is closed. -/
def Leaves (h : TcpServerHandler) : Prop := h.conn.closed = true ∨ h.curState.kind ≠ .init

/-- When the request has been dispatched, the state has changed or the connection is closed. -/
theorem dispatch_leaves (hw : Waits pf h) (s : HttpInitState)
    (hret : ((dispatchRequest pf f s >>= fun _ => TcpServerHandler.installNextState) h).1 =
      .ret ()) :
    Leaves ((dispatchRequest pf f s >>= fun _ => TcpServerHandler.installNextState) h).2 := by
  have hdispatch := triple_dispatchRequest (f := f) s h hw
  rw [Act.bind_apply] at hret ⊢
  rcases hr : dispatchRequest pf f s h with ⟨r, h'⟩
  rw [hr] at hdispatch hret
  cases r with
  | ret u =>
    change Leaves (TcpServerHandler.installNextState h').2
    rw [TcpServerHandler.installNextState, Act.modify_apply]
    obtain (⟨handler, hnext, _⟩ | ⟨handler, hnext, _⟩) | ⟨hfailed, hclosed⟩ := hdispatch
    · right
      rw [hnext]
      exact StateKind.noConfusion
    · right
      rw [hnext]
      exact StateKind.noConfusion
    · left
      rw [hfailed.2.2]
      exact hclosed
  | exn e => cases hret
  | ub => cases hret

end Call

/-! ## Runs -/

/-- The bytes that the handler has been given. -/
def delivered (calls : List WorkerCall) : Bytes :=
  calls.flatMap fun
    | .receive bytes => bytes
    | _ => []

/-- The worker of a new connection when its loop begins. -/
def connectedClient (script : List WriteResult) (buf : Bytes) : ClientWorker TcpServerHandler :=
  connectedWorker (ClientWorker.init (TcpServerHandler.init script) buf)
    (TcpServerHandler.init script)

/-- As long as the first state is the current one of an open connection, its buffer holds all that has
been received. -/
structure Gathers (pf : Platform) (w : ClientWorker TcpServerHandler) : Prop where
  inv : Inv pf w.handler
  buffer : w.handler.conn.closed = false → ∀ s, w.handler.curState = .init s →
    s = gathered (delivered w.calls) ∧ (delivered w.calls).length ≤ 4096

/-- The call of the handler for a chunk. -/
def chunkCall (pf : Platform) (f : Factories) (w : ClientWorker TcpServerHandler) (chunk : Chunk) :
    Res Exc Unit × TcpServerHandler :=
  TcpServerHandler.onReceive pf f (ClientWorker.bufMem pf (ClientWorker.fill w.buf chunk))
    chunk.bytes.length w.handler

section Run

variable {pf : Platform} {f : Factories} {w w' : ClientWorker TcpServerHandler} {chunk : Chunk}

/-- One more call of `onReceive` delivers its bytes behind those delivered before. -/
theorem delivered_snoc (calls : List WorkerCall) (bytes : Bytes) :
    delivered (calls ++ [.receive bytes]) = delivered calls ++ bytes := by
  simp [delivered]

/-- A client that has just connected has gathered nothing, and its state says so. -/
theorem gathers_init (pf : Platform) (script : List WriteResult) (buf : Bytes) :
    Gathers pf (connectedClient script buf) := by
  refine ⟨Or.inl ⟨.nil _, ⟨HttpInitState.init, rfl⟩, rfl⟩, fun _ s hs => ?_⟩
  exact ⟨(HttpState.init.inj hs).symm, Nat.zero_le _⟩

/-- On an open connection in the first state nothing has happened yet. -/
theorem Gathers.waits (h : Gathers pf w) (hopen : w.handler.conn.closed = false) {s : HttpInitState}
    (hcur : w.handler.curState = .init s) : Waits pf w.handler := by
  obtain hw | hw | hw := h.inv
  · exact hw
  · rw [hw.2.1] at hopen
    cases hopen
  · obtain ⟨handler, st, hws, _⟩ := hw.2
    rw [hcur] at hws
    cases hws

/-- A pass that delivers a chunk makes the chunk's call and files the bytes in the worker's buffer
and in its list of calls. -/
theorem receive_chunkCall :
    ClientWorker.receive pf (TcpServerHandler.serverHandler pf f) chunk w =
      ((chunkCall pf f w chunk).1,
        { w with
          handler := (chunkCall pf f w chunk).2
          buf := ClientWorker.fill w.buf chunk
          calls := w.calls ++ [.receive chunk.bytes] }) :=
  receive_apply chunk w

/-- The memory handed to `onReceive` starts with the chunk that has been read into the buffer. -/
theorem startsWith_chunk (pf : Platform) (w : ClientWorker TcpServerHandler) (chunk : Chunk) :
    (ClientWorker.bufMem pf (ClientWorker.fill w.buf chunk)).StartsWith chunk.bytes :=
  ClientWorker.bufMem_fill_startsWith pf w.buf (List.append_nil _).symm

/-- A chunk that does not fit. -/
theorem chunkCall_overrun (h : Gathers pf w) (hopen : w.handler.conn.closed = false)
    {s : HttpInitState} (hcur : w.handler.curState = .init s)
    (hover : 4096 < (delivered w.calls ++ chunk.bytes).length) :
    (chunkCall pf f w chunk).1 = .ub := by
  obtain ⟨rfl, hlen⟩ := h.buffer hopen s hcur
  rw [List.length_append] at hover
  rw [chunkCall, tcp_onReceive_init hcur,
    Act.bind_of_ub (onReceive_overrun (startsWith_chunk pf w chunk) hlen hover)]

/-- A chunk behind which the request is not complete. -/
theorem chunkCall_waits (h : Gathers pf w) (hopen : w.handler.conn.closed = false)
    {s : HttpInitState} (hcur : w.handler.curState = .init s)
    (hfit : (delivered w.calls ++ chunk.bytes).length ≤ 4096)
    (hwait : (gathered (delivered w.calls ++ chunk.bytes)).incomplete pf = true) :
    chunkCall pf f w chunk = (.ret (), { w.handler with
      curState := .init (gathered (delivered w.calls ++ chunk.bytes)) }) := by
  have hnext := (h.waits hopen hcur).2.2
  obtain ⟨rfl, hlen⟩ := h.buffer hopen s hcur
  rw [List.length_append] at hfit
  rw [chunkCall, tcp_onReceive_init hcur,
    Act.bind_of_ret (onReceive_waits (startsWith_chunk pf w chunk) hfit hwait)]
  exact installNextState_none hnext

/-- The chunk that completes the request. -/
theorem chunkCall_dispatches (h : Gathers pf w) (hopen : w.handler.conn.closed = false)
    {s : HttpInitState} (hcur : w.handler.curState = .init s)
    (hfit : (delivered w.calls ++ chunk.bytes).length ≤ 4096)
    (hcomplete : (gathered (delivered w.calls ++ chunk.bytes)).incomplete pf = false) :
    chunkCall pf f w chunk =
      (dispatchRequest pf f (gathered (delivered w.calls ++ chunk.bytes)) >>= fun _ =>
          TcpServerHandler.installNextState)
        { w.handler with curState := .init (gathered (delivered w.calls ++ chunk.bytes)) } := by
  obtain ⟨rfl, hlen⟩ := h.buffer hopen s hcur
  rw [List.length_append] at hfit
  rw [chunkCall, tcp_onReceive_init hcur, Act.bind_apply, Act.bind_apply,
    onReceive_dispatches (startsWith_chunk pf w chunk) hfit hcomplete]

/-- Behind that chunk the first state is not waited in any more. -/
theorem chunkCall_leaves (h : Gathers pf w) (hopen : w.handler.conn.closed = false)
    {s : HttpInitState} (hcur : w.handler.curState = .init s)
    (hfit : (delivered w.calls ++ chunk.bytes).length ≤ 4096)
    (hcomplete : (gathered (delivered w.calls ++ chunk.bytes)).incomplete pf = false)
    (hret : (chunkCall pf f w chunk).1 = .ret ()) : Leaves (chunkCall pf f w chunk).2 := by
  have hwaits : Waits pf { w.handler with
      curState := .init (gathered (delivered w.calls ++ chunk.bytes)) } :=
    ⟨(h.waits hopen hcur).1, ⟨_, rfl⟩, (h.waits hopen hcur).2.2⟩
  rw [chunkCall_dispatches h hopen hcur hfit hcomplete] at hret ⊢
  exact dispatch_leaves hwaits _ hret

/-- Every pass keeps the invariant. -/
theorem gathers_next {event : LoopEvent} (h : Gathers pf w) (hopen : w.handler.conn.closed = false)
    (hnext : nextPass pf (TcpServerHandler.serverHandler pf f) event w = some w') :
    Gathers pf w' := by
  cases event with
  | notReadable => exact Option.some.inj hnext ▸ h
  | again => exact Option.some.inj hnext ▸ h
  | eof => cases hnext
  | pollFails e => cases hnext
  | readFails e => cases hnext
  | data chunk =>
    have hreceive := nextPass_data hnext
    rw [receive_chunkCall, Prod.mk.injEq] at hreceive
    obtain ⟨hret, rfl⟩ := hreceive
    refine ⟨(onReceive_inv h.inv hopen _ _).2 hret, fun hopen' s hcur' => ?_⟩
    dsimp only at hopen' hcur' ⊢
    rw [delivered_snoc]
    obtain hwaits | hover | htalks := h.inv
    · obtain ⟨s₀, hcur⟩ := hwaits.2.1
      by_cases hover : 4096 < (delivered w.calls ++ chunk.bytes).length
      · rw [chunkCall_overrun h hopen hcur hover] at hret
        cases hret
      · have hfit : (delivered w.calls ++ chunk.bytes).length ≤ 4096 := Nat.not_lt.mp hover
        cases hinc : (gathered (delivered w.calls ++ chunk.bytes)).incomplete pf with
        | true =>
          rw [chunkCall_waits h hopen hcur hfit hinc] at hcur'
          exact ⟨(HttpState.init.inj hcur').symm, hfit⟩
        | false =>
          obtain hclosed | hkind := chunkCall_leaves h hopen hcur hfit hinc hret
          · rw [hclosed] at hopen'
            cases hopen'
          · rw [hcur'] at hkind
            exact absurd rfl hkind
    · rw [hover.2.1] at hopen
      cases hopen
    · have hws : InWebSocket pf (chunkCall pf f w chunk).2 := inWebSocket_onReceive htalks.2
      obtain ⟨handler, st, hws, _⟩ := hws
      exact absurd (hws.symm.trans hcur') HttpState.noConfusion

/-- A property of the chunks that come while the first state is the current one. -/
def WhileRequest (P : ClientWorker TcpServerHandler → HttpInitState → Chunk → Prop) :
    LoopEvent → ClientWorker TcpServerHandler → Prop
  | .data chunk, w => ∀ s, w.handler.curState = .init s → P w s chunk
  | _, _ => True

variable (pf f) in
/-- Properties of such chunks that agree on the states of a run agree along the run. -/
theorem along_request_congr {P Q : ClientWorker TcpServerHandler → HttpInitState → Chunk → Prop}
    (hPQ : ∀ w s chunk, Gathers pf w → w.handler.conn.closed = false →
      w.handler.curState = .init s → (P w s chunk ↔ Q w s chunk))
    (script : List WriteResult) (buf : Bytes) (events : List LoopEvent) :
    Along pf (TcpServerHandler.serverHandler pf f) (WhileRequest P) events
        (connectedClient script buf) ↔
      Along pf (TcpServerHandler.serverHandler pf f) (WhileRequest Q) events
        (connectedClient script buf) := by
  refine along_congr (fun event w w' h hopen hnext => gathers_next h hopen hnext) ?_ events
    (gathers_init pf script buf)
  intro event w h hopen
  cases event with
  | data chunk =>
    exact forall_congr' fun s => imp_congr_right fun hcur => hPQ w s chunk h hopen hcur
  | _ => exact Iff.rfl

variable (pf f) in
/-- What holds of every such chunk holds along the run. -/
theorem along_request {P : ClientWorker TcpServerHandler → HttpInitState → Chunk → Prop}
    (hP : ∀ w s chunk, Gathers pf w → w.handler.conn.closed = false →
      w.handler.curState = .init s → P w s chunk)
    (script : List WriteResult) (buf : Bytes) (events : List LoopEvent) :
    Along pf (TcpServerHandler.serverHandler pf f) (WhileRequest P) events
      (connectedClient script buf) := by
  refine (along_request_congr pf f (Q := fun _ _ _ => True) ?_ script buf events).mpr ?_
  · exact fun w s chunk h hopen hcur => iff_of_true (hP w s chunk h hopen hcur) trivial
  · refine along_of_forall (fun event w => ?_) events _
    cases event with
    | data chunk => exact fun _ _ => trivial
    | _ => exact trivial

end Run

/-! ## Indices -/

/-- The places of `recvBuf` that `len` bytes are copied to. -/
def copiedIndices (s : HttpInitState) (len : ℕ) : List ℤ :=
  (List.range len).map fun i : ℕ => (s.numRecv : ℤ) + i

/-- The places that are then compared with the terminator. -/
def comparedIndices (s : HttpInitState) : List ℤ :=
  if s.numRecv < s.recvBuf.length then (List.range 4).map fun i : ℕ => (s.numRecv : ℤ) - 4 + i
  else []

/-- All accesses for a chunk are within `recvBuf`, which then does not hold more than fits, and is
terminated when it is parsed. -/
structure InBounds (s : HttpInitState) (bytes : Bytes) : Prop where
  copied : ∀ i ∈ copiedIndices s bytes.length, 0 ≤ i ∧ i < 4096
  compared : ∀ s', s.append bytes = .ret s' → ∀ i ∈ comparedIndices s', 0 ≤ i ∧ i < 4096
  count : ∀ s', s.append bytes = .ret s' → s'.numRecv ≤ 4096
  terminated : ∀ s', s.append bytes = .ret s' → (0 : Byte) ∈ (terminated s').recvBuf

section Indices

variable {received bytes : Bytes}

/-- The copy is defined if and only if it is within the buffer. -/
theorem append_isRet_iff (hr : received.length ≤ 4096) (hpos : 0 < bytes.length) :
    ((gathered received).append bytes).isRet = true ↔
      ∀ i ∈ copiedIndices (gathered received) bytes.length, 0 ≤ i ∧ i < 4096 := by
  have hlast : (received.length : ℤ) + (bytes.length - 1 : ℕ) ∈
      copiedIndices (gathered received) bytes.length :=
    List.mem_map.mpr ⟨bytes.length - 1, List.mem_range.mpr (by omega), rfl⟩
  by_cases hfit : received.length + bytes.length ≤ 4096
  · rw [append_gathered hfit]
    refine iff_of_true rfl fun i hi => ?_
    obtain ⟨j, hj, rfl⟩ := List.mem_map.mp hi
    have := List.mem_range.mp hj
    change 0 ≤ (received.length : ℤ) + j ∧ (received.length : ℤ) + j < 4096
    omega
  · rw [append_overrun hr (by omega)]
    refine iff_of_false Bool.false_ne_true fun hall => ?_
    have := hall _ hlast
    omega

/-- The comparison reads the places that are compared; those below 0 are in front of the buffer. -/
theorem lastBytes_eq (pf : Platform) {s : HttpInitState} (hs : s.numRecv < s.recvBuf.length) :
    HttpInitState.lastBytes pf s = (comparedIndices s).map fun i =>
      if 0 ≤ i then s.recvBuf.getD i.toNat 0 else pf.front (-i - 1).toNat := by
  rw [HttpInitState.lastBytes, comparedIndices, if_pos hs, List.map_map]
  refine List.map_congr_left fun i _ => ?_
  change _ = if 0 ≤ (s.numRecv : ℤ) - 4 + i then _ else _
  by_cases hi : 4 ≤ s.numRecv + i
  · rw [if_pos hi, if_pos (by omega),
      show ((s.numRecv : ℤ) - 4 + i).toNat = s.numRecv + i - 4 by omega]
  · rw [if_neg hi, if_neg (by omega),
      show (-((s.numRecv : ℤ) - 4 + i) - 1).toNat = 3 - i - s.numRecv by omega]

/-- A terminated buffer contains a NUL, so the string functions of the parser stay inside it. -/
theorem zero_mem_terminated (h : received.length ≤ 4096) :
    (0 : Byte) ∈ (terminated (gathered received)).recvBuf := by
  have hlen := length_recvBuf h
  have hset : (terminated (gathered received)).recvBuf[4095]? = some 0 := by
    rw [terminated]
    dsimp only
    rw [hlen, List.getElem?_set_self (by omega)]
  exact List.mem_of_getElem? hset

/-- A chunk stays inside `recvBuf` at both of its ends exactly when 4 to 4096 bytes have been
received with it. -/
theorem inBounds_iff (hr : received.length ≤ 4096) (hpos : 0 < bytes.length) :
    InBounds (gathered received) bytes ↔
      4 ≤ (received ++ bytes).length ∧ (received ++ bytes).length ≤ 4096 := by
  rw [List.length_append]
  by_cases hfit : received.length + bytes.length ≤ 4096
  · have happend := append_gathered hfit
    have hlen : (received ++ bytes).length ≤ 4096 := by
      rw [List.length_append]
      exact hfit
    have hnum : (gathered (received ++ bytes)).numRecv = received.length + bytes.length :=
      List.length_append
    constructor
    · intro h
      refine ⟨?_, hfit⟩
      by_contra hlt
      have hfirst : (received.length : ℤ) + bytes.length - 4 ∈
          comparedIndices (gathered (received ++ bytes)) := by
        rw [comparedIndices, length_recvBuf hlen, hnum, if_pos (by omega)]
        refine List.mem_map.mpr ⟨0, by decide, ?_⟩
        push_cast
        omega
      have := (h.compared _ happend _ hfirst).1
      omega
    · rintro ⟨hfour, -⟩
      refine ⟨(append_isRet_iff hr hpos).mp (by rw [happend]; rfl), ?_, ?_, ?_⟩
      · intro s' hs' i hi
        obtain rfl := Res.ret.inj (happend.symm.trans hs')
        rw [comparedIndices, length_recvBuf hlen, hnum] at hi
        split at hi
        · obtain ⟨j, hj, rfl⟩ := List.mem_map.mp hi
          have := List.mem_range.mp hj
          omega
        · cases hi
      · intro s' hs'
        obtain rfl := Res.ret.inj (happend.symm.trans hs')
        exact hlen
      · intro s' hs'
        obtain rfl := Res.ret.inj (happend.symm.trans hs')
        exact zero_mem_terminated hlen
  · refine iff_of_false (fun h => ?_) fun h => hfit h.2
    have hret := (append_isRet_iff hr hpos).mpr h.copied
    rw [append_overrun hr (by omega)] at hret
    cases hret

end Indices

/-- In every run of the worker's loop the buffer is neither overrun nor underrun while the request is
received, if and only if after each chunk at least 4 and at most 4096 bytes have been received. -/
theorem requestBuffer_inBounds_iff (pf : Platform) (f : Factories) (script : List WriteResult)
    (buf : Bytes) (events : List LoopEvent) :
    Along pf (TcpServerHandler.serverHandler pf f)
        (WhileRequest fun _ s chunk => InBounds s chunk.bytes) events
        (connectedClient script buf) ↔
      Along pf (TcpServerHandler.serverHandler pf f)
        (WhileRequest fun w _ chunk => 4 ≤ (delivered w.calls ++ chunk.bytes).length ∧
          (delivered w.calls ++ chunk.bytes).length ≤ 4096) events
        (connectedClient script buf) := by
  refine along_request_congr pf f (fun w s chunk h hopen hcur => ?_) script buf events
  obtain ⟨rfl, hlen⟩ := h.buffer hopen s hcur
  exact inBounds_iff hlen chunk.pos

/-- A first chunk of one byte: the comparison begins three bytes in front of the buffer. -/
theorem shortChunk_underrun : ¬ Along .plain
    (TcpServerHandler.serverHandler .plain ⟨HttpFileHandlerFactory [], ⟨fun _ => .ret WsHandlerNull⟩⟩)
    (WhileRequest fun _ s chunk => InBounds s chunk.bytes)
    [.data ⟨[0x47], by decide, by decide⟩] (connectedClient [] []) := by
  intro h
  have hbounds : InBounds (gathered []) [0x47] := (h rfl).1 (gathered []) rfl
  have happend : (gathered []).append [0x47] = .ret (gathered [0x47]) :=
    append_gathered (by decide)
  have hcompared : -3 ∈ comparedIndices (gathered [0x47]) := by
    rw [comparedIndices, length_recvBuf (by decide), if_pos (by decide)]
    decide
  exact absurd (hbounds.compared _ happend (-3) hcompared).1 (by decide)

end CppSocks.Analysis
