import CppSocks.Analysis.RequestBuffer

/-!
# When a request is dispatched

`HttpInitState` goes on to parse when the received bytes end with the terminator of
a header block, or fill the buffer, and waits otherwise (`request_dispatched`). It
looks at the end of what has been received only, so a terminator with more bytes
behind it is missed, and a full buffer is parsed whether the block is complete or
not (`dispatch_not_exact`).
-/

set_option autoImplicit false

namespace CppSocks.Analysis

open CppSocks.Model Foundation

/-! ## The test of the terminator -/

/-- The bytes in front of `recvBuf`. -/
def inFront (pf : Platform) : Bytes := (List.range 4).map fun i => pf.front (3 - i)

section Test

variable {pf : Platform} {received : Bytes}

/-- The last four bytes, those in front of the buffer included. -/
theorem lastBytes_gathered :
    HttpInitState.lastBytes pf (gathered received) =
      (inFront pf ++ received).drop received.length := by
  refine List.ext_getElem (by simp [HttpInitState.lastBytes, inFront]) fun i hi _ => ?_
  have hlt : i < 4 := by
    rw [HttpInitState.lastBytes, List.length_map, List.length_range] at hi
    exact hi
  have hfront : (inFront pf).length = 4 := by rw [inFront, List.length_map, List.length_range]
  rw [List.getElem_drop, List.getElem_append]
  simp only [HttpInitState.lastBytes, List.getElem_map, List.getElem_range]
  change (if 4 ≤ received.length + i then _ else _) = _
  by_cases hin : 4 ≤ received.length + i
  · have hidx : received.length + i - 4 < received.length := by omega
    have hbuf : (gathered received).recvBuf.getD (received.length + i - 4) 0 =
        received[received.length + i - 4] := by
      rw [gathered, List.getD_eq_getElem?_getD, List.getElem?_append_left hidx,
        List.getElem?_eq_getElem hidx, Option.getD_some]
    rw [if_pos hin, dif_neg (by omega)]
    refine hbuf.trans ?_
    simp only [hfront]
  · rw [if_neg hin, dif_pos (by omega)]
    simp only [inFront, List.getElem_map, List.getElem_range]
    congr 1
    change 3 - i - received.length = _
    omega

/-- The request is taken to be complete. -/
theorem incomplete_eq_false_iff (hr : received.length ≤ 4096) :
    (gathered received).incomplete pf = false ↔
      received.length = 4096 ∨ HttpInitState.TERMINATOR <:+ inFront pf ++ received := by
  have hlen : (inFront pf ++ received).length - HttpInitState.TERMINATOR.length =
      received.length := by
    rw [List.length_append, inFront, List.length_map, List.length_range]
    exact Nat.add_sub_cancel_left 4 _
  rw [List.suffix_iff_eq_drop, hlen, HttpInitState.incomplete, length_recvBuf hr,
    lastBytes_gathered, Bool.and_eq_false_iff]
  refine or_congr ?_ ?_
  · change decide (received.length < 4096) = false ↔ _
    rw [decide_eq_false_iff_not]
    omega
  · rw [bne_eq_false_iff_eq]
    exact eq_comm

/-- At least four bytes have been received, so none in front of the buffer is looked at. -/
theorem suffix_inFront_iff (hfour : 4 ≤ received.length) :
    HttpInitState.TERMINATOR <:+ inFront pf ++ received ↔ HttpInitState.TERMINATOR <:+ received := by
  constructor
  · intro h
    exact List.suffix_of_suffix_length_le h (List.suffix_append _ _) hfour
  · intro h
    exact h.trans (List.suffix_append _ _)

end Test

/-! ## What a dispatch does -/

section Dispatch

variable {pf : Platform} {f : Factories}

/-- The computation does not touch the request. -/
def KeepsInfo {α : Type} (x : Action TcpServerHandler α) : Prop :=
  ∀ h, (x h).2.requestInfo_ = h.requestInfo_

/-- A continuation that keeps the request information leaves what its first part has made of it. -/
theorem requestInfo_bind {α β : Type} {x : Action TcpServerHandler α}
    {k : α → Action TcpServerHandler β} (hk : ∀ a, KeepsInfo (k a)) (h : TcpServerHandler) :
    ((x >>= k) h).2.requestInfo_ = (x h).2.requestInfo_ := by
  rw [Act.bind_apply]
  rcases x h with ⟨r, h'⟩
  cases r with
  | ret a => exact hk a h'
  | exn e => rfl
  | ub => rfl

/-- Actions that keep the request information keep it in sequence. -/
theorem keepsInfo_bind {α β : Type} {x : Action TcpServerHandler α} {k : α → Action TcpServerHandler β}
    (hx : KeepsInfo x) (hk : ∀ a, KeepsInfo (k a)) : KeepsInfo (x >>= k) :=
  fun h => (requestInfo_bind hk h).trans (hx h)

/-- An action on the connection does not touch the request information. -/
theorem keepsInfo_tcpConnection {α : Type} (x : Action Conn α) :
    KeepsInfo (TcpServerHandler.tcpConnection x) := fun _ => rfl

/-- Entering a state reads the request information and does not change it. -/
theorem keepsInfo_setNextState (next : HttpState) :
    KeepsInfo (TcpServerHandler.setNextState pf next) :=
  keepsInfo_bind (fun _ => rfl) fun _ => keepsInfo_bind (keepsInfo_tcpConnection _) fun _ _ => rfl

/-- Installing the chosen state does not change the request information. -/
theorem keepsInfo_installNextState : KeepsInfo TcpServerHandler.installNextState := by
  intro h
  rw [TcpServerHandler.installNextState, Act.modify_apply]
  cases h.nextState <;> rfl

/-- Behind the parsing of the request it is not changed any more. -/
theorem parseAndEnter_requestInfo (s : HttpInitState) (h : TcpServerHandler) :
    (HttpInitState.parseAndEnter pf f s h).2.requestInfo_ =
      (RequestInfo.parse (cstr s.recvBuf) s.numRecv h.requestInfo_).2 := by
  unfold HttpInitState.parseAndEnter
  refine requestInfo_bind (fun _ => keepsInfo_bind (fun _ => rfl) fun info => ?_) h
  split
  · exact keepsInfo_bind (keepsInfo_bind (keepsInfo_tcpConnection _) fun _ _ => rfl) fun next =>
      keepsInfo_bind (keepsInfo_setNextState next) fun _ _ => rfl
  · exact keepsInfo_bind (keepsInfo_bind (keepsInfo_tcpConnection _) fun _ _ => rfl) fun next =>
      keepsInfo_bind (keepsInfo_setNextState next) fun _ _ => rfl
  · exact fun _ => rfl

/-- A dispatch parses the terminated buffer. -/
theorem dispatch_requestInfo (s : HttpInitState) (h : TcpServerHandler) :
    ((dispatchRequest pf f s >>= fun _ => TcpServerHandler.installNextState) h).2.requestInfo_ =
      (RequestInfo.parse (cstr (terminated s).recvBuf) s.numRecv h.requestInfo_).2 := by
  have hclose : ∀ returned : Bool, KeepsInfo
      (if returned then pure () else TcpServerHandler.tcpConnection Connection.close) := by
    intro returned
    cases returned <;> exact fun _ => rfl
  rw [requestInfo_bind fun _ => keepsInfo_installNextState, dispatchRequest,
    Act.bind_of_ret (Act.modify_apply _ h), requestInfo_bind hclose, Act.tryCatch]
  have hparse : (HttpInitState.parseAndEnter pf f (terminated s)
      { h with curState := .init (terminated s) }).2.requestInfo_ =
        (RequestInfo.parse (cstr (terminated s).recvBuf) (terminated s).numRecv h.requestInfo_).2 :=
    parseAndEnter_requestInfo (terminated s) { h with curState := .init (terminated s) }
  rcases hr : HttpInitState.parseAndEnter pf f (terminated s)
    { h with curState := .init (terminated s) } with ⟨r, h'⟩
  rw [hr] at hparse
  cases r <;> exact hparse

/-- A dispatch does not throw. -/
theorem dispatch_not_exn (s : HttpInitState) (h : TcpServerHandler) (e : Exc) :
    ((dispatchRequest pf f s >>= fun _ => TcpServerHandler.installNextState) h).1 ≠ .exn e := by
  rw [dispatchRequest, Act.bind_apply, Act.bind_of_ret (Act.modify_apply _ h), Act.bind_apply,
    Act.tryCatch]
  rcases HttpInitState.parseAndEnter pf f (terminated s)
    { h with curState := .init (terminated s) } with ⟨r, h'⟩
  cases r with
  | ret returned => cases returned <;> simp [TcpServerHandler.installNextState,
      TcpServerHandler.tcpConnection, Act.zoom, Connection.close]
  | exn e' => simp [TcpServerHandler.installNextState, TcpServerHandler.tcpConnection, Act.zoom,
      Connection.close]
  | ub => simp

end Dispatch

/-! ## Passes -/

section Pass

variable (pf : Platform) (f : Factories) (w : ClientWorker TcpServerHandler) (chunk : Chunk)

/-- The bytes that have been received with this chunk. -/
def soFar : Bytes := delivered w.calls ++ chunk.bytes

/-- The buffer is parsed; and the state changes or the connection is closed, unless the behaviour
becomes undefined in the parser or in user code. -/
structure Dispatches : Prop where
  parses : (chunkCall pf f w chunk).2.requestInfo_ =
    (RequestInfo.parse (cstr (terminated (gathered (soFar w chunk))).recvBuf) (soFar w chunk).length
      w.handler.requestInfo_).2
  leaves : (chunkCall pf f w chunk).1 = .ub ∨
    ((chunkCall pf f w chunk).1 = .ret () ∧ Leaves (chunkCall pf f w chunk).2)

/-- The chunk is put into the buffer, and nothing else happens: nothing is parsed, no handler is made,
the connection is not used. -/
def KeepsWaiting : Prop :=
  chunkCall pf f w chunk =
    (.ret (), { w.handler with curState := .init (gathered (soFar w chunk)) })

/-- The request is dispatched if its header block is complete, and waited for otherwise. -/
def DispatchesExactly : Prop :=
  (soFar w chunk).length ≤ 4096 →
    (HttpInitState.TERMINATOR <:+: soFar w chunk → Dispatches pf f w chunk) ∧
      (¬ HttpInitState.TERMINATOR <:+: soFar w chunk → KeepsWaiting pf f w chunk)

/-- At least four bytes have been received: the request is dispatched if they end with the terminator
or fill the buffer, and waited for if they neither contain the terminator nor fill the buffer. -/
def DispatchesAtEnd : Prop :=
  4 ≤ (soFar w chunk).length → (soFar w chunk).length ≤ 4096 →
    (HttpInitState.TERMINATOR <:+ soFar w chunk ∨ (soFar w chunk).length = 4096 →
        Dispatches pf f w chunk) ∧
      (¬ HttpInitState.TERMINATOR <:+: soFar w chunk ∧ (soFar w chunk).length < 4096 →
        KeepsWaiting pf f w chunk)

variable {pf f w chunk} {s : HttpInitState}

/-- A chunk that completes the request and fits into `recvBuf` is dispatched. -/
theorem dispatches_of_complete (h : Gathers pf w) (hopen : w.handler.conn.closed = false)
    (hcur : w.handler.curState = .init s) (hfit : (soFar w chunk).length ≤ 4096)
    (hcomplete : (gathered (soFar w chunk)).incomplete pf = false) : Dispatches pf f w chunk := by
  have hcall := chunkCall_dispatches (f := f) h hopen hcur hfit hcomplete
  constructor
  · rw [hcall, dispatch_requestInfo]
    rfl
  · cases hr : (chunkCall pf f w chunk).1 with
    | ret u => exact Or.inr ⟨rfl, chunkCall_leaves h hopen hcur hfit hcomplete hr⟩
    | exn e =>
      rw [hcall] at hr
      exact absurd hr (dispatch_not_exn _ _ e)
    | ub => exact Or.inl rfl

/-- A request that is waited for is not dispatched. -/
theorem not_dispatches_of_waits (hopen : w.handler.conn.closed = false)
    (h : KeepsWaiting pf f w chunk) : ¬ Dispatches pf f w chunk := by
  intro hd
  obtain hub | ⟨_, hleaves⟩ := hd.leaves
  · rw [h] at hub
    cases hub
  · rw [h] at hleaves
    obtain hclosed | hkind := hleaves
    · rw [hopen] at hclosed
      cases hclosed
    · exact hkind rfl

/-- Which requests are dispatched exactly when they are complete. -/
theorem dispatchesExactly_iff (h : Gathers pf w) (hopen : w.handler.conn.closed = false)
    (hcur : w.handler.curState = .init s) :
    DispatchesExactly pf f w chunk ↔ ((soFar w chunk).length ≤ 4096 →
      ((soFar w chunk).length = 4096 ∨ HttpInitState.TERMINATOR <:+ inFront pf ++ soFar w chunk ↔
        HttpInitState.TERMINATOR <:+: soFar w chunk)) := by
  refine imp_congr_right fun hfit => ?_
  rw [← incomplete_eq_false_iff hfit]
  cases hinc : (gathered (soFar w chunk)).incomplete pf with
  | true =>
    have hwaits : KeepsWaiting pf f w chunk := chunkCall_waits h hopen hcur hfit hinc
    constructor
    · intro hexact
      refine iff_of_false (fun heq => Bool.noConfusion heq) fun hin => ?_
      exact not_dispatches_of_waits hopen hwaits (hexact.1 hin)
    · intro hiff
      exact ⟨fun hin => Bool.noConfusion (hiff.mpr hin), fun _ => hwaits⟩
  | false =>
    have hdispatches : Dispatches pf f w chunk := dispatches_of_complete h hopen hcur hfit hinc
    constructor
    · intro hexact
      refine iff_of_true rfl ?_
      by_contra hnot
      exact not_dispatches_of_waits hopen (hexact.2 hnot) hdispatches
    · intro hiff
      exact ⟨fun _ => hdispatches, fun hnot => absurd (hiff.mp rfl) hnot⟩

/-- A terminator at the end of the received bytes completes the request, and so does a full
`recvBuf`. -/
theorem dispatchesAtEnd (h : Gathers pf w) (hopen : w.handler.conn.closed = false)
    (hcur : w.handler.curState = .init s) : DispatchesAtEnd pf f w chunk := by
  intro hfour hfit
  have hiff : (gathered (soFar w chunk)).incomplete pf = false ↔
      (soFar w chunk).length = 4096 ∨ HttpInitState.TERMINATOR <:+ soFar w chunk := by
    rw [incomplete_eq_false_iff hfit, suffix_inFront_iff hfour]
  constructor
  · intro hend
    exact dispatches_of_complete h hopen hcur hfit (hiff.mpr hend.symm)
  · rintro ⟨hnot, hlt⟩
    have hinc : (gathered (soFar w chunk)).incomplete pf = true := by
      rw [← Bool.not_eq_false, hiff]
      rintro (hfull | hend)
      · exact absurd hfull (Nat.ne_of_lt hlt)
      · exact hnot hend.isInfix
    exact chunkCall_waits h hopen hcur hfit hinc

end Pass

/-- In every run of the worker's loop, as long as at least 4 and at most 4096 bytes have been received:
the request is dispatched upon the first chunk behind which they end with the terminator or fill
the buffer, and not before they contain the terminator or fill the buffer. -/
theorem request_dispatched (pf : Platform) (f : Factories) (script : List WriteResult) (buf : Bytes)
    (events : List LoopEvent) :
    Along pf (TcpServerHandler.serverHandler pf f)
      (WhileRequest fun w _ chunk => DispatchesAtEnd pf f w chunk) events
      (connectedClient script buf) :=
  along_request pf f (fun _ _ _ h hopen hcur => dispatchesAtEnd h hopen hcur) script buf events

/-- A chunk that fills the buffer with letters. -/
def fullChunk : Chunk where
  bytes := List.replicate 4096 0x41
  pos := by rw [List.length_replicate]; decide
  le := by rw [List.length_replicate]; decide

/-- A request with one more byte behind it. -/
def longerChunk : Chunk where
  bytes := ascii "GET / HTTP/1.1\r\n\r\nX"
  pos := by decide +kernel
  le := by decide +kernel

/-- The first chunk of a client is all that has been received with it. -/
theorem soFar_connectedClient (script : List WriteResult) (buf : Bytes) (chunk : Chunk) :
    soFar (connectedClient script buf) chunk = chunk.bytes := rfl

/-- A full buffer is parsed though no header block ends in it; and a request with one more byte behind
it is not parsed though it is complete. -/
theorem dispatch_not_exact :
    (¬ Along .plain (TcpServerHandler.serverHandler .plain
        ⟨HttpFileHandlerFactory [], ⟨fun _ => .ret WsHandlerNull⟩⟩)
      (WhileRequest fun w _ chunk => DispatchesExactly .plain
        ⟨HttpFileHandlerFactory [], ⟨fun _ => .ret WsHandlerNull⟩⟩ w chunk)
      [.data fullChunk] (connectedClient [] [])) ∧
    ¬ Along .plain (TcpServerHandler.serverHandler .plain
        ⟨HttpFileHandlerFactory [], ⟨fun _ => .ret WsHandlerNull⟩⟩)
      (WhileRequest fun w _ chunk => DispatchesExactly .plain
        ⟨HttpFileHandlerFactory [], ⟨fun _ => .ret WsHandlerNull⟩⟩ w chunk)
      [.data longerChunk] (connectedClient [] []) := by
  have hgathers := gathers_init .plain [] []
  constructor
  · intro h
    have hlen : fullChunk.bytes.length = 4096 := List.length_replicate
    have hiff := (dispatchesExactly_iff hgathers rfl rfl).mp ((h rfl).1 _ rfl)
    rw [soFar_connectedClient] at hiff
    have hin := (hiff (le_of_eq hlen)).mp (Or.inl hlen)
    have hmem : (0x0D : Byte) ∈ List.replicate 4096 (0x41 : Byte) :=
      hin.subset (List.mem_cons_self ..)
    exact absurd (List.eq_of_mem_replicate hmem) (by decide)
  · intro h
    have hiff := (dispatchesExactly_iff hgathers rfl rfl).mp ((h rfl).1 _ rfl)
    rw [soFar_connectedClient] at hiff
    exact absurd ((hiff (by decide +kernel)).mpr (by decide +kernel)) (by decide +kernel)

end CppSocks.Analysis
