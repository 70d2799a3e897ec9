import CppSocks.Analysis.RequestDispatch

/-!
# Requests in chunks

A request whose only header terminator is at its end is dispatched when its last
chunk has come, whatever the chunks are, and then the buffer holds the request. The
only requests that are dispatched earlier begin with a part of the terminator; they
are rejected then, and would be rejected as a whole (`request_segmentation`).
-/

set_option autoImplicit false

namespace CppSocks.Analysis

open CppSocks.Model Foundation

/-- The terminator occurs as the last four bytes, and nowhere else. -/
def TerminatedOnce (request : Bytes) : Prop :=
  HttpInitState.TERMINATOR <:+ request ∧
    ∀ pre post, request = pre ++ HttpInitState.TERMINATOR ++ post → post = []

/-- The terminator is not found before the last byte has come. -/
theorem terminatedOnce_of_dropLast {request : Bytes} (hend : HttpInitState.TERMINATOR <:+ request)
    (hbefore : ¬ HttpInitState.TERMINATOR <:+: request.dropLast) : TerminatedOnce request := by
  refine ⟨hend, fun pre post hsplit => ?_⟩
  by_contra hpost
  refine hbefore ⟨pre, post.dropLast, ?_⟩
  rw [hsplit, List.dropLast_append_of_ne_nil hpost]

/-- What is seen of a request when its chunks have been delivered. -/
structure RequestOutcome where
  result : Res Exc Unit
  requestInfo : RequestInfo
  kind : StateKind
  written : Bytes
  closed : Bool
deriving DecidableEq

/-- The outcome of a call of the handler, or of several. -/
def requestOutcome (r : Res Exc Unit × TcpServerHandler) : RequestOutcome where
  result := r.1
  requestInfo := r.2.requestInfo_
  kind := r.2.curState.kind
  written := r.2.conn.log.written
  closed := r.2.conn.closed

/-- The outcome of the worker's loop over chunks. -/
def deliverRequest (pf : Platform) (f : Factories) (chunks : List Chunk)
    (w : ClientWorker TcpServerHandler) : RequestOutcome :=
  let r := ClientWorker.loop pf (TcpServerHandler.serverHandler pf f) (chunks.map .data) w
  requestOutcome (r.1, r.2.handler)

/-! ## The bytes in front of the buffer -/

/-- The same platform with other bytes in front of `recvBuf`. -/
def withFront (pf : Platform) (front : ℕ → Byte) : Platform := { pf with front }

section Front

variable (pf : Platform) (front : ℕ → Byte) {f : Factories}

/-- A program on a connection does not look in front of `recvBuf`. -/
theorem run_withFront {α : Type} (p : Prog α) : p.run (withFront pf front) = p.run pf := by
  induction p with
  | ret a => rfl
  | throw e => rfl
  | ub => rfl
  | send buf k ih =>
    simp only [Prog.run, ih]
    rfl
  | close k ih =>
    rw [Prog.run, Prog.run, ih]
  | isClosed k ih =>
    funext c
    exact congrFun (ih c.closed) c
  | openFile path k ih =>
    rw [Prog.run, Prog.run, ih]
    rfl

/-- A callback does not look in front of `recvBuf`. -/
theorem callback_withFront {σ α : Type} (fsm conn : Port σ) (e : Event) (p : Log → Prog α) :
    callback (withFront pf front) fsm conn e p = callback pf fsm conn e p := by
  simp only [callback, run_withFront]

/-- The call of `do_GET` does not look in front of `recvBuf`. -/
theorem doGetCall_withFront (handler : HttpHandler) (info : RequestInfo) :
    HttpGetState.doGetCall (withFront pf front) handler info =
      HttpGetState.doGetCall pf handler info := by
  funext c
  simp only [HttpGetState.doGetCall, callback_withFront]

/-- Entering a state does not look in front of `recvBuf`. -/
theorem onEnter_withFront (next : HttpState) (info : RequestInfo) :
    TcpServerHandler.onEnter (withFront pf front) next info =
      TcpServerHandler.onEnter pf next info := by
  cases next with
  | init s => rfl
  | get handler =>
    simp only [TcpServerHandler.onEnter, HttpGetState.onEnter, doGetCall_withFront]
  | ws handler s =>
    simp only [TcpServerHandler.onEnter, HttpWsState.onEnter, callback_withFront]
    rfl

/-- A dispatch does not look at the bytes in front of the buffer. -/
theorem dispatchRequest_withFront (s : HttpInitState) :
    dispatchRequest (withFront pf front) f s = dispatchRequest pf f s := by
  simp only [dispatchRequest, HttpInitState.parseAndEnter, TcpServerHandler.newHttpGetState,
    TcpServerHandler.newHttpWsState, TcpServerHandler.setNextState, callback_withFront,
    onEnter_withFront]

end Front

/-! ## Requests that are rejected at once -/

section Reject

variable {pf : Platform} {f : Factories} {b : Byte} {rest : Bytes} {h : TcpServerHandler}

/-- A request that does not begin with a `G` is rejected before anything is changed. -/
theorem parse_rejects {request : Bytes} (hhead : request.head? ≠ some 0x47) (len : ℕ)
    (info : RequestInfo) :
    ∃ what, RequestInfo.parse request len info = (.exn (.invalid_argument what), info) := by
  have hget : request.take 3 ≠ ascii "GET" := by
    intro heq
    cases request with
    | nil => cases heq
    | cons b rest => exact hhead (congrArg some (List.cons.inj heq).1)
  rw [RequestInfo.parse]
  split
  · exact ⟨_, rfl⟩
  · exact ⟨_, rfl⟩

/-- The first byte of the buffer is parsed as it has been received. -/
theorem head_terminated (hb : b ≠ 0) (hlen : (b :: rest).length ≤ 4096) :
    (cstr (terminated (gathered (b :: rest))).recvBuf).head? = some b := by
  have hset : (terminated (gathered (b :: rest))).recvBuf =
      b :: (rest ++ List.replicate (4096 - (b :: rest).length) 0).set 4094 0 := by
    rw [terminated]
    dsimp only
    rw [length_recvBuf hlen]
    rfl
  rw [hset, cstr, List.takeWhile_cons_of_pos (by simpa using hb)]
  rfl

/-- The first byte of a terminator does not begin a request: the connection is closed. -/
theorem dispatch_rejects (hb : b = 0x0D ∨ b = 0x0A) (hlen : (b :: rest).length ≤ 4096)
    (hnext : h.nextState = none) :
    (dispatchRequest pf f (gathered (b :: rest)) >>= fun _ =>
        TcpServerHandler.installNextState) h =
      (.ret (), { h with
        curState := .init (terminated (gathered (b :: rest)))
        conn := { h.conn with closed := true } }) := by
  have hzero : b ≠ 0 := by
    rintro rfl
    exact absurd hb (by decide)
  have hget : (cstr (terminated (gathered (b :: rest))).recvBuf).head? ≠ some 0x47 := by
    rw [head_terminated hzero hlen]
    intro heq
    rw [Option.some.inj heq] at hb
    exact absurd hb (by decide)
  obtain ⟨what, hparse⟩ := parse_rejects hget (terminated (gathered (b :: rest))).numRecv
    h.requestInfo_
  have henter : HttpInitState.parseAndEnter pf f (terminated (gathered (b :: rest)))
      { h with curState := .init (terminated (gathered (b :: rest))) } =
        (.exn (.invalid_argument what),
          { h with curState := .init (terminated (gathered (b :: rest))) }) := by
    have hrequest : TcpServerHandler.onRequest
        (RequestInfo.parse (cstr (terminated (gathered (b :: rest))).recvBuf)
          (terminated (gathered (b :: rest))).numRecv)
        { h with curState := .init (terminated (gathered (b :: rest))) } =
          (.exn (.invalid_argument what),
            { h with curState := .init (terminated (gathered (b :: rest))) }) := by
      rw [TcpServerHandler.onRequest, Act.zoom, hparse]
    rw [HttpInitState.parseAndEnter, Act.bind_of_exn hrequest]
  have hdispatch : dispatchRequest pf f (gathered (b :: rest)) h =
      (.ret (), { h with
        curState := .init (terminated (gathered (b :: rest)))
        conn := { h.conn with closed := true } }) := by
    rw [dispatchRequest, Act.bind_of_ret (Act.modify_apply _ h),
      Act.bind_of_ret (Act.tryCatch_of_exn henter _)]
    rfl
  rw [Act.bind_of_ret hdispatch]
  exact installNextState_none hnext

end Reject

/-! ## Chunks -/

section Chunks

variable {pf : Platform} {f : Factories} {request : Bytes} {w : ClientWorker TcpServerHandler}

/-- A prefix that is taken to be complete too early is a part of the terminator. -/
theorem early_head {received : Bytes} (hne : received ≠ []) (hlt : received.length < 4)
    (hend : HttpInitState.TERMINATOR <:+ inFront pf ++ received) :
    ∃ b rest, received = b :: rest ∧ (b = 0x0D ∨ b = 0x0A) := by
  have hpart : received <:+ HttpInitState.TERMINATOR :=
    List.suffix_of_suffix_length_le (List.suffix_append _ _) hend (Nat.le_of_lt hlt)
  cases received with
  | nil => exact absurd rfl hne
  | cons b rest =>
    have hmem : b ∈ HttpInitState.TERMINATOR := hpart.subset List.mem_cons_self
    simp only [HttpInitState.TERMINATOR, List.mem_cons, List.not_mem_nil, or_false] at hmem
    exact ⟨b, rest, rfl, by tauto⟩

/-- A proper prefix is taken to be complete only if it is a part of the terminator. -/
theorem prefix_incomplete (hterm : TerminatedOnce request) (hlen : request.length ≤ 4096)
    {received rest : Bytes} (hsplit : received ++ rest = request) (hrest : rest ≠ [])
    (hcomplete : (gathered received).incomplete pf = false) :
    received.length < 4 ∧ HttpInitState.TERMINATOR <:+ inFront pf ++ received := by
  have hpos : 0 < rest.length := List.length_pos_iff.mpr hrest
  have hsum : received.length + rest.length ≤ 4096 := by
    rw [← List.length_append, hsplit]
    exact hlen
  obtain hfull | hend := (incomplete_eq_false_iff (by omega)).mp hcomplete
  · omega
  · refine ⟨?_, hend⟩
    by_contra hfour
    obtain ⟨pre, hpre⟩ := (suffix_inFront_iff (by omega)).mp hend
    refine hrest (hterm.2 pre rest ?_)
    rw [← hsplit, ← hpre]

/-- The chunk that completes the request ends its delivery. -/
theorem deliverRequest_last (hterm : TerminatedOnce request) (hlen : request.length ≤ 4096)
    (h : Gathers pf w) (hopen : w.handler.conn.closed = false) {s : HttpInitState}
    (hcur : w.handler.curState = .init s) {chunk : Chunk}
    (hwhole : delivered w.calls ++ chunk.bytes = request) :
    deliverRequest pf f [chunk] w = requestOutcome
      ((dispatchRequest pf f (gathered request) >>= fun _ => TcpServerHandler.installNextState)
        w.handler) := by
  have hcomplete : (gathered request).incomplete pf = false :=
    (incomplete_eq_false_iff hlen).mpr (Or.inr (hterm.1.trans (List.suffix_append _ _)))
  have hcall : chunkCall pf f w chunk =
      (dispatchRequest pf f (gathered request) >>= fun _ => TcpServerHandler.installNextState)
        w.handler := by
    rw [← hwhole] at hcomplete hlen ⊢
    exact chunkCall_dispatches h hopen hcur hlen hcomplete
  rw [deliverRequest, List.map_singleton, loop_data hopen, Act.bind_apply, receive_chunkCall, ← hcall]
  rcases chunkCall pf f w chunk with ⟨r, h'⟩
  cases r <;> rfl

/-- The worker when the handler has been given a chunk and is `h'` afterwards. -/
def givenChunk (w : ClientWorker TcpServerHandler) (chunk : Chunk) (h' : TcpServerHandler) :
    ClientWorker TcpServerHandler where
  handler := h'
  buf := ClientWorker.fill w.buf chunk
  isActive := w.isActive
  calls := w.calls ++ [.receive chunk.bytes]

/-- A pass whose call returns leaves the worker with the chunk given to it. -/
theorem receive_given {chunk : Chunk} {h' : TcpServerHandler}
    (hcall : chunkCall pf f w chunk = (.ret (), h')) :
    ClientWorker.receive pf (TcpServerHandler.serverHandler pf f) chunk w =
      (.ret (), givenChunk w chunk h') := by
  rw [receive_chunkCall, hcall]
  rfl

/-- A call that returns is followed by the other chunks. -/
theorem deliverRequest_cons (hopen : w.handler.conn.closed = false) {chunk : Chunk} {h' : TcpServerHandler}
    (hcall : chunkCall pf f w chunk = (.ret (), h')) (chunks : List Chunk) :
    deliverRequest pf f (chunk :: chunks) w = deliverRequest pf f chunks (givenChunk w chunk h') := by
  rw [deliverRequest, List.map_cons, loop_data hopen, Act.bind_of_ret (receive_given hcall)]
  rfl

/-- A call that returns on an open connection keeps the account of what has been gathered. -/
theorem gathers_given (h : Gathers pf w) (hopen : w.handler.conn.closed = false) {chunk : Chunk}
    {h' : TcpServerHandler} (hcall : chunkCall pf f w chunk = (.ret (), h')) :
    Gathers pf (givenChunk w chunk h') := by
  have hnext : nextPass pf (TcpServerHandler.serverHandler pf f) (.data chunk) w =
      some (givenChunk w chunk h') := by
    rw [nextPass, receive_given hcall]
  exact gathers_next h hopen hnext

/-- On a closed connection nothing more is delivered. -/
theorem deliverRequest_closed (hclosed : w.handler.conn.closed = true) (chunks : List Chunk) :
    deliverRequest pf f chunks w = requestOutcome (.ret (), w.handler) := by
  cases chunks with
  | nil => rfl
  | cons chunk chunks =>
    rw [deliverRequest, List.map_cons, loop_closed hclosed]

/-- Chunk by chunk, a request ends as it does when all of it is in the buffer at once. -/
theorem deliverRequest_chunks (hterm : TerminatedOnce request) (hlen : request.length ≤ 4096)
    {chunks : List Chunk} (hne : chunks ≠ []) (h : Gathers pf w)
    (hopen : w.handler.conn.closed = false) {s : HttpInitState}
    (hcur : w.handler.curState = .init s)
    (hwhole : delivered w.calls ++ chunks.flatMap Chunk.bytes = request) :
    deliverRequest pf f chunks w = requestOutcome
      ((dispatchRequest pf f (gathered request) >>= fun _ => TcpServerHandler.installNextState)
        w.handler) := by
  induction chunks generalizing w s with
  | nil => exact absurd rfl hne
  | cons chunk chunks ih =>
    rw [List.flatMap_cons, ← List.append_assoc] at hwhole
    by_cases hlast : chunks = []
    · rw [hlast, List.flatMap_nil, List.append_nil] at hwhole
      rw [hlast]
      exact deliverRequest_last hterm hlen h hopen hcur hwhole
    · have hrest : chunks.flatMap Chunk.bytes ≠ [] := by
        obtain ⟨c, cs, rfl⟩ := List.exists_cons_of_ne_nil hlast
        rw [List.flatMap_cons]
        exact List.append_ne_nil_of_left_ne_nil (List.length_pos_iff.mp c.pos) _
      have hfit : (delivered w.calls ++ chunk.bytes).length ≤ 4096 := by
        refine le_trans ?_ hlen
        rw [← hwhole]
        exact (List.prefix_append _ _).length_le
      cases hinc : (gathered (delivered w.calls ++ chunk.bytes)).incomplete pf with
      | true =>
        have hcall := chunkCall_waits (f := f) h hopen hcur hfit hinc
        rw [deliverRequest_cons hopen hcall]
        refine (ih hlast (gathers_given h hopen hcall) hopen rfl ?_).trans ?_
        · rw [givenChunk, delivered_snoc]
          exact hwhole
        · rw [Act.bind_apply, Act.bind_apply]
          rfl
      | false =>
        -- the bytes so far are a part of the terminator: they are rejected, as the request would be
        obtain ⟨hlt, hend⟩ := prefix_incomplete hterm hlen hwhole hrest hinc
        have hnonempty : delivered w.calls ++ chunk.bytes ≠ [] :=
          List.append_ne_nil_of_right_ne_nil _ (List.length_pos_iff.mp chunk.pos)
        obtain ⟨b, rest, hhead, hb⟩ := early_head hnonempty hlt hend
        have hnext := (h.waits hopen hcur).2.2
        have hrequest : b :: (rest ++ chunks.flatMap Chunk.bytes) = request := by
          rw [← hwhole, hhead, List.cons_append]
        have hcall := chunkCall_dispatches (f := f) h hopen hcur hfit hinc
        rw [hhead] at hcall
        have hrejected := hcall.trans (dispatch_rejects hb (hhead ▸ hfit) hnext)
        rw [deliverRequest_cons hopen hrejected, deliverRequest_closed rfl, ← hrequest,
          dispatch_rejects hb (hrequest ▸ hlen) hnext]
        rfl

end Chunks

/-- A request of at most 4096 bytes whose only terminator is at its end has the same outcome however it
is cut into chunks, and whatever the bytes in front of the buffer are: the same request is left, in
the same kind of state, and the same bytes have been written on a connection that is open or
closed alike. -/
theorem request_segmentation (pf : Platform) (front : ℕ → Byte) (f : Factories)
    (script : List WriteResult) (buf : Bytes) (whole : Chunk) (hterm : TerminatedOnce whole.bytes)
    (chunks : List Chunk) (hcut : chunks.flatMap Chunk.bytes = whole.bytes) :
    deliverRequest (withFront pf front) f chunks (connectedClient script buf) =
      deliverRequest pf f [whole] (connectedClient script buf) := by
  have hne : chunks ≠ [] := by
    rintro rfl
    exact List.length_pos_iff.mp whole.pos hcut.symm
  rw [deliverRequest_chunks hterm whole.le hne (gathers_init _ script buf) rfl rfl hcut,
    deliverRequest_last hterm whole.le (gathers_init pf script buf) rfl rfl rfl,
    dispatchRequest_withFront]

/-- The request of three chunks that cut the method and the terminator. -/
def cutRequest : List Chunk :=
  [⟨ascii "GE", by decide +kernel, by decide +kernel⟩,
    ⟨ascii "T / HTTP/1.1\r\n\r", by decide +kernel, by decide +kernel⟩,
    ⟨ascii "\n", by decide +kernel, by decide +kernel⟩]

/-- A request in three chunks, with a carriage return in front of `recvBuf`, and the same request in
one. -/
theorem request_segmentation_threeChunks :
    deliverRequest (withFront .plain fun _ => 0x0D)
        ⟨HttpFileHandlerFactory [], ⟨fun _ => .ret WsHandlerNull⟩⟩ cutRequest
        (connectedClient [] []) =
      deliverRequest .plain ⟨HttpFileHandlerFactory [], ⟨fun _ => .ret WsHandlerNull⟩⟩
        [⟨ascii "GET / HTTP/1.1\r\n\r\n", by decide +kernel, by decide +kernel⟩]
        (connectedClient [] []) :=
  request_segmentation .plain _ _ [] [] _
    (terminatedOnce_of_dropLast (by decide +kernel) (by decide +kernel)) cutRequest
    (by decide +kernel)

end CppSocks.Analysis
