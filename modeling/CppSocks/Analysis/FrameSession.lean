import CppSocks.Analysis.RequestAnswer

/-!
# WebSocket sessions

The worker of a client that asks for a WebSocket and then sends frames, each of them in a
chunk of its own. The request may be cut in any way (`loop_request`). Behind it the worker
does what the receiver over frames does: `InSession` relates the two, and `loop_frames`
says that the worker's loop over the chunks is `acceptAll` over the frames.
-/

set_option autoImplicit false

namespace CppSocks.Analysis

open CppSocks.Model CppSocks.Interface Foundation

/-! ## The request -/

section Request

variable {pf : Platform} {f : Factories} {request : Bytes} {w : ClientWorker TcpServerHandler}

/-- A request that begins with a `G` is waited for until its last byte has come. -/
theorem incomplete_of_head (hterm : TerminatedOnce request) (hlen : request.length ≤ 4096)
    (hhead : request.head? = some 0x47) {received rest : Bytes} (hsplit : received ++ rest = request)
    (hne : received ≠ []) (hrest : rest ≠ []) : (gathered received).incomplete pf = true := by
  rw [← Bool.not_eq_false]
  intro hcomplete
  obtain ⟨hlt, hend⟩ := prefix_incomplete hterm hlen hsplit hrest hcomplete
  obtain ⟨b, bytes, rfl, hb⟩ := early_head hne hlt hend
  rw [← hsplit] at hhead
  have hG : b = 0x47 := Option.some.inj hhead
  rw [hG] at hb
  exact absurd hb (by decide)

/-- The handler that a request is dispatched with does not matter but for its buffer. -/
theorem dispatch_curState (s : HttpInitState) (h : TcpServerHandler) (cur : HttpState) :
    (dispatchRequest pf f s >>= fun _ => TcpServerHandler.installNextState) { h with curState := cur } =
      (dispatchRequest pf f s >>= fun _ => TcpServerHandler.installNextState) h := by
  rw [Act.bind_apply, Act.bind_apply]
  rfl

/-- The loop over a request that begins with a `G`, cut in any way, and the passes behind it. -/
theorem loop_request (hterm : TerminatedOnce request) (hlen : request.length ≤ 4096)
    (hhead : request.head? = some 0x47) {chunks : List Chunk} (hne : chunks ≠ []) (h : Gathers pf w)
    (hopen : w.handler.conn.closed = false) {s : HttpInitState} (hcur : w.handler.curState = .init s)
    (hwhole : delivered w.calls ++ chunks.flatMap Chunk.bytes = request) {h' : TcpServerHandler}
    (hdispatch : (dispatchRequest pf f (gathered request) >>= fun _ => TcpServerHandler.installNextState)
      w.handler = (.ret (), h')) :
    ∃ w', ClientWorker.loop pf (TcpServerHandler.serverHandler pf f) (chunks.map .data) w = (.ret (), w') ∧
      w'.handler = h' := by
  induction chunks generalizing w s with
  | nil => exact absurd rfl hne
  | cons chunk chunks ih =>
    rw [List.flatMap_cons, ← List.append_assoc] at hwhole
    have hfit : (delivered w.calls ++ chunk.bytes).length ≤ 4096 := by
      refine le_trans ?_ hlen
      rw [← hwhole]
      exact (List.prefix_append _ _).length_le
    by_cases hlast : chunks = []
    · -- the chunk completes the request
      rw [hlast, List.flatMap_nil, List.append_nil] at hwhole
      have hcomplete : (gathered request).incomplete pf = false :=
        (incomplete_eq_false_iff hlen).mpr (Or.inr (hterm.1.trans (List.suffix_append _ _)))
      have hcall : chunkCall pf f w chunk = (.ret (), h') := by
        rw [← hwhole] at hcomplete hdispatch
        rw [chunkCall_dispatches h hopen hcur hfit hcomplete, dispatch_curState, hdispatch]
      refine ⟨givenChunk w chunk h', ?_, rfl⟩
      rw [hlast, List.map_singleton, loop_data hopen, Act.bind_of_ret (receive_given hcall)]
      rfl
    · -- more of the request is to come
      have hrest : chunks.flatMap Chunk.bytes ≠ [] := by
        obtain ⟨c, cs, rfl⟩ := List.exists_cons_of_ne_nil hlast
        rw [List.flatMap_cons]
        exact List.append_ne_nil_of_left_ne_nil (List.length_pos_iff.mp c.pos) _
      have hsome : delivered w.calls ++ chunk.bytes ≠ [] :=
        List.append_ne_nil_of_right_ne_nil _ (List.length_pos_iff.mp chunk.pos)
      have hcall := chunkCall_waits (f := f) h hopen hcur hfit
        (incomplete_of_head hterm hlen hhead hwhole hsome hrest)
      rw [List.map_cons, loop_data hopen, Act.bind_of_ret (receive_given hcall)]
      refine ih hlast (gathers_given h hopen hcall) hopen rfl ?_ ?_
      · rw [givenChunk, delivered_snoc]
        exact hwhole
      · rw [givenChunk, dispatch_curState, hdispatch]

end Request

/-! ## The upgrade -/

section Upgrade

variable {pf : Platform} {f : Factories} {request : Bytes} {h : TcpServerHandler} {info : RequestInfo}

/-- An upgrade request whose handler is made and entered. -/
theorem dispatch_ws (hlen : request.length < 4096)
    (hparse : RequestInfo.parse (cstr request) request.length h.requestInfo_ = (.ret (), info))
    (hws : info.requestType = .getWs) {handler : WsHandler}
    (hcreate : ∀ log, f.wsHandlerFactory.createWsHandler log = .ret handler) {c' : Conn}
    (henter : HttpWsState.onEnter pf handler info (h.conn.record .createWsHandler) = (.ret (), c')) :
    (dispatchRequest pf f (gathered request) >>= fun _ => TcpServerHandler.installNextState) h =
      (.ret (), { h with
        curState := .ws handler HttpWsState.init
        requestInfo_ := info
        conn := c'.record (.entered .ws)
        nextState := none }) := by
  have hnew := newHttpWsState_apply pf (h := withRequest request info h) hcreate
  have hon : TcpServerHandler.onEnter pf (.ws handler HttpWsState.init) info (h.conn.record .createWsHandler) =
      (.ret (), c') := by
    rw [TcpServerHandler.onEnter, henter]
  have hparsed := parseAndEnter_ws pf f hlen hparse hws
  rw [Act.bind_of_ret hnew, Act.bind_of_ret (setNextState_of_ret hon)] at hparsed
  exact dispatch_of_ret hparsed

end Upgrade

/-! ## Frames -/

/-- The worker has this handler and this state of a WebSocket connection. -/
structure InSession (handler : WsHandler) (st : HttpWsState × Conn) (w : ClientWorker TcpServerHandler) :
    Prop where
  cur : w.handler.curState = .ws handler st.1
  next : w.handler.nextState = none
  conn : w.handler.conn = st.2

section Frames

variable {pf : Platform} {f : Factories} {handler : WsHandler} {st : HttpWsState × Conn}
  {w : ClientWorker TcpServerHandler}

variable (pf f) in
/-- A chunk with one masked frame is handled as the frame. -/
theorem receive_wholeFrame (h : InSession handler st w) {chunk : Chunk} {frame : Frame}
    (hbytes : chunk.bytes = frame.encode) (hkey : frame.key.isSome) :
    ∃ w', ClientWorker.receive pf (TcpServerHandler.serverHandler pf f) chunk w =
        ((acceptFrame pf .self .self handler frame st).1, w') ∧
      InSession handler (acceptFrame pf .self .self handler frame st).2 w' := by
  obtain ⟨k, hk⟩ := Option.isSome_iff_exists.mp hkey
  have hmem := startsWith_chunk pf w chunk
  rw [hbytes] at hmem
  have hcall : chunkCall pf f w chunk =
      ((acceptFrame pf .self .self handler frame st).1,
        { w.handler with
          curState := .ws handler (acceptFrame pf .self .self handler frame st).2.1
          conn := (acceptFrame pf .self .self handler frame st).2.2 }) := by
    rw [chunkCall, onReceive_ws h.cur h.next, hbytes, onReceive_frame hmem (le_refl _) hk, h.conn]
  refine ⟨(ClientWorker.receive pf (TcpServerHandler.serverHandler pf f) chunk w).2, ?_, ?_⟩
  · rw [receive_chunkCall, hcall]
  · rw [receive_chunkCall, hcall]
    exact ⟨rfl, h.next, rfl⟩

variable (pf f) in
/-- The worker's loop over chunks that are masked frames is the receiver over the frames. -/
theorem loop_frames {frames : List Frame} {chunks : List Chunk} (h : InSession handler st w)
    (hbytes : chunks.map Chunk.bytes = frames.map Frame.encode) (hkey : ∀ frame ∈ frames, frame.key.isSome) :
    ∃ w', ClientWorker.loop pf (TcpServerHandler.serverHandler pf f) (chunks.map .data) w =
        ((acceptAll pf handler frames st).1, w') ∧
      InSession handler (acceptAll pf handler frames st).2 w' := by
  induction frames generalizing chunks st w with
  | nil =>
    obtain rfl : chunks = [] := List.map_eq_nil_iff.mp hbytes
    exact ⟨w, rfl, h⟩
  | cons frame frames ih =>
    obtain ⟨chunk, chunks', rfl, hchunk, hrest⟩ := List.map_eq_cons_iff.mp hbytes
    have hisClosed : (TcpServerHandler.serverHandler pf f).isClosed w.handler = st.2.closed :=
      congrArg Conn.closed h.conn
    rw [acceptAll, Act.bind_of_ret (Act.gets_apply _ st)]
    cases hclosed : st.2.closed with
    | true =>
      rw [hclosed] at hisClosed
      exact ⟨w, loop_closed hisClosed, h⟩
    | false =>
      rw [hclosed] at hisClosed
      obtain ⟨w', hreceive, hin⟩ := receive_wholeFrame pf f h hchunk (hkey frame List.mem_cons_self)
      rw [if_neg Bool.false_ne_true, List.map_cons, loop_data hisClosed, Act.bind_apply, Act.bind_apply,
        hreceive]
      rcases hframe : acceptFrame pf .self .self handler frame st with ⟨r, st'⟩
      rw [hframe] at hin
      cases r with
      | ret u => exact ih hin hrest fun g hg => hkey g (List.mem_cons_of_mem _ hg)
      | exn e => exact ⟨w', rfl, hin⟩
      | ub => exact ⟨w', rfl, hin⟩

/-- Frames are accepted one after the other. -/
theorem acceptAll_append (frames frames' : List Frame) (st : HttpWsState × Conn) :
    acceptAll pf handler (frames ++ frames') st =
      (acceptAll pf handler frames >>= fun _ => acceptAll pf handler frames') st := by
  induction frames generalizing st with
  | nil => rfl
  | cons frame frames ih =>
    rw [List.cons_append, acceptAll, acceptAll, Act.bind_of_ret (Act.gets_apply _ st), Act.bind_apply,
      Act.bind_of_ret (Act.gets_apply _ st)]
    cases hclosed : st.2.closed with
    | true =>
      rw [if_pos rfl, if_pos rfl]
      cases frames' with
      | nil => rfl
      | cons frame' frames' =>
        change _ = acceptAll pf handler (frame' :: frames') st
        rw [acceptAll, Act.bind_of_ret (Act.gets_apply _ st), hclosed]
        rfl
    | false =>
      rw [if_neg Bool.false_ne_true, if_neg Bool.false_ne_true, Act.bind_apply, Act.bind_apply]
      rcases acceptFrame pf .self .self handler frame st with ⟨r, st'⟩
      cases r with
      | ret u => exact (ih st').trans (Act.bind_apply _ _ st')
      | exn e => rfl
      | ub => rfl

end Frames

end CppSocks.Analysis
