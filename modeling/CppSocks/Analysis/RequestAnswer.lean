import CppSocks.Analysis.RequestSegmentation
import CppSocks.Analysis.ResponseComplete
import CppSocks.Analysis.UpgradeRequest
import CppSocks.Analysis.WorkerSession
import Mathlib.Data.List.Infix

/-!
# One request, one answer

The whole run of a worker whose client sends a request, cut in any way, and whatever it
likes behind it. A GET request is answered by what `do_GET` writes, and by nothing else;
a request that cannot be parsed is not answered. In both cases the connection is closed
then: what follows is not read, and the run comes to its end and closes the socket.
-/

set_option autoImplicit false

namespace CppSocks.Analysis

open CppSocks.Model CppSocks.Interface Foundation

/-! ## The parsed text -/

/-- A request that leaves room for the terminator is parsed up to its first NUL. -/
theorem cstr_recvBuf {request : Bytes} (hlen : request.length < 4096) :
    cstr (terminated (gathered request)).recvBuf = cstr request := by
  have hset : (terminated (gathered request)).recvBuf =
      request ++ List.replicate (4096 - request.length) 0 := by
    rw [terminated, length_recvBuf (Nat.le_of_lt hlen), gathered]
    dsimp only
    rw [List.set_append_right _ _ (by omega)]
    congr 1
    refine List.ext_getElem (List.length_set) fun i hi hi' => ?_
    rw [List.getElem_set, List.getElem_replicate]
    split <;> rfl
  obtain ⟨n, hn⟩ : ∃ n, 4096 - request.length = n + 1 := ⟨4095 - request.length, by omega⟩
  rw [hset, hn, List.replicate_succ, cstr, cstr, List.takeWhile_append]
  split
  · rename_i hall
    rw [List.takeWhile_cons_of_neg (by decide), List.append_nil]
    exact ((List.takeWhile_prefix _).eq_of_length hall).symm
  · rfl

/-! ## The call that answers -/

/-- On an open connection that takes what is written, the program writes these bytes, and returns or
throws. -/
def Outputs (pf : Platform) (p : Prog Unit) (bytes : Bytes) : Prop :=
  ∀ c : Conn, c.closed = false → Accepts c → ∃ r c', p.run pf c = (r, c') ∧ r ≠ .ub ∧
    c'.log.written = c.log.written ++ bytes

/-- A program that writes given bytes outputs them on a connection that accepts them. -/
theorem Writes.outputs {pf : Platform} {p : Prog Unit} {bytes : Bytes} (h : Writes pf p bytes) :
    Outputs pf p bytes := by
  intro c hopen hacc
  obtain ⟨u, c', hrun, _, _, hwritten⟩ := h c hopen hacc
  exact ⟨.ret u, c', hrun, nofun, hwritten⟩

/-- The connection is closed, these bytes have been written on it, and it has not become a WebSocket. -/
structure Finished (before bytes : Bytes) (h : TcpServerHandler) : Prop where
  closed : h.conn.closed = true
  written : h.conn.log.written = before ++ bytes
  kind : h.curState.kind ≠ .ws

section Dispatch

variable {pf : Platform} {f : Factories} {request : Bytes} {h : TcpServerHandler} {info : RequestInfo}

/-- The parser's result, exception or not, and the request information it leaves are those of the
handler. -/
theorem onRequest_parse (hlen : request.length < 4096) {r : Res Exc Unit}
    (hparse : RequestInfo.parse (cstr request) request.length h.requestInfo_ = (r, info)) :
    TcpServerHandler.onRequest (RequestInfo.parse (cstr (terminated (gathered request)).recvBuf)
        (terminated (gathered request)).numRecv)
      { h with curState := .init (terminated (gathered request)) } =
        (r, { h with curState := .init (terminated (gathered request)), requestInfo_ := info }) := by
  have hnum : (terminated (gathered request)).numRecv = request.length := rfl
  rw [cstr_recvBuf hlen, hnum, TcpServerHandler.onRequest, Act.zoom, hparse]

/-- What is left of a request that `parseAndEnter` throws at. -/
theorem dispatch_of_exn (hnext : h.nextState = none) {s : HttpInitState} {e : Exc} {h' : TcpServerHandler}
    (henter : HttpInitState.parseAndEnter pf f (terminated s) { h with curState := .init (terminated s) } =
      (.exn e, h')) (hsame : h'.nextState = h.nextState) :
    (dispatchRequest pf f s >>= fun _ => TcpServerHandler.installNextState) h =
      (.ret (), { h' with conn := { h'.conn with closed := true } }) := by
  have hdispatch : dispatchRequest pf f s h =
      (.ret (), { h' with conn := { h'.conn with closed := true } }) := by
    have hcatch : Act.tryCatch (HttpInitState.parseAndEnter pf f (terminated s)) (fun _ => pure false)
        { h with curState := .init (terminated s) } = (.ret false, h') := Act.tryCatch_of_exn henter _
    rw [dispatchRequest, Act.bind_of_ret (Act.modify_apply _ h), Act.bind_of_ret hcatch]
    rfl
  rw [Act.bind_of_ret hdispatch]
  exact installNextState_none (hsame.trans hnext)

/-- The state that `parseAndEnter` has chosen is installed. -/
theorem dispatch_of_ret {s : HttpInitState} {h' : TcpServerHandler}
    (henter : HttpInitState.parseAndEnter pf f (terminated s) { h with curState := .init (terminated s) } =
      (.ret true, h')) :
    (dispatchRequest pf f s >>= fun _ => TcpServerHandler.installNextState) h =
      TcpServerHandler.installNextState h' := by
  have hdispatch : dispatchRequest pf f s h = (.ret (), h') := by
    rw [dispatchRequest, Act.bind_of_ret (Act.modify_apply _ h),
      Act.bind_of_ret (Act.tryCatch_of_ret henter _)]
    rfl
  rw [Act.bind_of_ret hdispatch]

/-- A request that cannot be parsed. -/
theorem dispatch_rejected (hlen : request.length < 4096) (hnext : h.nextState = none) {e : Exc}
    (hparse : RequestInfo.parse (cstr request) request.length h.requestInfo_ = (.exn e, info)) :
    ∃ h', (dispatchRequest pf f (gathered request) >>= fun _ => TcpServerHandler.installNextState) h =
        (.ret (), h') ∧ Finished h.conn.log.written [] h' := by
  have henter : HttpInitState.parseAndEnter pf f (terminated (gathered request))
      { h with curState := .init (terminated (gathered request)) } =
        (.exn e, { h with
          curState := .init (terminated (gathered request))
          requestInfo_ := info }) := by
    rw [HttpInitState.parseAndEnter, Act.bind_of_exn (onRequest_parse hlen hparse)]
  refine ⟨_, dispatch_of_exn hnext henter rfl, rfl, (List.append_nil _).symm, ?_⟩
  exact StateKind.noConfusion

/-! Behind the parser a state is made and entered. -/

variable (pf) in
/-- When the factory delivers a handler, the GET state is made around it and the creation is logged.
-/
theorem newHttpGetState_apply {handler : HttpHandler}
    (hcreate : ∀ log, f.httpHandlerFactory.createHttpHandler log = .ret handler) :
    TcpServerHandler.newHttpGetState pf f h =
      (.ret (.get handler), { h with conn := h.conn.record .createHttpHandler }) := by
  have hcreated : callback pf .self .self .createHttpHandler f.httpHandlerFactory.createHttpHandler h.conn =
      (.ret handler, h.conn.record .createHttpHandler) := by
    rw [callback_self, hcreate]
    rfl
  rw [TcpServerHandler.newHttpGetState, TcpServerHandler.tcpConnection, Act.bind_apply, Act.zoom, hcreated]
  rfl

variable (pf) in
/-- When the factory delivers a handler, the WebSocket state is made around it and the creation is
logged. -/
theorem newHttpWsState_apply {handler : WsHandler}
    (hcreate : ∀ log, f.wsHandlerFactory.createWsHandler log = .ret handler) :
    TcpServerHandler.newHttpWsState pf f h =
      (.ret (.ws handler HttpWsState.init), { h with conn := h.conn.record .createWsHandler }) := by
  have hcreated : callback pf .self .self .createWsHandler f.wsHandlerFactory.createWsHandler h.conn =
      (.ret handler, h.conn.record .createWsHandler) := by
    rw [callback_self, hcreate]
    rfl
  rw [TcpServerHandler.newHttpWsState, TcpServerHandler.tcpConnection, Act.bind_apply, Act.zoom, hcreated]
  rfl

variable {next : HttpState} {c' : Conn}

/-- A state that takes the connection is the next one. -/
theorem setNextState_of_ret
    (henter : TcpServerHandler.onEnter pf next h.requestInfo_ h.conn = (.ret (), c')) :
    TcpServerHandler.setNextState pf next h = (.ret (), { h with conn := c', nextState := some next }) := by
  have hon : TcpServerHandler.tcpConnection (TcpServerHandler.onEnter pf next h.requestInfo_) h =
      (.ret (), { h with conn := c' }) := by
    rw [TcpServerHandler.tcpConnection, Act.zoom, henter]
  rw [TcpServerHandler.setNextState, Act.bind_of_ret (Act.gets_apply _ _), Act.bind_of_ret hon]
  rfl

/-- What `onEnter` throws is thrown on, with the connection as `onEnter` left it. -/
theorem setNextState_of_exn {e : Exc}
    (henter : TcpServerHandler.onEnter pf next h.requestInfo_ h.conn = (.exn e, c')) :
    TcpServerHandler.setNextState pf next h = (.exn e, { h with conn := c' }) := by
  have hon : TcpServerHandler.tcpConnection (TcpServerHandler.onEnter pf next h.requestInfo_) h =
      (.exn e, { h with conn := c' }) := by
    rw [TcpServerHandler.tcpConnection, Act.zoom, henter]
  rw [TcpServerHandler.setNextState, Act.bind_of_ret (Act.gets_apply _ _), Act.bind_of_exn hon]

/-- The handler when the request has been parsed. -/
def withRequest (request : Bytes) (info : RequestInfo) (h : TcpServerHandler) : TcpServerHandler :=
  { h with curState := .init (terminated (gathered request)), requestInfo_ := info }

variable (pf f) in
/-- A parsed GET request leads to the GET state, made from the first state and entered at once. -/
theorem parseAndEnter_get (hlen : request.length < 4096)
    (hparse : RequestInfo.parse (cstr request) request.length h.requestInfo_ = (.ret (), info))
    (hget : info.requestType = .get) :
    HttpInitState.parseAndEnter pf f (terminated (gathered request))
      { h with curState := .init (terminated (gathered request)) } =
        (do
          let next ← TcpServerHandler.newHttpGetState pf f
          TcpServerHandler.setNextState pf next
          pure true : Action TcpServerHandler Bool) (withRequest request info h) := by
  rw [HttpInitState.parseAndEnter, Act.bind_of_ret (onRequest_parse hlen hparse),
    Act.bind_of_ret (Act.gets_apply _ _)]
  dsimp only
  rw [hget]
  rfl

variable (pf f) in
/-- A parsed upgrade request leads to the WebSocket state, made from the first state and entered at
once. -/
theorem parseAndEnter_ws (hlen : request.length < 4096)
    (hparse : RequestInfo.parse (cstr request) request.length h.requestInfo_ = (.ret (), info))
    (hws : info.requestType = .getWs) :
    HttpInitState.parseAndEnter pf f (terminated (gathered request))
      { h with curState := .init (terminated (gathered request)) } =
        (do
          let next ← TcpServerHandler.newHttpWsState pf f
          TcpServerHandler.setNextState pf next
          pure true : Action TcpServerHandler Bool) (withRequest request info h) := by
  rw [HttpInitState.parseAndEnter, Act.bind_of_ret (onRequest_parse hlen hparse),
    Act.bind_of_ret (Act.gets_apply _ _)]
  dsimp only
  rw [hws]
  rfl

/-- A GET request. -/
theorem dispatch_get (hlen : request.length < 4096) (hnext : h.nextState = none)
    (hopen : h.conn.closed = false) (hacc : Accepts h.conn)
    (hparse : RequestInfo.parse (cstr request) request.length h.requestInfo_ = (.ret (), info))
    (hget : info.requestType = .get) {handler : HttpHandler}
    (hcreate : ∀ log, f.httpHandlerFactory.createHttpHandler log = .ret handler) {bytes : Bytes}
    (houtputs : ∀ log, Outputs pf (handler.do_GET log info) bytes) :
    ∃ h', (dispatchRequest pf f (gathered request) >>= fun _ => TcpServerHandler.installNextState) h =
        (.ret (), h') ∧ Finished h.conn.log.written bytes h' ∧ .createHttpHandler ∈ h'.conn.log := by
  -- the handler is created, and `do_GET` is called
  let c := (h.conn.record .createHttpHandler).record .doGet
  obtain ⟨r, c', hrun, hub, hwritten⟩ := houtputs c.log c hopen hacc
  have hcall : HttpGetState.doGetCall pf handler info (h.conn.record .createHttpHandler) =
      (r, c'.record .doGetEnd) := by
    rw [HttpGetState.doGetCall, callback_self]
    exact congrArg (fun x => (x.1, x.2.record .doGetEnd)) hrun
  have hbefore : c.log.written = h.conn.log.written := by
    simp only [c, Conn.record, Log.written, List.flatMap_append, List.flatMap_singleton, List.append_nil]
  have hend : (c'.record .doGetEnd).log.written = h.conn.log.written ++ bytes := by
    rw [Conn.record, written_append, hwritten, hbefore]
    exact List.append_nil _
  have hmem : .createHttpHandler ∈ (c'.record .doGetEnd).log := by
    obtain ⟨evs, hext⟩ := run_extends pf (handler.do_GET c.log info) c
    rw [hrun] at hext
    rw [Conn.record, hext.log_eq]
    simp only [c, Conn.record, List.mem_append, List.mem_singleton, true_or, or_true]
  have hnew := newHttpGetState_apply pf (h := withRequest request info h) hcreate
  cases r with
  | ub => exact absurd rfl hub
  | exn e =>
    have hon : TcpServerHandler.onEnter pf (.get handler) info (h.conn.record .createHttpHandler) =
        (.exn e, c'.record .doGetEnd) := by
      rw [TcpServerHandler.onEnter, HttpGetState.onEnter, Act.bind_of_exn hcall]
    have henter := parseAndEnter_get pf f hlen hparse hget
    rw [Act.bind_of_ret hnew, Act.bind_of_exn (setNextState_of_exn hon)] at henter
    exact ⟨_, dispatch_of_exn hnext henter rfl, ⟨rfl, hend, StateKind.noConfusion⟩, hmem⟩
  | ret u =>
    have hon : TcpServerHandler.onEnter pf (.get handler) info (h.conn.record .createHttpHandler) =
        (.ret (), { c'.record .doGetEnd with closed := true }) := by
      rw [TcpServerHandler.onEnter, HttpGetState.onEnter, Act.bind_of_ret hcall]
      rfl
    have henter := parseAndEnter_get pf f hlen hparse hget
    rw [Act.bind_of_ret hnew, Act.bind_of_ret (setNextState_of_ret hon)] at henter
    refine ⟨_, dispatch_of_ret henter, ⟨rfl, ?_, StateKind.noConfusion⟩, ?_⟩
    · change (Conn.record _ _).log.written = _
      rw [Conn.record, written_append]
      exact (List.append_nil _).trans hend
    · exact List.mem_append_left _ hmem

end Dispatch

/-! ## The run -/

/-- What the socket shows, passes with nothing to read left out, begins with the chunks of the request. -/
def ShowsFirst (events : List LoopEvent) (request : Bytes) : Prop :=
  ∃ (chunks : List Chunk) (rest : List LoopEvent),
    events.filter isBusy = chunks.map .data ++ rest ∧ chunks.flatMap Chunk.bytes = request

/-- The run is over: these bytes have been written, the connection and the socket are closed, and the
handler has been told of the end of the connection once. -/
structure Served (bytes : Bytes) (w : ClientWorker TcpServerHandler) : Prop where
  inactive : w.isActive = false
  closed : w.handler.conn.closed = true
  written : w.handler.conn.log.written = bytes
  calls : ∃ chunks : List Bytes,
    w.calls = .connected :: (chunks.map .receive ++ [.disconnect, .closeSocket, .inactive])

section Run

variable {pf : Platform} {f : Factories} {script : List WriteResult} {request : Bytes}
  {events : List LoopEvent} {info : RequestInfo}

/-- Only the WebSocket state does anything when the client is gone. -/
theorem onDisconnect_of_kind {h : TcpServerHandler} (hkind : h.curState.kind ≠ .ws) :
    TcpServerHandler.onDisconnect pf h = (.ret (), h) := by
  rw [TcpServerHandler.onDisconnect]
  cases hcur : h.curState with
  | init s => rfl
  | get handler => rfl
  | ws handler st =>
    rw [hcur] at hkind
    exact absurd rfl hkind

/-- A request whose dispatch closes the connection ends the run. -/
theorem run_of_dispatch (hshows : ShowsFirst events request) (hterm : TerminatedOnce request)
    (hlen : request.length ≤ 4096) {bytes : Bytes} {h' : TcpServerHandler}
    (hdispatch : (dispatchRequest pf f (gathered request) >>= fun _ => TcpServerHandler.installNextState)
      (TcpServerHandler.init script) = (.ret (), h'))
    (hfinished : Finished [] bytes h') (buf : Bytes) :
    ∃ w, ClientWorker.run pf (TcpServerHandler.serverHandler pf f) events
      (.init (TcpServerHandler.init script) buf) = (.ret (), w) ∧ Served bytes w := by
  obtain ⟨chunks, rest, hbusy, hcut⟩ := hshows
  have hne : chunks ≠ [] := by
    rintro rfl
    obtain ⟨pre, hpre⟩ := hterm.1
    rw [← hcut] at hpre
    exact List.append_ne_nil_of_right_ne_nil pre (by decide) hpre
  -- behind the chunks of the request the connection is closed
  have hout := deliverRequest_chunks (f := f) hterm hlen hne (gathers_init pf script buf) rfl rfl hcut
  rw [show (connectedClient script buf).handler = TcpServerHandler.init script from rfl, hdispatch] at hout
  rcases hloop : ClientWorker.loop pf (TcpServerHandler.serverHandler pf f) (chunks.map .data)
    (connectedClient script buf) with ⟨r, w⟩
  rw [deliverRequest, hloop] at hout
  simp only [requestOutcome, RequestOutcome.mk.injEq] at hout
  obtain ⟨rfl, -, hkind, hwritten, hclosed⟩ := hout
  have hend : w.handler.conn.closed = true := hclosed.trans hfinished.closed
  have hwhole : ClientWorker.loop pf (TcpServerHandler.serverHandler pf f) events
      (connectedClient script buf) = (.ret (), w) := by
    rw [loop_filter, hbusy, loop_append_data, Act.bind_of_ret hloop]
    exact loop_end hend
  -- the handler does nothing at the end of the connection
  have hdisconnect : TcpServerHandler.onDisconnect pf w.handler = (.ret (), w.handler) :=
    onDisconnect_of_kind (hkind ▸ hfinished.kind)
  obtain ⟨received, hcalls⟩ := loop_calls pf (TcpServerHandler.serverHandler pf f) events
    (connectedClient script buf)
  rw [hwhole] at hcalls
  refine ⟨_, run_of_loop rfl rfl hwhole hdisconnect, rfl, hend, ?_, received, ?_⟩
  · exact hwritten.trans (hfinished.written.trans (List.nil_append bytes))
  · dsimp only
    rw [hcalls]
    rfl

/-- The run of a worker whose client sends a GET request. -/
theorem run_get (hshows : ShowsFirst events request) (hterm : TerminatedOnce request)
    (hlen : request.length < 4096) (hscript : ∀ r ∈ script, ∃ k, r = .accept k)
    (hparse : RequestInfo.parse (cstr request) request.length RequestInfo.init = (.ret (), info))
    (hget : info.requestType = .get) {handler : HttpHandler}
    (hcreate : ∀ log, f.httpHandlerFactory.createHttpHandler log = .ret handler) {bytes : Bytes}
    (houtputs : ∀ log, Outputs pf (handler.do_GET log info) bytes) (buf : Bytes) :
    ∃ w, ClientWorker.run pf (TcpServerHandler.serverHandler pf f) events
      (.init (TcpServerHandler.init script) buf) = (.ret (), w) ∧ Served bytes w := by
  obtain ⟨h', hdispatch, hfinished, -⟩ := dispatch_get (h := TcpServerHandler.init script) hlen rfl rfl
    hscript hparse hget hcreate houtputs
  exact run_of_dispatch hshows hterm (Nat.le_of_lt hlen) hdispatch hfinished buf

end Run

/-! ## Requests that are rejected -/

/-- A request that does not begin with `GET`, or has no two spaces, is not answered: nothing is
written, and the connection is closed whatever comes behind the request. -/
theorem request_rejected (pf : Platform) (f : Factories) (script : List WriteResult) (buf : Bytes)
    (request : Bytes) (hterm : TerminatedOnce request) (hlen : request.length < 4096)
    (hbad : ¬ (ascii "GET" <+: cstr request ∧ 2 ≤ (cstr request).count 0x20)) {events : List LoopEvent}
    (hshows : ShowsFirst events request) :
    ∃ w, ClientWorker.run pf (TcpServerHandler.serverHandler pf f) events
      (.init (TcpServerHandler.init script) buf) = (.ret (), w) ∧ Served [] w := by
  obtain ⟨pre, target, post, hcopies⟩ | ⟨e, type, hrejected⟩ := parse_cases (cstr request) request.length
  · exact absurd ⟨hcopies.get, hcopies.toSpaced.two_le_count⟩ hbad
  · obtain ⟨h', hdispatch, hfinished⟩ := dispatch_rejected (f := f) (h := TcpServerHandler.init script)
      hlen rfl (hrejected.info _)
    exact run_of_dispatch hshows hterm (Nat.le_of_lt hlen) hdispatch hfinished buf

/-- A request line without a path, cut in two, with another request behind it. -/
theorem request_rejected_noPath :
    ∃ w, ClientWorker.run .plain (TcpServerHandler.serverHandler .plain
          ⟨HttpFileHandlerFactory [], ⟨fun _ => .ret WsHandlerNull⟩⟩)
        [.data ⟨ascii "GET\r", by decide +kernel, by decide +kernel⟩, .notReadable,
          .data ⟨ascii "\n\r\n", by decide +kernel, by decide +kernel⟩,
          .data ⟨ascii "GET /a HTTP/1.1\r\n\r\n", by decide +kernel, by decide +kernel⟩]
        (.init (TcpServerHandler.init []) []) = (.ret (), w) ∧ Served [] w :=
  request_rejected .plain ⟨HttpFileHandlerFactory [], ⟨fun _ => .ret WsHandlerNull⟩⟩ [] []
    (ascii "GET\r\n\r\n")
    (terminatedOnce_of_dropLast (by decide +kernel) (by decide +kernel)) (by decide +kernel)
    (by decide +kernel)
    ⟨[⟨ascii "GET\r", by decide +kernel, by decide +kernel⟩,
        ⟨ascii "\n\r\n", by decide +kernel, by decide +kernel⟩],
      [.data ⟨ascii "GET /a HTTP/1.1\r\n\r\n", by decide +kernel, by decide +kernel⟩], rfl,
      by decide +kernel⟩

/-! ## Requests that are made of lines -/

section Lines

variable {line : RequestLine} {lines : List HeaderLine}

/-- The terminator is not found before the end of a line, unless the next line is empty. -/
theorem terminator_behind {text pre post rest : Bytes} (htext : ∀ b ∈ text, isText b)
    (hrest : rest.head? ≠ some 0x0D)
    (h : text ++ CRLF ++ rest = pre ++ HttpInitState.TERMINATOR ++ post) :
    ∃ pre', rest = pre' ++ HttpInitState.TERMINATOR ++ post := by
  induction text generalizing pre with
  | nil =>
    cases pre with
    | nil =>
      obtain rfl : rest = 0x0D :: 0x0A :: post := (List.cons.inj (List.cons.inj h).2).2
      exact absurd rfl hrest
    | cons b pre =>
      have htail : 0x0A :: rest = pre ++ HttpInitState.TERMINATOR ++ post := (List.cons.inj h).2
      cases pre with
      | nil => exact absurd (List.cons.inj htail).1 (by decide)
      | cons b' pre => exact ⟨pre, (List.cons.inj htail).2⟩
  | cons b text ih =>
    cases pre with
    | nil =>
      have hb : b = 0x0D := (List.cons.inj h).1
      exact absurd (htext b List.mem_cons_self) (hb ▸ by decide)
    | cons b' pre =>
      exact ih (fun c hc => htext c (List.mem_cons_of_mem _ hc)) (List.cons.inj h).2

/-- At the end of the last line it is found, and nothing is behind it. -/
theorem terminator_last {text pre post : Bytes} (htext : ∀ b ∈ text, isText b)
    (h : text ++ CRLF ++ CRLF = pre ++ HttpInitState.TERMINATOR ++ post) : post = [] := by
  induction text generalizing pre with
  | nil =>
    have hlen := congrArg List.length h
    simp only [List.nil_append, List.length_append, CRLF, HttpInitState.TERMINATOR, List.length_cons,
      List.length_nil] at hlen
    exact List.length_eq_zero_iff.mp (by omega)
  | cons b text ih =>
    cases pre with
    | nil =>
      have hb : b = 0x0D := (List.cons.inj h).1
      exact absurd (htext b List.mem_cons_self) (hb ▸ by decide)
    | cons b' pre =>
      exact ih (fun c hc => htext c (List.mem_cons_of_mem _ hc)) (List.cons.inj h).2

/-- A header line does not begin with a carriage return. -/
theorem head_text (l : HeaderLine) (rest : Bytes) : (l.text ++ rest).head? ≠ some 0x0D := by
  obtain ⟨b, name, hname⟩ := List.exists_cons_of_ne_nil l.name_ne_nil
  intro heq
  rw [HeaderLine.text, hname] at heq
  have hb : b = 0x0D := Option.some.inj heq
  exact absurd (l.name_tchar b (hname ▸ List.mem_cons_self)) (hb ▸ by decide)

/-- A request made of lines ends with its only terminator. -/
theorem terminatedOnce_requestText (line : RequestLine) (lines : List HeaderLine) :
    TerminatedOnce (requestText line lines) := by
  constructor
  · obtain rfl | ⟨lines', l, rfl⟩ := List.eq_nil_or_concat lines
    · exact ⟨line.val, by rw [requestText, List.flatMap_nil, List.append_nil, List.append_assoc]; rfl⟩
    · refine ⟨line.val ++ CRLF ++ lines'.flatMap (fun l => l.text ++ CRLF) ++ l.text, ?_⟩
      rw [requestText, List.concat_eq_append, List.flatMap_append, List.flatMap_singleton]
      simp only [List.append_assoc]
      rfl
  · -- the induction is on the header lines; `line` becomes the line in front of them
    have hall : ∀ (lines : List HeaderLine) (text pre post : Bytes), (∀ b ∈ text, isText b) →
        text ++ CRLF ++ (lines.flatMap (fun l => l.text ++ CRLF) ++ CRLF) =
          pre ++ HttpInitState.TERMINATOR ++ post → post = [] := by
      intro lines
      induction lines with
      | nil =>
        intro text pre post htext h
        exact terminator_last htext h
      | cons l lines ih =>
        intro text pre post htext h
        rw [List.flatMap_cons, List.append_assoc (l.text ++ CRLF)] at h
        have hhead : (l.text ++ CRLF ++ (lines.flatMap (fun l => l.text ++ CRLF) ++ CRLF)).head? ≠
            some 0x0D := by
          rw [List.append_assoc]
          exact head_text l _
        obtain ⟨pre', hpre'⟩ := terminator_behind htext hhead h
        exact ih l.text pre' post l.text_isText hpre'
    intro pre post hsplit
    rw [requestText, List.append_assoc] at hsplit
    exact hall lines line.val pre post line.property hsplit

/-- There is no NUL in it. -/
theorem cstr_requestText (line : RequestLine) (lines : List HeaderLine) :
    cstr (requestText line lines) = requestText line lines := by
  rw [cstr, List.takeWhile_eq_self_iff]
  intro b hb
  have hne : ∀ (text : Bytes), (∀ b ∈ text, isText b) → ∀ b ∈ text ++ CRLF, b ≠ 0 := by
    intro text htext b hb
    obtain hb | hb := List.mem_append.mp hb
    · exact (isText_iff.mp (htext b hb)).2.2
    · rintro rfl
      exact absurd hb (by decide)
  rw [bne_iff_ne]
  obtain hfront | hend := List.mem_append.mp hb
  · obtain hline | hlines := List.mem_append.mp hfront
    · exact hne _ line.property b hline
    · obtain ⟨l, -, hl⟩ := List.mem_flatMap.mp hlines
      exact hne _ l.text_isText b hl
  · exact hne [] (fun b hb => absurd hb List.not_mem_nil) b hend

/-- How a request line and header lines that do not ask for a WebSocket are parsed. -/
theorem parse_get {target version : Bytes} (hline : GetLine line.val target version)
    (hplain : ∀ l ∈ lines, l.Plain) (hdistinct : DistinctNames lines) (hget : ¬ Spelled lines)
    (hfit : (pathOf target).length < MAX_PATH_LEN) :
    RequestInfo.parse (cstr (requestText line lines)) (requestText line lines).length RequestInfo.init =
        (.ret (), parsed (requestText line lines) (pathOf target) RequestInfo.init) ∧
      (parsed (requestText line lines) (pathOf target) RequestInfo.init).requestType = .get := by
  constructor
  · rw [cstr_requestText, parse_requestText hline lines, if_neg (by omega)]
  · have hws := mt (parsed_getWs_iff line (pathOf target) hplain hdistinct).mp hget
    rw [parsed] at hws ⊢
    dsimp only at hws ⊢
    split at hws
    · exact absurd rfl hws
    · rw [if_neg ‹_›]

end Lines

end CppSocks.Analysis
