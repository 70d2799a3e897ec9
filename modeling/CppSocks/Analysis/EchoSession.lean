import CppSocks.Analysis.FrameSession
import CppSocks.Analysis.TextDelivery
import CppSocks.Model.ExampleHandlers

/-!
# Sessions with the WebSocket echo server

A client of `ws_echo` asks for a WebSocket, sends messages in fragments, and leaves. What it
reads over the whole connection is the answer to its request, and then each of its
messages in one frame, in order (`session_echoed`).
-/

set_option autoImplicit false

namespace CppSocks.Analysis

open CppSocks.Model CppSocks.Interface Foundation

/-! ## What the client sends -/

/-- A data message that the server takes in as it is meant: a first frame with more frames behind it
has payload, and the payload can be sent back. -/
structure EchoMessage where
  text : Bool
  first : Frame
  rest : List Frame
  masked : ∀ f ∈ first :: rest, f.key.isSome
  opcode_first : first.opcode = if text then 1 else 2
  opcode_rest : ∀ f ∈ rest, f.opcode = 0
  fin_last : FinLast (first :: rest)
  first_ne_nil : rest ≠ [] → first.payload ≠ []
  short : ((first :: rest).flatMap Frame.payload).length ≤ 65535

namespace EchoMessage

/-- The frames as they are sent. -/
def frames (m : EchoMessage) : List Frame := m.first :: m.rest

/-- A message has at least one frame. -/
theorem frames_ne_nil (m : EchoMessage) : m.frames ≠ [] := List.cons_ne_nil _ _

/-- The payload of the message. -/
def payload (m : EchoMessage) : Bytes := m.frames.flatMap Frame.payload

/-- What comes back: a text ends at its first NUL. -/
def echoed (m : EchoMessage) : Bytes := handedOver m.text m.payload

end EchoMessage

/-- What the handler gets of a message is no longer than the message. -/
theorem length_handedOver_le (text : Bool) (message : Bytes) :
    (handedOver text message).length ≤ message.length := by
  cases text with
  | false => exact le_refl _
  | true => exact (List.takeWhile_prefix _).length_le

/-- The frame that the message is sent back in. -/
def EchoMessage.reply (m : EchoMessage) : Frame :=
  serverFrame m.first.opcode m.echoed ((length_handedOver_le m.text m.payload).trans m.short)

/-- How the client's connection ends: the server is told to quit, the client closes the socket, or it
sends a close frame. Passes that come behind it are not made. -/
inductive Ending where
  | quit
  | eof (rest : List LoopEvent)
  | closeFrame (frame : Frame) (masked : frame.key.isSome) (final : frame.fin = true)
      (opcode : frame.opcode = 8) (short : frame.payload.length ≤ 125) (chunk : Chunk)
      (whole : chunk.bytes = frame.encode) (rest : List LoopEvent)

namespace Ending

/-- What the socket shows. -/
def events : Ending → List LoopEvent
  | quit => []
  | eof rest => .eof :: rest
  | closeFrame _ _ _ _ _ chunk _ rest => .data chunk :: rest

/-- What is sent back: the answer to a close frame. -/
def replies : Ending → List Frame
  | closeFrame _ _ _ _ _ _ _ _ => Operation.close.frame.toList
  | _ => []

end Ending

/-- A request for a WebSocket: its lines are spelled as the server spells them, and the key has 24
bytes. -/
structure WsRequest where
  line : RequestLine
  lines : List HeaderLine
  target : Bytes
  version : Bytes
  keyLine : HeaderLine
  getLine : GetLine line.val target version
  fits : (pathOf target).length < MAX_PATH_LEN
  plain : ∀ l ∈ lines, l.Plain
  distinct : DistinctNames lines
  spelled : Spelled lines
  keyLine_mem : keyLine ∈ lines
  keyLine_name : keyLine.name = ascii "Sec-WebSocket-Key"
  key_length : keyLine.value.length = 24
  short : (requestText line lines).length < 4096

namespace WsRequest

/-- The bytes of the request. -/
def bytes (request : WsRequest) : Bytes := requestText request.line request.lines

/-- The accept value for the key. -/
def accept (pf : Platform) (request : WsRequest) : Bytes :=
  pf.base64 (pf.sha1 (request.keyLine.value ++ ascii "258EAFA5-E914-47DA-95CA-C5AB0DC85B11"))

end WsRequest

/-- What the socket shows, passes with nothing to read left out: the request in chunks of any kind, the
frames of the messages in a chunk each, and the end. -/
def ShowsSession (events : List LoopEvent) (request : WsRequest) (messages : List EchoMessage)
    (ending : Ending) : Prop :=
  ∃ requestChunks frameChunks : List Chunk,
    events.filter isBusy = requestChunks.map .data ++ (frameChunks.map .data ++ ending.events) ∧
    requestChunks.flatMap Chunk.bytes = request.bytes ∧
    frameChunks.map Chunk.bytes = (messages.flatMap EchoMessage.frames).map Frame.encode

/-! ## Messages -/

/-- No message is in progress, and the connection takes what is written. -/
structure BetweenMessages (st : HttpWsState × Conn) : Prop where
  inBuf : st.1.inBuf = []
  isOpen : st.2.closed = false
  accepts : Accepts st.2

/-- The operation that answers a message. -/
def echoOperation (text : Bool) (message : Bytes) : Operation :=
  if text then .sendText (cstr message) else .send message

section Messages

variable {pf : Platform} {s : HttpWsState} {c : Conn}

/-- A C string ends at its first NUL, and so it has no other one to end at. -/
theorem cstr_cstr (m : Bytes) : cstr (cstr m) = cstr m := by
  rw [cstr_eq_self_iff]
  intro hmem
  have hne := List.mem_takeWhile_imp hmem
  exact absurd hne (by decide)

/-- The frame of the answer. -/
theorem frame_echoOperation (m : EchoMessage) :
    (echoOperation m.text m.payload).frame = some m.reply := by
  have hmessage : (echoOperation m.text m.payload).message = (m.first.opcode, m.echoed) := by
    rw [m.opcode_first, EchoMessage.echoed]
    cases m.text with
    | false => rfl
    | true => exact congrArg (Prod.mk 1) (cstr_cstr m.payload)
  have hlen : (echoOperation m.text m.payload).message.2.length ≤ 65535 := by
    rw [hmessage]
    exact (length_handedOver_le m.text m.payload).trans m.short
  rw [frame_of_fits hlen]
  simp only [hmessage, EchoMessage.reply]

variable (pf) in
/-- The handler answers a complete message by the operation. -/
theorem dispatch_echo (text : Bool) {m : HttpWsState} (hop : m.opcode = messageOpcode text)
    (hlen : m.inBuf.length ≤ 65535) (hopen : c.closed = false) (hacc : Accepts c)
    (hfits : (echoOperation text m.inBuf).message.2.length ≤ 65535) (st : HttpWsState) :
    ∃ st' c', HttpWsState.dispatch pf .self .self WsEchoHandler m (st, c) = (.ret (), (st', c')) ∧
      c'.closed = false ∧ Accepts c' ∧ c'.log.written = c.log.written ++
        frameCode.encodeAll (echoOperation text m.inBuf).frame.toList := by
  have hmax := pf.le_maxSize
  -- the callback is recorded, and the operation is performed on the connection
  have hperform : ∀ e : Event, Log.written [e] = [] →
      ∃ c', perform pf (echoOperation text m.inBuf) (c.record e) = (.ret (), c') ∧
        c'.closed = false ∧ Accepts c' ∧ c'.log.written = c.log.written ++
          frameCode.encodeAll (echoOperation text m.inBuf).frame.toList := by
    intro e he
    obtain ⟨hret, hacc', hclosed, hwritten⟩ := perform_open pf (echoOperation text m.inBuf)
      (c := c.record e) hopen hacc
    have hnot : echoOperation text m.inBuf ≠ .close := by
      cases text <;> exact Operation.noConfusion
    rw [outcome, if_pos hfits] at hret
    refine ⟨_, Prod.ext hret rfl, ?_, hacc', ?_⟩
    · rw [← Bool.not_eq_true, hclosed]
      exact hnot
    · rw [hwritten, Conn.record, written_append, he, List.append_nil]
  cases text with
  | true =>
    obtain ⟨c', hrun, hrest⟩ := hperform (.onText (cstr m.inBuf)) rfl
    refine ⟨⟨st.opcode, m.inBuf ++ [0]⟩, c', ?_, hrest⟩
    have hterm : m.inBuf.terminate pf = .ret (m.inBuf ++ [0]) := terminate_of_fits (by omega)
    rw [dispatch_text_eq hop, hterm, Act.bind_of_ret (Act.lift_apply _ _), cstr_append_zero]
    exact congrArg (fun x => (x.1, ((⟨st.opcode, m.inBuf ++ [0]⟩ : HttpWsState), x.2))) hrun
  | false =>
    obtain ⟨c', hrun, hrest⟩ := hperform (.onData m.inBuf) rfl
    refine ⟨st, c', ?_, hrest⟩
    rw [dispatch_binary hop]
    exact congrArg (fun x => (x.1, (st, x.2))) hrun

variable (pf) in
/-- The frames of a message whose opcode is known, `s.inBuf` being what has arrived of it. -/
theorem acceptAll_fragments (text : Bool) {fs : List Frame} (hne : fs ≠ []) (hfin : FinLast fs)
    (hop : ∀ f ∈ fs.head?, nextOpcode s f = messageOpcode text)
    (hrest : fs.tail ≠ [] → s.inBuf ++ (fs.head hne).payload ≠ [])
    (hlen : (s.inBuf ++ fs.flatMap Frame.payload).length ≤ 65535)
    (hfits : (echoOperation text (s.inBuf ++ fs.flatMap Frame.payload)).message.2.length ≤ 65535)
    (hopen : c.closed = false) (hacc : Accepts c) :
    ∃ st', acceptAll pf WsEchoHandler fs (s, c) = (.ret (), st') ∧ BetweenMessages st' ∧
      st'.2.log.written = c.log.written ++ frameCode.encodeAll
        (echoOperation text (s.inBuf ++ fs.flatMap Frame.payload)).frame.toList := by
  have hmax := pf.le_maxSize
  induction fs generalizing s with
  | nil => exact absurd rfl hne
  | cons f fs ih =>
    have hopf : nextOpcode s f = messageOpcode text := hop f rfl
    rw [List.flatMap_cons, List.length_append, List.length_append] at hlen
    have hfit : s.inBuf.length + f.payload.length ≤ pf.maxSize := by omega
    rw [acceptAll, Act.bind_of_ret (Act.gets_apply _ _), hopen, if_neg Bool.false_ne_true]
    cases fs with
    | nil =>
      rw [List.flatMap_singleton] at hfits ⊢
      have hshort : (extended s f).inBuf.length ≤ 65535 := by
        rw [length_extended]
        omega
      obtain ⟨st', c', hdispatch, hopen', hacc', hwritten⟩ :=
        dispatch_echo pf text hopf hshort hopen hacc hfits (extended s f)
      have haccept : acceptFrame pf .self .self WsEchoHandler f (s, c) =
          (.ret (), ({ st' with inBuf := [] }, c')) := by
        rw [acceptFrame_concluded hfit hfin, hdispatch]
        rfl
      exact ⟨_, Act.bind_of_ret haccept _, ⟨rfl, hopen', hacc'⟩, hwritten⟩
    | cons g fs =>
      have hnonempty : s.inBuf ++ f.payload ≠ [] := hrest (List.cons_ne_nil _ _)
      have hall : (extended s f).inBuf ++ (g :: fs).flatMap Frame.payload =
          s.inBuf ++ (f :: g :: fs).flatMap Frame.payload := extended_append s f (g :: fs)
      have htail := ih (s := extended s f) (List.cons_ne_nil g fs) hfin.2
        (fun x _ => (nextOpcode_extended hnonempty x).trans hopf)
        (fun _ => List.append_ne_nil_of_left_ne_nil hnonempty _)
      rw [hall] at htail
      rw [Act.bind_of_ret (acceptFrame_continues hfit hfin.1)]
      refine htail ?_ hfits
      rw [List.flatMap_cons, List.length_append, List.length_append]
      exact hlen

variable (pf) in
/-- A message is answered by its frame. -/
theorem acceptAll_message (m : EchoMessage) {st : HttpWsState × Conn} (h : BetweenMessages st) :
    ∃ st', acceptAll pf WsEchoHandler m.frames st = (.ret (), st') ∧ BetweenMessages st' ∧
      st'.2.log.written = st.2.log.written ++ m.reply.encode := by
  obtain ⟨s, c⟩ := st
  have hidle : s.inBuf = [] := h.inBuf
  have hpayload : s.inBuf ++ m.frames.flatMap Frame.payload = m.payload := by
    rw [hidle, List.nil_append]
    rfl
  have hfirst : ∀ f ∈ m.frames.head?, nextOpcode s f = messageOpcode m.text := by
    intro f hf
    obtain rfl : m.first = f := Option.some.inj hf
    rw [nextOpcode, hidle, List.length_nil, if_pos (beq_self_eq_true 0), m.opcode_first]
    cases m.text <;> rfl
  have hnonempty : m.frames.tail ≠ [] → s.inBuf ++ (m.frames.head m.frames_ne_nil).payload ≠ [] :=
    fun hrest => List.append_ne_nil_of_right_ne_nil _ (m.first_ne_nil hrest)
  have hshort : (echoOperation m.text m.payload).message.2.length ≤ 65535 := by
    by_contra hlong
    have hnone : (echoOperation m.text m.payload).frame = none := dif_neg hlong
    rw [frame_echoOperation] at hnone
    cases hnone
  obtain ⟨st', haccept, hbetween, hwritten⟩ := acceptAll_fragments pf m.text
    m.frames_ne_nil m.fin_last hfirst hnonempty (by rw [hpayload]; exact m.short)
    (by rw [hpayload]; exact hshort) h.isOpen h.accepts
  refine ⟨st', haccept, hbetween, ?_⟩
  rw [hwritten, hpayload, frame_echoOperation, Option.toList_some, frameCode.encodeAll_cons,
    frameCode.encodeAll_nil, List.append_nil]
  rfl

variable (pf) in
/-- Each message is answered by its frame. -/
theorem acceptAll_messages (messages : List EchoMessage) {st : HttpWsState × Conn}
    (h : BetweenMessages st) :
    ∃ st', acceptAll pf WsEchoHandler (messages.flatMap EchoMessage.frames) st = (.ret (), st') ∧
      BetweenMessages st' ∧ st'.2.log.written =
        st.2.log.written ++ frameCode.encodeAll (messages.map EchoMessage.reply) := by
  induction messages generalizing st with
  | nil => exact ⟨st, rfl, h, (List.append_nil _).symm⟩
  | cons m messages ih =>
    obtain ⟨st₁, hfirst, hbetween, hwritten⟩ := acceptAll_message pf m h
    obtain ⟨st₂, hrest, hbetween', hwritten'⟩ := ih hbetween
    refine ⟨st₂, ?_, hbetween', ?_⟩
    · rw [List.flatMap_cons, acceptAll_append, Act.bind_of_ret hfirst]
      exact hrest
    · rw [hwritten', hwritten, List.map_cons, frameCode.encodeAll_cons, List.append_assoc]
      rfl

variable (pf) in
/-- A close frame is answered by a close frame, and the connection is closed. -/
theorem acceptFrame_close {frame : Frame} (hfin : frame.fin = true) (hop : frame.opcode = 8)
    (hlen : frame.payload.length ≤ 125) {st : HttpWsState × Conn} (h : BetweenMessages st) :
    ∃ st', acceptFrame pf .self .self WsEchoHandler frame st = (.ret (), st') ∧ st'.2.closed = true ∧
      st'.2.log.written = st.2.log.written ++ frameCode.encodeAll Operation.close.frame.toList := by
  have hmax := pf.le_maxSize
  obtain ⟨s, c⟩ := st
  have hidle : s.inBuf = [] := h.inBuf
  have hfit : s.inBuf.length + frame.payload.length ≤ pf.maxSize := by
    rw [hidle, List.length_nil]
    omega
  have hclose : (extended s frame).opcode = WebSocketFrame.OPCODE_CONNECTION_CLOSE := by
    rw [extended, nextOpcode, hidle, List.length_nil, if_pos (beq_self_eq_true 0), hop]
    rfl
  obtain ⟨hret, -, hclosed, hwritten⟩ := perform_open pf .close h.isOpen h.accepts
  have hperform : WsConnection.close.run pf c = (.ret (), (perform pf .close c).2) :=
    Prod.ext hret rfl
  refine ⟨({ extended s frame with inBuf := [] }, (perform pf .close c).2), ?_, hclosed.mpr rfl, hwritten⟩
  rw [acceptFrame_concluded hfit hfin, dispatch_close hclose]
  exact congrArg (fun x => concluded (x.1, (extended s frame, x.2))) hperform

end Messages

/-! ## The answer to the request -/

section Handshake

variable {pf : Platform}

/-- The server sends no subprotocol, so nothing of it can end the line. -/
theorem withinLine_nil : WithinLine [] := by decide

/-- What a client finds in the answer to its request. -/
theorem readHead_handshake {accept : Bytes} (haccept : WithinLine accept) (stream : Bytes) :
    readHead [] ((handshakeResponse accept [] haccept withinLine_nil).encode ++ stream) =
      some ([ascii "HTTP/1.1 101 Switching Protocols", ascii "Upgrade: websocket",
        ascii "Connection: Upgrade", ascii "Sec-WebSocket-Version: 13",
        ascii "Sec-WebSocket-Accept: " ++ accept], stream) := by
  have hstatus : ascii "HTTP/1.1 " ++ ascii "101" ++ ascii " " ++ ascii "Switching Protocols" =
      ascii "HTTP/1.1 101 Switching Protocols" := by
    decide +kernel
  have hupgrade : ascii "Upgrade" ++ 0x3A :: ([0x20] ++ ascii "websocket") = ascii "Upgrade: websocket" := by
    decide +kernel
  have hconnection : ascii "Connection" ++ 0x3A :: ([0x20] ++ ascii "Upgrade") =
      ascii "Connection: Upgrade" := by
    decide +kernel
  have hversion : ascii "Sec-WebSocket-Version" ++ 0x3A :: ([0x20] ++ ascii "13") =
      ascii "Sec-WebSocket-Version: 13" := by
    decide +kernel
  have hname : ascii "Sec-WebSocket-Accept: " = ascii "Sec-WebSocket-Accept" ++ [0x3A, 0x20] := by
    decide +kernel
  let response : Response :=
    { handshakeResponse accept [] haccept withinLine_nil with body := stream }
  have hencode : (handshakeResponse accept [] haccept withinLine_nil).encode ++ stream =
      response.encode := by
    have hbody : (handshakeResponse accept [] haccept withinLine_nil).encode =
        response.block ++ CRLF ++ [] := rfl
    rw [hbody, List.append_nil]
    rfl
  rw [hencode, Response.readHead_encode, Response.lines, ← hstatus, ← hupgrade, ← hconnection, ← hversion,
    hname, List.append_assoc _ [0x3A, 0x20] accept]
  rfl

/-- The answer to an upgrade is short enough to be sent, however the digest comes out. -/
theorem length_switchingProtocols_lt {key : Bytes}
    (haccept : (HttpWsState.createAcceptKey pf key).length = 28) :
    (HttpWsState.switchingProtocols pf (protocolLine []) key).length < SIZE_MOD := by
  have hstatus : (ascii "HTTP/1.1 101 Switching Protocols\r\n").length = 34 := by decide +kernel
  have hupgrade : (ascii "Upgrade: websocket\r\n").length = 20 := by decide +kernel
  have hconnection : (ascii "Connection: Upgrade\r\n").length = 21 := by decide +kernel
  have hversion : (ascii "Sec-WebSocket-Version: 13\r\n").length = 27 := by decide +kernel
  have hname : (ascii "Sec-WebSocket-Accept: ").length = 22 := by decide +kernel
  have hend : (ascii "\r\n\r\n").length = 4 := by decide +kernel
  simp only [HttpWsState.switchingProtocols, protocolLine, if_pos, List.length_append, hstatus, hupgrade,
    hconnection, hversion, hname, hend, haccept, List.length_nil, SIZE_MOD]
  omega

namespace WsRequest

/-- What is parsed of the request. -/
def info (request : WsRequest) : RequestInfo :=
  parsed request.bytes (pathOf request.target) RequestInfo.init

/-- The bytes of an upgrade request are parsed to what the client has put into it. -/
theorem parse_bytes (request : WsRequest) :
    RequestInfo.parse (cstr request.bytes) request.bytes.length RequestInfo.init =
      (.ret (), request.info) := by
  have hfits := request.fits
  rw [bytes, cstr_requestText, parse_requestText request.getLine request.lines, if_neg (by omega)]
  rfl

/-- The request is taken for an upgrade. -/
theorem requestType_info (request : WsRequest) : request.info.requestType = .getWs :=
  (parsed_getWs_iff request.line _ request.plain request.distinct).mpr request.spelled

/-- The key is found under its name; the parser leaves the carriage return behind it. -/
theorem lookup_key (request : WsRequest) :
    request.info.headers.lookup (ascii "Sec-WebSocket-Key") = some (request.keyLine.value ++ [0x0D]) := by
  have hlookup := lookup_requestText request.line request.plain (ascii "Sec-WebSocket-Key")
  have hkey := (lookup_lines_iff request.distinct).mpr
    ⟨request.keyLine, request.keyLine_mem, request.keyLine_name, rfl⟩
  exact hlookup.trans hkey

/-- A request begins with a `G`, so its first chunk is not empty. -/
theorem head_bytes (request : WsRequest) : request.bytes.head? = some 0x47 := by
  rw [bytes, requestText, request.getLine.eq]
  rfl

end WsRequest

/-- The handler of the echo server is entered, and the answer has been written. -/
theorem onEnter_echo (hdigest : ∀ bytes, (pf.base64 (pf.sha1 bytes)).length = 28 ∧
      WithinLine (pf.base64 (pf.sha1 bytes))) (request : WsRequest) {c : Conn} (hopen : c.closed = false)
    (hacc : Accepts c) :
    ∃ c', HttpWsState.onEnter pf WsEchoHandler request.info c = (.ret (), c') ∧ c'.closed = false ∧
      Accepts c' ∧ c'.log.written = c.log.written ++
        (handshakeResponse (request.accept pf) [] (hdigest _).2 withinLine_nil).encode := by
  have hkey : HttpWsState.createAcceptKey pf (request.keyLine.value ++ [0x0D]) = request.accept pf :=
    createAcceptKey_cut request.key_length
  have hlen : (HttpWsState.createAcceptKey pf (request.keyLine.value ++ [0x0D])).length = 28 := by
    rw [hkey]
    exact (hdigest _).1
  have hsub : ∀ c : Conn, (WsEchoHandler.subprotocol c.log).run pf c = (.ret [], c) := fun _ => rfl
  obtain ⟨c₁, hready, henter⟩ := onEnter_sends hsub request.lookup_key c
  have hacc₁ : Accepts c₁ := by
    intro r hr
    rw [hready.script] at hr
    exact hacc r hr
  obtain ⟨c₂, hsend, hopen₂, hacc₂, hwritten₂⟩ := send_accepts (length_switchingProtocols_lt hlen)
    (hready.closed.trans hopen) hacc₁
  refine ⟨(c₂.record .onConnect).record .onConnectEnd, ?_, hopen₂, hacc₂, ?_⟩
  · rw [henter, Act.bind_of_ret hsend]
    rfl
  · have hresponse : HttpWsState.switchingProtocols pf (protocolLine []) (request.keyLine.value ++ [0x0D]) =
        (handshakeResponse (request.accept pf) [] (hdigest _).2 withinLine_nil).encode := by
      have haccept : WithinLine (HttpWsState.createAcceptKey pf (request.keyLine.value ++ [0x0D])) := by
        rw [hkey]
        exact (hdigest _).2
      rw [switchingProtocols_eq haccept withinLine_nil]
      simp only [hkey]
    rw [Conn.record, Conn.record, written_append, written_append, hwritten₂, hready.written, hresponse,
      List.append_assoc, List.append_assoc]
    exact congrArg (c.log.written ++ ·) (List.append_nil _)

end Handshake

/-! ## The session -/

section Session

variable {pf : Platform} {f : Factories} {st : HttpWsState × Conn} {w : ClientWorker TcpServerHandler}

variable (pf f) in
/-- The last passes of the loop. -/
theorem loop_ending (ending : Ending) (h : InSession WsEchoHandler st w) (hbetween : BetweenMessages st) :
    ∃ w' st', ClientWorker.loop pf (TcpServerHandler.serverHandler pf f) ending.events w = (.ret (), w') ∧
      InSession WsEchoHandler st' w' ∧
      st'.2.log.written = st.2.log.written ++ frameCode.encodeAll ending.replies := by
  have hopen : (TcpServerHandler.serverHandler pf f).isClosed w.handler = false :=
    (congrArg Conn.closed h.conn).trans hbetween.isOpen
  cases ending with
  | quit => exact ⟨w, st, rfl, h, (List.append_nil _).symm⟩
  | eof rest => exact ⟨w, st, loop_open hopen rest, h, (List.append_nil _).symm⟩
  | closeFrame frame masked final opcode short chunk whole rest =>
    obtain ⟨st', haccept, hclosed, hwritten⟩ := acceptFrame_close pf final opcode short hbetween
    obtain ⟨w', hreceive, hin⟩ := receive_wholeFrame pf f h whole masked
    rw [haccept] at hreceive hin
    refine ⟨w', st', ?_, hin, hwritten⟩
    rw [Ending.events, loop_data hopen, Act.bind_of_ret hreceive]
    exact loop_end ((congrArg Conn.closed hin.conn).trans hclosed)

/-- The handler is told of the end of the connection. -/
theorem onDisconnect_echo (h : InSession WsEchoHandler st w) :
    TcpServerHandler.onDisconnect pf w.handler =
      (.ret (), { w.handler with conn := w.handler.conn.record .onDisconnect }) := by
  rw [TcpServerHandler.onDisconnect, h.cur]
  rfl

end Session

/-- A client of `ws_echo` that asks for a WebSocket, sends messages with each frame in a chunk of its own,
and leaves in one of the three ways: it reads the answer to its request with the accept value of its
key, then each message in one frame, in order, and then the answer to its close frame if it has sent
one, and nothing else, however the network cuts what it reads. The run of the worker ends, the
handler is told of the end of the connection once, and the socket is closed. -/
theorem session_echoed (pf : Platform)
    (hdigest : ∀ bytes, (pf.base64 (pf.sha1 bytes)).length = 28 ∧ WithinLine (pf.base64 (pf.sha1 bytes)))
    {script : List WriteResult} (hscript : ∀ r ∈ script, ∃ k, r = .accept k) (request : WsRequest)
    (messages : List EchoMessage) (ending : Ending) {events : List LoopEvent}
    (hshows : ShowsSession events request messages ending) (buf : Bytes) :
    ∃ w stream, ClientWorker.run pf (TcpServerHandler.serverHandler pf wsEchoFactories) events
        (.init (TcpServerHandler.init script) buf) = (.ret (), w) ∧
      w.isActive = false ∧
      (∃ received : List Bytes, w.calls =
        .connected :: (received.map .receive ++ [.disconnect, .closeSocket, .inactive])) ∧
      readHead [] w.handler.conn.log.written =
        some ([ascii "HTTP/1.1 101 Switching Protocols", ascii "Upgrade: websocket",
          ascii "Connection: Upgrade", ascii "Sec-WebSocket-Version: 13",
          ascii "Sec-WebSocket-Accept: " ++ request.accept pf], stream) ∧
      ∀ pieces : List Bytes, pieces.flatten = stream →
        frameCode.receive pieces [] = messages.map EchoMessage.reply ++ ending.replies := by
  obtain ⟨requestChunks, frameChunks, hbusy, hcut, hframes⟩ := hshows
  have hterm : TerminatedOnce request.bytes := terminatedOnce_requestText _ _
  have hne : requestChunks ≠ [] := by
    rintro rfl
    have hhead := request.head_bytes
    rw [← hcut] at hhead
    cases hhead
  -- the upgrade
  obtain ⟨c, henter, hopen, hacc, hanswer⟩ := onEnter_echo hdigest request
    (c := (Conn.init script).record .createWsHandler) rfl hscript
  have hcreate : ∀ log, wsEchoFactories.wsHandlerFactory.createWsHandler log = .ret WsEchoHandler :=
    fun _ => rfl
  have hdispatch := dispatch_ws (h := TcpServerHandler.init script) (f := wsEchoFactories) request.short
    request.parse_bytes request.requestType_info hcreate henter
  obtain ⟨w₁, hloop₁, hhandler₁⟩ := loop_request hterm (Nat.le_of_lt request.short) request.head_bytes hne
    (gathers_init pf script buf) rfl rfl hcut hdispatch
  have hin₁ : InSession WsEchoHandler (HttpWsState.init, c.record (.entered .ws)) w₁ := by
    constructor <;> rw [hhandler₁]
  have hbetween₁ : BetweenMessages (HttpWsState.init, c.record (.entered .ws)) := ⟨rfl, hopen, hacc⟩
  -- the messages, and the end
  have hmasked : ∀ frame ∈ messages.flatMap EchoMessage.frames, frame.key.isSome := by
    intro frame hframe
    obtain ⟨m, -, hm⟩ := List.mem_flatMap.mp hframe
    exact m.masked frame hm
  obtain ⟨w₂, hloop₂, hin₂⟩ := loop_frames pf wsEchoFactories hin₁ hframes hmasked
  obtain ⟨st₂, haccept, hbetween₂, hwritten₂⟩ := acceptAll_messages pf messages hbetween₁
  rw [haccept] at hloop₂ hin₂
  obtain ⟨w₃, st₃, hloop₃, hin₃, hwritten₃⟩ := loop_ending pf wsEchoFactories ending hin₂ hbetween₂
  have hloop : ClientWorker.loop pf (TcpServerHandler.serverHandler pf wsEchoFactories) events
      (connectedClient script buf) = (.ret (), w₃) := by
    rw [loop_filter, hbusy, loop_append_data, Act.bind_of_ret hloop₁, loop_append_data,
      Act.bind_of_ret hloop₂, hloop₃]
  obtain ⟨received, hcalls⟩ := loop_calls pf (TcpServerHandler.serverHandler pf wsEchoFactories) events
    (connectedClient script buf)
  rw [hloop] at hcalls
  refine ⟨_, frameCode.encodeAll (messages.map EchoMessage.reply ++ ending.replies),
    run_of_loop rfl rfl hloop (onDisconnect_echo hin₃), rfl, ⟨received, ?_⟩, ?_, fun pieces hpieces => ?_⟩
  · change w₃.calls ++ _ = _
    rw [hcalls]
    rfl
  · have hrecorded : c.log.written = _ := hanswer
    have hstream : (w₃.handler.conn.record .onDisconnect).log.written =
        (handshakeResponse (request.accept pf) [] (hdigest _).2 withinLine_nil).encode ++
          frameCode.encodeAll (messages.map EchoMessage.reply ++ ending.replies) := by
      rw [hin₃.conn, Conn.record, written_append, hwritten₃, hwritten₂, Conn.record, written_append,
        hrecorded, Conn.record, written_append, frameCode.encodeAll_append]
      simp only [Log.written, Conn.init, List.flatMap_cons, List.flatMap_nil, List.append_nil,
        List.nil_append, List.append_assoc]
    exact (congrArg (readHead []) hstream).trans (readHead_handshake (hdigest _).2 _)
  · exact frameCode.receive_encodeAll hpieces

/-! ## A session -/

/-- The lines are of the form `name: value`. -/
theorem plain_usualLines : ∀ l ∈ usualLines, l.Plain := by unfold HeaderLine.Plain; decide +kernel

/-- No two of them have the same name. -/
theorem distinct_usualLines : DistinctNames usualLines := by unfold DistinctNames; decide +kernel

/-- The client asks for an upgrade in the spelling that the code looks for. -/
theorem spelled_usualLines : Spelled usualLines :=
  ⟨by decide +kernel, by decide +kernel, by decide +kernel⟩

/-- The path of the sample request fits into the array for it. -/
theorem fits_index : (pathOf (ascii "/")).length < MAX_PATH_LEN := by decide +kernel

/-- The request fits into the receive buffer. -/
theorem short_usualLines : (requestText indexLine usualLines).length < 4096 := by decide +kernel

/-- The last of the usual lines. -/
def usualKeyLine : HeaderLine := usualLines[2]

/-- One of the lines has the key. -/
theorem usualKeyLine_mem : usualKeyLine ∈ usualLines := List.getElem_mem _

/-- The line with the key has the name that the protocol gives it. -/
theorem usualKeyLine_name : usualKeyLine.name = ascii "Sec-WebSocket-Key" := rfl

/-- The sample key is 16 bytes in Base64. -/
theorem usualKeyLine_length : usualKeyLine.value.length = 24 := by decide +kernel

/-- A request with the three header lines as they are usually spelled. -/
def usualRequest : WsRequest where
  line := indexLine
  lines := usualLines
  target := ascii "/"
  version := ascii "HTTP/1.1"
  keyLine := usualKeyLine
  getLine := getLine_indexLine
  fits := fits_index
  plain := plain_usualLines
  distinct := distinct_usualLines
  spelled := spelled_usualLines
  keyLine_mem := usualKeyLine_mem
  keyLine_name := usualKeyLine_name
  key_length := usualKeyLine_length
  short := short_usualLines

/-- A masked frame with two bytes. -/
def twoBytes (fin : Bool) (opcode : Fin 16) (a b : Byte) : Frame where
  fin := fin
  rsv := 0
  opcode := opcode
  key := some ⟨1, 2, 3, 4⟩
  form := .bits7
  payload := [a, b]
  fits := (by decide : 2 < 126)

/-- A text in two fragments. -/
def twoFragments : EchoMessage where
  text := true
  first := twoBytes false 1 0x61 0x62
  rest := [twoBytes true 0 0x63 0x64]
  masked := by decide
  opcode_first := rfl
  opcode_rest := by decide
  fin_last := ⟨rfl, rfl⟩
  first_ne_nil := by decide
  short := by decide

/-- A frame is not empty, so it can come in one chunk. -/
theorem pos_twoBytes (fin : Bool) (opcode : Fin 16) (a b : Byte) :
    0 < (twoBytes fin opcode a b).encode.length := Nat.succ_pos _

/-- A frame with two bytes of payload is not too long for one chunk. -/
theorem le_twoBytes (fin : Bool) (opcode : Fin 16) (a b : Byte) :
    (twoBytes fin opcode a b).encode.length ≤ MAX_SIZE := by
  change 8 ≤ 4096
  omega

/-- The frame as a chunk. -/
def twoBytesChunk (fin : Bool) (opcode : Fin 16) (a b : Byte) : Chunk where
  bytes := (twoBytes fin opcode a b).encode
  pos := pos_twoBytes fin opcode a b
  le := le_twoBytes fin opcode a b

/-- A close frame, with more data behind it. -/
def goodbye : Ending :=
  .closeFrame (twoBytes true 8 0x03 0xE8) rfl rfl rfl (by decide) (twoBytesChunk true 8 0x03 0xE8) rfl
    [.data (twoBytesChunk true 2 0x00 0x01)]

/-- The sample request is not empty. -/
theorem pos_usualRequest : 0 < usualRequest.bytes.length := by decide +kernel

/-- The sample request fits into one chunk. -/
theorem le_usualRequest : usualRequest.bytes.length ≤ MAX_SIZE := by decide +kernel

/-- The sample digest has the length of an accept value. -/
theorem length_sampleDigests (bytes : Bytes) :
    (sampleDigests.base64 (sampleDigests.sha1 bytes)).length = 28 := by
  have haccept : (ascii "s3pPLMBiTxaQ9kYGzzhZRbK+xOo=").length = 28 := by decide +kernel
  exact haccept

/-- The request, a text in two fragments, and a close frame. -/
theorem session_echoed_twoFragments :
    ∃ w stream, ClientWorker.run sampleDigests (TcpServerHandler.serverHandler sampleDigests wsEchoFactories)
        [.data ⟨usualRequest.bytes, pos_usualRequest, le_usualRequest⟩, .notReadable,
          .data (twoBytesChunk false 1 0x61 0x62), .again, .data (twoBytesChunk true 0 0x63 0x64),
          .data (twoBytesChunk true 8 0x03 0xE8), .data (twoBytesChunk true 2 0x00 0x01)]
        (.init (TcpServerHandler.init [.accept 0]) []) = (.ret (), w) ∧
      w.isActive = false ∧
      (∃ received : List Bytes, w.calls =
        .connected :: (received.map .receive ++ [.disconnect, .closeSocket, .inactive])) ∧
      readHead [] w.handler.conn.log.written =
        some ([ascii "HTTP/1.1 101 Switching Protocols", ascii "Upgrade: websocket",
          ascii "Connection: Upgrade", ascii "Sec-WebSocket-Version: 13",
          ascii "Sec-WebSocket-Accept: " ++ usualRequest.accept sampleDigests], stream) ∧
      ∀ pieces : List Bytes, pieces.flatten = stream →
        frameCode.receive pieces [] = [twoFragments].map EchoMessage.reply ++ goodbye.replies :=
  session_echoed sampleDigests (fun bytes => ⟨length_sampleDigests bytes, withinLine_sample⟩) (by simp)
    usualRequest [twoFragments] goodbye
    ⟨[⟨usualRequest.bytes, pos_usualRequest, le_usualRequest⟩],
      [twoBytesChunk false 1 0x61 0x62, twoBytesChunk true 0 0x63 0x64], rfl,
      List.append_nil _, rfl⟩ []

end CppSocks.Analysis
