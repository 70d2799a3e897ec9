import CppSocks.Analysis.UpgradeRequest
import CppSocks.Analysis.FrameAccept
import CppSocks.Analysis.SentStream
import CppSocks.Interface.HttpResponse

/-!
# The answer to an upgrade request

The map of header fields holds what follows the first line `Sec-WebSocket-Key: ` of the
request, with the carriage return at its end. `createAcceptKey` uses the first 24 bytes
of it, so for a key of 24 bytes the carriage return is cut off, and the response carries
the value that RFC 6455 asks for (`handshake_answered`).
-/

set_option autoImplicit false

namespace CppSocks.Analysis

open CppSocks.Model CppSocks.Interface Foundation

/-! ## The key -/

/-- The beginning of the line with the key. -/
def keyFront : Bytes := ascii "Sec-WebSocket-Key" ++ ascii ": "

section Key

variable {lines : List Bytes} {line value request : Bytes} {len : ℕ} {info : RequestInfo}

/-- A line that begins with the name of the key and a colon is split there. -/
theorem findSub_keyLine (rest : Bytes) :
    findSub (ascii ": ") (keyFront ++ rest) = some (ascii "Sec-WebSocket-Key").length := by
  have hname : (0x3A : Byte) ∉ ascii "Sec-WebSocket-Key" := by decide
  rw [keyFront, List.append_assoc]
  exact findSub_first hname [0x20] rest

/-- A line that is split behind the name of the key begins with it. -/
theorem keyFront_of_take {pos : ℕ} (h : findSub (ascii ": ") line = some pos)
    (hname : line.take pos = ascii "Sec-WebSocket-Key") : keyFront.isPrefixOf line := by
  obtain ⟨pre, post, rfl, rfl⟩ := findSub_spec h
  rw [List.append_assoc, List.take_left] at hname
  rw [hname, List.isPrefixOf_iff_prefix]
  exact List.prefix_append _ _

/-- The key that is read is that of the first line that begins like one. -/
theorem pairsOf_key (hvalue : (pairsOf lines).lookup (ascii "Sec-WebSocket-Key") = some value)
    (hline : lines.find? (keyFront.isPrefixOf ·) = some line) : line = keyFront ++ value := by
  induction lines with
  | nil => cases hline
  | cons first lines ih =>
    rw [List.find?_cons] at hline
    by_cases hfirst : keyFront.isPrefixOf first
    · rw [hfirst] at hline
      obtain rfl : first = line := Option.some.inj hline
      obtain ⟨rest, rfl⟩ := List.isPrefixOf_iff_prefix.mp hfirst
      have htake : (keyFront ++ rest).take (ascii "Sec-WebSocket-Key").length =
          ascii "Sec-WebSocket-Key" := by
        rw [keyFront, List.append_assoc, List.take_left]
      have hdrop : (keyFront ++ rest).drop ((ascii "Sec-WebSocket-Key").length + 2) = rest :=
        List.drop_left' (by decide)
      rw [pairsOf, findSub_keyLine] at hvalue
      dsimp only at hvalue
      rw [htake, hdrop, List.lookup_cons_self] at hvalue
      rw [Option.some.inj hvalue]
    · rw [Bool.not_eq_true] at hfirst
      rw [hfirst] at hline
      rw [pairsOf] at hvalue
      cases hpos : findSub (ascii ": ") first with
      | none =>
        rw [hpos] at hvalue
        cases hvalue
      | some pos =>
        rw [hpos] at hvalue
        dsimp only at hvalue
        have hname : (ascii "Sec-WebSocket-Key" == first.take pos) = false := by
          rw [beq_eq_false_iff_ne]
          intro hname
          rw [keyFront_of_take hpos hname.symm] at hfirst
          cases hfirst
        rw [List.lookup_cons, hname] at hvalue
        exact ih hvalue hline

/-- A parser that returns gives its request information back. -/
theorem parse_of_returns (h : (RequestInfo.parse request len info).1 = .ret ()) :
    RequestInfo.parse request len info = (.ret (), (RequestInfo.parse request len info).2) := by
  rw [← h]

/-- A request that is upgraded has a key. -/
theorem parse_getWs (h : RequestInfo.parse request len RequestInfo.init = (.ret (), info))
    (hws : info.requestType = .getWs) :
    ∃ value, info.headers.lookup (ascii "Sec-WebSocket-Key") = some value ∧
      (pairsOf (getlines request).tail).lookup (ascii "Sec-WebSocket-Key") = some value := by
  have hheaders : info.headers = headerLoop (getlines request).tail [] := by
    have hparse : (RequestInfo.parse request len RequestInfo.init).2.headers = _ :=
      parse_headers (congrArg Prod.fst h)
    rw [h] at hparse
    exact hparse
  have hset : hasHeaderField info.headers (ascii "Sec-WebSocket-Key") = true := by
    obtain ⟨pre, target, post, hcopies⟩ | ⟨e, type, hrejected⟩ := parse_cases request len
    · rw [infoParse_copies hcopies] at h
      split at h
      · cases h
      · obtain rfl : parsed request (pathOf target) RequestInfo.init = info :=
          congrArg Prod.snd h
        rw [parsed] at hws ⊢
        dsimp only at hws ⊢
        split at hws
        · next hupgrade =>
          rw [isWsRequest, Bool.and_eq_true] at hupgrade
          exact hupgrade.2
        · cases hws
    · rw [hrejected.info] at h
      cases h
  obtain ⟨value, hvalue⟩ := Option.isSome_iff_exists.mp hset
  refine ⟨value, hvalue, ?_⟩
  rw [hheaders, lookup_headerLoop, List.lookup_nil, Option.none_or] at hvalue
  exact hvalue

end Key

/-! ## The response -/

/-- A field of the form `name: value`. -/
def responseField (name value : Bytes) (hname : name ≠ [] ∧ ∀ b ∈ name, isTchar b)
    (hvalue : WithinLine value) : ResponseField where
  name := name
  before := [0x20]
  value := value
  name_ne_nil := hname.1
  name_tchar := hname.2
  before_ows := isOws_space
  value_line := hvalue

section Response

variable {pf : Platform} {accept protocol key k : Bytes}

/-- The field for the subprotocol, if there is one. -/
def protocolFields (protocol : Bytes) (h : WithinLine protocol) : List ResponseField :=
  if protocol = [] then []
  else [responseField (ascii "Sec-WebSocket-Protocol") protocol (by decide +kernel) h]

/-- The response to an upgrade request. -/
def handshakeResponse (accept protocol : Bytes) (haccept : WithinLine accept)
    (hprotocol : WithinLine protocol) : Response where
  code := ascii "101"
  reason := ascii "Switching Protocols"
  fields := [
    responseField (ascii "Upgrade") (ascii "websocket") (by decide +kernel) (by decide +kernel),
    responseField (ascii "Connection") (ascii "Upgrade") (by decide +kernel) (by decide +kernel),
    responseField (ascii "Sec-WebSocket-Version") (ascii "13") (by decide +kernel)
      (by decide +kernel)] ++
    protocolFields protocol hprotocol ++
    [responseField (ascii "Sec-WebSocket-Accept") accept (by decide +kernel) haccept]
  body := []
  code_length := by decide +kernel
  code_digits := by decide +kernel
  reason_line := by decide +kernel

/-- The line for the subprotocol, if there is one. -/
def protocolLine (protocol : Bytes) : Bytes :=
  if protocol = [] then [] else ascii "Sec-WebSocket-Protocol: " ++ protocol ++ ascii "\r\n"

/-- A field of the response is encoded as the source writes it. -/
theorem text_responseField {name value : Bytes} (hname : name ≠ [] ∧ ∀ b ∈ name, isTchar b)
    (hvalue : WithinLine value) :
    (responseField name value hname hvalue).text ++ CRLF = name ++ ascii ": " ++ value ++ CRLF := by
  have hsep : ascii ": " = [0x3A, 0x20] := by decide
  simp only [ResponseField.text, responseField, hsep, List.append_assoc, List.cons_append,
    List.nil_append]

/-- The subprotocol is one field of the response, or none when it is empty. -/
theorem protocolLine_eq (hprotocol : WithinLine protocol) :
    protocolLine protocol =
      (protocolFields protocol hprotocol).flatMap fun f => f.text ++ CRLF := by
  have hname : ascii "Sec-WebSocket-Protocol: " = ascii "Sec-WebSocket-Protocol" ++ ascii ": " := by
    decide +kernel
  have hend : ascii "\r\n" = CRLF := by decide +kernel
  rw [protocolLine, protocolFields]
  split
  · rfl
  · rw [List.flatMap_singleton, text_responseField, hname, hend]

/-- The bytes that `onEnter` puts together are those of the response. -/
theorem switchingProtocols_eq (haccept : WithinLine (HttpWsState.createAcceptKey pf key))
    (hprotocol : WithinLine protocol) :
    HttpWsState.switchingProtocols pf (protocolLine protocol) key =
      (handshakeResponse (HttpWsState.createAcceptKey pf key) protocol haccept
        hprotocol).encode := by
  have hfront : ascii "HTTP/1.1 101 Switching Protocols\r\n" ++ ascii "Upgrade: websocket\r\n" ++
      ascii "Connection: Upgrade\r\n" ++ ascii "Sec-WebSocket-Version: 13\r\n" =
        ascii "HTTP/1.1 " ++ ascii "101" ++ ascii " " ++ ascii "Switching Protocols" ++ CRLF ++
          (ascii "Upgrade" ++ ascii ": " ++ ascii "websocket" ++ CRLF ++
            (ascii "Connection" ++ ascii ": " ++ ascii "Upgrade" ++ CRLF ++
              (ascii "Sec-WebSocket-Version" ++ ascii ": " ++ ascii "13" ++ CRLF))) := by
    decide +kernel
  have hname : ascii "Sec-WebSocket-Accept: " = ascii "Sec-WebSocket-Accept" ++ ascii ": " := by
    decide +kernel
  have hend : ascii "\r\n\r\n" = CRLF ++ CRLF := by decide +kernel
  rw [HttpWsState.switchingProtocols, hfront, hname, hend, protocolLine_eq hprotocol,
    Response.encode, Response.block, Response.statusLine, handshakeResponse]
  simp only [List.flatMap_append, List.flatMap_cons, List.flatMap_nil, text_responseField,
    List.append_assoc, List.append_nil]

/-- The response states the accept value once. -/
theorem fieldValues_accept (haccept : WithinLine accept) (hprotocol : WithinLine protocol) :
    (handshakeResponse accept protocol haccept hprotocol).fieldValues
      (ascii "Sec-WebSocket-Accept") = [accept] := by
  rw [Response.fieldValues, handshakeResponse, protocolFields]
  split <;> rfl

/-- The response states the subprotocol once if there is one, and not at all otherwise. -/
theorem fieldValues_protocol (haccept : WithinLine accept) (hprotocol : WithinLine protocol) :
    (handshakeResponse accept protocol haccept hprotocol).fieldValues
      (ascii "Sec-WebSocket-Protocol") = if protocol = [] then [] else [protocol] := by
  rw [Response.fieldValues, handshakeResponse, protocolFields]
  split <;> rfl

/-- The carriage return behind a key of 24 bytes is not used. -/
theorem createAcceptKey_cut (hlen : k.length = 24) :
    HttpWsState.createAcceptKey pf (k ++ [0x0D]) =
      pf.base64 (pf.sha1 (k ++ ascii "258EAFA5-E914-47DA-95CA-C5AB0DC85B11")) := by
  rw [HttpWsState.createAcceptKey, ← hlen, List.take_left]
  rfl

end Response

/-! ## Entering the state -/

/-- Behind the questions for the subprotocol, and with the response noted; nothing has been written
since `c`. -/
structure ReadyToAnswer (c c' : Conn) : Prop where
  closed : c'.closed = c.closed
  script : c'.script = c.script
  written : c'.log.written = c.log.written

/-- One response is sent, and then the handler is told of the connection; the response is a 101
without a body, with the accept value of the key, and with a line for the subprotocol exactly if this
is not empty. -/
structure Answers (pf : Platform) (handler : WsHandler) (info : RequestInfo) (k protocol : Bytes)
    (r : Response) : Prop where
  code : r.code = ascii "101"
  body : r.body = []
  accept : r.fieldValues (ascii "Sec-WebSocket-Accept") =
    [pf.base64 (pf.sha1 (k ++ ascii "258EAFA5-E914-47DA-95CA-C5AB0DC85B11"))]
  protocol : r.fieldValues (ascii "Sec-WebSocket-Protocol") =
    if protocol = [] then [] else [protocol]
  sends : ∀ c, ∃ c', ReadyToAnswer c c' ∧ HttpWsState.onEnter pf handler info c = (do
    let _ ← Connection.send r.encode
    callback pf .self .self .onConnect handler.onConnect
    Act.modify (Conn.record .onConnectEnd)) c'

section Enter

variable {pf : Platform} {handler : WsHandler} {info : RequestInfo} {protocol key : Bytes}

/-- An event that writes nothing does not stand in the way of the answer. -/
theorem ReadyToAnswer.record {c c' : Conn} (h : ReadyToAnswer c c') {e : Event}
    (he : Log.written [e] = []) : ReadyToAnswer c (c'.record e) := by
  refine ⟨h.closed, h.script, ?_⟩
  rw [Conn.record, written_append, he, List.append_nil]
  exact h.written

/-- The line for the subprotocol is put together; if there is one, the handler is asked twice. -/
theorem ask_subprotocol {α : Type} (f : Bytes → Action Conn α)
    (hask : ∀ c, callback pf .self .self .subprotocol handler.subprotocol c =
      (.ret protocol, c.record .subprotocol)) (c : Conn) :
    ∃ c', ReadyToAnswer c c' ∧
      (if protocol.isEmpty then (do
        let line ← pure []
        f line)
      else do
        let second ← callback pf .self .self .subprotocol handler.subprotocol
        let line ← pure (ascii "Sec-WebSocket-Protocol: " ++ second ++ ascii "\r\n")
        f line) (c.record .subprotocol) = f (protocolLine protocol) c' := by
  have hready : ReadyToAnswer c (c.record .subprotocol) :=
    ReadyToAnswer.record ⟨rfl, rfl, rfl⟩ rfl
  rw [protocolLine]
  by_cases hnil : protocol = []
  · refine ⟨c.record .subprotocol, hready, ?_⟩
    rw [if_pos hnil, if_pos (List.isEmpty_iff.mpr hnil)]
    rfl
  · refine ⟨(c.record .subprotocol).record .subprotocol, hready.record rfl, ?_⟩
    rw [if_neg hnil, if_neg (mt List.isEmpty_iff.mp hnil), Act.bind_of_ret (hask _)]
    rfl

/-- `onEnter` sends what it has put together. -/
theorem onEnter_sends (hsub : ∀ c, (handler.subprotocol c.log).run pf c = (.ret protocol, c))
    (hkey : info.headers.lookup (ascii "Sec-WebSocket-Key") = some key) (c : Conn) :
    ∃ c', ReadyToAnswer c c' ∧ HttpWsState.onEnter pf handler info c = (do
      let _ ← Connection.send (HttpWsState.switchingProtocols pf (protocolLine protocol) key)
      callback pf .self .self .onConnect handler.onConnect
      Act.modify (Conn.record .onConnectEnd)) c' := by
  have hask : ∀ c, callback pf .self .self .subprotocol handler.subprotocol c =
      (.ret protocol, c.record .subprotocol) := fun c => hsub (c.record .subprotocol)
  have hat : info.headers.at (ascii "Sec-WebSocket-Key") = .ret key := by
    rw [HeadersMap.at, hkey]
  obtain ⟨c', hready, hline⟩ := ask_subprotocol (fun line => do
    let key ← Act.lift (info.headers.at (ascii "Sec-WebSocket-Key"))
    let response := HttpWsState.switchingProtocols pf line key
    Act.modify (Conn.record (.handed response))
    let _ ← Connection.send response
    callback pf .self .self .onConnect handler.onConnect
    Act.modify (Conn.record .onConnectEnd)) hask c
  refine ⟨c'.record (.handed (HttpWsState.switchingProtocols pf (protocolLine protocol) key)),
    hready.record rfl, ?_⟩
  unfold HttpWsState.onEnter
  refine (Act.bind_of_ret (hask c) _).trans (hline.trans ?_)
  rw [hat, Act.bind_of_ret (Act.lift_apply _ c')]
  exact Act.bind_of_ret (Act.modify_apply _ c') _

end Enter

/-- A request that `parse` classifies as an upgrade request, and whose first line that begins with
`Sec-WebSocket-Key: ` goes on with 24 bytes and ends, is answered with the accept value of these. -/
theorem handshake_answered (pf : Platform) (hbase64 : ∀ bytes, WithinLine (pf.base64 bytes))
    (handler : WsHandler) {protocol : Bytes}
    (hsub : ∀ c, (handler.subprotocol c.log).run pf c = (.ret protocol, c))
    (hprotocol : WithinLine protocol) {request : Bytes} {len : ℕ} {info : RequestInfo}
    (hparse : RequestInfo.parse request len RequestInfo.init = (.ret (), info))
    (hws : info.requestType = .getWs) {k : Bytes} (hlen : k.length = 24)
    (hline : (getlines request).tail.find? (keyFront.isPrefixOf ·) =
      some (keyFront ++ k ++ [0x0D])) :
    ∃ r, Answers pf handler info k protocol r := by
  obtain ⟨value, hkey, hpairs⟩ := parse_getWs hparse hws
  have hvalue : k ++ [0x0D] = value := by
    have hfirst := pairsOf_key hpairs hline
    rw [List.append_assoc] at hfirst
    exact List.append_cancel_left hfirst
  have haccept : WithinLine (HttpWsState.createAcceptKey pf (k ++ [0x0D])) := hbase64 _
  refine ⟨handshakeResponse _ protocol haccept hprotocol, rfl, rfl, ?_, ?_, fun c => ?_⟩
  · rw [fieldValues_accept, createAcceptKey_cut hlen]
  · exact fieldValues_protocol haccept hprotocol
  · rw [← switchingProtocols_eq, hvalue]
    exact onEnter_sends hsub hkey c

/-- A platform that knows the digest and the accept value of one key. -/
def sampleDigests : Platform :=
  { Platform.plain with
    sha1 := fun _ => [0xB3, 0x7A, 0x4F, 0x2C, 0xC0, 0x62, 0x4F, 0x16, 0x90, 0xF6, 0x46, 0x06, 0xCF,
      0x38, 0x59, 0x45, 0xB2, 0xBE, 0xC4, 0xEA]
    base64 := fun _ => ascii "s3pPLMBiTxaQ9kYGzzhZRbK+xOo=" }

/-- A handler with a subprotocol. -/
def chatHandler : WsHandler := { WsHandlerNull with subprotocol := fun _ => .ret (ascii "chat") }

/-- An upgrade request with another field in front of the key. -/
def sampleRequest : Bytes :=
  ascii "GET /chat HTTP/1.1\r\nHost: a\r\nUpgrade: websocket\r\nConnection: Upgrade\r\n" ++
    ascii "Sec-WebSocket-Key: dGhlIHNhbXBsZSBub25jZQ==\r\nSec-WebSocket-Version: 13\r\n\r\n"

/-- The sample accept value fits into a header line. -/
theorem withinLine_sample : WithinLine (ascii "s3pPLMBiTxaQ9kYGzzhZRbK+xOo=") := by
  decide +kernel

/-- The key of the request is answered with its accept value. -/
theorem handshake_answered_chat :
    ∃ r, Answers sampleDigests chatHandler
      (RequestInfo.parse sampleRequest sampleRequest.length RequestInfo.init).2
      (ascii "dGhlIHNhbXBsZSBub25jZQ==") (ascii "chat") r :=
  handshake_answered sampleDigests (fun _ => withinLine_sample) chatHandler (fun _ => rfl)
    (by decide +kernel) (parse_of_returns (by decide +kernel)) (by decide +kernel)
    (by decide +kernel) (by decide +kernel)

end CppSocks.Analysis
