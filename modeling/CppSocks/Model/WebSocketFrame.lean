import CppSocks.Model.ByteOrder

/-!
# WebSocket frames

`WebSocketFrame` as the library builds it and `WebSocketFrame::decode` as the
library reads one from a receive buffer. `decode` gets the memory behind its
pointer, not a list of the received bytes: it looks at `len` once, in its first
test, and afterwards reads wherever the header it finds sends it.
-/

set_option autoImplicit false

namespace CppSocks.Model

open Foundation

/-- `WebSocketFrame::OpCode`. -/
abbrev OpCode := Byte

/-- `WsBuffer`, a `std::vector<Byte>`.
SOURCE: http/socks_ws_types.hpp:14 -/
abbrev WsBuffer := List Byte

/-- `std::vector::resize`: cut, or filled up with zeros.
A failed call leaves the vector as it was; `std::bad_alloc` is folded into `length_error`, since
`maxSize` is any bound from which on the call fails, and both leave every caller in the same way. -/
def WsBuffer.resize (pf : Platform) (buf : WsBuffer) (n : ℕ) : Call WsBuffer :=
  if pf.maxSize < n then .exn .length_error
  else .ret (buf.take n ++ List.replicate (n - buf.length) 0)

/-- Write `bs` over the elements from index `pos` on. -/
def WsBuffer.store (buf : WsBuffer) (pos : ℕ) (bs : Bytes) : Call WsBuffer :=
  if pos + bs.length ≤ buf.length then .ret (buf.take pos ++ bs ++ buf.drop (pos + bs.length))
  else .ub

/-- `buf.resize(buf.size() + 1); buf[buf.size() - 1] = 0`, with the arithmetic of `std::size_t`.
SOURCE: http/socks_http_states_ws.cpp:80-81 -/
def WsBuffer.terminate (pf : Platform) (buf : WsBuffer) : Call WsBuffer := do
  let resized ← buf.resize pf ((buf.length + 1) % SIZE_MOD)
  resized.store ((resized.length + (SIZE_MOD - 1)) % SIZE_MOD) [0]

/-- The loop over `cnt` that combines each byte with `maskingKey[cnt % 4]`. -/
def unmask (maskingKey data : Bytes) : Bytes :=
  data.mapIdx fun cnt b => b ^^^ maskingKey.getD (cnt % 4) 0

/-- `WebSocketFrame`: the encoded frame.
SOURCE: http/socks_ws_frame.hpp:18-51 -/
structure WebSocketFrame where
  data_ : WsBuffer
deriving DecidableEq, Repr

namespace WebSocketFrame

/-- The frame goes on with the message of the frame before it. -/
def OPCODE_CONTINUATION : OpCode := 0x00
/-- The frame begins a text. -/
def OPCODE_TEXT : OpCode := 0x01
/-- The frame begins a binary message. -/
def OPCODE_BINARY : OpCode := 0x02
/-- The frame closes the connection. -/
def OPCODE_CONNECTION_CLOSE : OpCode := 0x08
/-- The frame asks for a pong. -/
def OPCODE_CONNECTION_PING : OpCode := 0x09
/-- The frame answers a ping. -/
def OPCODE_CONNECTION_PONG : OpCode := 0x0A

/-- The constructor with all arguments; `payload` holds the `payloadLength` bytes.
SOURCE: http/socks_ws_frame.cpp:89-122 -/
def create (payload : Bytes) (fin : Bool) (opcode : OpCode) : Call WebSocketFrame :=
  if 15 < opcode then
    .exn (.invalid_argument "WebSocket opcode must not be bigger than 15.")
  else
    let b0 : Byte := (if fin then 0x80 else 0x00) ||| opcode
    if payload.length < 126 then
      .ret ⟨[b0, UInt8.ofNat payload.length] ++ payload⟩
    else if payload.length ≤ 65535 then
      .ret ⟨[b0, 126] ++ hton 2 payload.length ++ payload⟩
    else
      .exn (.invalid_argument "Payload length > UINT16_MAX currently not supported.")

/-- The constructor from a C string.
SOURCE: http/socks_ws_frame.cpp:84-87 -/
def createText (payload : Bytes) : Call WebSocketFrame :=
  create (payload.takeWhile (· != 0)) true OPCODE_TEXT

/-- SOURCE: http/socks_ws_frame.cpp:10-17 -/
def createConnectionClose (reasonCode : ℕ) : Call WebSocketFrame :=
  create (hton 2 reasonCode) true OPCODE_CONNECTION_CLOSE

/-- SOURCE: http/socks_ws_frame.cpp:19-22 -/
def createPong (buf : Bytes) : Call WebSocketFrame :=
  create buf true OPCODE_CONNECTION_PONG

/-- `data()` and `length()`, as the bytes they denote together. -/
def data (frame : WebSocketFrame) : Bytes := frame.data_

/-- SOURCE: http/socks_ws_frame.hpp:41 -/
def length (frame : WebSocketFrame) : ℕ := frame.data_.length

/-- SOURCE: http/socks_ws_frame.hpp:44 -/
def fin (frame : WebSocketFrame) : Call Bool := do
  let b0 ← (Mem.ofBytes frame.data_).read 0
  pure ((b0 &&& 0x80) == 0x80)

/-- SOURCE: http/socks_ws_frame.hpp:45 -/
def mask (frame : WebSocketFrame) : Call Bool := do
  let b1 ← (Mem.ofBytes frame.data_).read 1
  pure ((b1 &&& 0x80) == 0x80)

/-- SOURCE: http/socks_ws_frame.cpp:65-77 -/
def payloadLength (frame : WebSocketFrame) : Call ℕ := do
  let b1 ← (Mem.ofBytes frame.data_).read 1
  let frameLen := (b1 &&& 0x7f).toNat
  if frameLen = 127 then
    .exn (.runtime_error "Length > UINT16_MAX not supported yet.")
  else if frameLen = 126 then do
    let bytes ← (Mem.ofBytes frame.data_).readRange 2 2
    pure (ntoh bytes)
  else pure frameLen

/-- The bytes that `payload()` and `payloadLength()` denote together.
SOURCE: http/socks_ws_frame.hpp:42-43 -/
def payload (frame : WebSocketFrame) : Call Bytes := do
  let n ← frame.payloadLength
  (Mem.ofBytes frame.data_).readRange (if n < 126 then 2 else 4) n

/-- The length field and the offset behind it.
SOURCE: http/socks_ws_frame.cpp:31-44 -/
def decodeLength (mem : Mem) (b1 : Byte) : Call (ℕ × ℕ) :=
  let frameLen := (b1 &&& 0x7f).toNat
  if frameLen = 126 then do
    let bytes ← mem.readRange 2 2
    pure (ntoh bytes, 4)
  else if frameLen = 127 then do
    let bytes ← mem.readRange 2 8
    pure (ntoh bytes, 10)
  else pure (frameLen, 2)

/-- Copy the payload into the resized buffer. The unmasked payload is copied to the start of
the buffer, not behind the bytes that were there before.
SOURCE: http/socks_ws_frame.cpp:48-60 -/
def decodePayload (mem : Mem) (mask : Bool) (frameLen payloadOffset oldPayloadSize : ℕ)
    (payloadBuf : WsBuffer) : Call WsBuffer :=
  if mask then do
    let maskingKey ← mem.readRange payloadOffset 4
    let bytes ← mem.readRange (payloadOffset + 4) frameLen
    payloadBuf.store oldPayloadSize (unmask maskingKey bytes)
  else do
    let bytes ← mem.readRange payloadOffset frameLen
    payloadBuf.store 0 bytes

/-- `decode`: the new payload buffer, the opcode and the FIN bit.
SOURCE: http/socks_ws_frame.cpp:24-63 -/
def decode (pf : Platform) (mem : Mem) (len : ℕ) (payloadBuf : WsBuffer) :
    Call (WsBuffer × OpCode × Bool) :=
  if len < 2 then .exn (.invalid_argument "WebSocket header is missing.")
  else do
    let b0 ← mem.read 0
    let b1 ← mem.read 1
    let mask := (b1 &&& 0x80) == 0x80
    let opcode := b0 &&& 0x0f
    let (frameLen, payloadOffset) ← decodeLength mem b1
    let resized ← payloadBuf.resize pf ((payloadBuf.length + frameLen) % SIZE_MOD)
    let filled ← decodePayload mem mask frameLen payloadOffset payloadBuf.length resized
    pure (filled, opcode, (b0 &&& 0x80) == 0x80)

end WebSocketFrame

end CppSocks.Model
