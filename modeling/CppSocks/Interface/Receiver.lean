import CppSocks.Interface.Frame
import CppSocks.Model.HttpStates

/-!
# A WebSocket receiver over frames

What one complete frame does to the reassembly state and to the connection, in
terms of the frame's fields: no buffer, no chunk and no length field occurs here.
`acceptAll` is a receiver that is handed the frames of a stream one by one, each
once and in order, and that stops when the connection is closed.

Fed with `frameCode.receive`, which puts the pieces of a stream together, this is
the receiver that the protocol asks for: how the stream was cut cannot be seen.
-/

set_option autoImplicit false

namespace CppSocks.Interface

open CppSocks.Model Foundation

/-- Append a payload to the message that is being put together. -/
def appendPayload (pf : Platform) (inBuf : WsBuffer) (payload : Bytes) : Call WsBuffer := do
  let resized ← inBuf.resize pf ((inBuf.length + payload.length) % SIZE_MOD)
  resized.store inBuf.length payload

section

variable {σ : Type} (pf : Platform) (fsm conn : Port σ) (handler : WsHandler)

/-- The frame's payload is appended; the first frame of a message sets its opcode; the last one
has the message acted on. -/
def frameBody (f : Frame) : Action (HttpWsState × σ) Unit := do
  let inBuf ← Act.gets fun s => s.1.inBuf
  let filled ← Act.lift (appendPayload pf inBuf f.payload)
  HttpWsState.modifySelf fun s => { s with inBuf := filled }
  if inBuf.length == 0 then
    HttpWsState.modifySelf fun s => { s with opcode := UInt8.ofNat f.opcode.val }
  else pure ()
  if !f.fin then pure ()
  else do
    let s ← Act.gets Prod.fst
    HttpWsState.dispatch pf fsm conn handler s
    HttpWsState.modifySelf fun s => { s with inBuf := [] }

/-- One complete frame. -/
def acceptFrame (f : Frame) : Action (HttpWsState × σ) Unit :=
  Act.tryCatch (frameBody pf fsm conn handler f) fun e =>
    if e.isInvalidArgument then pure () else Act.throw e

end

/-- The frames of a stream, until the connection is closed. -/
def acceptAll (pf : Platform) (handler : WsHandler) :
    List Frame → Action (HttpWsState × Conn) Unit
  | [] => pure ()
  | f :: fs => do
    let closed ← Act.gets fun s => s.2.closed
    if closed then pure ()
    else do
      acceptFrame pf .self .self handler f
      acceptAll pf handler fs

end CppSocks.Interface
