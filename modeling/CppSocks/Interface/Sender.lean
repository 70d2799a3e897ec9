import CppSocks.Interface.Frame
import CppSocks.Model.Connection

/-!
# A WebSocket sender over frames

What a server puts on the wire: each message in one unmasked final frame in the
shortest length form, and one close frame, behind which nothing follows. Payloads
of more than 65535 bytes are refused.
-/

set_option autoImplicit false

namespace CppSocks.Interface

open CppSocks.Model Foundation

/-- The shortest form for a payload of at most 65535 bytes. -/
def shortForm (n : ℕ) : LengthForm := if n < 126 then .bits7 else .bits16

/-- The form that is chosen can hold the length. -/
theorem lt_capacity_shortForm {n : ℕ} (h : n ≤ 65535) : n < (shortForm n).capacity := by
  unfold shortForm
  split
  · assumption
  · exact Nat.lt_succ_of_le h

/-- The unmasked frame with a given opcode and payload, in the shortest form. -/
def plainFrame (fin : Bool) (opcode : Fin 16) (payload : Bytes) (h : payload.length ≤ 65535) :
    Frame where
  fin := fin
  rsv := 0
  opcode := opcode
  key := none
  form := shortForm payload.length
  payload := payload
  fits := lt_capacity_shortForm h

/-- The frame takes the shortest form of its length. -/
theorem plainFrame_minimal (fin : Bool) (opcode : Fin 16) (payload : Bytes)
    (h : payload.length ≤ 65535) : (plainFrame fin opcode payload h).Minimal := by
  unfold Frame.Minimal plainFrame shortForm
  by_cases hlt : payload.length < 126
  · simp only [if_pos hlt]
  · simp only [if_neg hlt]
    omega

/-- The unmasked final frame with a given opcode and payload. -/
def serverFrame (opcode : Fin 16) (payload : Bytes) (h : payload.length ≤ 65535) : Frame where
  fin := true
  rsv := 0
  opcode := opcode
  key := none
  form := shortForm payload.length
  payload := payload
  fits := lt_capacity_shortForm h

/-- A frame of the server is final and has no key. -/
theorem serverFrame_eq (opcode : Fin 16) (payload : Bytes) (h : payload.length ≤ 65535) :
    serverFrame opcode payload h = plainFrame true opcode payload h := rfl

/-- The frames of the server are written in the shortest form, as the protocol demands. -/
theorem serverFrame_minimal (opcode : Fin 16) (payload : Bytes) (h : payload.length ≤ 65535) :
    (serverFrame opcode payload h).Minimal :=
  plainFrame_minimal true opcode payload h

end CppSocks.Interface

namespace CppSocks.Model.Operation

open CppSocks.Interface

/-- The opcode and the payload of the message that the operation sends. -/
def message : Operation → Fin 16 × Bytes
  | send buf => (2, buf)
  | sendText buf => (1, buf.takeWhile (· != 0))
  | close => (8, [0, 0])

/-- The frame that the operation puts on the wire, if its payload is not too long. -/
def frame (op : Operation) : Option Frame :=
  if h : op.message.2.length ≤ 65535 then some (serverFrame op.message.1 op.message.2 h) else none

end CppSocks.Model.Operation

namespace CppSocks.Interface

open CppSocks.Model

/-- The frames of a sequence of operations: those up to the first close. -/
def sentFrames : List Operation → List Frame
  | [] => []
  | .close :: _ => Operation.close.frame.toList
  | op :: ops => op.frame.toList ++ sentFrames ops

end CppSocks.Interface
