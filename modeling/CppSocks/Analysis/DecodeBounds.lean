import CppSocks.Analysis.FrameRead

/-!
# Decoding within the received bytes

`WebSocketFrame::decode` looks at `len` in its first test only. On the memory that
consists of the received bytes and nothing else, it makes no undefined access, and
it rejects every frame that has not been received as a whole, if and only if the
announced frame has been received or the bytes are too few for a header
(`decode_within_iff`). The size of that frame is the one that the bytes announce by the
grammar (`size_announced`, `exists_received_iff`).
-/

set_option autoImplicit false

namespace CppSocks.Analysis

open CppSocks.Model CppSocks.Interface Foundation

/-- `decode` with the buffer that is passed by reference. -/
def decodeInto (pf : Platform) (mem : Mem) (len : ℕ) : Act Exc WsBuffer (OpCode × Bool) :=
  fun payloadBuf =>
    match WebSocketFrame.decode pf mem len payloadBuf with
    | .ret (filled, opcode, fin) => (.ret (opcode, fin), filled)
    | .exn e => (.exn e, payloadBuf)
    | .ub => (.ub, payloadBuf)

/-- The bytes begin with a header, and hold all that it announces. -/
def Received (buf : Bytes) (h : Header) : Prop :=
  readHeader (Mem.ofBytes buf) = .ret h ∧ h.size ≤ buf.length

/-! ## The announced size -/

section Announced

variable {b0 b1 : Byte} {pre rest : Bytes} {h : Header}

/-- Of an array, as many bytes can be read as there are. -/
theorem readRange_ofBytes (pre rest : Bytes) (n : ℕ) :
    (Mem.ofBytes (pre ++ rest)).readRange pre.length n =
      if n ≤ rest.length then .ret (rest.take n) else .ub := by
  by_cases hn : n ≤ rest.length
  · have hstart : (Mem.ofBytes (pre ++ rest)).StartsWith (pre ++ rest.take n ++ rest.drop n) := by
      rw [List.append_assoc, List.take_append_drop]
      exact Mem.ofBytes_startsWith _
    have hread := hstart.readRange
    rw [List.length_take, Nat.min_eq_left hn] at hread
    rw [if_pos hn, hread]
  · rw [if_neg hn]
    refine readRange_of_not_readable fun hr => ?_
    have hlast := hr rest.length (Nat.lt_of_not_le hn)
    rw [Mem.ofBytes, List.getElem?_eq_none (by rw [List.length_append])] at hlast
    cases hlast

/-- The longer forms of the length field. -/
theorem lengthField_ofBytes (n payloadOffset : ℕ) :
    ((do
      let bytes ← (Mem.ofBytes (b0 :: b1 :: rest)).readRange 2 n
      pure (ntoh bytes, payloadOffset)) : Call (ℕ × ℕ)) =
      if n ≤ rest.length then .ret (BigEndian.value (rest.take n), payloadOffset) else .ub := by
  have hread : (Mem.ofBytes (b0 :: b1 :: rest)).readRange 2 n =
      if n ≤ rest.length then .ret (rest.take n) else .ub := readRange_ofBytes [b0, b1] rest n
  rw [hread]
  by_cases hn : n ≤ rest.length
  · rw [if_pos hn, if_pos hn, Res.ret_bind, ntoh_eq_value]
    rfl
  · rw [if_neg hn, if_neg hn, Res.ub_bind]

/-- The length field of an array that begins with two bytes. -/
theorem decodeLength_ofBytes :
    WebSocketFrame.decodeLength (Mem.ofBytes (b0 :: b1 :: rest)) b1 =
      if (LengthForm.announced b1).width ≤ rest.length then
        .ret (announcedLength b1 rest, 2 + (LengthForm.announced b1).width)
      else .ub := by
  rw [WebSocketFrame.decodeLength, toNat_and_7f]
  by_cases h126 : b1.toNat % 128 = 126
  · have hform : LengthForm.announced b1 = .bits16 := if_pos h126
    rw [if_pos h126, announcedLength, hform]
    exact lengthField_ofBytes 2 4
  · rw [if_neg h126]
    by_cases h127 : b1.toNat % 128 = 127
    · have hform : LengthForm.announced b1 = .bits64 := by
        rw [LengthForm.announced, if_neg h126, if_pos h127]
      rw [if_pos h127, announcedLength, hform]
      exact lengthField_ofBytes 8 10
    · have hform : LengthForm.announced b1 = .bits7 := by
        rw [LengthForm.announced, if_neg h126, if_neg h127]
      rw [if_neg h127, announcedLength, hform]
      exact (if_pos (Nat.zero_le _)).symm

/-- The header can be read if its length field is there. -/
theorem readHeader_ofBytes :
    readHeader (Mem.ofBytes (b0 :: b1 :: rest)) =
      if (LengthForm.announced b1).width ≤ rest.length then
        .ret ⟨decide (128 ≤ b0.toNat), b0 &&& 0x0f, decide (128 ≤ b1.toNat), announcedLength b1 rest,
          2 + (LengthForm.announced b1).width⟩
      else .ub := by
  have h0 : (Mem.ofBytes (b0 :: b1 :: rest)).read 0 = .ret b0 := rfl
  have h1 : (Mem.ofBytes (b0 :: b1 :: rest)).read 1 = .ret b1 := rfl
  rw [readHeader, h0, Res.ret_bind, h1, Res.ret_bind, decodeLength_ofBytes, and_80_beq b0,
    and_80_beq b1]
  by_cases hle : (LengthForm.announced b1).width ≤ rest.length
  · rw [if_pos hle, if_pos hle]
    rfl
  · rw [if_neg hle, if_neg hle]
    rfl

/-- The size that the decoder works with is the announced one. -/
theorem size_announced (hh : readHeader (Mem.ofBytes (b0 :: b1 :: rest)) = .ret h) :
    h.size = announcedSize b1 rest := by
  rw [readHeader_ofBytes] at hh
  by_cases hle : (LengthForm.announced b1).width ≤ rest.length
  · rw [if_pos hle] at hh
    obtain rfl := Res.ret.inj hh
    simp only [Header.size, Header.rest, announcedSize, decide_eq_true_eq]
    omega
  · rw [if_neg hle] at hh
    cases hh

/-- The whole frame has been received if and only if there are as many bytes as are announced. -/
theorem exists_received_iff :
    (∃ h, Received (b0 :: b1 :: rest) h) ↔ announcedSize b1 rest ≤ (b0 :: b1 :: rest).length := by
  constructor
  · rintro ⟨h, hread, hle⟩
    rwa [size_announced hread] at hle
  · intro hle
    have hfield : (LengthForm.announced b1).width ≤ rest.length := by
      rw [announcedSize, List.length_cons, List.length_cons] at hle
      omega
    have hread := @readHeader_ofBytes b0 b1 rest
    rw [if_pos hfield] at hread
    refine ⟨_, hread, ?_⟩
    rw [size_announced hread]
    exact hle

end Announced

/-! ## Staying within the received bytes -/

/-- `decode` accesses the received bytes only; it rejects what has not been received as a whole, and
leaves the payload buffer alone then; and the new size of the payload buffer does not wrap around. -/
structure DecodesWithin (pf : Platform) (buf : Bytes) (payloadBuf : WsBuffer) : Prop where
  within : (decodeInto pf (Mem.ofBytes buf) buf.length payloadBuf).1 ≠ .ub
  rejects : (∀ h, ¬ Received buf h) → ∃ what,
    decodeInto pf (Mem.ofBytes buf) buf.length payloadBuf =
      (.exn (.invalid_argument what), payloadBuf)
  fits : 2 ≤ buf.length → ∀ h, readHeader (Mem.ofBytes buf) = .ret h →
    payloadBuf.length + h.frameLen < SIZE_MOD

section

variable {pf : Platform} {mem : Mem} {len : ℕ} {buf : Bytes} {payloadBuf : WsBuffer} {h : Header}

/-- `decodeInto` is undefined exactly where `decode` is. -/
theorem decodeInto_ub_iff :
    (decodeInto pf mem len payloadBuf).1 = .ub ↔
      WebSocketFrame.decode pf mem len payloadBuf = .ub := by
  unfold decodeInto
  rcases WebSocketFrame.decode pf mem len payloadBuf with ⟨filled, opcode, fin⟩ | e | _ <;> simp

/-- `decodeInto` throws exactly what `decode` throws. -/
theorem decodeInto_exn_iff {e : Exc} :
    (decodeInto pf mem len payloadBuf).1 = .exn e ↔
      WebSocketFrame.decode pf mem len payloadBuf = .exn e := by
  unfold decodeInto
  rcases WebSocketFrame.decode pf mem len payloadBuf with ⟨filled, opcode, fin⟩ | e | _ <;> simp

/-- In a memory that holds a buffer only, a range inside the buffer is readable. -/
theorem readable_ofBytes {off n : ℕ} (hle : off + n ≤ buf.length) :
    Readable (Mem.ofBytes buf) off n := by
  intro i hi
  rw [Mem.ofBytes, List.getElem?_eq_getElem (by omega)]
  rfl

/-- Copying the payload throws nothing. -/
theorem decodePayload_exn {mask : Bool} {frameLen payloadOffset old : ℕ} {e : Exc} :
    WebSocketFrame.decodePayload mem mask frameLen payloadOffset old payloadBuf ≠ .exn e := by
  have hread : ∀ {off n : ℕ} {k : Bytes → Call WsBuffer}, (∀ bytes, k bytes ≠ .exn e) →
      (mem.readRange off n >>= k) ≠ .exn e := by
    intro off n k hk
    by_cases hr : Readable mem off n
    · rw [readRange_of_readable hr]
      exact hk _
    · rw [readRange_of_not_readable hr]
      simp
  have hstore : ∀ (pos : ℕ) (bytes : Bytes), WsBuffer.store payloadBuf pos bytes ≠ .exn e := by
    intro pos bytes
    rw [WsBuffer.store]
    split <;> simp
  unfold WebSocketFrame.decodePayload
  split
  · exact hread fun key => hread fun bytes => hstore _ _
  · exact hread fun bytes => hstore _ _

/-- Behind the first test nothing but `resize` throws. -/
theorem decode_exn (hlen : 2 ≤ len) {e : Exc}
    (he : WebSocketFrame.decode pf mem len payloadBuf = .exn e) : e = .length_error := by
  rw [decode_eq hlen] at he
  obtain hub | ⟨h, hret⟩ := readHeader_cases mem
  · rw [hub] at he
    cases he
  · rw [hret, Res.ret_bind, WsBuffer.resize] at he
    split at he
    · exact (Res.exn.inj he).symm
    · rw [Res.ret_bind] at he
      cases hp : WebSocketFrame.decodePayload mem h.mask h.frameLen h.payloadOffset
        payloadBuf.length (payloadBuf.take ((payloadBuf.length + h.frameLen) % SIZE_MOD) ++
          List.replicate ((payloadBuf.length + h.frameLen) % SIZE_MOD - payloadBuf.length) 0) with
      | ret filled =>
        rw [hp] at he
        cases he
      | exn e' => exact absurd hp decodePayload_exn
      | ub =>
        rw [hp] at he
        cases he

/-- A frame that has been received as a whole is decoded, unless the buffer cannot be allocated. -/
theorem decode_received (hlen : 2 ≤ buf.length) (hr : Received buf h)
    (hfit : payloadBuf.length + h.frameLen < SIZE_MOD) :
    WebSocketFrame.decode pf (Mem.ofBytes buf) buf.length payloadBuf ≠ .ub := by
  by_cases hmax : payloadBuf.length + h.frameLen ≤ pf.maxSize
  · rw [decode_ret hlen hr.1 (readable_ofBytes hr.2) hmax]
    simp
  · rw [decode_eq hlen, hr.1, Res.ret_bind, Nat.mod_eq_of_lt hfit, WsBuffer.resize,
      if_pos (by omega)]
    simp

/-- With fewer than two bytes `decode` throws and leaves the payload buffer alone. -/
theorem decodeInto_too_short (hlen : len < 2) :
    decodeInto pf mem len payloadBuf =
      (.exn (.invalid_argument "WebSocket header is missing."), payloadBuf) := by
  rw [decodeInto, WebSocketFrame.decode, if_pos hlen]

end

/-- `decode` stays within the received bytes and rejects what is incomplete if and only if there is
no header, or the whole frame has been received and the new size does not wrap around. -/
theorem decode_within_iff (pf : Platform) (buf : Bytes) (payloadBuf : WsBuffer) :
    DecodesWithin pf buf payloadBuf ↔
      buf.length < 2 ∨ ∃ h, Received buf h ∧ payloadBuf.length + h.frameLen < SIZE_MOD := by
  by_cases hlen : buf.length < 2
  · refine iff_of_true ⟨?_, fun _ => ⟨_, decodeInto_too_short hlen⟩, fun hle => ?_⟩ (Or.inl hlen)
    · rw [decodeInto_too_short hlen]
      simp
    · exact absurd hlen (by omega)
  · have hle : 2 ≤ buf.length := by omega
    constructor
    · intro hwithin
      right
      by_contra hno
      have hreject : ∀ h, ¬ Received buf h := fun h hr => hno ⟨h, hr, hwithin.fits hle h hr.1⟩
      obtain ⟨what, hthrows⟩ := hwithin.rejects hreject
      have hdecode := decodeInto_exn_iff.mp (congrArg Prod.fst hthrows)
      cases decode_exn hle hdecode
    · rintro (hlt | ⟨h, hr, hfit⟩)
      · exact absurd hlt hlen
      · refine ⟨fun hub => ?_, fun hno => absurd hr (hno h), fun _ h' hh' => ?_⟩
        · exact decode_received hle hr hfit (decodeInto_ub_iff.mp hub)
        · obtain rfl : h = h' := Res.ret.inj (hr.1.symm.trans hh')
          exact hfit

/-- Three bytes of a frame that announces five bytes of payload: the payload is read beyond the end of
what has been received. -/
theorem truncated_not_within : ¬ DecodesWithin .plain [0x82, 0x05, 0x41] [] := by
  intro hwithin
  exact hwithin.within rfl

end CppSocks.Analysis
