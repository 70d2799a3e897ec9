import CppSocks.Analysis.FrameEncode
import CppSocks.Analysis.FrameRead

/-!
# Frames that are decoded again

What `WebSocketFrame::decode` makes of the frames of the grammar and of those that
the constructor builds. A masked frame gives its payload behind whatever was in the
buffer, up to the largest size of a vector (`decode_masked_total`). An unmasked frame
gives the same where nothing was in the buffer, and otherwise hardly ever
(`decode_paths_agree_iff`). A frame that the constructor has built is the shortest one
of the grammar, and all its readers agree about it (`frame_roundtrip`).
-/

set_option autoImplicit false

namespace CppSocks.Analysis

open CppSocks.Model CppSocks.Interface Foundation

/-! ## Masked frames -/

section Masked

variable {pf : Platform} {mem : Mem} {len : ℕ} {buf : WsBuffer} {f : Frame} {k : MaskingKey}

/-- A size that a vector cannot have, although `std::size_t` can count it. -/
theorem decode_masked_refused (hmem : mem.StartsWith f.encode) (hlen : f.encode.length ≤ len)
    (hk : f.key = some k) (htotal : buf.length + f.payload.length < SIZE_MOD)
    (hover : pf.maxSize < buf.length + f.payload.length) :
    WebSocketFrame.decode pf mem len buf = .exn .length_error := by
  rw [decode_header hmem hlen hk, Nat.mod_eq_of_lt htotal, WsBuffer.resize, if_pos hover,
    Res.exn_bind]

/-- A complete masked frame, with anything behind it and any bytes in the buffer: the payload is
appended as long as a vector can hold the result. -/
theorem decode_masked_total (pf : Platform) (hmem : mem.StartsWith f.encode)
    (hlen : f.encode.length ≤ len) (hk : f.key = some k)
    (htotal : buf.length + f.payload.length < SIZE_MOD) :
    WebSocketFrame.decode pf mem len buf =
      if buf.length + f.payload.length ≤ pf.maxSize then
        .ret (buf ++ f.payload, UInt8.ofNat f.opcode.val, f.fin)
      else .exn .length_error := by
  by_cases hfit : buf.length + f.payload.length ≤ pf.maxSize
  · rw [if_pos hfit]
    exact decode_masked hmem hlen hk hfit
  · rw [if_neg hfit]
    exact decode_masked_refused hmem hlen hk htotal (Nat.lt_of_not_le hfit)

end Masked

/-- A masked frame whose payload is `n` zero bytes. -/
def zeroFrame (n : ℕ) (h : n < 2 ^ 64) : Frame where
  fin := true
  rsv := 0
  opcode := 2
  key := some ⟨1, 2, 3, 4⟩
  form := .bits64
  payload := List.replicate n 0
  fits := by
    rw [List.length_replicate]
    exact h

/-- The sample payload has the given length. -/
theorem length_zeroFrame (n : ℕ) (h : n < 2 ^ 64) : (zeroFrame n h).payload.length = n :=
  List.length_replicate

/-- The frame with one zero byte, behind one byte that was there before. -/
theorem decode_masked_total_zero :
    WebSocketFrame.decode .plain (Mem.ofBytes (zeroFrame 1 (by decide)).encode) 15 [7] =
      if [(7 : Byte)].length + (zeroFrame 1 (by decide)).payload.length ≤ Platform.plain.maxSize then
        .ret ([7] ++ (zeroFrame 1 (by decide)).payload, 2, true)
      else .exn .length_error :=
  decode_masked_total .plain (Mem.ofBytes_startsWith _) (by decide) rfl (by decide)

/-- A platform on which a vector of bytes has at most `PTRDIFF_MAX` elements. -/
def ptrdiffPlatform : Platform :=
  { Platform.plain with
    maxSize := 2 ^ 63 - 1
    maxSize_lt := by decide
    le_maxSize := by decide }

/-- A payload of `2 ^ 63` bytes is not decoded there. -/
theorem huge_frame_refused :
    ∃ f : Frame, f.key.isSome ∧ ([] : WsBuffer).length + f.payload.length < SIZE_MOD ∧
      WebSocketFrame.decode ptrdiffPlatform (Mem.ofBytes f.encode) f.encode.length [] ≠
        .ret ([] ++ f.payload, UInt8.ofNat f.opcode.val, f.fin) := by
  have hn : 2 ^ 63 < 2 ^ 64 := by decide
  have hlen : (zeroFrame (2 ^ 63) hn).payload.length = 2 ^ 63 := length_zeroFrame _ hn
  have htotal : ([] : WsBuffer).length + (zeroFrame (2 ^ 63) hn).payload.length < SIZE_MOD := by
    rw [hlen]
    decide
  refine ⟨zeroFrame (2 ^ 63) hn, rfl, htotal, ?_⟩
  have hover : ptrdiffPlatform.maxSize <
      ([] : WsBuffer).length + (zeroFrame (2 ^ 63) hn).payload.length := by
    rw [hlen]
    decide
  rw [decode_masked_refused (Mem.ofBytes_startsWith _) le_rfl rfl htotal hover]
  simp

/-! ## The two ways to copy a payload -/

/-- The same frame without its key. -/
def withoutKey (f : Frame) : Frame := { f with key := none }

section Paths

variable {mem mem' : Mem} {len len' : ℕ} {buf : WsBuffer} {f : Frame} {k : MaskingKey}

/-- A masked frame and the same frame without its key give the same result if and only if the
result does not fit into a vector (then neither of them returns), nothing was in the buffer
before, or zeros are written over zeros. -/
theorem decode_paths_agree_iff (pf : Platform) (hmem : mem.StartsWith f.encode)
    (hlen : f.encode.length ≤ len) (hk : f.key = some k)
    (hmem' : mem'.StartsWith (withoutKey f).encode) (hlen' : (withoutKey f).encode.length ≤ len')
    (hbuf : buf.length ≤ pf.maxSize) :
    (∀ r, WebSocketFrame.decode pf mem len buf = .ret r ↔
        WebSocketFrame.decode pf mem' len' buf = .ret r) ↔
      pf.maxSize < buf.length + f.payload.length ∨ buf = [] ∨
        (∀ b ∈ f.payload, b = 0) ∧ ∀ b ∈ buf.take f.payload.length, b = 0 := by
  by_cases hfit : buf.length + f.payload.length ≤ pf.maxSize
  · have hplain : WebSocketFrame.decode pf mem' len' buf =
        .ret (overwritten 0 buf f.payload, UInt8.ofNat f.opcode.val, f.fin) :=
        decode_unmasked (f := withoutKey f) hmem' hlen' rfl hfit
    rw [decode_masked hmem hlen hk hfit, hplain, ← append_eq_overwritten_iff 0]
    constructor
    · intro hall
      have heq := (hall _).mp rfl
      rw [Res.ret.injEq, Prod.mk.injEq] at heq
      exact Or.inr heq.1.symm
    · rintro (hover | heq) r
      · omega
      · rw [heq]
  · have hover : pf.maxSize < buf.length + f.payload.length := Nat.lt_of_not_le hfit
    refine iff_of_true ?_ (Or.inl hover)
    have hmasked := decode_frame_overflow hmem hlen hbuf hover
    have hplain := decode_frame_overflow (f := withoutKey f) hmem' hlen' hbuf hover
    intro r
    refine iff_of_false ?_ ?_
    · intro hret
      rw [hret] at hmasked
      simp at hmasked
    · intro hret
      rw [hret] at hplain
      simp at hplain

end Paths

/-- A single byte takes the short length. -/
theorem byteFrame_fits (b : Byte) : ([b] : Bytes).length < LengthForm.bits7.capacity := by
  simp [LengthForm.capacity]

/-- One byte of payload. -/
def byteFrame (b : Byte) : Frame where
  fin := false
  rsv := 0
  opcode := 2
  key := some ⟨1, 2, 3, 4⟩
  form := .bits7
  payload := [b]
  fits := byteFrame_fits b

/-- The byte 9, behind the byte 7. -/
theorem decode_paths_agree_iff_byte :
    (∀ r, WebSocketFrame.decode .plain (Mem.ofBytes (byteFrame 9).encode) 7 [7] = .ret r ↔
        WebSocketFrame.decode .plain (Mem.ofBytes (withoutKey (byteFrame 9)).encode) 3 [7] =
          .ret r) ↔
      Platform.plain.maxSize < [(7 : Byte)].length + (byteFrame 9).payload.length ∨
        [(7 : Byte)] = [] ∨ (∀ b ∈ (byteFrame 9).payload, b = 0) ∧
          ∀ b ∈ [(7 : Byte)].take (byteFrame 9).payload.length, b = 0 :=
  decode_paths_agree_iff .plain (Mem.ofBytes_startsWith _) (by decide) rfl
    (Mem.ofBytes_startsWith _) (by decide) (by decide)

/-- A continuation with the byte 9 behind the byte 7: masked it is appended, unmasked it replaces
the 7. -/
theorem unmasked_fragment_overwrites :
    WebSocketFrame.decode .plain (Mem.ofBytes (byteFrame 9).encode) 7 [7] =
        .ret ([7, 9], 2, false) ∧
      WebSocketFrame.decode .plain (Mem.ofBytes (withoutKey (byteFrame 9)).encode) 3 [7] =
        .ret ([9, 0], 2, false) := by
  decide +kernel

/-! ## Frames that the constructor builds -/

/-- The frame that is built for given arguments, as its readers see it. -/
structure BuiltFrame (bytes : Bytes) (last : Bool) (code : OpCode) (frame : WebSocketFrame) :
    Prop where
  shortest : ∃ f : Frame, frame.data = f.encode ∧ f.Minimal ∧ f.payload = bytes ∧
    frame.length = 2 + f.form.width + bytes.length
  fin : frame.fin = .ret last
  mask : frame.mask = .ret false
  payloadLength : frame.payloadLength = .ret bytes.length
  payload : frame.payload = .ret bytes
  decode : ∀ (pf : Platform) (mem : Mem), mem.StartsWith frame.data →
    WebSocketFrame.decode pf mem frame.length [] = .ret (bytes, code, last)

section Build

variable (fin : Bool) (opcode : Fin 16) (payload : Bytes) (h : payload.length ≤ 65535)

/-- An unmasked frame is its two bytes, its extended length and its payload. -/
theorem length_plainFrame :
    (plainFrame fin opcode payload h).encode.length =
      2 + (plainFrame fin opcode payload h).form.width + payload.length := by
  have hbody : (plainFrame fin opcode payload h).body = payload := rfl
  rw [encode_eq_append, List.length_append, List.length_append, Frame.length_extLength, hbody]
  rw [← Nat.add_assoc]
  rfl

/-- The decoder reads back what the constructor was given. -/
theorem decode_plainFrame (pf : Platform) {mem : Mem}
    (hmem : mem.StartsWith (plainFrame fin opcode payload h).encode) :
    WebSocketFrame.decode pf mem (plainFrame fin opcode payload h).encode.length [] =
      .ret (payload, UInt8.ofNat opcode.val, fin) := by
  have hfit : ([] : WsBuffer).length + (plainFrame fin opcode payload h).payload.length ≤
      pf.maxSize := by
    have hmax := pf.le_maxSize
    have hpay : (plainFrame fin opcode payload h).payload = payload := rfl
    rw [hpay, List.length_nil]
    omega
  rw [decode_unmasked hmem le_rfl rfl hfit, overwritten_nil]
  rfl

/-- The frame that the constructor makes is the plain frame on the wire. -/
theorem built_plainFrame :
    BuiltFrame payload fin (UInt8.ofNat opcode.val) ⟨(plainFrame fin opcode payload h).encode⟩ := by
  have hmem : (Mem.ofBytes (plainFrame fin opcode payload h).encode).StartsWith
      (plainFrame fin opcode payload h).encode := Mem.ofBytes_startsWith _
  refine ⟨⟨plainFrame fin opcode payload h, rfl, plainFrame_minimal fin opcode payload h, rfl,
    length_plainFrame fin opcode payload h⟩, ?_, ?_, ?_, payload_plain fin opcode payload h, ?_⟩
  · unfold WebSocketFrame.fin
    rw [read_byte0 hmem, Res.ret_bind, byte0_fin, Res.pure_eq]
    rfl
  · unfold WebSocketFrame.mask
    rw [read_byte1 hmem, Res.ret_bind, byte1_mask, Res.pure_eq]
    rfl
  · exact payloadLength_encode (form_plainFrame fin opcode payload h)
  · intro pf mem hstart
    exact decode_plainFrame fin opcode payload h pf hstart

end Build

/-- Every frame that can be built is the shortest one for its arguments, and reads back as these;
for every longer payload and larger opcode the constructor throws. -/
theorem frame_roundtrip :
    (∀ (payload : Bytes) (fin : Bool) (opcode : OpCode), payload.length ≤ 65535 → opcode ≤ 15 →
      ∃ frame, WebSocketFrame.create payload fin opcode = .ret frame ∧
        BuiltFrame payload fin opcode frame) ∧
    ∀ (payload : Bytes) (fin : Bool) (opcode : OpCode), 15 < opcode ∨ 65535 < payload.length →
      ∃ what, WebSocketFrame.create payload fin opcode = .exn (.invalid_argument what) := by
  constructor
  · intro payload fin opcode h hop
    have hlt : opcode.toNat < 16 := by
      have := UInt8.le_iff_toNat_le.mp hop
      exact Nat.lt_succ_of_le this
    have hcode : opcode = UInt8.ofNat (⟨opcode.toNat, hlt⟩ : Fin 16).val :=
      (UInt8.ofNat_toNat).symm
    rw [hcode]
    exact ⟨_, create_plain fin ⟨opcode.toNat, hlt⟩ payload h,
      built_plainFrame fin ⟨opcode.toNat, hlt⟩ payload h⟩
  · intro payload fin opcode h
    exact create_refuses h fin

/-- The binary message "Hi", and one with an opcode that is too large. -/
theorem frame_roundtrip_hi :
    (∃ frame, WebSocketFrame.create [0x48, 0x69] true 2 = .ret frame ∧
      BuiltFrame [0x48, 0x69] true 2 frame) ∧
    ∃ what, WebSocketFrame.create [0x48, 0x69] true 16 = .exn (.invalid_argument what) :=
  ⟨frame_roundtrip.1 [0x48, 0x69] true 2 (by decide) (by decide),
    frame_roundtrip.2 [0x48, 0x69] true 16 (Or.inl (by decide))⟩

end CppSocks.Analysis
