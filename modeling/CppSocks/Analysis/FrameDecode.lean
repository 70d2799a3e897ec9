import CppSocks.Foundation.Overwrite
import CppSocks.Interface.Frame
import CppSocks.Model.WebSocketFrame

/-!
# Decoding a complete frame

`WebSocketFrame::decode` on a buffer that begins with a complete frame, whatever
follows the frame. It returns the opcode and the FIN bit; the payload of a masked
frame is appended to what was there before (`decode_masked`), that of an unmasked
one is written over it (`decode_unmasked`).
-/

set_option autoImplicit false

namespace CppSocks.Analysis

open CppSocks.Model CppSocks.Interface Foundation

/-! ## Bits of the header -/

/-- The seven bits of the length field. -/
theorem toNat_and_7f (b : Byte) : (b &&& 0x7f).toNat = b.toNat % 128 := by
  rw [UInt8.toNat_and]
  exact Nat.and_two_pow_sub_one_eq_mod b.toNat 7

/-- The four bits of the opcode. -/
theorem toNat_and_0f (b : Byte) : (b &&& 0x0f).toNat = b.toNat % 16 := by
  rw [UInt8.toNat_and]
  exact Nat.and_two_pow_sub_one_eq_mod b.toNat 4

/-- The test for the top bit. -/
theorem and_80_beq (b : Byte) : ((b &&& 0x80) == 0x80) = decide (128 ≤ b.toNat) := by
  have hall : ∀ n : Fin 256, ((UInt8.ofNat n.val &&& 0x80) == 0x80) = decide (128 ≤ n.val) := by
    decide +kernel
  have hb := hall ⟨b.toNat, b.toNat_lt⟩
  simpa using hb

section Header

variable (f : Frame)

/-- The FIN bit that the decoder finds is the one that was written. -/
theorem byte0_fin : ((f.byte0 &&& 0x80) == 0x80) = f.fin := by
  have hrsv := f.rsv.isLt
  have hop := f.opcode.isLt
  rw [and_80_beq, f.toNat_byte0]
  cases f.fin <;> (simp; omega)

/-- The opcode that the decoder finds is the one that was written, whatever the reserved bits are.
-/
theorem byte0_opcode : f.byte0 &&& 0x0f = UInt8.ofNat f.opcode.val := by
  have hop := f.opcode.isLt
  apply UInt8.toNat_inj.mp
  rw [toNat_and_0f, f.toNat_byte0, UInt8.toNat_ofNat']
  split <;> omega

/-- The mask bit is set if and only if the frame has a key. -/
theorem byte1_mask : ((f.byte1 &&& 0x80) == 0x80) = f.key.isSome := by
  have hlen := f.len7_lt
  rw [and_80_beq, f.toNat_byte1]
  cases f.key.isSome with
  | false => simpa using hlen
  | true => simp

/-- The seven bits behind the mask bit hold the length, or say where it stands. -/
theorem byte1_len7 : (f.byte1 &&& 0x7f).toNat = f.len7 := by
  have hlen := f.len7_lt
  rw [toNat_and_7f, f.toNat_byte1]
  split
  all_goals omega

/-- The bytes of the length field give the length of the payload. -/
theorem ntoh_extLength (h : f.form ≠ .bits7) : ntoh f.extLength = f.payload.length := by
  have hfits := f.fits
  rw [ntoh_eq_value, Frame.extLength]
  cases hform : f.form with
  | bits7 => exact absurd hform h
  | bits16 =>
    rw [hform] at hfits
    exact BigEndian.value_digits_of_lt (by simpa [LengthForm.capacity, LengthForm.width] using hfits)
  | bits64 =>
    rw [hform] at hfits
    exact BigEndian.value_digits_of_lt (by simpa [LengthForm.capacity, LengthForm.width] using hfits)

end Header

/-! ## Reading the parts of a frame -/

section Parts

variable {mem : Mem} {f : Frame}

/-- The first byte of a memory that begins with a frame. -/
theorem read_byte0 (h : mem.StartsWith f.encode) : mem.read 0 = .ret f.byte0 := by
  have h0 := h 0 (by simp [Frame.encode])
  exact Mem.read_of_some (by simpa [Frame.encode] using h0)

/-- The second byte of a memory that begins with a frame. -/
theorem read_byte1 (h : mem.StartsWith f.encode) : mem.read 1 = .ret f.byte1 := by
  have h1 := h 1 (by simp [Frame.encode])
  exact Mem.read_of_some (by simpa [Frame.encode] using h1)

/-- The two first bytes, in the shape that splits of a frame are written in. -/
theorem encode_eq_append : f.encode = [f.byte0, f.byte1] ++ (f.extLength ++ f.body) := rfl

/-- From a frame of the grammar the decoder gets the length of the payload and the offset behind the
length field, in each of the three forms. -/
theorem decodeLength_frame (h : mem.StartsWith f.encode) :
    WebSocketFrame.decodeLength mem f.byte1 = .ret (f.payload.length, 2 + f.form.width) := by
  have hfits := f.fits
  have hext : mem.readRange 2 f.form.width = .ret f.extLength := by
    have hsplit : mem.StartsWith ([f.byte0, f.byte1] ++ f.extLength ++ f.body) := by
      rwa [List.append_assoc, ← encode_eq_append]
    simpa using hsplit.readRange
  unfold WebSocketFrame.decodeLength
  rw [byte1_len7]
  cases hform : f.form with
  | bits7 =>
    rw [hform] at hfits
    have hlt : f.payload.length < 126 := hfits
    have hlen : f.len7 = f.payload.length := by simp only [Frame.len7, hform]
    rw [hlen]
    simp only [show ¬ f.payload.length = 126 by omega, show ¬ f.payload.length = 127 by omega,
      if_false]
    rfl
  | bits16 =>
    rw [hform, show LengthForm.bits16.width = 2 from rfl] at hext
    have hlen : f.len7 = 126 := by simp only [Frame.len7, hform]
    rw [hlen, if_pos rfl, hext, Res.ret_bind, ntoh_extLength f (by simp [hform])]
    rfl
  | bits64 =>
    rw [hform, show LengthForm.bits64.width = 8 from rfl] at hext
    have hlen : f.len7 = 127 := by simp only [Frame.len7, hform]
    rw [hlen, if_neg (by omega), if_pos rfl, hext, Res.ret_bind,
      ntoh_extLength f (by simp [hform])]
    rfl

/-- The key and the masked payload are where the decoder looks for them. -/
theorem read_masked {k : MaskingKey} (h : mem.StartsWith f.encode) (hk : f.key = some k) :
    mem.readRange (2 + f.form.width) 4 = .ret k.bytes ∧
      mem.readRange (2 + f.form.width + 4) f.payload.length = .ret (applyMask k f.payload) := by
  have hbody : f.body = k.bytes ++ applyMask k f.payload := by simp only [Frame.body, hk]
  have hpre : ([f.byte0, f.byte1] ++ f.extLength).length = 2 + f.form.width := by
    simp; omega
  constructor
  · have hsplit : mem.StartsWith
        (([f.byte0, f.byte1] ++ f.extLength) ++ k.bytes ++ applyMask k f.payload) := by
      rwa [List.append_assoc, ← hbody, List.append_assoc, ← encode_eq_append]
    have := hsplit.readRange
    rwa [hpre] at this
  · have hsplit : mem.StartsWith
        (([f.byte0, f.byte1] ++ f.extLength ++ k.bytes) ++ applyMask k f.payload ++ []) := by
      rw [List.append_nil, List.append_assoc, ← hbody, List.append_assoc]
      exact h
    have := hsplit.readRange
    rwa [List.length_append, hpre, length_applyMask, show k.bytes.length = 4 from rfl] at this

/-- The payload of a frame without a key is where the decoder looks for it. -/
theorem read_unmasked (h : mem.StartsWith f.encode) (hk : f.key = none) :
    mem.readRange (2 + f.form.width) f.payload.length = .ret f.payload := by
  have hbody : f.body = f.payload := by simp only [Frame.body, hk]
  have hpre : ([f.byte0, f.byte1] ++ f.extLength).length = 2 + f.form.width := by
    simp; omega
  have hsplit : mem.StartsWith (([f.byte0, f.byte1] ++ f.extLength) ++ f.payload ++ []) := by
    rw [List.append_nil, ← hbody, List.append_assoc, ← encode_eq_append]
    exact h
  have := hsplit.readRange
  rwa [hpre] at this

end Parts

/-- The decoder's loop undoes the mask. -/
theorem unmask_eq_applyMask (k : MaskingKey) (data : Bytes) :
    unmask k.bytes data = applyMask k data := rfl

/-! ## The vector operations -/

/-- A vector that grows keeps its elements and gets zeros behind them. -/
theorem resize_grow {pf : Platform} {buf : WsBuffer} {n : ℕ} (h : buf.length + n ≤ pf.maxSize) :
    buf.resize pf (buf.length + n) = .ret (buf ++ List.replicate n 0) := by
  rw [WsBuffer.resize, if_neg (by omega), List.take_of_length_le (by omega),
    Nat.add_sub_cancel_left]

/-- Copying to the beginning of a grown buffer overwrites what was there. -/
theorem store_front (buf bs : Bytes) :
    WsBuffer.store (buf ++ List.replicate bs.length 0) 0 bs = .ret (overwritten 0 buf bs) := by
  rw [WsBuffer.store, if_pos (by simp), List.take_zero, List.nil_append, Nat.zero_add, overwritten]

/-- Filling the part by which a buffer was grown appends to it. -/
theorem store_grown (buf bs : Bytes) :
    WsBuffer.store (buf ++ List.replicate bs.length 0) buf.length bs = .ret (buf ++ bs) := by
  rw [WsBuffer.store, if_pos (by simp), List.take_left, List.drop_of_length_le (by simp),
    List.append_nil]

/-! ## Decoding -/

section Decode

variable {pf : Platform} {mem : Mem} {len : ℕ} {buf : WsBuffer} {f : Frame} {k : MaskingKey}

/-- A frame has at least its two bytes of header, so the first test of `decode` lets it pass. -/
theorem two_le_length_encode (f : Frame) : 2 ≤ f.encode.length := by
  simp [Frame.encode]

/-- What is left of `decode` once the header of a frame has been read. -/
theorem decode_read (h : mem.StartsWith f.encode) (hlen : f.encode.length ≤ len) :
    WebSocketFrame.decode pf mem len buf = (do
      let resized ← buf.resize pf ((buf.length + f.payload.length) % SIZE_MOD)
      let filled ← WebSocketFrame.decodePayload mem f.key.isSome f.payload.length (2 + f.form.width)
        buf.length resized
      pure (filled, UInt8.ofNat f.opcode.val, f.fin)) := by
  have htwo : ¬ len < 2 := by
    have := two_le_length_encode f
    omega
  unfold WebSocketFrame.decode
  rw [if_neg htwo, read_byte0 h, Res.ret_bind, read_byte1 h, Res.ret_bind, decodeLength_frame h,
    Res.ret_bind, byte1_mask, byte0_opcode, byte0_fin]

/-- The payload of a masked frame goes behind what was there before. -/
theorem decode_header (h : mem.StartsWith f.encode) (hlen : f.encode.length ≤ len)
    (hk : f.key = some k) :
    WebSocketFrame.decode pf mem len buf = (do
      let resized ← buf.resize pf ((buf.length + f.payload.length) % SIZE_MOD)
      let filled ← resized.store buf.length f.payload
      pure (filled, UInt8.ofNat f.opcode.val, f.fin)) := by
  obtain ⟨hkey, hdata⟩ := read_masked h hk
  rw [decode_read h hlen, hk]
  simp only [WebSocketFrame.decodePayload, Option.isSome_some, if_true, hkey, Res.ret_bind, hdata,
    unmask_eq_applyMask, applyMask_applyMask]

/-- The payload of an unmasked frame goes to the start of the buffer. -/
theorem decode_header_unmasked (h : mem.StartsWith f.encode) (hlen : f.encode.length ≤ len)
    (hk : f.key = none) :
    WebSocketFrame.decode pf mem len buf = (do
      let resized ← buf.resize pf ((buf.length + f.payload.length) % SIZE_MOD)
      let filled ← resized.store 0 f.payload
      pure (filled, UInt8.ofNat f.opcode.val, f.fin)) := by
  rw [decode_read h hlen, hk]
  simp only [WebSocketFrame.decodePayload, Option.isSome_none, Bool.false_eq_true, if_false,
    read_unmasked h hk, Res.ret_bind]

/-- A complete masked frame: its payload is appended, its opcode and FIN bit are returned. -/
theorem decode_masked (h : mem.StartsWith f.encode) (hlen : f.encode.length ≤ len)
    (hk : f.key = some k) (hfit : buf.length + f.payload.length ≤ pf.maxSize) :
    WebSocketFrame.decode pf mem len buf =
      .ret (buf ++ f.payload, UInt8.ofNat f.opcode.val, f.fin) := by
  have hmax := pf.maxSize_lt
  rw [decode_header h hlen hk, Nat.mod_eq_of_lt (by omega), resize_grow hfit, Res.ret_bind,
    store_grown, Res.ret_bind, Res.pure_eq]

/-- A complete unmasked frame: its payload is written over what was there before. -/
theorem decode_unmasked (h : mem.StartsWith f.encode) (hlen : f.encode.length ≤ len)
    (hk : f.key = none) (hfit : buf.length + f.payload.length ≤ pf.maxSize) :
    WebSocketFrame.decode pf mem len buf =
      .ret (overwritten 0 buf f.payload, UInt8.ofNat f.opcode.val, f.fin) := by
  have hmax := pf.maxSize_lt
  rw [decode_header_unmasked h hlen hk, Nat.mod_eq_of_lt (by omega), resize_grow hfit, Res.ret_bind,
    store_front, Res.ret_bind, Res.pure_eq]

end Decode

end CppSocks.Analysis
