import CppSocks.Analysis.FrameDecode
import CppSocks.Interface.Sender

/-!
# Building a frame

The constructor of `WebSocketFrame` writes the unmasked frame of the grammar in
its shortest form (`create_plain`), and refuses payloads that are too long and
opcodes that are too large (`create_refuses`). The accessors of the frame give its
payload back (`payload_plain`).
-/

set_option autoImplicit false

namespace CppSocks.Analysis

open CppSocks.Model CppSocks.Interface Foundation

/-- The first byte of the frame as the constructor computes it. -/
theorem byte0_plainFrame (fin : Bool) (opcode : Fin 16) (payload : Bytes)
    (h : payload.length ≤ 65535) :
    (plainFrame fin opcode payload h).byte0 =
      (if fin then 0x80 else 0x00) ||| UInt8.ofNat opcode.val := by
  have hall : ∀ (fin : Bool) (op : Fin 16),
      UInt8.ofNat ((if fin then 128 else 0) + (0 : Fin 8).val * 16 + op.val) =
        (if fin then 0x80 else 0x00) ||| UInt8.ofNat op.val := by
    decide +kernel
  exact hall fin opcode

/-- The opcodes of the grammar pass the first test of the constructor. -/
theorem opcode_le (opcode : Fin 16) : ¬ 15 < UInt8.ofNat opcode.val := by
  have hop := opcode.isLt
  rw [UInt8.lt_iff_toNat_lt, UInt8.toNat_ofNat']
  simp only [UInt8.reduceToNat]
  omega

/-- The constructor writes the frame of the grammar. -/
theorem create_plain (fin : Bool) (opcode : Fin 16) (payload : Bytes)
    (h : payload.length ≤ 65535) :
    WebSocketFrame.create payload fin (UInt8.ofNat opcode.val) =
      .ret ⟨(plainFrame fin opcode payload h).encode⟩ := by
  unfold WebSocketFrame.create
  rw [if_neg (opcode_le opcode), Frame.encode, byte0_plainFrame]
  by_cases hlt : payload.length < 126
  · have hform : (plainFrame fin opcode payload h).form = .bits7 := by
      simp only [plainFrame, shortForm, if_pos hlt]
    have hext : (plainFrame fin opcode payload h).extLength = [] := by
      simp only [Frame.extLength, hform]
      rfl
    have hlen : (plainFrame fin opcode payload h).byte1 = UInt8.ofNat payload.length := by
      simp only [Frame.byte1, Frame.len7, hform]
      simp [plainFrame]
    rw [if_pos hlt, hext, hlen]
    rfl
  · have hform : (plainFrame fin opcode payload h).form = .bits16 := by
      simp only [plainFrame, shortForm, if_neg hlt]
    have hext : (plainFrame fin opcode payload h).extLength = hton 2 payload.length := by
      simp only [Frame.extLength, hform, hton_eq_digits]
      rfl
    have hlen : (plainFrame fin opcode payload h).byte1 = 126 := by
      simp only [Frame.byte1, Frame.len7, hform]
      simp [plainFrame]
    rw [if_neg hlt, if_pos h, hext, hlen]
    simp [Frame.body, plainFrame]

/-- The frame that a server sends. -/
theorem create_eq (opcode : Fin 16) (payload : Bytes) (h : payload.length ≤ 65535) :
    WebSocketFrame.create payload true (UInt8.ofNat opcode.val) =
      .ret ⟨(serverFrame opcode payload h).encode⟩ := by
  rw [serverFrame_eq]
  exact create_plain true opcode payload h

/-- An opcode or a payload that the header has no room for. -/
theorem create_refuses {payload : Bytes} {opcode : OpCode}
    (h : 15 < opcode ∨ 65535 < payload.length) (fin : Bool) :
    ∃ what, WebSocketFrame.create payload fin opcode = .exn (.invalid_argument what) := by
  unfold WebSocketFrame.create
  by_cases hop : 15 < opcode
  · rw [if_pos hop]
    exact ⟨_, rfl⟩
  · have hlong : 65535 < payload.length := h.resolve_left hop
    rw [if_neg hop]
    dsimp only
    rw [if_neg (by omega), if_neg (by omega)]
    exact ⟨_, rfl⟩

/-- A payload that needs the longest form is refused. -/
theorem create_too_long (payload : Bytes) (opcode : Fin 16) (h : 65535 < payload.length) :
    WebSocketFrame.create payload true (UInt8.ofNat opcode.val) =
      .exn (.invalid_argument "Payload length > UINT16_MAX currently not supported.") := by
  unfold WebSocketFrame.create
  rw [if_neg (opcode_le opcode), if_neg (by omega), if_neg (by omega)]

/-- `payloadLength()` of a frame whose length is not written in eight bytes. -/
theorem payloadLength_encode {f : Frame} (h : f.form ≠ .bits64) :
    WebSocketFrame.payloadLength ⟨f.encode⟩ = .ret f.payload.length := by
  have hfits := f.fits
  have hmem : (Mem.ofBytes f.encode).StartsWith f.encode := Mem.ofBytes_startsWith _
  unfold WebSocketFrame.payloadLength
  rw [read_byte1 hmem, Res.ret_bind, byte1_len7]
  cases hform : f.form with
  | bits7 =>
    rw [hform] at hfits
    have hlt : f.payload.length < 126 := hfits
    have hlen : f.len7 = f.payload.length := by simp only [Frame.len7, hform]
    rw [hlen, if_neg (by omega), if_neg (by omega), Res.pure_eq]
  | bits16 =>
    have hlen : f.len7 = 126 := by simp only [Frame.len7, hform]
    have hext : (Mem.ofBytes f.encode).readRange 2 2 = .ret f.extLength := by
      have hsplit : (Mem.ofBytes f.encode).StartsWith
          ([f.byte0, f.byte1] ++ f.extLength ++ f.body) := hmem
      have hwidth : f.extLength.length = 2 := by
        rw [Frame.length_extLength, hform]
        rfl
      have := hsplit.readRange
      rwa [hwidth] at this
    rw [hlen, if_neg (by omega), if_pos rfl, hext, Res.ret_bind, ntoh_extLength f (by simp [hform]),
      Res.pure_eq]
  | bits64 => exact absurd hform h

/-- A payload that the constructor takes needs one of the two shorter forms. -/
theorem form_plainFrame (fin : Bool) (opcode : Fin 16) (payload : Bytes)
    (h : payload.length ≤ 65535) : (plainFrame fin opcode payload h).form ≠ .bits64 := by
  change shortForm payload.length ≠ .bits64
  rw [shortForm]
  split <;> simp

/-- `payload()` and `payloadLength()` of a frame that the constructor has built. -/
theorem payload_plain (fin : Bool) (opcode : Fin 16) (payload : Bytes)
    (h : payload.length ≤ 65535) :
    WebSocketFrame.payload ⟨(plainFrame fin opcode payload h).encode⟩ = .ret payload := by
  have hform : (plainFrame fin opcode payload h).form = shortForm payload.length := rfl
  have hpay : (plainFrame fin opcode payload h).payload = payload := rfl
  have hbody : (plainFrame fin opcode payload h).body = payload := rfl
  have hstart : (if payload.length < 126 then 2 else 4) =
      ([(plainFrame fin opcode payload h).byte0, (plainFrame fin opcode payload h).byte1] ++
        (plainFrame fin opcode payload h).extLength).length := by
    rw [List.length_append, Frame.length_extLength, hform, shortForm]
    split <;> rfl
  have hsplit : (Mem.ofBytes (plainFrame fin opcode payload h).encode).StartsWith
      (([(plainFrame fin opcode payload h).byte0, (plainFrame fin opcode payload h).byte1] ++
        (plainFrame fin opcode payload h).extLength) ++ payload ++ []) := by
    rw [List.append_nil, List.append_assoc]
    exact Mem.ofBytes_startsWith _
  unfold WebSocketFrame.payload
  rw [payloadLength_encode (form_plainFrame fin opcode payload h), Res.ret_bind, hpay, hstart]
  exact hsplit.readRange

/-- The payload of a frame that a server sends. -/
theorem payload_serverFrame (opcode : Fin 16) (payload : Bytes) (h : payload.length ≤ 65535) :
    WebSocketFrame.payload ⟨(serverFrame opcode payload h).encode⟩ = .ret payload := by
  rw [serverFrame_eq]
  exact payload_plain true opcode payload h

end CppSocks.Analysis
