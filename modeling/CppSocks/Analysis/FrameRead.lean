import CppSocks.Analysis.FrameDecode

/-!
# Decoding an arbitrary buffer

`WebSocketFrame::decode` on any memory: the header that it reads, and when the
rest of the frame that the header announces can be read and stored. If it can,
the buffer that results is `Header.extend` (`decode_ret`); if it cannot, the call
throws `std::length_error` or leaves the defined behaviour (`decode_fails`).
-/

set_option autoImplicit false

namespace CppSocks.Analysis

open CppSocks.Model CppSocks.Interface Foundation

/-! ## Readable memory -/

/-- The `n` bytes from offset `off` on can be read. -/
def Readable (mem : Mem) (off n : ℕ) : Prop := ∀ i < n, (mem (off + i)).isSome

/-- The `n` bytes from offset `off` on. -/
def bytesAt (mem : Mem) (off n : ℕ) : Bytes := (List.range n).map fun i => (mem (off + i)).getD 0

/-- A range of a memory has the length that is asked for. -/
@[simp] theorem length_bytesAt (mem : Mem) (off n : ℕ) : (bytesAt mem off n).length = n := by
  simp [bytesAt]

/-- A range is readable exactly when its two parts are. -/
theorem readable_add {mem : Mem} {off m n : ℕ} :
    Readable mem off (m + n) ↔ Readable mem off m ∧ Readable mem (off + m) n := by
  constructor
  · intro h
    refine ⟨fun i hi => h i (by omega), fun i hi => ?_⟩
    rw [Nat.add_assoc]
    exact h (m + i) (by omega)
  · rintro ⟨hm, hn⟩ i hi
    by_cases him : i < m
    · exact hm i him
    · have := hn (i - m) (by omega)
      rwa [show off + m + (i - m) = off + i by omega] at this

/-- Reading a readable range gives its bytes. -/
theorem readRange_of_readable {mem : Mem} {off n : ℕ} (h : Readable mem off n) :
    mem.readRange off n = .ret (bytesAt mem off n) := by
  have hall : ∀ i (hi : i < (bytesAt mem off n).length),
      mem (off + i) = some (bytesAt mem off n)[i] := by
    intro i hi
    rw [length_bytesAt] at hi
    obtain ⟨b, hb⟩ := Option.isSome_iff_exists.mp (h i hi)
    simp [bytesAt, hb]
  have heq := Mem.readRange_eq hall
  rwa [length_bytesAt] at heq

/-- Reading any other range is undefined. -/
theorem readRange_of_not_readable {mem : Mem} {off n : ℕ} (h : ¬ Readable mem off n) :
    mem.readRange off n = .ub := by
  induction n generalizing off with
  | zero => exact absurd (fun i hi => absurd hi (Nat.not_lt_zero i)) h
  | succ n ih =>
    rw [Mem.readRange]
    cases hb : mem off with
    | none => rw [Mem.read, hb, Res.ub_bind]
    | some b =>
      have htail : ¬ Readable mem (off + 1) n := by
        intro htail
        apply h
        rw [Nat.add_comm n 1]
        refine readable_add.mpr ⟨fun i hi => ?_, htail⟩
        rw [show off + i = off by omega, hb]
        rfl
      rw [Mem.read_of_some hb, Res.ret_bind, ih htail, Res.ub_bind]

/-! ## The header -/

/-- Unmasking keeps the length. -/
@[simp] theorem length_unmask (maskingKey data : Bytes) :
    (unmask maskingKey data).length = data.length := by
  simp [unmask]

/-- What the decoder learns from the header of a frame. -/
structure Header where
  fin : Bool
  opcode : OpCode
  mask : Bool
  frameLen : ℕ
  payloadOffset : ℕ
deriving DecidableEq, Repr

/-- Read a header. -/
def readHeader (mem : Mem) : Call Header := do
  let b0 ← mem.read 0
  let b1 ← mem.read 1
  let (frameLen, payloadOffset) ← WebSocketFrame.decodeLength mem b1
  pure ⟨(b0 &&& 0x80) == 0x80, b0 &&& 0x0f, (b1 &&& 0x80) == 0x80, frameLen, payloadOffset⟩

namespace Header

variable (h : Header)

/-- The bytes behind the length field: the key, if there is one, and the payload. -/
def rest : ℕ := (if h.mask then 4 else 0) + h.frameLen

/-- The bytes of the whole frame that the header announces. -/
def size : ℕ := h.payloadOffset + h.rest

/-- The payload buffer once the frame has been decoded. An unmasked payload overwrites its
beginning. -/
def extend (mem : Mem) (buf : WsBuffer) : WsBuffer :=
  if h.mask then
    buf ++ unmask (bytesAt mem h.payloadOffset 4) (bytesAt mem (h.payloadOffset + 4) h.frameLen)
  else
    bytesAt mem h.payloadOffset h.frameLen ++
      (buf ++ List.replicate h.frameLen 0).drop h.frameLen

/-- A frame makes the payload buffer longer by its announced payload. -/
@[simp] theorem length_extend (mem : Mem) (buf : WsBuffer) :
    (h.extend mem buf).length = buf.length + h.frameLen := by
  unfold extend
  split
  · simp
  · simp only [List.length_append, length_bytesAt, List.length_drop, List.length_replicate]
    omega

/-- Nothing is appended only by a frame without payload. -/
theorem extend_eq_self (mem : Mem) (buf : WsBuffer) : h.extend mem buf = buf ↔ h.frameLen = 0 := by
  constructor
  · intro heq
    have hlen := congrArg List.length heq
    rw [length_extend] at hlen
    omega
  · intro hzero
    unfold extend
    rw [hzero]
    split
    · simp [bytesAt, unmask]
    · simp [bytesAt]

end Header

/-- Reading the length field never throws: it is undefined or gives a length. -/
theorem decodeLength_cases (mem : Mem) (b1 : Byte) :
    WebSocketFrame.decodeLength mem b1 = .ub ∨
      ∃ r, WebSocketFrame.decodeLength mem b1 = .ret r := by
  have hread : ∀ n : ℕ, mem.readRange 2 n = .ub ∨ ∃ bytes, mem.readRange 2 n = .ret bytes := by
    intro n
    by_cases h : Readable mem 2 n
    · exact Or.inr ⟨_, readRange_of_readable h⟩
    · exact Or.inl (readRange_of_not_readable h)
  unfold WebSocketFrame.decodeLength
  dsimp only
  split
  · obtain hub | ⟨bytes, hret⟩ := hread 2
    · rw [hub]
      exact Or.inl rfl
    · rw [hret]
      exact Or.inr ⟨_, rfl⟩
  · split
    · obtain hub | ⟨bytes, hret⟩ := hread 8
      · rw [hub]
        exact Or.inl rfl
      · rw [hret]
        exact Or.inr ⟨_, rfl⟩
    · exact Or.inr ⟨_, rfl⟩

/-- The header of a frame of the grammar. -/
theorem readHeader_frame {mem : Mem} {f : Frame} (h : mem.StartsWith f.encode) :
    readHeader mem = .ret ⟨f.fin, UInt8.ofNat f.opcode.val, f.key.isSome, f.payload.length,
      2 + f.form.width⟩ := by
  unfold readHeader
  rw [read_byte0 h, Res.ret_bind, read_byte1 h, Res.ret_bind, decodeLength_frame h, Res.ret_bind,
    byte0_fin, byte0_opcode, byte1_mask]
  rfl

/-- Reading the header never throws: it is undefined or gives a header. -/
theorem readHeader_cases (mem : Mem) :
    readHeader mem = .ub ∨ ∃ h, readHeader mem = .ret h := by
  unfold readHeader Mem.read
  cases mem 0 with
  | none => exact Or.inl rfl
  | some b0 =>
    cases mem 1 with
    | none => exact Or.inl rfl
    | some b1 =>
      simp only [Res.ret_bind]
      obtain hub | ⟨r, hret⟩ := decodeLength_cases mem b1
      · rw [hub]
        exact Or.inl rfl
      · rw [hret]
        exact Or.inr ⟨_, rfl⟩

/-! ## Decoding -/

section Decode

variable {pf : Platform} {mem : Mem} {len : ℕ} {buf : WsBuffer} {h : Header}

/-- `decode` reads the header, grows the buffer and copies the payload. -/
theorem decode_eq (hlen : 2 ≤ len) :
    WebSocketFrame.decode pf mem len buf = (do
      let h ← readHeader mem
      let resized ← buf.resize pf ((buf.length + h.frameLen) % SIZE_MOD)
      let filled ← WebSocketFrame.decodePayload mem h.mask h.frameLen h.payloadOffset buf.length
        resized
      pure (filled, h.opcode, h.fin)) := by
  unfold WebSocketFrame.decode readHeader
  rw [if_neg (by omega)]
  cases mem.read 0 with
  | ret b0 =>
    cases mem.read 1 with
    | ret b1 =>
      simp only [Res.ret_bind]
      cases WebSocketFrame.decodeLength mem b1 <;> rfl
    | exn e => rfl
    | ub => rfl
  | exn e => rfl
  | ub => rfl

/-- Copying the payload into a buffer that has been grown. -/
theorem decodePayload_grown (hr : Readable mem h.payloadOffset h.rest) :
    WebSocketFrame.decodePayload mem h.mask h.frameLen h.payloadOffset buf.length
      (buf ++ List.replicate h.frameLen 0) = .ret (h.extend mem buf) := by
  unfold WebSocketFrame.decodePayload Header.extend
  cases hmask : h.mask with
  | true =>
    rw [Header.rest, hmask, if_pos rfl] at hr
    obtain ⟨hkey, hdata⟩ := readable_add.mp hr
    have hstore := store_grown buf
      (unmask (bytesAt mem h.payloadOffset 4) (bytesAt mem (h.payloadOffset + 4) h.frameLen))
    rw [length_unmask, length_bytesAt] at hstore
    rw [if_pos rfl, if_pos rfl, readRange_of_readable hkey, Res.ret_bind,
      readRange_of_readable hdata, Res.ret_bind]
    exact hstore
  | false =>
    rw [Header.rest, hmask, if_neg Bool.false_ne_true, Nat.zero_add] at hr
    rw [if_neg Bool.false_ne_true, if_neg Bool.false_ne_true, readRange_of_readable hr,
      Res.ret_bind, WsBuffer.store, if_pos (by simp), length_bytesAt, Nat.zero_add, List.take_zero,
      List.nil_append]

/-- The announced frame can be read and its payload fits. -/
theorem decode_ret (hlen : 2 ≤ len) (hh : readHeader mem = .ret h)
    (hr : Readable mem h.payloadOffset h.rest) (hfit : buf.length + h.frameLen ≤ pf.maxSize) :
    WebSocketFrame.decode pf mem len buf = .ret (h.extend mem buf, h.opcode, h.fin) := by
  have hmax := pf.maxSize_lt
  rw [decode_eq hlen, hh, Res.ret_bind, Nat.mod_eq_of_lt (by omega), resize_grow hfit, Res.ret_bind,
    decodePayload_grown hr, Res.ret_bind, Res.pure_eq]

/-- What cannot be read is not stored. -/
theorem decodePayload_not_readable (hr : ¬ Readable mem h.payloadOffset h.rest) (old : ℕ) :
    WebSocketFrame.decodePayload mem h.mask h.frameLen h.payloadOffset old buf = .ub := by
  unfold WebSocketFrame.decodePayload
  cases hmask : h.mask with
  | true =>
    rw [Header.rest, hmask, if_pos rfl, readable_add] at hr
    rw [if_pos rfl]
    by_cases hkey : Readable mem h.payloadOffset 4
    · have hdata : ¬ Readable mem (h.payloadOffset + 4) h.frameLen := fun hd => hr ⟨hkey, hd⟩
      rw [readRange_of_readable hkey, Res.ret_bind, readRange_of_not_readable hdata, Res.ub_bind]
    · rw [readRange_of_not_readable hkey, Res.ub_bind]
  | false =>
    rw [Header.rest, hmask, if_neg Bool.false_ne_true, Nat.zero_add] at hr
    rw [if_neg Bool.false_ne_true, readRange_of_not_readable hr, Res.ub_bind]

/-- A size that has wrapped around leaves no room for the payload. -/
theorem decodePayload_wrapped (hr : Readable mem h.payloadOffset h.rest) {old : ℕ}
    (hold : old < SIZE_MOD) (hwrap : SIZE_MOD ≤ old + h.frameLen)
    (hbuf : buf.length = (old + h.frameLen) % SIZE_MOD) :
    WebSocketFrame.decodePayload mem h.mask h.frameLen h.payloadOffset old buf = .ub := by
  have hmod : (old + h.frameLen) % SIZE_MOD + SIZE_MOD ≤ old + h.frameLen := by
    have := Nat.mod_add_div (old + h.frameLen) SIZE_MOD
    have hdiv : 1 ≤ (old + h.frameLen) / SIZE_MOD :=
      (Nat.one_le_div_iff (by decide)).mpr hwrap
    calc (old + h.frameLen) % SIZE_MOD + SIZE_MOD
        ≤ (old + h.frameLen) % SIZE_MOD + SIZE_MOD * ((old + h.frameLen) / SIZE_MOD) :=
          Nat.add_le_add_left (Nat.le_mul_of_pos_right _ hdiv) _
      _ = old + h.frameLen := this
  unfold WebSocketFrame.decodePayload
  cases hmask : h.mask with
  | true =>
    rw [Header.rest, hmask, if_pos rfl] at hr
    obtain ⟨hkey, hdata⟩ := readable_add.mp hr
    rw [if_pos rfl, readRange_of_readable hkey, Res.ret_bind, readRange_of_readable hdata,
      Res.ret_bind, WsBuffer.store, if_neg]
    rw [length_unmask, length_bytesAt, hbuf]
    omega
  | false =>
    rw [Header.rest, hmask, if_neg Bool.false_ne_true, Nat.zero_add] at hr
    rw [if_neg Bool.false_ne_true, readRange_of_readable hr, Res.ret_bind, WsBuffer.store, if_neg]
    rw [length_bytesAt, hbuf]
    omega

/-- Any other chunk with a header raises an exception that is not an `std::invalid_argument`, or is
undefined behaviour. -/
theorem decode_fails (hlen : 2 ≤ len) (hbuf : buf.length ≤ pf.maxSize)
    (hno : ∀ h, readHeader mem = .ret h → Readable mem h.payloadOffset h.rest →
      pf.maxSize < buf.length + h.frameLen) :
    WebSocketFrame.decode pf mem len buf = .exn .length_error ∨
      WebSocketFrame.decode pf mem len buf = .ub := by
  have hmax := pf.maxSize_lt
  rw [decode_eq hlen]
  obtain hub | ⟨h, hret⟩ := readHeader_cases mem
  · rw [hub]
    exact Or.inr rfl
  · rw [hret, Res.ret_bind]
    by_cases hbig : pf.maxSize < (buf.length + h.frameLen) % SIZE_MOD
    · rw [WsBuffer.resize, if_pos hbig]
      exact Or.inl rfl
    · right
      rw [WsBuffer.resize, if_neg hbig, Res.ret_bind]
      by_cases hr : Readable mem h.payloadOffset h.rest
      · have hover := hno h hret hr
        have hwrap : SIZE_MOD ≤ buf.length + h.frameLen := by
          by_contra hlt
          rw [Nat.mod_eq_of_lt (by omega)] at hbig
          exact hbig hover
        rw [decodePayload_wrapped hr (by omega) hwrap, Res.ub_bind]
        simp only [List.length_append, List.length_take, List.length_replicate]
        omega
      · rw [decodePayload_not_readable hr, Res.ub_bind]

/-- A frame whose payload does not fit is not decoded. -/
theorem decode_frame_overflow {f : Frame} (hmem : mem.StartsWith f.encode)
    (hlen : f.encode.length ≤ len) (hbuf : buf.length ≤ pf.maxSize)
    (hover : pf.maxSize < buf.length + f.payload.length) :
    WebSocketFrame.decode pf mem len buf = .exn .length_error ∨
      WebSocketFrame.decode pf mem len buf = .ub := by
  apply decode_fails ((two_le_length_encode f).trans hlen) hbuf
  intro h hh _
  rw [readHeader_frame hmem, Res.ret.injEq] at hh
  rw [← hh]
  exact hover

end Decode

end CppSocks.Analysis
