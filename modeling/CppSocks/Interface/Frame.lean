import CppSocks.Foundation.BigEndian
import CppSocks.Foundation.Framing
import CppSocks.Model.Types

/-!
# The frames of RFC 6455

A `Frame` has the fields that the protocol gives a frame; `Frame.encode` writes
it. Nothing here refers to the code: this is the grammar that the decoder and the
encoder of `CppSocks.Model.WebSocketFrame` are measured against.

The length of the payload may be written in any form that can hold it; the
protocol asks for the shortest one (`Frame.Minimal`). Frames are a
self-delimiting code (`frameCode`), so a byte stream is made of at most one list
of frames, and a stream of frames may be cut anywhere and put together again.
-/

set_option autoImplicit false

namespace CppSocks.Interface

open CppSocks.Model Foundation

/-- The key that a client combines its payload with. -/
structure MaskingKey where
  k0 : Byte
  k1 : Byte
  k2 : Byte
  k3 : Byte
deriving DecidableEq, Repr

/-- The key as it stands in a frame. -/
def MaskingKey.bytes (k : MaskingKey) : Bytes := [k.k0, k.k1, k.k2, k.k3]

/-- The ways to write the length of the payload. -/
inductive LengthForm where
  | bits7 | bits16 | bits64
deriving DecidableEq, Repr

/-- A form can hold the lengths below this number. -/
def LengthForm.capacity : LengthForm → ℕ
  | .bits7 => 126
  | .bits16 => 65536
  | .bits64 => 2 ^ 64

/-- The bytes that the form adds to the first two. -/
def LengthForm.width : LengthForm → ℕ
  | .bits7 => 0
  | .bits16 => 2
  | .bits64 => 8

/-- The form that the second byte of a frame announces. -/
def LengthForm.announced (b1 : Byte) : LengthForm :=
  if b1.toNat % 128 = 126 then .bits16 else if b1.toNat % 128 = 127 then .bits64 else .bits7

/-- The length of the payload that is announced, by seven bits of the second byte or by the bytes
behind it. -/
def announcedLength (b1 : Byte) (rest : Bytes) : ℕ :=
  if LengthForm.announced b1 = .bits7 then b1.toNat % 128
  else BigEndian.value (rest.take (LengthForm.announced b1).width)

/-- The size of the whole frame that is announced: two bytes, none, two or eight bytes of length, four
bytes of key if the payload is masked, and the payload. -/
def announcedSize (b1 : Byte) (rest : Bytes) : ℕ :=
  2 + (LengthForm.announced b1).width + (if 128 ≤ b1.toNat then 4 else 0) + announcedLength b1 rest

/-- The three reserved bits have numerals. -/
instance neZero_rsv : NeZero 8 := ⟨by decide⟩

/-- The opcodes have numerals. -/
instance neZero_opcode : NeZero 16 := ⟨by decide⟩

/-- A frame; its length form can hold the length of its payload. -/
structure Frame where
  fin : Bool
  rsv : Fin 8
  opcode : Fin 16
  key : Option MaskingKey
  form : LengthForm
  payload : Bytes
  fits : payload.length < form.capacity
deriving DecidableEq, Repr

/-- The payload combined with the key. -/
def applyMask (k : MaskingKey) (data : Bytes) : Bytes :=
  data.mapIdx fun i b => b ^^^ k.bytes.getD (i % 4) 0

/-- Masking keeps the length. -/
@[simp] theorem length_applyMask (k : MaskingKey) (data : Bytes) :
    (applyMask k data).length = data.length := by
  simp [applyMask]

/-- Combining twice with the same key gives the payload back. -/
theorem applyMask_applyMask (k : MaskingKey) (data : Bytes) :
    applyMask k (applyMask k data) = data := by
  apply List.ext_getElem
  · simp
  · intro i h₁ h₂
    simp only [applyMask, List.getElem_mapIdx, UInt8.xor_assoc, UInt8.xor_self, UInt8.xor_zero]

/-- Masking with one key is injective: it can be undone. -/
theorem applyMask_injective {k : MaskingKey} {x y : Bytes} (h : applyMask k x = applyMask k y) :
    x = y := by
  rw [← applyMask_applyMask k x, h, applyMask_applyMask]

namespace Frame

/-- The frame is written in the shortest form, as the protocol demands. -/
def Minimal (f : Frame) : Prop :=
  match f.form with
  | .bits7 => True
  | .bits16 => 126 ≤ f.payload.length
  | .bits64 => 65536 ≤ f.payload.length

/-- What the seven bits of the length field hold. -/
def len7 (f : Frame) : ℕ :=
  match f.form with
  | .bits7 => f.payload.length
  | .bits16 => 126
  | .bits64 => 127

/-- The first byte: FIN, the reserved bits and the opcode. -/
def byte0 (f : Frame) : Byte :=
  UInt8.ofNat ((if f.fin then 128 else 0) + f.rsv.val * 16 + f.opcode.val)

/-- The second byte: the mask bit and the short length. -/
def byte1 (f : Frame) : Byte :=
  UInt8.ofNat ((if f.key.isSome then 128 else 0) + f.len7)

/-- The length in the longer forms. -/
def extLength (f : Frame) : Bytes := BigEndian.digits f.form.width f.payload.length

/-- The key, if there is one, and the payload as it is sent. -/
def body (f : Frame) : Bytes :=
  match f.key with
  | none => f.payload
  | some k => k.bytes ++ applyMask k f.payload

/-- The bytes of a frame. -/
def encode (f : Frame) : Bytes := f.byte0 :: f.byte1 :: (f.extLength ++ f.body)

/-- The extended length has the width of its form. -/
@[simp] theorem length_extLength (f : Frame) : f.extLength.length = f.form.width := by
  simp [extLength]

/-- The short length leaves the mask bit alone. -/
theorem len7_lt (f : Frame) : f.len7 < 128 := by
  have hfits := f.fits
  cases hform : f.form <;> simp only [len7, hform, LengthForm.capacity] at hfits ⊢ <;> omega

/-- The first byte as a sum. -/
theorem toNat_byte0 (f : Frame) :
    f.byte0.toNat = (if f.fin then 128 else 0) + f.rsv.val * 16 + f.opcode.val := by
  have hrsv := f.rsv.isLt
  have hop := f.opcode.isLt
  rw [byte0, UInt8.toNat_ofNat']
  apply Nat.mod_eq_of_lt
  split <;> omega

/-- The second byte as a sum. -/
theorem toNat_byte1 (f : Frame) :
    f.byte1.toNat = (if f.key.isSome then 128 else 0) + f.len7 := by
  have hlen := f.len7_lt
  rw [byte1, UInt8.toNat_ofNat']
  apply Nat.mod_eq_of_lt
  split <;> omega

/-- The seven bits tell the forms apart. -/
theorem form_eq_of_len7_eq {f g : Frame} (h : f.len7 = g.len7) : f.form = g.form := by
  have hf := f.fits
  have hg := g.fits
  cases hff : f.form <;> cases hgf : g.form <;>
    simp only [len7, hff, hgf, LengthForm.capacity] at h hf hg ⊢ <;> omega

/-- The first byte determines the fields it is made of. -/
theorem byte0_injective {f g : Frame} (h : f.byte0 = g.byte0) :
    f.fin = g.fin ∧ f.rsv = g.rsv ∧ f.opcode = g.opcode := by
  have hn := congrArg UInt8.toNat h
  rw [toNat_byte0, toNat_byte0] at hn
  have hf := f.rsv.isLt
  have hg := g.rsv.isLt
  have hfo := f.opcode.isLt
  have hgo := g.opcode.isLt
  have hfin : f.fin = g.fin := by
    cases hff : f.fin <;> cases hgf : g.fin <;> simp only [hff, hgf] at hn ⊢ <;>
      simp at hn <;> omega
  rw [hfin] at hn
  exact ⟨hfin, Fin.ext (by omega), Fin.ext (by omega)⟩

/-- The second byte determines whether there is a key, and the seven bits. -/
theorem byte1_injective {f g : Frame} (h : f.byte1 = g.byte1) :
    f.key.isSome = g.key.isSome ∧ f.len7 = g.len7 := by
  have hn := congrArg UInt8.toNat h
  rw [toNat_byte1, toNat_byte1] at hn
  have hf := f.len7_lt
  have hg := g.len7_lt
  have hkey : f.key.isSome = g.key.isSome := by
    cases hff : f.key.isSome <;> cases hgf : g.key.isSome <;> simp only [hff, hgf] at hn ⊢ <;>
      simp at hn <;> omega
  rw [hkey] at hn
  exact ⟨hkey, by omega⟩

/-- The length field determines the length. -/
theorem length_eq_of_extLength_eq {f g : Frame} (hlen : f.len7 = g.len7)
    (h : f.extLength = g.extLength) : f.payload.length = g.payload.length := by
  have hform := form_eq_of_len7_eq hlen
  have hf := f.fits
  have hg := g.fits
  unfold extLength at h
  rw [← hform] at h hg
  cases hff : f.form with
  | bits7 =>
    have hgf : g.form = .bits7 := hform ▸ hff
    simpa only [len7, hff, hgf] using hlen
  | bits16 =>
    rw [hff] at h hf hg
    exact BigEndian.digits_injective (by simpa [LengthForm.capacity, LengthForm.width] using hf)
      (by simpa [LengthForm.capacity, LengthForm.width] using hg) h
  | bits64 =>
    rw [hff] at h hf hg
    exact BigEndian.digits_injective (by simpa [LengthForm.capacity, LengthForm.width] using hf)
      (by simpa [LengthForm.capacity, LengthForm.width] using hg) h

/-- With the length known, the body determines key and payload. -/
theorem body_injective {f g : Frame} {s t : Bytes} (hkey : f.key.isSome = g.key.isSome)
    (hlen : f.payload.length = g.payload.length) (h : f.body ++ s = g.body ++ t) :
    f.key = g.key ∧ f.payload = g.payload := by
  cases hf : f.key with
  | none =>
    have hg : g.key = none := by simpa [hf] using hkey.symm
    simp only [body, hf, hg] at h ⊢
    exact ⟨trivial, List.append_inj_left h hlen⟩
  | some k =>
    obtain ⟨k', hg⟩ : ∃ k', g.key = some k' := Option.isSome_iff_exists.mp (by simp [← hkey, hf])
    simp only [body, hf, hg, List.append_assoc] at h ⊢
    have hk : k.bytes = k'.bytes := List.append_inj_left h rfl
    have hkk : k = k' := by
      simp only [MaskingKey.bytes, List.cons.injEq] at hk
      cases k
      cases k'
      simp_all
    subst hkk
    have hrest := List.append_inj_right h rfl
    exact ⟨rfl, applyMask_injective (List.append_inj_left hrest (by simpa using hlen))⟩

/-- No frame begins another one. -/
theorem encode_prefixFree (f g : Frame) (s t : Bytes) (h : f.encode ++ s = g.encode ++ t) :
    f = g := by
  simp only [encode, List.cons_append, List.cons.injEq, List.append_assoc] at h
  obtain ⟨h0, h1, hrest⟩ := h
  obtain ⟨hfin, hrsv, hop⟩ := byte0_injective h0
  obtain ⟨hkey, hlen7⟩ := byte1_injective h1
  have hform := form_eq_of_len7_eq hlen7
  have hwidth : f.extLength.length = g.extLength.length := by simp [hform]
  have hlen := length_eq_of_extLength_eq hlen7 (List.append_inj_left hrest hwidth)
  obtain ⟨hk, hp⟩ := body_injective hkey hlen (List.append_inj_right hrest hwidth)
  cases f
  cases g
  simp_all

end Frame

/-- Frames are a self-delimiting code. -/
def frameCode : Code Frame Byte where
  encode := Frame.encode
  encode_ne_nil := fun _ => List.cons_ne_nil _ _
  prefixFree := Frame.encode_prefixFree

end CppSocks.Interface
