import CppSocks.Foundation.BigEndian
import CppSocks.Model.Types

/-!
# Byte order conversion

`ntoh` and `hton` for an unsigned type of any width, given in bytes.
-/

set_option autoImplicit false

namespace CppSocks.Model

open Foundation

/-- The loop of `ntoh`: `cnt` bytes are done, `result` is the partial sum. -/
def ntohLoop (w : ℕ) : ℕ → ℕ → Bytes → ℕ
  | _, result, [] => result
  | cnt, result, b :: data =>
    ntohLoop w (cnt + 1) ((result + b.toNat <<< ((w - cnt - 1) * 8)) % 2 ^ (8 * w)) data

/-- The sums that the loop of `ntoh` forms, each as it is before it is stored in a `T`. -/
def ntohSums (w : ℕ) : ℕ → ℕ → Bytes → List ℕ
  | _, _, [] => []
  | cnt, result, b :: data =>
    (result + b.toNat <<< ((w - cnt - 1) * 8)) ::
      ntohSums w (cnt + 1) ((result + b.toNat <<< ((w - cnt - 1) * 8)) % 2 ^ (8 * w)) data

/-- `ntoh<T>` on the `sizeof(T)` bytes it is given.
SOURCE: tcp/socks_tcp_util.hpp:11-20 -/
def ntoh (data : Bytes) : ℕ := ntohLoop data.length 0 0 data

/-- `hton<T>` for a type of `w` bytes: the bytes it writes.
SOURCE: tcp/socks_tcp_util.hpp:22-29 -/
def hton (w value : ℕ) : Bytes :=
  (List.range w).map fun cnt => UInt8.ofNat ((value >>> ((w - 1 - cnt) * 8)) &&& 0xff)

/-- A number in network order takes its width. -/
@[simp] theorem length_hton (w value : ℕ) : (hton w value).length = w := by
  simp [hton]

/-- The largest value of `T` and one more. -/
theorem two_pow_eight_mul (w : ℕ) : (2 : ℕ) ^ (8 * w) = 256 ^ w := by
  rw [pow_mul]
  norm_num

/-- The term of the pass that handles `b`. -/
theorem shiftLeft_eq_mul {w cnt : ℕ} {b : Byte} {data : Bytes}
    (hw : cnt + (b :: data).length = w) :
    b.toNat <<< ((w - cnt - 1) * 8) = b.toNat * 256 ^ data.length := by
  have hcount : w - cnt - 1 = data.length := by
    rw [List.length_cons] at hw
    omega
  rw [hcount, Nat.shiftLeft_eq, mul_comm data.length, two_pow_eight_mul]

/-- The count of the next pass. -/
theorem count_succ {w cnt : ℕ} {b : Byte} {data : Bytes} (hw : cnt + (b :: data).length = w) :
    cnt + 1 + data.length = w := by
  rw [List.length_cons] at hw
  omega

/-- The invariant of the loop: the sum leaves room for all that the remaining bytes can hold. -/
theorem sum_room {w result : ℕ} {b : Byte} {data : Bytes}
    (hr : result + 256 ^ (b :: data).length ≤ 256 ^ w) :
    result + b.toNat * 256 ^ data.length + 256 ^ data.length ≤ 256 ^ w := by
  have hadd : b.toNat * 256 ^ data.length + 256 ^ data.length ≤ 256 ^ (data.length + 1) := by
    calc b.toNat * 256 ^ data.length + 256 ^ data.length
        = (b.toNat + 1) * 256 ^ data.length := by ring
      _ ≤ 256 * 256 ^ data.length := Nat.mul_le_mul_right _ b.toNat_lt
      _ = 256 ^ (data.length + 1) := by ring
  rw [List.length_cons] at hr
  omega

/-- With that room, storing the sum does not change it. -/
theorem sum_stored {w result : ℕ} {b : Byte} {data : Bytes}
    (hr : result + 256 ^ (b :: data).length ≤ 256 ^ w) :
    (result + b.toNat * 256 ^ data.length) % 2 ^ (8 * w) =
      result + b.toNat * 256 ^ data.length := by
  have hroom := sum_room hr
  have hpos : 0 < 256 ^ data.length := pow_pos (by norm_num) _
  rw [two_pow_eight_mul]
  exact Nat.mod_eq_of_lt (by omega)

/-- The loop of `ntoh` adds the big-endian value of the remaining bytes. -/
theorem ntohLoop_eq (w cnt result : ℕ) (data : Bytes) (hw : cnt + data.length = w)
    (hr : result + 256 ^ data.length ≤ 256 ^ w) :
    ntohLoop w cnt result data = result + BigEndian.value data := by
  induction data generalizing cnt result with
  | nil => simp [ntohLoop, BigEndian.value]
  | cons b data ih =>
    rw [ntohLoop, shiftLeft_eq_mul hw, sum_stored hr, ih _ _ (count_succ hw) (sum_room hr), BigEndian.value,
      Nat.add_assoc]

/-- What the loop returns is the last of its sums. -/
theorem ntohLoop_eq_last {w cnt result : ℕ} {data : Bytes} (hw : cnt + data.length = w)
    (hr : result + 256 ^ data.length ≤ 256 ^ w) :
    ntohLoop w cnt result data = (ntohSums w cnt result data).getLastD result := by
  induction data generalizing cnt result with
  | nil => rfl
  | cons b data ih =>
    rw [ntohLoop, ntohSums, shiftLeft_eq_mul hw, sum_stored hr, ih (count_succ hw) (sum_room hr),
      List.getLastD_cons]

/-- No sum of the loop needs more than the width of `T`. -/
theorem ntohSums_lt {w cnt result : ℕ} {data : Bytes} (hw : cnt + data.length = w)
    (hr : result + 256 ^ data.length ≤ 256 ^ w) :
    ∀ s ∈ ntohSums w cnt result data, s < 2 ^ (8 * w) := by
  induction data generalizing cnt result with
  | nil => exact fun s hs => absurd hs List.not_mem_nil
  | cons b data ih =>
    have hroom := sum_room hr
    have hpos : 0 < 256 ^ data.length := pow_pos (by norm_num) _
    intro s hs
    rw [ntohSums, shiftLeft_eq_mul hw, sum_stored hr] at hs
    obtain rfl | hs := List.mem_cons.mp hs
    · rw [two_pow_eight_mul]
      omega
    · exact ih (count_succ hw) hroom s hs

/-- `ntoh` is the big-endian value. -/
theorem ntoh_eq_value (data : Bytes) : ntoh data = BigEndian.value data := by
  rw [ntoh, ntohLoop_eq _ _ _ _ (Nat.zero_add _) (by omega), Nat.zero_add]

/-- `hton` writes the big-endian digits. -/
theorem hton_eq_digits (w value : ℕ) : hton w value = BigEndian.digits w value := by
  induction w with
  | zero => rfl
  | succ w ih =>
    have hand : (value >>> (w * 8)) &&& 0xff = value / 256 ^ w % 256 := by
      rw [show (0xff : ℕ) = 2 ^ 8 - 1 by norm_num, Nat.and_two_pow_sub_one_eq_mod,
        Nat.shiftRight_eq_div_pow, mul_comm w 8, pow_mul]
      norm_num
    have hbyte : UInt8.ofNat (value / 256 ^ w % 256) = UInt8.ofNat (value / 256 ^ w) := by
      apply UInt8.toNat_inj.mp
      simp
    have htail : (List.range w).map (fun cnt =>
        UInt8.ofNat ((value >>> ((w + 1 - 1 - (cnt + 1)) * 8)) &&& 0xff)) = hton w value := by
      apply List.map_congr_left
      intro cnt _
      rw [show w + 1 - 1 - (cnt + 1) = w - 1 - cnt by omega]
    rw [BigEndian.digits, ← ih, ← htail, hton, List.range_succ_eq_map, List.map_cons,
      List.map_map, ← hbyte, ← hand]
    rfl

/-- Reading back what was written. -/
theorem ntoh_hton {w value : ℕ} (h : value < 256 ^ w) : ntoh (hton w value) = value := by
  rw [ntoh_eq_value, hton_eq_digits, BigEndian.value_digits_of_lt h]

end CppSocks.Model
