import Mathlib.Data.List.Basic
import Mathlib.Tactic.NormNum
import Mathlib.Tactic.Ring

/-!
# Big-endian numbers

The value of a byte string read with the most significant byte first, and the
string of `w` bytes that has the value of a number modulo `256 ^ w`.
-/

set_option autoImplicit false

namespace Foundation.BigEndian

/-- The value of a byte string. -/
def value : List UInt8 → ℕ
  | [] => 0
  | b :: bs => b.toNat * 256 ^ bs.length + value bs

/-- The `w` lowest digits of a number. -/
def digits : ℕ → ℕ → List UInt8
  | 0, _ => []
  | w + 1, n => UInt8.ofNat (n / 256 ^ w) :: digits w n

/-- A number is written in as many bytes as are asked for. -/
@[simp] theorem length_digits (w n : ℕ) : (digits w n).length = w := by
  induction w with
  | zero => rfl
  | succ w ih => simp [digits, ih]

/-- Bytes stand for a number that as many bytes can hold. -/
theorem value_lt (bs : List UInt8) : value bs < 256 ^ bs.length := by
  induction bs with
  | nil => simp [value]
  | cons b bs ih =>
    have hb : b.toNat < 256 := b.toNat_lt
    calc value (b :: bs) < b.toNat * 256 ^ bs.length + 256 ^ bs.length :=
          Nat.add_lt_add_left ih _
      _ = (b.toNat + 1) * 256 ^ bs.length := by ring
      _ ≤ 256 * 256 ^ bs.length := Nat.mul_le_mul_right _ hb
      _ = 256 ^ (b :: bs).length := by rw [List.length_cons, pow_succ]; ring

/-- The digits of a number have its value, as far as they reach. -/
theorem value_digits (w n : ℕ) : value (digits w n) = n % 256 ^ w := by
  induction w with
  | zero => simp [digits, value, Nat.mod_one]
  | succ w ih =>
    have hsplit : n % 256 ^ (w + 1) = n / 256 ^ w % 256 * 256 ^ w + n % 256 ^ w := by
      rw [pow_succ, Nat.mod_mul, mul_comm (256 ^ w)]
      omega
    rw [digits, value, length_digits, ih, hsplit, UInt8.toNat_ofNat']

/-- A number that the bytes can hold is read back. -/
theorem value_digits_of_lt {w n : ℕ} (h : n < 256 ^ w) : value (digits w n) = n := by
  rw [value_digits, Nat.mod_eq_of_lt h]

/-- The digits below the lowest `w` do not show in the first `w` digits. -/
theorem digits_add_mul (w m n : ℕ) : digits w (m * 256 ^ w + n) = digits w n := by
  induction w generalizing m with
  | zero => rfl
  | succ w ih =>
    have hdiv : (m * 256 * 256 ^ w + n) / 256 ^ w = m * 256 + n / 256 ^ w := by
      rw [mul_comm (m * 256), Nat.mul_add_div (pow_pos (by norm_num) _)]
    have hhead : UInt8.ofNat (m * 256 + n / 256 ^ w) = UInt8.ofNat (n / 256 ^ w) := by
      apply UInt8.toNat_inj.mp
      simp
    have hshift : m * 256 ^ (w + 1) + n = m * 256 * 256 ^ w + n := by ring
    rw [digits, digits, hshift, ih, hdiv, hhead]

/-- A byte string is made of the digits of its value. -/
theorem digits_value (bs : List UInt8) : digits bs.length (value bs) = bs := by
  induction bs with
  | nil => rfl
  | cons b bs ih =>
    have hdiv : (b.toNat * 256 ^ bs.length + value bs) / 256 ^ bs.length = b.toNat := by
      rw [mul_comm, Nat.mul_add_div (pow_pos (by norm_num) _),
        Nat.div_eq_of_lt (value_lt bs), Nat.add_zero]
    rw [List.length_cons, value, digits, hdiv, digits_add_mul, ih, UInt8.ofNat_toNat]

/-- Different numbers have different digits, as far as these reach. -/
theorem digits_injective {w m n : ℕ} (hm : m < 256 ^ w) (hn : n < 256 ^ w)
    (h : digits w m = digits w n) : m = n := by
  rw [← value_digits_of_lt hm, h, value_digits_of_lt hn]

end Foundation.BigEndian
