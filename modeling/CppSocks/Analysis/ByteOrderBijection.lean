import CppSocks.Model.ByteOrder

/-!
# Byte order conversion at every width

`hton` and `ntoh` are inverse to each other between the numbers below `2 ^ (8 * w)` and
the strings of `w` bytes. The loop of `ntoh` computes with a type of just that width;
none of its sums wraps (`byteOrder_bijective`).
-/

set_option autoImplicit false

namespace CppSocks.Analysis

open CppSocks.Model Foundation

variable {w : ℕ}

/-- Writing what was read. -/
theorem hton_ntoh {b : Bytes} (hb : b.length = w) : hton w (ntoh b) = b := by
  rw [ntoh_eq_value, hton_eq_digits, ← hb]
  exact BigEndian.digits_value b

/-- Before its first pass the loop of `ntoh` has all bytes before it. -/
theorem ntoh_start {b : Bytes} (hb : b.length = w) : 0 + b.length = w := by
  rw [hb, Nat.zero_add]

/-- Then there is room for all of them. -/
theorem ntoh_room {b : Bytes} (hb : b.length = w) : 0 + 256 ^ b.length ≤ 256 ^ w := by
  rw [hb, Nat.zero_add]

/-- `ntoh` returns the last of its sums. -/
theorem ntoh_eq_last {b : Bytes} (hb : b.length = w) : ntoh b = (ntohSums w 0 0 b).getLastD 0 := by
  rw [ntoh, hb]
  exact ntohLoop_eq_last (ntoh_start hb) (ntoh_room hb)

/-- At every width the two conversions are inverse to each other, the number is the big-endian value
of the bytes, and no sum on the way to it exceeds the largest number of that width. -/
theorem byteOrder_bijective (w : ℕ) :
    (∀ v < 2 ^ (8 * w), (hton w v).length = w ∧ ntoh (hton w v) = v) ∧
      ∀ b : Bytes, b.length = w →
        hton w (ntoh b) = b ∧ ntoh b = BigEndian.value b ∧
          ntoh b = (ntohSums w 0 0 b).getLastD 0 ∧
            ∀ s ∈ ntohSums w 0 0 b, s ≤ 2 ^ (8 * w) - 1 := by
  constructor
  · intro v hv
    rw [two_pow_eight_mul] at hv
    exact ⟨length_hton w v, ntoh_hton hv⟩
  · intro b hb
    refine ⟨hton_ntoh hb, ntoh_eq_value b, ntoh_eq_last hb, ?_⟩
    intro s hs
    have hlt := ntohSums_lt (ntoh_start hb) (ntoh_room hb) s hs
    omega

example : ntoh [0x01, 0x02, 0x03, 0x04] = 0x01020304 := by decide

end CppSocks.Analysis
