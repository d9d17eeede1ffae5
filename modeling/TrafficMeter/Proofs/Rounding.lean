import Mathlib
import TrafficMeter.Double

/-!
Bounds on rounding to double precision. Main statement: if a sum reaches `2 ^ 63`, then so does the
rounded sum of the rounded numbers.
-/

namespace TrafficMeter

theorem le_roundQuotient_mul (n : ℕ) {d : ℕ} (h : 0 < d) :
    2 * n ≤ 2 * (roundQuotient n d * d) + d := by
  have hn : n / d * d + n % d = n := Nat.div_add_mod' n d
  have hr : n % d < d := Nat.mod_lt n h
  unfold roundQuotient
  dsimp only
  split_ifs
  · omega
  · rw [Nat.add_mul]
    omega
  · have hle : n / d * d ≤ (n / d + n / d % 2) * d := Nat.mul_le_mul_right d (Nat.le_add_right _ _)
    omega

theorem div_le_roundQuotient (n d : ℕ) : n / d ≤ roundQuotient n d := by
  unfold roundQuotient
  dsimp only
  split_ifs <;> omega

theorem roundMagnitude_of_lt {n : ℕ} (h : n < 2 ^ 53) : roundMagnitude n = n := if_pos h

theorem roundMagnitude_of_le {n : ℕ} (h : 2 ^ 53 ≤ n) :
    roundMagnitude n = roundQuotient n (2 ^ (n.log2 - 52)) * 2 ^ (n.log2 - 52) :=
  if_neg (not_lt.mpr h)

/-- Rounding never crosses a power of two downwards. -/
theorem two_pow_le_roundMagnitude {n k : ℕ} (h : 2 ^ k ≤ n) : 2 ^ k ≤ roundMagnitude n := by
  by_cases hn : n < 2 ^ 53
  · rw [roundMagnitude_of_lt hn]
    exact h
  · have hpos : n ≠ 0 := by omega
    have hk : k ≤ n.log2 := (Nat.le_log2 hpos).mpr h
    have h52 : 52 ≤ n.log2 := (Nat.le_log2 hpos).mpr (by omega)
    have hsplit : 2 ^ 52 * 2 ^ (n.log2 - 52) = 2 ^ n.log2 := by
      rw [← pow_add, Nat.add_sub_cancel' h52]
    have hquot : 2 ^ 52 ≤ n / 2 ^ (n.log2 - 52) := by
      rw [Nat.le_div_iff_mul_le (Nat.two_pow_pos _), hsplit]
      exact Nat.log2_self_le hpos
    rw [roundMagnitude_of_le (not_lt.mp hn)]
    calc 2 ^ k ≤ 2 ^ n.log2 := Nat.pow_le_pow_right (by decide) hk
      _ = 2 ^ 52 * 2 ^ (n.log2 - 52) := hsplit.symm
      _ ≤ _ := Nat.mul_le_mul_right _ (hquot.trans (div_le_roundQuotient _ _))

theorem log2_eq {n k : ℕ} (h : 2 ^ k ≤ n) (hlt : n < 2 ^ (k + 1)) : n.log2 = k := by
  have hpos : n ≠ 0 := by
    have := Nat.two_pow_pos k
    omega
  exact (Nat.log2_eq_iff hpos).mpr ⟨h, hlt⟩

theorem roundMagnitude_of_near {n : ℕ} (h : 2 ^ 63 - 512 ≤ n) : 2 ^ 63 ≤ roundMagnitude n := by
  by_cases hn : 2 ^ 63 ≤ n
  · exact two_pow_le_roundMagnitude hn
  · have hlog : n.log2 = 62 := log2_eq (by omega) (by omega)
    rw [roundMagnitude_of_le (by omega), hlog]
    unfold roundQuotient
    dsimp only
    split_ifs <;> omega

/-- Both roundings together lose at most half a step of the larger number, as the smaller one is
rounded to a divisor of that step. -/
theorem round_add_near {a b : ℕ} (hb : b ≤ a) (ha : a < 2 ^ 63) (hsum : 2 ^ 63 ≤ a + b) :
    2 ^ 63 - 512 ≤ roundMagnitude a + roundMagnitude b := by
  have hlog : a.log2 = 62 := log2_eq (by omega) (by omega)
  have hra : roundMagnitude a = roundQuotient a (2 ^ 10) * 2 ^ 10 := by
    rw [roundMagnitude_of_le (by omega), hlog]
  have hla := le_roundQuotient_mul a (Nat.two_pow_pos 10)
  by_cases hlarge : 2 ^ 62 ≤ b
  · have := two_pow_le_roundMagnitude hlarge
    have := two_pow_le_roundMagnitude (hlarge.trans hb)
    omega
  · by_cases hsmall : b < 2 ^ 53
    · rw [hra, roundMagnitude_of_lt hsmall]
      omega
    · have hlow : 53 ≤ b.log2 := (Nat.le_log2 (by omega)).mpr (by omega)
      have hhigh : b.log2 < 62 := (Nat.log2_lt (by omega)).mpr (by omega)
      have hlb := le_roundQuotient_mul b (Nat.two_pow_pos (b.log2 - 52))
      rw [hra, roundMagnitude_of_le (by omega)]
      generalize b.log2 = k at hlow hhigh hlb
      interval_cases k <;> omega

theorem le_round_add {a b : ℕ} (hsum : 2 ^ 63 ≤ a + b) :
    2 ^ 63 ≤ roundMagnitude (roundMagnitude a + roundMagnitude b) := by
  by_cases ha : 2 ^ 63 ≤ a
  · exact two_pow_le_roundMagnitude ((two_pow_le_roundMagnitude ha).trans (Nat.le_add_right _ _))
  by_cases hb : 2 ^ 63 ≤ b
  · exact two_pow_le_roundMagnitude ((two_pow_le_roundMagnitude hb).trans (Nat.le_add_left _ _))
  apply roundMagnitude_of_near
  rcases le_total b a with h | h
  · exact round_add_near h (not_le.mp ha) hsum
  · rw [Nat.add_comm]
    exact round_add_near h (not_le.mp hb) (by omega)

end TrafficMeter
