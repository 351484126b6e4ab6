import Mathlib.Algebra.Order.Field.Power
import Mathlib.Algebra.Order.Floor.Semifield
import Mathlib.Data.Int.Log
import Mathlib.Data.Rat.Floor
import ScriptHost.Decimal.General
import ScriptHost.Proofs.Double.Rounding

/-!
# Rounding to significant digits

A positive ratio is rounded to significant digits by scaling it so that they stand before the point
and rounding to a whole number, which may carry into one more digit.  What comes out is off by half
of the last digit at most.  In the other direction, a ratio so close to a number of that many digits
that no carry can hide the difference is rounded to that number, also from below a power of ten,
where the scaling is another one.

## Main results

* `Decimal.exponentOf_eq_log` : the decimal exponent of a ratio is its logarithm.
* `Decimal.significant_spec` : how far rounding to significant digits goes.
* `Decimal.significant_eq` : what is close to a number of few digits is rounded to it.
-/

namespace ScriptHost.Decimal

/-! ### The decimal exponent -/

/-- A number has as many digits as are needed for it. -/
theorem digitCount_le_iff {n k : ℕ} (hk : 0 < k) : digitCount n ≤ k ↔ n < 10 ^ k :=
  Nat.length_toDigits_le_iff (by decide) hk

theorem digitCount_pos (n : ℕ) : 0 < digitCount n := Nat.length_toDigits_pos

/-- The number of digits by the powers of ten around the number. -/
theorem digitCount_eq {n k : ℕ} (hlow : 10 ^ k ≤ n) (hhigh : n < 10 ^ (k + 1)) :
    digitCount n = k + 1 := by
  have hle := (digitCount_le_iff k.succ_pos).2 hhigh
  have hlt : k < digitCount n := by
    rcases Nat.eq_zero_or_pos k with rfl | hk
    · exact digitCount_pos n
    · exact Nat.lt_of_not_le fun h ↦ Nat.not_lt.2 hlow ((digitCount_le_iff hk).1 h)
  omega

theorem digitCount_eq_log {n : ℕ} (hn : n ≠ 0) : digitCount n = Nat.log 10 n + 1 :=
  digitCount_eq (Nat.pow_log_le_self 10 hn) (Nat.lt_pow_succ_log_self (by decide) n)

theorem digitCount_eq_clog {n : ℕ} (hn : n ≠ 0) : digitCount n = Nat.clog 10 (n + 1) := by
  have hpos : 0 < Nat.clog 10 (n + 1) := Nat.clog_pos (by decide) (by omega)
  refine Nat.le_antisymm ((digitCount_le_iff hpos).2 ?_) (Nat.clog_le_of_le_pow ?_)
  · exact Nat.lt_of_succ_le (Nat.le_pow_clog (by decide) _)
  · exact (digitCount_le_iff (digitCount_pos n)).1 le_rfl

section Ratio

variable {num den : ℕ}

/-- The decimal exponent of a ratio is its logarithm. -/
theorem exponentOf_eq_log (hnum : 0 < num) (hden : 0 < den) :
    exponentOf num den = Int.log 10 (num / den : ℚ) := by
  have hnumQ : (0 : ℚ) < num := by exact_mod_cast hnum
  have hdenQ : (0 : ℚ) < den := by exact_mod_cast hden
  unfold exponentOf
  split_ifs with hle
  · have hone : (1 : ℚ) ≤ num / den := (one_le_div hdenQ).2 (by exact_mod_cast hle)
    have hquotient : num / den ≠ 0 := Nat.div_ne_zero_iff.2 ⟨hden.ne', hle⟩
    rw [Int.log_of_one_le_right 10 hone, Nat.floor_div_eq_div, digitCount_eq_log hquotient]
    push_cast
    ring
  · have hone : (num / den : ℚ) ≤ 1 :=
      (div_le_one hdenQ).2 (by exact_mod_cast (Nat.lt_of_not_le hle).le)
    have hquotient : (den - 1) / num ≠ 0 := Nat.div_ne_zero_iff.2 ⟨hnum.ne', by omega⟩
    have hceil : ⌈((num : ℚ) / den)⁻¹⌉₊ = (den - 1) / num + 1 := by
      have hlow : (den - 1) / num * num < den :=
        Nat.lt_of_le_of_lt (Nat.div_mul_le_self _ _) (by omega)
      have hhigh : den ≤ ((den - 1) / num + 1) * num := by
        have := Nat.lt_div_mul_add (a := den - 1) hnum
        rw [Nat.add_mul, Nat.one_mul]
        omega
      rw [inv_div, Nat.ceil_eq_iff (Nat.succ_ne_zero _), Nat.succ_sub_one, lt_div_iff₀ hnumQ,
        div_le_iff₀ hnumQ]
      exact ⟨by exact_mod_cast hlow, by exact_mod_cast hhigh⟩
    rw [Int.log_of_right_le_one 10 hone, hceil, digitCount_eq_clog hquotient]

/-- A decimal exponent is known from the powers of ten around the ratio. -/
theorem exponentOf_eq (hnum : 0 < num) (hden : 0 < den) {e : ℤ}
    (hlow : (10 : ℚ) ^ e ≤ num / den) (hhigh : (num / den : ℚ) < 10 ^ (e + 1)) :
    exponentOf num den = e := by
  have hpos : (0 : ℚ) < num / den := by positivity
  have hle := (Int.zpow_le_iff_le_log (b := 10) (by decide) hpos).1 hlow
  have hlt := (Int.lt_zpow_iff_log_lt (b := 10) (by decide) hpos).1 hhigh
  rw [exponentOf_eq_log hnum hden]
  omega

theorem zpow_exponentOf_le (hnum : 0 < num) (hden : 0 < den) :
    (10 : ℚ) ^ exponentOf num den ≤ num / den := by
  rw [exponentOf_eq_log hnum hden]
  exact Int.zpow_log_le_self (b := 10) (by decide) (by positivity)

theorem lt_zpow_exponentOf (hnum : 0 < num) (hden : 0 < den) :
    (num / den : ℚ) < 10 ^ (exponentOf num den + 1) := by
  rw [exponentOf_eq_log hnum hden]
  exact Int.lt_zpow_succ_log_self (b := 10) (by decide) _

/-! ### Scaling and rounding -/

/-- The scaled ratio that is rounded. -/
theorem exists_roundScaled (num : ℕ) (hden : 0 < den) (s : ℤ) :
    ∃ a b : ℕ, 0 < b ∧ (a / b : ℚ) = num / den * 10 ^ s ∧
      roundScaled num den s = roundRatio a b := by
  cases s with
  | ofNat s =>
    refine ⟨num * 10 ^ s, den, hden, ?_, rfl⟩
    rw [Int.ofNat_eq_natCast, zpow_natCast]
    push_cast
    ring
  | negSucc s =>
    refine ⟨num, den * 10 ^ (s + 1), by positivity, ?_, rfl⟩
    rw [zpow_negSucc]
    push_cast
    rw [← div_div, div_eq_mul_inv ((num : ℚ) / den)]

theorem abs_roundScaled_sub_le (num : ℕ) (hden : 0 < den) (s : ℤ) :
    |(roundScaled num den s : ℚ) - num / den * 10 ^ s| ≤ 1 / 2 := by
  obtain ⟨a, b, hb, hratio, hround⟩ := exists_roundScaled num hden s
  rw [hround, ← hratio]
  exact abs_roundRatio_sub_le a hb

theorem roundScaled_eq (hden : 0 < den) {s : ℤ} {m : ℕ}
    (h : |(num / den * 10 ^ s : ℚ) - m| < 1 / 2) : roundScaled num den s = m := by
  obtain ⟨a, b, hb, hratio, hround⟩ := exists_roundScaled num hden s
  rw [hround]
  exact roundRatio_eq_of_abs_sub_lt hb (hratio ▸ h)

/-! ### Significant digits -/

variable {c : ℕ}

/-- The two ways in which rounding ends, with a carry and without one. -/
theorem significant_succ (c num den : ℕ) :
    significant (c + 1) num den =
      if roundScaled num den (c - exponentOf num den) = 10 ^ (c + 1) then
        (10 ^ c, exponentOf num den + 1)
      else (roundScaled num den (c - exponentOf num den), exponentOf num den) := by
  have hshift : ((c + 1 : ℕ) : ℤ) - 1 - exponentOf num den = c - exponentOf num den := by
    push_cast
    ring
  rw [significant, hshift]
  rfl

/-- A ratio between powers of ten, scaled. -/
theorem scaled_bounds (hnum : 0 < num) (hden : 0 < den) (c : ℕ) :
    (10 : ℚ) ^ c ≤ num / den * 10 ^ (c - exponentOf num den) ∧
      (num / den * 10 ^ (c - exponentOf num den) : ℚ) < 10 ^ (c + 1) := by
  have hscale : (0 : ℚ) < 10 ^ (c - exponentOf num den) := by positivity
  have hlow := mul_le_mul_of_nonneg_right (zpow_exponentOf_le hnum hden) hscale.le
  have hhigh := mul_lt_mul_of_pos_right (lt_zpow_exponentOf hnum hden) hscale
  rw [← zpow_add₀ (by norm_num), add_sub_cancel, zpow_natCast] at hlow
  rw [← zpow_add₀ (by norm_num), add_right_comm, add_sub_cancel] at hhigh
  exact ⟨hlow, by exact_mod_cast hhigh⟩

/-- Rounding gives the digits that were asked for, off by half of the last one at most. -/
theorem significant_spec (hnum : 0 < num) (hden : 0 < den) {m : ℕ} {e : ℤ}
    (h : significant (c + 1) num den = (m, e)) :
    10 ^ c ≤ m ∧ m < 10 ^ (c + 1) ∧ |(m : ℚ) - num / den * 10 ^ (c - e)| ≤ 1 / 2 := by
  obtain ⟨hlow, hhigh⟩ := scaled_bounds hnum hden c
  have hround := abs_roundScaled_sub_le num hden (c - exponentOf num den)
  obtain ⟨hbelow, habove⟩ := abs_le.1 hround
  have hge : 10 ^ c ≤ roundScaled num den (c - exponentOf num den) := by
    have hlt : (10 : ℚ) ^ c < roundScaled num den (c - exponentOf num den) + 1 := by linarith
    exact Nat.le_of_lt_succ (by exact_mod_cast hlt)
  have hle : roundScaled num den (c - exponentOf num den) ≤ 10 ^ (c + 1) := by
    have hlt : (roundScaled num den (c - exponentOf num den) : ℚ) < 10 ^ (c + 1) + 1 := by linarith
    exact Nat.le_of_lt_succ (by exact_mod_cast hlt)
  rw [significant_succ] at h
  split_ifs at h with hcarry
  · obtain ⟨rfl, rfl⟩ := Prod.mk.inj h
    refine ⟨le_rfl, Nat.pow_lt_pow_right (by decide) c.lt_succ_self, ?_⟩
    have htenth : (num / den * 10 ^ (c - (exponentOf num den + 1)) : ℚ) =
        num / den * 10 ^ (c - exponentOf num den) / 10 := by
      rw [← sub_sub, zpow_sub_one₀ (by norm_num)]
      ring
    rw [hcarry, Nat.cast_pow, Nat.cast_ofNat, pow_succ, abs_le] at hround
    rw [htenth, Nat.cast_pow, Nat.cast_ofNat, abs_le]
    constructor <;> linarith
  · obtain ⟨rfl, rfl⟩ := Prod.mk.inj h
    exact ⟨hge, lt_of_le_of_ne hle hcarry, hround⟩

/-- What is close to a number of that many digits is rounded to it, also from below a power of ten,
where one more digit is kept and the carry takes it back. -/
theorem significant_eq (hnum : 0 < num) (hden : 0 < den) {m : ℕ} {e : ℤ} (hlow : 10 ^ c ≤ m)
    (hhigh : m < 10 ^ (c + 1)) (h : |(num / den * 10 ^ (c - e) : ℚ) - m| < 1 / 20) :
    significant (c + 1) num den = (m, e) := by
  have hscale : (0 : ℚ) < 10 ^ (c - e) := by positivity
  have hpower (k : ℤ) : (10 : ℚ) ^ (e + k) * 10 ^ (c - e) = 10 ^ (c + k) := by
    rw [← zpow_add₀ (by norm_num)]
    congr 1
    ring
  obtain ⟨hbelow, habove⟩ := abs_lt.1 h
  rw [significant_succ]
  by_cases hdecade : (10 : ℚ) ^ e ≤ num / den
  · have hexponent : exponentOf num den = e := by
      refine exponentOf_eq hnum hden hdecade (lt_of_mul_lt_mul_right ?_ hscale.le)
      have hm : (m : ℚ) + 1 ≤ 10 ^ (c + 1) := by exact_mod_cast hhigh
      rw [hpower]
      exact_mod_cast (by linarith : (num / den * 10 ^ (c - e) : ℚ) < 10 ^ (c + 1))
    have hround := roundScaled_eq hden (h.trans (by norm_num))
    rw [hexponent, hround, if_neg (Nat.ne_of_lt hhigh)]
  · have hscaled := mul_lt_mul_of_pos_right (not_le.1 hdecade) hscale
    rw [← zpow_add₀ (by norm_num), add_sub_cancel, zpow_natCast] at hscaled
    obtain rfl : m = 10 ^ c := by
      have hm : (m : ℚ) < 10 ^ c + 1 := by linarith
      exact Nat.le_antisymm (Nat.le_of_lt_succ (by exact_mod_cast hm)) hlow
    rw [Nat.cast_pow, Nat.cast_ofNat] at hbelow habove
    have hone : (1 : ℚ) ≤ 10 ^ c := one_le_pow₀ (by norm_num)
    have hexponent : exponentOf num den = e - 1 := by
      refine exponentOf_eq hnum hden (le_of_mul_le_mul_right ?_ hscale) ?_
      · rw [sub_eq_add_neg, hpower, ← sub_eq_add_neg, zpow_sub_one₀ (by norm_num), zpow_natCast]
        linarith
      · rw [sub_add_cancel]
        exact not_le.1 hdecade
    have hround : roundScaled num den (c - (e - 1)) = 10 ^ (c + 1) := by
      refine roundScaled_eq hden ?_
      rw [sub_sub_eq_add_sub, add_sub_right_comm, zpow_add_one₀ (by norm_num), ← mul_assoc,
        Nat.cast_pow, Nat.cast_ofNat, pow_succ, abs_lt]
      constructor <;> linarith
    rw [hexponent, hround, if_pos rfl, sub_add_cancel]

end Ratio

end ScriptHost.Decimal
