import Mathlib.Algebra.Ring.Int.Parity
import ScriptHost.Proofs.Decimal.Significant

/-!
# A rational number to some significant digits

A rational number is rounded to significant digits by scaling it so that they stand before the point
and taking the nearest whole number, the even one of two that are equally near.  The digits that are
computed of a positive ratio of natural numbers, and the carry into one digit more, come to that.

## Main definitions

* `Decimal.roundEven` : the nearest whole number.
* `Decimal.toSignificant` : a rational number to some significant digits.

## Main results

* `Decimal.roundEven_eq_iff` : which whole number is nearest.
* `Decimal.toSignificant_ratio` : the digits computed of a ratio and their exponent.
-/

namespace ScriptHost.Decimal

/-- The whole number nearest to a rational number; of two equally near ones the even one. -/
def roundEven (r : ℚ) : ℤ :=
  if r - ⌊r⌋ < 1 / 2 then ⌊r⌋
  else if 1 / 2 < r - ⌊r⌋ then ⌊r⌋ + 1
  else ⌊r⌋ + ⌊r⌋ % 2

/-- A rational number to `count` significant digits.  Its last one stands for the power of ten
`count - 1` places behind its decimal exponent. -/
def toSignificant (count : ℕ) (q : ℚ) : ℚ :=
  roundEven (q * 10 ^ (count - 1 - Int.log 10 |q|)) * 10 ^ (Int.log 10 |q| - (count - 1))

/-! ### The nearest whole number -/

variable {r : ℚ} {m : ℤ}

/-- Nearer than a half, or half way from an even number. -/
def IsNearestEven (r : ℚ) (m : ℤ) : Prop := |r - m| < 1 / 2 ∨ |r - m| = 1 / 2 ∧ Even m

theorem isNearestEven_roundEven (r : ℚ) : IsNearestEven r (roundEven r) := by
  have hfloor := Int.floor_le r
  have hlt := Int.lt_floor_add_one r
  unfold roundEven
  split_ifs with hbelow habove
  · refine .inl ?_
    rw [abs_of_nonneg (by linarith)]
    exact hbelow
  · refine .inl ?_
    push_cast
    rw [abs_of_nonpos (by linarith)]
    linarith
  · have hhalf : r - ⌊r⌋ = 1 / 2 := le_antisymm (not_lt.1 habove) (not_lt.1 hbelow)
    rcases Int.even_or_odd ⌊r⌋ with heven | hodd
    · rw [Int.even_iff.1 heven, add_zero]
      exact .inr ⟨by rw [hhalf]; norm_num, heven⟩
    · rw [Int.odd_iff.1 hodd]
      refine .inr ⟨?_, hodd.add_odd odd_one⟩
      push_cast
      rw [← sub_sub, hhalf]
      norm_num

/-- There is only one such number: two of them would be one apart, and both even. -/
theorem IsNearestEven.unique {n : ℤ} (hm : IsNearestEven r m) (hn : IsNearestEven r n) : m = n := by
  have hdistance : |(m - n : ℤ)| < 1 ∨ |(m - n : ℤ)| = 1 ∧ Even m ∧ Even n := by
    have htriangle := abs_sub_le (m : ℚ) r n
    rw [abs_sub_comm (m : ℚ) r] at htriangle
    have hcast : ((|m - n| : ℤ) : ℚ) = |(m : ℚ) - n| := by push_cast; rfl
    rcases hm with hm | ⟨hm, hm'⟩
    · refine .inl ?_
      have hle : |r - n| ≤ 1 / 2 := hn.elim le_of_lt fun h ↦ h.1.le
      exact_mod_cast (by rw [hcast]; linarith : ((|m - n| : ℤ) : ℚ) < 1)
    · rcases hn with hn | ⟨hn, hn'⟩
      · exact .inl (by exact_mod_cast (by rw [hcast]; linarith : ((|m - n| : ℤ) : ℚ) < 1))
      · have hle : |m - n| ≤ 1 := by
          exact_mod_cast (by rw [hcast]; linarith : ((|m - n| : ℤ) : ℚ) ≤ 1)
        exact hle.lt_or_eq.imp_right fun h ↦ ⟨h, hm', hn'⟩
  rcases hdistance with hlt | ⟨hone, hm, hn⟩
  · exact sub_eq_zero.1 (Int.abs_lt_one_iff.1 hlt)
  · have heven : Even |m - n| := even_abs.2 (hm.sub hn)
    rw [hone] at heven
    exact absurd heven (by decide)

/-- Which whole number is nearest. -/
theorem roundEven_eq_iff : roundEven r = m ↔ IsNearestEven r m :=
  ⟨fun h ↦ h ▸ isNearestEven_roundEven r, fun h ↦ (isNearestEven_roundEven r).unique h⟩

/-- Rounding does not look at the sign. -/
theorem roundEven_neg (r : ℚ) : roundEven (-r) = -roundEven r := by
  refine roundEven_eq_iff.2 ?_
  have hneg : |-r - (-roundEven r : ℤ)| = |r - roundEven r| := by
    push_cast
    rw [← neg_sub_neg, neg_neg, sub_neg_eq_add, ← abs_neg]
    congr 1
    ring
  unfold IsNearestEven
  rw [hneg, even_neg]
  exact isNearestEven_roundEven r

theorem toSignificant_neg (count : ℕ) (q : ℚ) :
    toSignificant count (-q) = -toSignificant count q := by
  rw [toSignificant, toSignificant, abs_neg, neg_mul, roundEven_neg, Int.cast_neg, neg_mul]

/-! ### Ratios of natural numbers -/

/-- A ratio of natural numbers is rounded to the nearest whole number. -/
theorem roundEven_ratio (num : ℕ) {den : ℕ} (hden : 0 < den) :
    roundEven (num / den) = roundRatio num den := by
  have hpos : (0 : ℚ) < den := by exact_mod_cast hden
  have hfloor : ⌊(num / den : ℚ)⌋ = (num / den : ℕ) := by
    rw [← Nat.floor_div_eq_div (K := ℚ), Int.natCast_floor_eq_floor (by positivity)]
  have hrest : (num / den : ℚ) - (num / den : ℕ) = (num % den : ℕ) / den := by
    rw [ratio_eq_add num hden, add_sub_cancel_left]
  have hcast : (((num / den : ℕ) : ℤ) : ℚ) = (num / den : ℕ) := Int.cast_natCast _
  have hbelow : ((num % den : ℕ) / den : ℚ) < 1 / 2 ↔ 2 * (num % den) < den := by
    rw [div_lt_div_iff₀ hpos two_pos, one_mul, mul_comm]
    exact_mod_cast Iff.rfl
  have habove : (1 / 2 : ℚ) < (num % den : ℕ) / den ↔ den < 2 * (num % den) := by
    rw [div_lt_div_iff₀ two_pos hpos, one_mul, mul_comm]
    exact_mod_cast Iff.rfl
  simp only [roundEven, roundRatio, hfloor, hcast, hrest, hbelow, habove]
  split_ifs <;> push_cast <;> rfl

section Ratio

variable {c num den m : ℕ} {e : ℤ}

/-- What is computed of a ratio is the ratio to so many significant digits. -/
theorem toSignificant_ratio (hnum : 0 < num) (hden : 0 < den)
    (h : significant (c + 1) num den = (m, e)) :
    toSignificant (c + 1) (num / den) = m * 10 ^ (e - c) := by
  have hpos : (0 : ℚ) < num / den := by positivity
  obtain ⟨a, b, hb, hratio, hround⟩ := exists_roundScaled num hden (c - exponentOf num den)
  have hscaled : roundEven (num / den * 10 ^ (c - exponentOf num den)) =
      roundScaled num den (c - exponentOf num den) := by
    rw [← hratio, roundEven_ratio a hb, hround]
  have hcount : (((c + 1 : ℕ) : ℤ) - 1) = c := by push_cast; ring
  rw [toSignificant, abs_of_pos hpos, ← exponentOf_eq_log hnum hden, hcount, hscaled]
  rw [significant_succ] at h
  split_ifs at h with hcarry
  · obtain ⟨rfl, rfl⟩ := Prod.mk.inj h
    rw [hcarry]
    push_cast
    rw [add_sub_right_comm, zpow_add_one₀ (by norm_num), pow_succ]
    ring
  · obtain ⟨rfl, rfl⟩ := Prod.mk.inj h
    push_cast
    rfl

/-- The decimal exponent after rounding is that of the first digit. -/
theorem log_of_digits (hlow : 10 ^ c ≤ m) (hhigh : m < 10 ^ (c + 1)) (e : ℤ) :
    Int.log 10 (m * 10 ^ (e - c) : ℚ) = e := by
  have hm : (0 : ℚ) < m := by exact_mod_cast Nat.lt_of_lt_of_le (by positivity) hlow
  have hlowQ : (10 : ℚ) ^ c ≤ m := by exact_mod_cast hlow
  have hhighQ : (m : ℚ) < 10 ^ (c + 1) := by exact_mod_cast hhigh
  have hpos : (0 : ℚ) < m * 10 ^ (e - c) := by positivity
  have hscale : (0 : ℚ) < 10 ^ (e - c) := by positivity
  refine le_antisymm (Int.lt_add_one_iff.1 ?_) ?_
  · refine (Int.lt_zpow_iff_log_lt (b := 10) (by decide) hpos).1 ?_
    have hmul := mul_lt_mul_of_pos_right hhighQ hscale
    rw [← zpow_natCast, ← zpow_add₀ (by norm_num)] at hmul
    have hexponent : ((c + 1 : ℕ) : ℤ) + (e - c) = e + 1 := by push_cast; ring
    rw [hexponent] at hmul
    exact_mod_cast hmul
  · refine (Int.zpow_le_iff_le_log (b := 10) (by decide) hpos).1 ?_
    have hmul := mul_le_mul_of_nonneg_right hlowQ hscale.le
    rw [← zpow_natCast, ← zpow_add₀ (by norm_num), add_sub_cancel] at hmul
    exact_mod_cast hmul

end Ratio

end ScriptHost.Decimal
