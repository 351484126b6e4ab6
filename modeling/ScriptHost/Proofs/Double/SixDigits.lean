import ScriptHost.Decimal.Literal
import ScriptHost.Proofs.Decimal.Significant

/-!
# Six digits in a double

A number of six digits is told from its neighbours by the double nearest to it: rounding that double
to six digits gives the number back.  This holds from half of the least normal double on, so that it
covers what normal doubles are rounded to, the least of which is itself no normal double.  At the
other end no finite double is rounded to six digits beyond the largest one.

## Main definitions

* `Decimal.SixDigits` : a number of six digits within the range of the doubles.
* `Decimal.HasSixDigits` : zero, or a number of at most six digits within the range of the normal
  doubles.

## Main results

* `Decimal.HasSixDigits.exists_sixDigits` : such a number with all of its six digits.
* `Decimal.sixDigits_significant` : what a normal double is rounded to is such a number.
* `Decimal.SixDigits.exists_nearest` : the double nearest to such a number is rounded to it.
-/

namespace ScriptHost.Decimal

open Magnitude (unitsPerOne maxUnits)

/-- The number `m * 10 ^ (e - 5)` has six digits, the first of which is not zero, and lies between
half of the least normal double and the largest double. -/
structure SixDigits (m : ℕ) (e : ℤ) : Prop where
  le_digits : 10 ^ 5 ≤ m
  digits_lt : m < 10 ^ 6
  le_units : (2 : ℚ) ^ 51 ≤ m * 10 ^ (e - 5) * unitsPerOne
  units_le : (m * 10 ^ (e - 5) * unitsPerOne : ℚ) ≤ maxUnits

/-- Zero, or a whole number of at most six digits with a power of ten, from the least to the largest
number of six digits between the least normal double and the largest double. -/
def HasSixDigits (q : ℚ) : Prop :=
  q = 0 ∨ ∃ m k : ℤ, q = m * 10 ^ k ∧ 0 < |m| ∧ |m| < 10 ^ 6 ∧
    222508 / 10 ^ 313 ≤ |q| ∧ |q| ≤ 179769 * 10 ^ 303

/-! ### The range -/

theorem unitsPerOne_cast_pos : (0 : ℚ) < unitsPerOne := by exact_mod_cast Magnitude.unitsPerOne_pos

/-- The largest number of six digits that is a double up to rounding. -/
theorem largest_le_maxUnits : (179769 * (10 ^ 303 * unitsPerOne) : ℚ) ≤ maxUnits := by
  have hnat : 179769 * (10 ^ 303 * unitsPerOne) ≤ maxUnits := by decide +kernel
  exact_mod_cast hnat

/-- No double reaches half of the way from the largest number of six digits to the next one. -/
theorem two_mul_maxUnits_lt : (2 * maxUnits : ℚ) < 359539 * (10 ^ 303 * unitsPerOne) := by
  have hnat : 2 * maxUnits < 359539 * (10 ^ 303 * unitsPerOne) := by decide +kernel
  exact_mod_cast hnat

/-- The least number of six digits among the normal doubles. -/
theorem le_least : (2 ^ 51 * 10 ^ 313 : ℚ) ≤ 222508 * unitsPerOne := by
  have hnat : 2 ^ 51 * 10 ^ 313 ≤ 222508 * unitsPerOne := by decide +kernel
  exact_mod_cast hnat

/-- Zeros after fewer than six digits make them six. -/
theorem exists_mul_ten_pow {n : ℕ} (hn : n ≠ 0) (hlt : n < 10 ^ 6) :
    ∃ j, 10 ^ 5 ≤ n * 10 ^ j ∧ n * 10 ^ j < 10 ^ 6 := by
  have hlog : Nat.log 10 n ≤ 5 := Nat.lt_succ_iff.1 (Nat.log_lt_of_lt_pow hn hlt)
  have hpower : 10 ^ Nat.log 10 n * 10 ^ (5 - Nat.log 10 n) = 10 ^ 5 := by
    rw [← Nat.pow_add, Nat.add_sub_cancel' hlog]
  refine ⟨5 - Nat.log 10 n, ?_, ?_⟩
  · rw [← hpower]
    exact Nat.mul_le_mul_right _ (Nat.pow_log_le_self 10 hn)
  · calc n * 10 ^ (5 - Nat.log 10 n)
        < 10 ^ (Nat.log 10 n + 1) * 10 ^ (5 - Nat.log 10 n) :=
          Nat.mul_lt_mul_of_pos_right (Nat.lt_pow_succ_log_self (by decide) _) (by positivity)
      _ = 10 ^ 6 := by rw [Nat.pow_succ, Nat.mul_right_comm, hpower, ← Nat.pow_succ]

/-- A number of at most six digits, with zeros after them up to the sixth. -/
theorem HasSixDigits.exists_sixDigits {q : ℚ} (h : HasSixDigits q) (hq : q ≠ 0) :
    ∃ m e, SixDigits m e ∧ |q| = m * 10 ^ (e - 5) := by
  obtain ⟨n, k, hvalue, hpos, hlt, hlow, hhigh⟩ := h.resolve_left hq
  rw [← Int.natCast_natAbs] at hpos hlt
  obtain ⟨j, hdigits, hdigits'⟩ := exists_mul_ten_pow (n := n.natAbs) (by omega) (by omega)
  have habs : |q| = (n.natAbs * 10 ^ j : ℕ) * 10 ^ (k - j + 5 - 5) := by
    rw [hvalue, abs_mul, abs_of_pos (by positivity : (0 : ℚ) < 10 ^ k), ← Int.cast_abs,
      ← Int.natCast_natAbs, Nat.cast_mul, Nat.cast_pow, Nat.cast_ofNat, mul_assoc, ← zpow_natCast,
      ← zpow_add₀ (by norm_num)]
    norm_num
  refine ⟨_, _, ⟨hdigits, hdigits', ?_, ?_⟩, habs⟩
  · rw [← habs]
    rw [div_le_iff₀ (by positivity)] at hlow
    have hunits := mul_le_mul_of_nonneg_right hlow unitsPerOne_cast_pos.le
    exact le_of_mul_le_mul_right (le_least.trans (hunits.trans_eq (mul_right_comm _ _ _)))
      (by positivity : (0 : ℚ) < 10 ^ 313)
  · rw [← habs]
    refine (mul_le_mul_of_nonneg_right hhigh unitsPerOne_cast_pos.le).trans ?_
    rw [mul_assoc]
    exact largest_le_maxUnits

/-! ### The last digit

With the decimal exponent `e` the last of six digits counts for `10 ^ (e - 5)`. -/

theorem lastDigit_pos (e : ℤ) : (0 : ℚ) < 10 ^ (e - 5) * unitsPerOne :=
  mul_pos (by positivity) unitsPerOne_cast_pos

/-- A ratio of units, scaled to six digits. -/
theorem scaled_eq_div (n : ℕ) (e : ℤ) :
    (n / unitsPerOne * 10 ^ ((5 : ℕ) - e) : ℚ) = n / (10 ^ (e - 5) * unitsPerOne) := by
  rw [← neg_sub e, zpow_neg, Nat.cast_ofNat, ← div_eq_mul_inv, div_div, mul_comm (10 ^ (e - 5))]

/-- A larger exponent makes the last digit count for ten times as much. -/
theorem lastDigit_mul_ten_le {i j : ℤ} (h : i < j) :
    (10 ^ i * unitsPerOne : ℚ) * 10 ≤ 10 ^ j * unitsPerOne := by
  rw [mul_right_comm, ← zpow_add_one₀ (by norm_num)]
  exact mul_le_mul_of_nonneg_right (zpow_le_zpow_right₀ (by norm_num) h) unitsPerOne_cast_pos.le

/-- What the last digit counts for, against the one of the largest number. -/
theorem lastDigit_cases (e : ℤ) :
    (10 ^ (e - 5) * unitsPerOne : ℚ) * 10 ≤ 10 ^ 303 * unitsPerOne ∨
      (10 ^ (e - 5) * unitsPerOne : ℚ) = 10 ^ 303 * unitsPerOne ∨
      (10 ^ 303 * unitsPerOne : ℚ) * 10 ≤ 10 ^ (e - 5) * unitsPerOne := by
  rw [← zpow_natCast]
  rcases lt_trichotomy (e - 5) (303 : ℕ) with hlt | heq | hgt
  · exact .inl (lastDigit_mul_ten_le hlt)
  · exact .inr (.inl (by rw [heq]))
  · exact .inr (.inr (lastDigit_mul_ten_le hgt))

/-- Rounding to six digits does not go beyond the largest double. -/
theorem units_le_of_scaled_le {m : ℕ} {e : ℤ} {r : ℚ} (hlow : 10 ^ 5 ≤ m) (hhigh : m < 10 ^ 6)
    (hr : (m : ℚ) ≤ r + 1 / 2) (h : r * (10 ^ (e - 5) * unitsPerOne) ≤ maxUnits) :
    (m * (10 ^ (e - 5) * unitsPerOne) : ℚ) ≤ maxUnits := by
  have hlargest := largest_le_maxUnits
  have hmax := two_mul_maxUnits_lt
  have hlast := lastDigit_pos e
  have hlow : (10 ^ 5 : ℚ) ≤ m := by exact_mod_cast hlow
  have hcases := lastDigit_cases e
  generalize (10 ^ (e - 5) * unitsPerOne : ℚ) = p at *
  generalize (10 ^ 303 * unitsPerOne : ℚ) = top at *
  have hscaled : (m - 1 / 2) * p ≤ maxUnits :=
    (mul_le_mul_of_nonneg_right (by linarith) hlast.le).trans h
  rcases hcases with hbelow | rfl | habove
  -- Six digits of a smaller power of ten stay below it altogether.
  · have hhigh : (m : ℚ) ≤ 10 ^ 6 := by exact_mod_cast hhigh.le
    have hmul := mul_le_mul_of_nonneg_right hhigh hlast.le
    linarith
  -- Here the largest double decides, less than half of the last digit above the largest number.
  · have hm : m ≤ 179769 := by
      by_contra hlt
      have hlt : (179770 : ℚ) ≤ m := by exact_mod_cast Nat.lt_of_not_le hlt
      have hmul := mul_le_mul_of_nonneg_right hlt hlast.le
      linarith
    have hm : (m : ℚ) ≤ 179769 := by exact_mod_cast hm
    exact (mul_le_mul_of_nonneg_right hm hlast.le).trans hlargest
  -- Any six digits of a larger power of ten would be too many.
  · have hmul := mul_le_mul_of_nonneg_right hlow hlast.le
    linarith

/-- What a normal double is rounded to is a number of six digits within the range. -/
theorem sixDigits_significant {x : Magnitude} (hx : 2 ^ 52 ≤ x.units) {m : ℕ} {e : ℤ}
    (h : significant 6 x.units unitsPerOne = (m, e)) : SixDigits m e := by
  have hunits : 0 < x.units := Nat.lt_of_lt_of_le (by decide) hx
  obtain ⟨hlow, hhigh, hround⟩ := significant_spec (c := 5) hunits Magnitude.unitsPerOne_pos h
  have hlast := lastDigit_pos e
  have hscaled := div_mul_cancel₀ (x.units : ℚ) hlast.ne'
  rw [scaled_eq_div] at hround
  obtain ⟨hbelow, habove⟩ := abs_le.1 hround
  refine ⟨hlow, hhigh, ?_, ?_⟩
  · have hlowQ : (10 ^ 5 : ℚ) ≤ m := by exact_mod_cast hlow
    have hx : (2 : ℚ) ^ 52 ≤ x.units := by exact_mod_cast hx
    have hdouble : (x.units : ℚ) ≤ 2 * m * (10 ^ (e - 5) * unitsPerOne) := by
      rw [← hscaled]
      exact mul_le_mul_of_nonneg_right (by linarith) hlast.le
    rw [mul_assoc]
    linarith
  · have hmax : (x.units : ℚ) ≤ maxUnits := by exact_mod_cast x.units_le_maxUnits
    rw [mul_assoc]
    exact units_le_of_scaled_le hlow hhigh (by linarith) (hscaled.le.trans hmax)

namespace SixDigits

variable {m : ℕ} {e : ℤ}

theorem le_exponent (h : SixDigits m e) : -1075 ≤ e := by
  have hdigits : (m : ℚ) ≤ 10 ^ 6 := by exact_mod_cast h.digits_lt.le
  obtain ⟨k, hk, hunits⟩ : ∃ k ≤ 1074, unitsPerOne = 2 ^ k :=
    ⟨1074, le_rfl, Magnitude.unitsPerOne_eq⟩
  have hone : (1 : ℚ) ≤ 10 ^ (6 + (e - 5) + k) := by
    calc (1 : ℚ) ≤ 2 ^ 51 := by norm_num
      _ ≤ m * 10 ^ (e - 5) * unitsPerOne := h.le_units
      _ ≤ 10 ^ 6 * 10 ^ (e - 5) * 10 ^ k := by
        rw [hunits]
        push_cast
        gcongr
        norm_num
      _ = 10 ^ (6 + (e - 5) + k) := by
        rw [zpow_add₀ (by norm_num), zpow_add₀ (by norm_num), zpow_natCast]
        rfl
  have hexponent := (one_le_zpow_iff_right₀ (by norm_num)).1 hone
  omega

theorem exponent_le (h : SixDigits m e) : e ≤ 308 := by
  by_contra hlt
  have hlast : (10 ^ 303 * unitsPerOne : ℚ) * 10 ≤ 10 ^ (e - 5) * unitsPerOne := by
    rw [← zpow_natCast]
    exact lastDigit_mul_ten_le (by omega)
  have htop : (0 : ℚ) < 10 ^ 303 * unitsPerOne := mul_pos (by positivity) unitsPerOne_cast_pos
  have hdigits : (10 ^ 5 : ℚ) ≤ m := by exact_mod_cast h.le_digits
  have hmax := two_mul_maxUnits_lt
  have hle := h.units_le
  rw [mul_assoc] at hle
  generalize (10 ^ (e - 5) * unitsPerOne : ℚ) = p at *
  generalize (10 ^ 303 * unitsPerOne : ℚ) = top at *
  have hmul := mul_le_mul hdigits hlast (by linarith) (by linarith)
  linarith

/-- The exponent of such a number is read in full. -/
theorem exponent_lt (h : SixDigits m e) : e.natAbs < exponentBound := by
  have hlow := h.le_exponent
  have hhigh := h.exponent_le
  have hbound : 2000 ≤ exponentBound := by decide
  omega

/-- The double nearest to such a number is rounded to it. -/
theorem significant_units (h : SixDigits m e) {num den : ℕ} (hden : 0 < den) {x : Magnitude}
    (hvalue : (num / den : ℚ) = m * 10 ^ (e - 5)) (hx : Magnitude.nearest num den = some x) :
    0 < x.units ∧ significant 6 x.units unitsPerOne = (m, e) := by
  have hscaled : (num * unitsPerOne / den : ℚ) = m * 10 ^ (e - 5) * unitsPerOne := by
    rw [← hvalue]
    ring
  have herror := Magnitude.abs_units_sub_le hden hx
  have hlow := h.le_units
  have hunits : 2 ^ 51 ≤ x.units := Magnitude.two_pow_le_units hden hx (hscaled ▸ hlow)
  have hpos : 0 < x.units := Nat.lt_of_lt_of_le (by decide) hunits
  refine ⟨hpos, significant_eq hpos Magnitude.unitsPerOne_pos h.le_digits h.digits_lt ?_⟩
  have hmax : max (1 / 2) (m * 10 ^ (e - 5) * unitsPerOne / 2 ^ 53 : ℚ) ≤
      m * 10 ^ (e - 5) * unitsPerOne / 2 ^ 52 := by
    refine max_le ?_ ?_ <;> linarith
  have herror := (hscaled ▸ herror).trans hmax
  have hdigits : (m : ℚ) < 10 ^ 6 := by exact_mod_cast h.digits_lt
  have hlast := lastDigit_pos e
  rw [mul_assoc] at herror
  rw [scaled_eq_div, div_sub' hlast.ne', abs_div, abs_of_pos hlast, div_lt_iff₀ hlast,
    mul_comm _ (m : ℚ)]
  calc |(x.units - m * (10 ^ (e - 5) * unitsPerOne) : ℚ)|
      ≤ m * (10 ^ (e - 5) * unitsPerOne) / 2 ^ 52 := herror
    _ = m / 2 ^ 52 * (10 ^ (e - 5) * unitsPerOne) := by ring
    _ < 1 / 20 * (10 ^ (e - 5) * unitsPerOne) := mul_lt_mul_of_pos_right (by linarith) hlast

/-- There is a double nearest to such a number, and it is rounded to it. -/
theorem exists_nearest (h : SixDigits m e) {num den : ℕ} (hden : 0 < den)
    (hvalue : (num / den : ℚ) = m * 10 ^ (e - 5)) :
    ∃ x, Magnitude.nearest num den = some x ∧ 0 < x.units ∧
      significant 6 x.units unitsPerOne = (m, e) := by
  have hscaled : (num * unitsPerOne / den : ℚ) = m * 10 ^ (e - 5) * unitsPerOne := by
    rw [← hvalue]
    ring
  obtain ⟨x, hx⟩ := Magnitude.exists_nearest hden (hscaled.trans_le h.units_le)
  exact ⟨x, hx, h.significant_units hden hvalue hx⟩

end SixDigits

end ScriptHost.Decimal
