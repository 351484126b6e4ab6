import Mathlib.Algebra.Order.Field.Basic
import Mathlib.Algebra.Order.Ring.Abs
import Mathlib.Data.Rat.Cast.Order
import Mathlib.Tactic.FieldSimp
import Mathlib.Tactic.Linarith
import Mathlib.Tactic.Positivity
import Mathlib.Tactic.Ring
import ScriptHost.Double.Nearest

/-!
# How far rounding goes

The double nearest to a ratio depends on the ratio alone.  It is off by half a unit of its last
place: by half of the least unit, or by one part in `2 ^ 53`.  Everything is counted in the units of
`2 ^ (-1074)`, of which every magnitude holds a whole number.

## Main definitions

* `Magnitude.maxUnits` : how many units the largest magnitude holds.

## Main results

* `abs_roundRatio_sub_le` : rounding to a whole number.
* `Magnitude.nearest_congr` : the nearest magnitude depends on the ratio alone.
* `Magnitude.abs_units_sub_le` : how far the nearest magnitude is off.
* `Magnitude.exists_nearest` : up to the largest magnitude there is a nearest one.
* `Magnitude.nearest_eq_none`, `Magnitude.nearest_eq_zero` : far beyond it, and close to zero.
-/

namespace ScriptHost

/-! ### Whole numbers -/

/-- A ratio as a whole number and a rest. -/
theorem ratio_eq_add (num : ℕ) {den : ℕ} (hden : 0 < den) :
    (num : ℚ) / den = (num / den : ℕ) + (num % den : ℕ) / (den : ℚ) := by
  have hden : (den : ℚ) ≠ 0 := by positivity
  have hnum : (num : ℚ) = den * (num / den : ℕ) + (num % den : ℕ) := by
    exact_mod_cast (Nat.div_add_mod num den).symm
  rw [div_eq_iff hden, add_mul, div_mul_cancel₀ _ hden, mul_comm]
  exact hnum

/-- Rounding to a whole number is off by a half at most. -/
theorem abs_roundRatio_sub_le (num : ℕ) {den : ℕ} (hden : 0 < den) :
    |(roundRatio num den : ℚ) - num / den| ≤ 1 / 2 := by
  have hpos : (0 : ℚ) < den := by exact_mod_cast hden
  have hrest : (0 : ℚ) ≤ (num % den : ℕ) / (den : ℚ) := by positivity
  have hlt : ((num % den : ℕ) : ℚ) / den < 1 :=
    (div_lt_one hpos).2 (by exact_mod_cast Nat.mod_lt num hden)
  rw [ratio_eq_add num hden, abs_le]
  unfold roundRatio
  dsimp only
  split_ifs with hbelow habove
  · have hhalf : ((num % den : ℕ) : ℚ) / den ≤ 1 / 2 := by
      rw [div_le_div_iff₀ hpos two_pos]
      exact_mod_cast (by omega : num % den * 2 ≤ 1 * den)
    constructor <;> linarith
  · have hhalf : (1 : ℚ) / 2 ≤ (num % den : ℕ) / (den : ℚ) := by
      rw [div_le_div_iff₀ two_pos hpos]
      exact_mod_cast (by omega : 1 * den ≤ num % den * 2)
    push_cast
    constructor <;> linarith
  · have hhalf : ((num % den : ℕ) : ℚ) / den = 1 / 2 := by
      rw [div_eq_div_iff hpos.ne' two_ne_zero]
      exact_mod_cast (by omega : num % den * 2 = 1 * den)
    have heven : ((num / den % 2 : ℕ) : ℚ) ≤ 1 := by
      exact_mod_cast Nat.le_of_lt_succ (Nat.mod_lt (num / den) two_pos)
    have hzero : (0 : ℚ) ≤ (num / den % 2 : ℕ) := by positivity
    push_cast
    rw [hhalf]
    constructor <;> linarith

/-- A whole number that is nearer than a half is the one to which is rounded. -/
theorem roundRatio_eq_of_abs_sub_lt {num den m : ℕ} (hden : 0 < den)
    (h : |(num : ℚ) / den - m| < 1 / 2) : roundRatio num den = m := by
  have hround := abs_roundRatio_sub_le num hden
  have hdist : |(roundRatio num den : ℚ) - m| < 1 := by
    calc |(roundRatio num den : ℚ) - m|
        ≤ |(roundRatio num den : ℚ) - num / den| + |(num : ℚ) / den - m| := abs_sub_le _ _ _
      _ < 1 / 2 + 1 / 2 := add_lt_add_of_le_of_lt hround h
      _ = 1 := by norm_num
  have hint : |(roundRatio num den : ℤ) - m| < 1 := by exact_mod_cast hdist
  have hzero := Int.abs_lt_one_iff.1 hint
  omega

/-- A common factor does not matter. -/
theorem roundRatio_mul (num den : ℕ) {c : ℕ} (hc : 0 < c) :
    roundRatio (num * c) (den * c) = roundRatio num den := by
  have hbelow : 2 * (num % den * c) < den * c ↔ 2 * (num % den) < den := by
    rw [← Nat.mul_assoc, Nat.mul_lt_mul_right hc]
  have habove : den * c < 2 * (num % den * c) ↔ den < 2 * (num % den) := by
    rw [← Nat.mul_assoc, Nat.mul_lt_mul_right hc]
  simp only [roundRatio, Nat.mul_div_mul_right _ _ hc, Nat.mul_mod_mul_right, hbelow, habove]

namespace Magnitude

theorem unitsPerOne_eq : unitsPerOne = 2 ^ 1074 := by rw [unitsPerOne, Nat.one_shiftLeft]

theorem two_pow_add (k : ℕ) : 2 ^ (k + 1074) = 2 ^ k * unitsPerOne := by
  rw [unitsPerOne_eq, Nat.pow_add]

theorem unitsPerOne_pos : 0 < unitsPerOne := by
  rw [unitsPerOne_eq]
  exact Nat.two_pow_pos _

/-- How many units the largest magnitude holds. -/
def maxUnits : ℕ := (1 <<< 53 - 1) <<< 2045

theorem cast_shiftLeft (m k : ℕ) : ((m <<< k : ℕ) : ℚ) = m * 2 ^ k := by
  rw [Nat.shiftLeft_eq, Nat.cast_mul, Nat.cast_pow, Nat.cast_ofNat]

/-! ### The ratio alone -/

theorem nearest_mul (num den : ℕ) {c : ℕ} (hc : 0 < c) :
    nearest (num * c) (den * c) = nearest num den := by
  have hshift (k : ℕ) : (den * c) <<< k = den <<< k * c := by
    rw [Nat.shiftLeft_eq, Nat.shiftLeft_eq]
    ring
  have hscaled : num * c * unitsPerOne = num * unitsPerOne * c := by ring
  simp only [nearest, hscaled, Nat.mul_div_mul_right _ _ hc, hshift, roundRatio_mul _ _ hc]

/-- The nearest magnitude depends on the ratio alone. -/
theorem nearest_congr {num den num' den' : ℕ} (hden : 0 < den) (hden' : 0 < den')
    (h : (num : ℚ) / den = num' / den') : nearest num den = nearest num' den' := by
  have hcross : num * den' = num' * den := by
    have hpos : (den : ℚ) ≠ 0 := by positivity
    have hpos' : (den' : ℚ) ≠ 0 := by positivity
    rw [div_eq_div_iff hpos hpos'] at h
    exact_mod_cast h
  calc nearest num den = nearest (num * den') (den * den') := (nearest_mul _ _ hden').symm
    _ = nearest (num' * den) (den' * den) := by rw [hcross, Nat.mul_comm den]
    _ = nearest num' den' := nearest_mul _ _ hden

/-! ### The mantissa -/

/-- A unit of the mantissa holds at least one unit. -/
theorem mant_le_units (x : Magnitude) : x.mant ≤ x.units := by
  rw [units, Nat.shiftLeft_eq]
  exact Nat.le_mul_of_pos_right _ (Nat.two_pow_pos _)

theorem mant_ne_zero {x : Magnitude} (hx : 0 < x.units) : x.mant ≠ 0 := by
  intro hzero
  rw [units, hzero, Nat.zero_shiftLeft] at hx
  exact Nat.lt_irrefl 0 hx

/-- Up to the last exponent no mantissa holds more units than the largest magnitude. -/
theorem mul_two_pow_le_maxUnits {mant expo : ℕ} (hmant : mant < 1 <<< 53) (hexpo : expo ≤ 2045) :
    mant * 2 ^ expo ≤ maxUnits := by
  rw [maxUnits, Nat.shiftLeft_eq]
  exact Nat.mul_le_mul (Nat.le_sub_one_of_lt hmant) (Nat.pow_le_pow_right two_pos hexpo)

/-- No magnitude holds more units than the largest one. -/
theorem units_le_maxUnits (x : Magnitude) : x.units ≤ maxUnits := by
  rw [units, Nat.shiftLeft_eq]
  exact mul_two_pow_le_maxUnits x.mant_lt x.expo_le

theorem ofParts?_eq_some {mant expo : ℕ} (hmant : mant < 1 <<< 53) (hexpo : expo ≤ 2045)
    (hcanonical : expo = 0 ∨ 1 <<< 52 ≤ mant) :
    ofParts? mant expo = some ⟨mant, expo, hmant, hexpo, hcanonical⟩ :=
  dif_pos ⟨hmant, hexpo, hcanonical⟩

theorem ofParts?_eq_none {mant expo : ℕ} (h : 2045 < expo) : ofParts? mant expo = none :=
  dif_neg fun hparts ↦ absurd hparts.2.1 (Nat.not_le.2 h)

theorem units_of_ofParts? {mant expo : ℕ} {x : Magnitude} (h : ofParts? mant expo = some x) :
    x.units = mant * 2 ^ expo := by
  unfold ofParts? at h
  split_ifs at h
  obtain rfl := Option.some.inj h
  exact Nat.shiftLeft_eq _ _

/-- The exponent for a ratio of units. -/
def binade (scaled den : ℕ) : ℕ := (scaled / den).log2 - 52

/-- The mantissa for a ratio of units, which may be one too long. -/
def rounded (scaled den : ℕ) : ℕ := roundRatio scaled (den <<< binade scaled den)

theorem nearest_eq (num den : ℕ) :
    nearest num den =
      if rounded (num * unitsPerOne) den = 1 <<< 53 then
        ofParts? (1 <<< 52) (binade (num * unitsPerOne) den + 1)
      else ofParts? (rounded (num * unitsPerOne) den) (binade (num * unitsPerOne) den) := rfl

section Mantissa

variable {scaled den : ℕ}

theorem abs_rounded_sub_le (scaled : ℕ) (hden : 0 < den) :
    |(rounded scaled den : ℚ) * 2 ^ binade scaled den - scaled / den| ≤
      2 ^ binade scaled den / 2 := by
  have hpos : (0 : ℚ) < 2 ^ binade scaled den := by positivity
  have hshift : 0 < den <<< binade scaled den := by
    rw [Nat.shiftLeft_eq]
    positivity
  have hround := abs_roundRatio_sub_le scaled hshift
  rw [Nat.shiftLeft_eq, Nat.cast_mul, Nat.cast_pow, Nat.cast_ofNat, ← div_div] at hround
  have hmul := mul_le_mul_of_nonneg_right hround hpos.le
  rw [← abs_of_pos hpos, ← abs_mul, abs_of_pos hpos, sub_mul, div_mul_cancel₀ _ hpos.ne'] at hmul
  rw [rounded, Nat.shiftLeft_eq]
  linarith

/-- Above the least exponent the leading bit of the mantissa is set. -/
theorem two_pow_le_ratio (hden : 0 < den) (h : binade scaled den ≠ 0) :
    (2 : ℚ) ^ 52 * 2 ^ binade scaled den ≤ scaled / den := by
  have hlog : (scaled / den).log2 = 52 + binade scaled den := by
    unfold binade at h ⊢
    omega
  have hne : scaled / den ≠ 0 := fun hzero ↦ by
    rw [hzero, Nat.log2_zero] at hlog
    omega
  have hle := Nat.log2_self_le hne
  rw [hlog, Nat.pow_add, Nat.le_div_iff_mul_le hden] at hle
  rw [le_div_iff₀ (by exact_mod_cast hden)]
  exact_mod_cast hle

theorem ratio_lt_two_pow (hden : 0 < den) :
    (scaled : ℚ) / den < 2 ^ 53 * 2 ^ binade scaled den := by
  have hlt : scaled / den < 2 ^ (53 + binade scaled den) :=
    Nat.lt_of_lt_of_le Nat.lt_log2_self
      (Nat.pow_le_pow_right two_pos (by unfold binade; omega))
  rw [Nat.div_lt_iff_lt_mul hden, Nat.pow_add] at hlt
  rw [div_lt_iff₀ (by exact_mod_cast hden)]
  exact_mod_cast hlt

/-- Rounding keeps below a whole number and above one. -/
theorem rounded_le (hden : 0 < den) {m : ℕ}
    (h : (scaled : ℚ) / den ≤ m * 2 ^ binade scaled den) : rounded scaled den ≤ m := by
  have hpos : (0 : ℚ) < 2 ^ binade scaled den := by positivity
  have hround := (abs_le.1 (abs_rounded_sub_le scaled hden)).2
  have hlt : (rounded scaled den : ℚ) < m + 1 := by
    by_contra hle
    have hmul := mul_le_mul_of_nonneg_right (not_lt.1 hle) hpos.le
    linarith
  exact Nat.le_of_lt_succ (by exact_mod_cast hlt)

theorem le_rounded (hden : 0 < den) {m : ℕ}
    (h : m * 2 ^ binade scaled den ≤ (scaled : ℚ) / den) : m ≤ rounded scaled den := by
  have hpos : (0 : ℚ) < 2 ^ binade scaled den := by positivity
  have hround := (abs_le.1 (abs_rounded_sub_le scaled hden)).1
  have hlt : (m : ℚ) < rounded scaled den + 1 := by
    by_contra hle
    have hmul := mul_le_mul_of_nonneg_right (not_lt.1 hle) hpos.le
    linarith
  exact Nat.le_of_lt_succ (by exact_mod_cast hlt)

theorem rounded_canonical (scaled : ℕ) (hden : 0 < den) :
    binade scaled den = 0 ∨ 1 <<< 52 ≤ rounded scaled den := by
  refine or_iff_not_imp_left.2 fun h ↦ le_rounded hden ?_
  exact_mod_cast two_pow_le_ratio hden h

theorem rounded_le_two_pow (scaled : ℕ) (hden : 0 < den) : rounded scaled den ≤ 1 <<< 53 :=
  rounded_le hden (by exact_mod_cast (ratio_lt_two_pow hden).le)

/-- Up to the last mantissa of an exponent neither the exponent nor the mantissa goes beyond. -/
theorem binade_le (hden : 0 < den) {top : ℕ}
    (h : (scaled / den : ℚ) ≤ (1 <<< 53 - 1 : ℕ) * 2 ^ top) :
    binade scaled den ≤ top ∧
      (binade scaled den = top → rounded scaled den ≤ 1 <<< 53 - 1) := by
  refine ⟨?_, fun heq ↦ rounded_le hden (heq ▸ h)⟩
  by_cases hzero : binade scaled den = 0
  · omega
  have hmant : ((1 <<< 53 - 1 : ℕ) : ℚ) < 2 ^ 53 := by
    exact_mod_cast (by decide : 1 <<< 53 - 1 < 2 ^ 53)
  have hlt : (2 : ℚ) ^ (52 + binade scaled den) < 2 ^ (53 + top) := by
    rw [pow_add, pow_add]
    exact ((two_pow_le_ratio hden hzero).trans h).trans_lt
      (mul_lt_mul_of_pos_right hmant (by positivity))
  have := (pow_lt_pow_iff_right₀ one_lt_two).1 hlt
  omega

end Mantissa

/-! ### The nearest magnitude -/

variable {num den : ℕ} {x : Magnitude}

/-- The units of the nearest magnitude. -/
theorem units_of_nearest (h : nearest num den = some x) :
    x.units = rounded (num * unitsPerOne) den * 2 ^ binade (num * unitsPerOne) den := by
  rw [nearest_eq] at h
  split_ifs at h with hcarry
  · rw [units_of_ofParts? h, hcarry, Nat.shiftLeft_eq, Nat.shiftLeft_eq, Nat.pow_succ']
    ring
  · exact units_of_ofParts? h

/-- The nearest magnitude is off by half of the least unit or by one part in `2 ^ 53`. -/
theorem abs_units_sub_le (hden : 0 < den) (h : nearest num den = some x) :
    |(x.units : ℚ) - num * unitsPerOne / den| ≤
      max (1 / 2) ((num * unitsPerOne / den : ℚ) / 2 ^ 53) := by
  have hround := abs_rounded_sub_le (num * unitsPerOne) hden
  rw [units_of_nearest h]
  push_cast at hround ⊢
  refine hround.trans ?_
  by_cases hzero : binade (num * unitsPerOne) den = 0
  · rw [hzero, pow_zero]
    exact le_max_left _ _
  · refine le_max_of_le_right ?_
    have hle := two_pow_le_ratio hden hzero
    push_cast at hle
    linarith

/-- Rounding does not go below a power of two. -/
theorem two_pow_le_units (hden : 0 < den) (h : nearest num den = some x) {k : ℕ}
    (hk : 2 ^ k ≤ (num * unitsPerOne / den : ℚ)) : 2 ^ k ≤ x.units := by
  rw [units_of_nearest h]
  rcases Nat.le_total (binade (num * unitsPerOne) den) k with hle | hle
  · obtain ⟨j, rfl⟩ := Nat.exists_eq_add_of_le' hle
    rw [Nat.pow_add]
    refine Nat.mul_le_mul_right _ (le_rounded hden ?_)
    rw [pow_add] at hk
    exact_mod_cast hk
  · rcases rounded_canonical (num * unitsPerOne) hden with hzero | hmant
    · obtain rfl : k = 0 := by omega
      refine Nat.mul_pos (le_rounded hden ?_) (Nat.two_pow_pos _)
      rw [hzero]
      exact_mod_cast hk
    · calc 2 ^ k ≤ 1 * 2 ^ binade (num * unitsPerOne) den := by
            rw [Nat.one_mul]
            exact Nat.pow_le_pow_right two_pos hle
        _ ≤ _ := Nat.mul_le_mul_right _ (Nat.le_trans (by decide) hmant)

/-- Up to the largest magnitude there is a nearest one. -/
theorem exists_nearest (hden : 0 < den) (h : (num * unitsPerOne / den : ℚ) ≤ maxUnits) :
    ∃ x, nearest num den = some x := by
  rw [maxUnits, cast_shiftLeft, ← Nat.cast_mul] at h
  obtain ⟨hbinade, htop⟩ := binade_le hden h
  have hcanonical := rounded_canonical (num * unitsPerOne) hden
  have hle := rounded_le_two_pow (num * unitsPerOne) hden
  rw [nearest_eq]
  split_ifs with hcarry
  · have hne : binade (num * unitsPerOne) den ≠ 2045 := fun heq ↦
      absurd (hcarry ▸ htop heq) (by decide)
    exact ⟨_, ofParts?_eq_some (by decide) (by omega) (.inr (Nat.le_refl _))⟩
  · exact ⟨_, ofParts?_eq_some (by omega) hbinade hcanonical⟩

/-- Far beyond the largest magnitude there is none. -/
theorem nearest_eq_none (hden : 0 < den) {k : ℕ} (hk : 2098 ≤ k)
    (h : 2 ^ k ≤ (num * unitsPerOne / den : ℚ)) : nearest num den = none := by
  have hle : 2 ^ k ≤ num * unitsPerOne / den := by
    rw [Nat.le_div_iff_mul_le hden]
    rw [le_div_iff₀ (by exact_mod_cast hden)] at h
    exact_mod_cast h
  have hlog : k ≤ (num * unitsPerOne / den).log2 :=
    (Nat.le_log2 (Nat.ne_of_gt (Nat.lt_of_lt_of_le (Nat.two_pow_pos k) hle))).2 hle
  have hbinade : 2045 < binade (num * unitsPerOne) den := by
    unfold binade
    omega
  rw [nearest_eq]
  split_ifs
  · exact ofParts?_eq_none (Nat.lt_succ_of_lt hbinade)
  · exact ofParts?_eq_none hbinade

/-- Below half of the least unit the nearest magnitude is zero. -/
theorem nearest_eq_zero (hden : 0 < den) (h : (num * unitsPerOne / den : ℚ) < 1 / 2) :
    nearest num den = some zero := by
  have hlt : num * unitsPerOne < den := by
    rw [div_lt_iff₀ (by exact_mod_cast hden)] at h
    have hpos : (0 : ℚ) < den := by exact_mod_cast hden
    exact_mod_cast (by linarith : (num * unitsPerOne : ℚ) < den)
  have hbinade : binade (num * unitsPerOne) den = 0 := by
    rw [binade, Nat.div_eq_of_lt hlt]
    rfl
  have hrounded : rounded (num * unitsPerOne) den = 0 := by
    rw [rounded, hbinade, Nat.shiftLeft_zero]
    refine roundRatio_eq_of_abs_sub_lt hden ?_
    rw [Nat.cast_zero, sub_zero, abs_of_nonneg (div_nonneg (Nat.cast_nonneg _) (Nat.cast_nonneg _)),
      Nat.cast_mul]
    exact h
  rw [nearest_eq, hrounded, hbinade]
  rfl

end Magnitude

end ScriptHost
