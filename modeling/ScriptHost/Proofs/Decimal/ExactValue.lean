import ScriptHost.Proofs.Decimal.Significant
import ScriptHost.Proofs.Json.Numbers

/-!
# The number that a text denotes

A text of digits, a fraction and an exponent denotes a rational number.  The conversion gives the
double nearest to it: its short cuts for powers of ten far out of the range answer the same.  It
takes no more digits of an exponent once the exponent has reached a bound, so that this is said of
exponents below the bound.

## Main definitions

* `Decimal.fixedPoint` : the number with some digits before and after the point.
* `Decimal.exponentInFull` : the exponent, with all of its digits.
* `Decimal.exactValue` : the number that a text denotes.
* `Decimal.ReadsNearest` : a text is converted to the double nearest to what it denotes.

## Main results

* `Decimal.exactValue_parts` : the number by its parts.
* `Decimal.readsNearest_parts` : the conversion is right for exponents below the bound.
-/

namespace ScriptHost

namespace Decimal

open Json (IsDigits IsFraction IsExponent)

/-! ### Digit strings -/

theorem foldl_digitValue (ds : List Char) (n : ℕ) :
    ds.foldl (fun n c ↦ 10 * n + digitValue c) n =
      n * 10 ^ ds.length + ds.foldl (fun n c ↦ 10 * n + digitValue c) 0 := by
  induction ds generalizing n with
  | nil => simp
  | cons c ds ih =>
    rw [List.foldl_cons, List.foldl_cons, ih, ih (10 * 0 + digitValue c), List.length_cons,
      pow_succ]
    ring

/-- Digits in front of others count by how many follow. -/
theorem ofDigits_append (ds es : List Char) :
    ofDigits (ds ++ es) = ofDigits ds * 10 ^ es.length + ofDigits es := by
  rw [ofDigits_eq_foldl, ofDigits_eq_foldl, ofDigits_eq_foldl, List.foldl_append, foldl_digitValue]

theorem ofDigits_singleton (c : Char) : ofDigits [c] = digitValue c := by
  rw [ofDigits_eq_foldl, List.foldl_cons, List.foldl_nil, Nat.mul_zero, Nat.zero_add]

theorem ofDigits_replicate_zero (k : ℕ) : ofDigits (List.replicate k '0') = 0 := by
  induction k with
  | zero => rfl
  | succ k ih => rw [List.replicate_succ', ofDigits_append, ih, ofDigits_singleton]; rfl

/-- Zeros in front do not count. -/
theorem ofDigits_replicate_append (k : ℕ) (ds : List Char) :
    ofDigits (List.replicate k '0' ++ ds) = ofDigits ds := by
  rw [ofDigits_append, ofDigits_replicate_zero, Nat.zero_mul, Nat.zero_add]

theorem ofDigits_digits (n : ℕ) : ofDigits (digits n) = n := by
  rw [ofDigits_eq_foldl]
  exact Nat.ofDigitChars_eq_foldl.symm.trans Nat.ofDigitChars_ten_toDigits

/-- Digits that denote less than the bound are all taken for an exponent. -/
theorem exponentOfDigits_eq {ds : List Char} (h : ofDigits ds < exponentBound) :
    exponentOfDigits ds = ofDigits ds := by
  induction ds using List.reverseRecOn with
  | nil => rfl
  | append_singleton ds c ih =>
    rw [ofDigits_append, ofDigits_singleton, List.length_singleton, pow_one] at h ⊢
    have ih := ih (by omega)
    rw [exponentOfDigits] at ih ⊢
    rw [List.foldl_append, ih, List.foldl_cons, List.foldl_nil, if_pos (by omega), Nat.mul_comm]

/-! ### Numbers -/

/-- The number with these digits before and after the point. -/
def fixedPoint (whole fraction : List Char) : ℚ :=
  ofDigits (whole ++ fraction) / 10 ^ fraction.length

/-- The exponent that an exponent part denotes, with all of its digits. -/
def exponentInFull : List Char → ℤ
  | [] => 0
  | _ :: s =>
    let (negative, ds) := spanSign s
    if negative then -(ofDigits ds : ℤ) else ofDigits ds

/-- The number that a text of digits, a fraction and an exponent denotes. -/
def exactValue (s : List Char) : ℚ :=
  let (negative, r) := spanSign s
  let (whole, r) := spanDigits r
  let (fraction, r) := spanFraction r
  (if negative then -1 else 1) * (fixedPoint whole fraction * 10 ^ exponentInFull r)

/-- The text is converted to the double nearest to the number that it denotes. -/
def ReadsNearest (s : List Char) : Prop :=
  readDouble s = some (.ofRatio (spanSign s).1 (exactValue s).num.natAbs (exactValue s).den)

/-- A rational number without its sign, as a ratio of natural numbers. -/
theorem natAbs_num_div_den (q : ℚ) : (q.num.natAbs / q.den : ℚ) = |q| := by
  have hden : (0 : ℚ) < q.den := by exact_mod_cast q.pos
  rw [Nat.cast_natAbs, Int.cast_abs, ← abs_of_pos hden, ← abs_div, Rat.num_div_den]

theorem fixedPoint_nonneg (whole fraction : List Char) : 0 ≤ fixedPoint whole fraction := by
  unfold fixedPoint
  positivity

section Parts

variable {minus whole fraction exponent : List Char}

/-- The number by its parts. -/
theorem exactValue_parts (hminus : minus = [] ∨ minus = ['-']) (hwhole : IsDigits whole)
    (hfraction : IsFraction fraction) (hexponent : IsExponent exponent) :
    exactValue (minus ++ (whole ++ (fraction ++ exponent))) =
      (if minus = ['-'] then -1 else 1) *
        (fixedPoint whole fraction.tail * 10 ^ exponentInFull exponent) := by
  have hsign := Json.spanSign_append (hminus.imp_right Or.inr) hwhole (fraction ++ exponent)
  have hhead := Json.exponent_head? hexponent Json.endsNumber_nil
  rw [List.append_nil] at hhead
  have hspan := Json.spanDigits_append hwhole.2 (Json.fraction_head? hfraction hhead)
  have hfrac := Json.spanFraction_append hfraction hhead
  simp only [exactValue, hsign, hspan, hfrac, decide_eq_true_eq]

/-- An exponent below the bound is read in full. -/
theorem readExponent_eq (hexponent : IsExponent exponent)
    (h : (exponentInFull exponent).natAbs < exponentBound) :
    readExponent exponent = some (exponentInFull exponent) := by
  cases hexponent with
  | absent => rfl
  | @digits mark sign ds hmark hsign hds =>
    have hspan := Json.spanSign_append hsign hds []
    rw [List.append_nil] at hspan
    have hfull : exponentInFull (mark :: (sign ++ ds)) =
        if decide (sign = ['-']) then -(ofDigits ds : ℤ) else ofDigits ds := by
      simp only [exponentInFull, hspan]
    have hbound : ofDigits ds < exponentBound := by
      rw [hfull] at h
      split_ifs at h <;> omega
    rw [Json.decimal_readExponent hmark hsign hds, Json.exponentValue, exponentOfDigits_eq hbound,
      hfull]

end Parts

end Decimal

/-! ### The conversion -/

namespace Double

theorem ofRatio_congr (negative : Bool) {num den num' den' : ℕ} (hden : 0 < den) (hden' : 0 < den')
    (h : (num : ℚ) / den = num' / den') : ofRatio negative num den = ofRatio negative num' den' :=
  congrArg (ofMagnitude? negative) (Magnitude.nearest_congr hden hden' h)

/-- A power so large that the answer is an infinity. -/
theorem ofRatio_eq_infinite (negative : Bool) {digits p : ℕ} (hdigits : digits ≠ 0) (hp : 400 < p) :
    ofRatio negative (digits * 10 ^ p) 1 = .infinite negative := by
  have hle : 2 ^ (3 * p) * Magnitude.unitsPerOne ≤ digits * 10 ^ p * Magnitude.unitsPerOne := by
    refine Nat.mul_le_mul_right _ ?_
    calc 2 ^ (3 * p) = 8 ^ p := Nat.pow_mul 2 3 p
      _ ≤ 10 ^ p := Nat.pow_le_pow_left (by decide) p
      _ ≤ digits * 10 ^ p := Nat.le_mul_of_pos_left _ (Nat.pos_of_ne_zero hdigits)
  rw [← Magnitude.two_pow_add] at hle
  rw [ofRatio, Magnitude.nearest_eq_none (k := 3 * p + 1074) one_pos (by omega)]
  · rfl
  · rw [Nat.cast_one, div_one]
    exact_mod_cast hle

/-- A power so small that the answer is a zero. -/
theorem ofRatio_eq_zero (negative : Bool) {digits p : ℕ} (hp : 400 + digits.log2 < p) :
    ofRatio negative digits (10 ^ (p + 1)) = .finite negative .zero := by
  have hlt : 2 * (digits * Magnitude.unitsPerOne) < 10 ^ (p + 1) := by
    calc 2 * (digits * Magnitude.unitsPerOne)
        < 2 * (2 ^ (digits.log2 + 1) * Magnitude.unitsPerOne) :=
          Nat.mul_lt_mul_of_pos_left (Nat.mul_lt_mul_of_pos_right Nat.lt_log2_self
            Magnitude.unitsPerOne_pos) two_pos
      _ = 2 ^ (digits.log2 + 1 + 1074 + 1) := by
          rw [← Magnitude.two_pow_add, ← Nat.pow_succ']
      _ ≤ 2 ^ (3 * (p + 1)) := Nat.pow_le_pow_right two_pos (by omega)
      _ = 8 ^ (p + 1) := Nat.pow_mul 2 3 (p + 1)
      _ ≤ 10 ^ (p + 1) := Nat.pow_le_pow_left (by decide) _
  rw [ofRatio, Magnitude.nearest_eq_zero (by positivity)]
  · rfl
  · rw [div_lt_div_iff₀ (by positivity) two_pos, mul_comm, one_mul]
    exact_mod_cast hlt

/-- The conversion gives the nearest double, also where it does not compute the power. -/
theorem ofDecimal_eq_ofRatio (negative : Bool) (digits : ℕ) (power : ℤ) {num den : ℕ}
    (hden : 0 < den) (h : (num / den : ℚ) = digits * 10 ^ power) :
    ofDecimal negative digits power = ofRatio negative num den := by
  have hdenQ : (den : ℚ) ≠ 0 := by positivity
  unfold ofDecimal
  split_ifs with hdigits
  · rw [hdigits, Nat.cast_zero, zero_mul, div_eq_zero_iff, or_iff_left hdenQ] at h
    have hnum : (num * Magnitude.unitsPerOne / den : ℚ) < 1 / 2 := by
      rw [h, zero_mul, zero_div]
      norm_num
    rw [ofRatio, Magnitude.nearest_eq_zero hden hnum]
    rfl
  cases power with
  | ofNat p =>
    rw [Int.ofNat_eq_natCast, zpow_natCast] at h
    have hratio : ofRatio negative (digits * 10 ^ p) 1 = ofRatio negative num den := by
      refine ofRatio_congr negative one_pos hden ?_
      rw [h]
      push_cast
      rw [div_one]
    dsimp only
    split_ifs with hp
    · exact (ofRatio_eq_infinite negative hdigits hp).symm.trans hratio
    · exact hratio
  | negSucc p =>
    rw [zpow_negSucc] at h
    have hratio : ofRatio negative digits (10 ^ (p + 1)) = ofRatio negative num den := by
      refine ofRatio_congr negative (by positivity) hden ?_
      rw [h]
      push_cast
      rw [div_eq_mul_inv]
    dsimp only
    split_ifs with hp
    · exact (ofRatio_eq_zero negative hp).symm.trans hratio
    · exact hratio

end Double

namespace Decimal

open Json (IsDigits IsFraction IsExponent)

section Parts

variable {minus whole fraction exponent : List Char}

/-- What is converted, for exponents below the bound. -/
theorem readDouble_eq_ofRatio (hminus : minus = [] ∨ minus = ['-']) (hwhole : IsDigits whole)
    (hfraction : IsFraction fraction) (hexponent : IsExponent exponent)
    (h : (exponentInFull exponent).natAbs < exponentBound) {num den : ℕ} (hden : 0 < den)
    (hvalue : (num / den : ℚ) = fixedPoint whole fraction.tail * 10 ^ exponentInFull exponent) :
    readDouble (minus ++ (whole ++ (fraction ++ exponent))) =
      some (.ofRatio (decide (minus = ['-'])) num den) := by
  rw [Json.readDouble_parts hminus hwhole hfraction hexponent (readExponent_eq hexponent h),
    scientific, Double.ofDecimal_eq_ofRatio _ _ _ hden]
  rw [hvalue, fixedPoint, zpow_sub₀ (by norm_num), zpow_natCast, div_mul_eq_mul_div, mul_div_assoc]

/-- The conversion is right for exponents below the bound. -/
theorem readsNearest_parts (hminus : minus = [] ∨ minus = ['-']) (hwhole : IsDigits whole)
    (hfraction : IsFraction fraction) (hexponent : IsExponent exponent)
    (h : (exponentInFull exponent).natAbs < exponentBound) :
    ReadsNearest (minus ++ (whole ++ (fraction ++ exponent))) := by
  have hsign := Json.spanSign_append (hminus.imp_right Or.inr) hwhole (fraction ++ exponent)
  have hvalue := exactValue_parts hminus hwhole hfraction hexponent
  have hpos : 0 ≤ fixedPoint whole fraction.tail * 10 ^ exponentInFull exponent :=
    mul_nonneg (fixedPoint_nonneg _ _) (by positivity)
  rw [ReadsNearest, hsign]
  refine readDouble_eq_ofRatio hminus hwhole hfraction hexponent h (Rat.pos _) ?_
  rw [natAbs_num_div_den, hvalue, abs_mul, abs_of_nonneg hpos]
  split_ifs <;> simp

end Parts

end Decimal

end ScriptHost
