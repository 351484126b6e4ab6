import ScriptHost.Proofs.Double.SixDigits
import ScriptHost.Proofs.Json.Numerals

/-!
# A double after it was written and read

The text of a double keeps six of its digits.  What is read from it is the double nearest to the
number of six digits, which has the same text.  A double that is itself nearest to a number of at
most six digits is read back.  Subnormal doubles are left out: close to a power of ten, the double
nearest to that power may lie below it by more than the digits of its own text can hide.

## Main definitions

* `Double.isOrdinary` : zero, a normal double or an infinity.

## Main results

* `Double.exists_readDouble_text` : what is read from the text of a double has the same text.
* `Double.readDouble_text_ofRatio` : a double nearest to a number of at most six digits is read
  back.
-/

namespace ScriptHost

namespace Decimal

/-- The text of a ratio that is rounded to six digits is converted to the double nearest to the
number of six digits. -/
theorem SixDigits.readDouble_render {m : ℕ} {e : ℤ} (h : SixDigits m e) {num den : ℕ}
    (hround : significant 6 num den = (m, e)) {minus : List Char}
    (hminus : minus = [] ∨ minus = ['-']) {num' den' : ℕ} (hden' : 0 < den')
    (hvalue : (num' / den' : ℚ) = m * 10 ^ (e - 5)) :
    readDouble (minus ++ Double.general.render num den) =
      some (.ofRatio (decide (minus = ['-'])) num' den') := by
  obtain ⟨whole, fraction, exponent, hwhole, hfraction, hexponent, htext, hbound, hparts⟩ :=
    Double.general.denotes_render hround (digitCount_eq h.le_digits h.digits_lt)
  rw [htext]
  refine readDouble_eq_ofRatio hminus hwhole hfraction hexponent
    (Nat.lt_of_le_of_lt hbound h.exponent_lt) hden' ?_
  rw [hvalue, hparts]
  congr 2
  simp only [Double.general]
  push_cast
  ring

end Decimal

/-- The text of a ratio depends on what it is rounded to. -/
theorem Decimal.General.render_congr {f : General} {num den num' den' : ℕ}
    (h : significant f.precision num den = significant f.precision num' den') :
    f.render num den = f.render num' den' := by
  unfold render
  rw [h]

/-- A magnitude with mantissa zero is zero. -/
theorem Magnitude.eq_zero_of_mant {x : Magnitude} (h : x.mant = 0) : x = zero := by
  obtain ⟨mant, expo, hmant, hexpo, hcanonical⟩ := x
  obtain rfl : mant = 0 := h
  obtain rfl : expo = 0 := hcanonical.resolve_right (by decide)
  rfl

namespace Double

/-- Zero, a normal double or an infinity: neither NaN nor subnormal. -/
def isOrdinary : Double → Bool
  | .nan => false
  | .infinite _ => true
  | .finite _ x => x.mant = 0 || 1 <<< 52 ≤ x.mant

/-- A minus in front of the text of a negative number. -/
def minusText (negative : Bool) : List Char := if negative then ['-'] else []

theorem minusText_cases :
    ∀ negative : Bool, minusText negative = [] ∨ minusText negative = ['-']
  | false => .inl rfl
  | true => .inr rfl

theorem decide_minusText (negative : Bool) : decide (minusText negative = ['-']) = negative := by
  cases negative <;> rfl

/-- The text of a double that is not zero. -/
theorem text_finite (negative : Bool) {x : Magnitude} (hx : x.mant ≠ 0) :
    (Double.finite negative x).text =
      minusText negative ++ general.render x.units Magnitude.unitsPerOne := by
  cases negative <;> simp [text, hx, minusText]

/-- Zeros of either sign are read back. -/
theorem readDouble_text_zero (negative : Bool) :
    Decimal.readDouble (Double.finite negative .zero).text = some (.finite negative .zero) := by
  cases negative <;> decide +kernel

/-- What is read from the text of a double that is rounded to a number of six digits. -/
theorem readDouble_text_of_sixDigits (negative : Bool) {x : Magnitude} {m : ℕ} {e : ℤ}
    (h : Decimal.SixDigits m e) (hx : 0 < x.units)
    (hround : Decimal.significant 6 x.units Magnitude.unitsPerOne = (m, e)) {num den : ℕ}
    (hden : 0 < den) (hvalue : (num / den : ℚ) = m * 10 ^ (e - 5)) :
    Decimal.readDouble (Double.finite negative x).text = some (ofRatio negative num den) := by
  rw [text_finite negative (Magnitude.mant_ne_zero hx),
    h.readDouble_render hround (minusText_cases negative) hden hvalue, decide_minusText]

/-- What is read from the text of a double has the same text. -/
theorem exists_readDouble_text {x : Double} (hfinite : x.isFinite = true)
    (hordinary : x.isOrdinary = true) :
    ∃ y, Decimal.readDouble x.text = some y ∧ y.isFinite = true ∧ y.text = x.text := by
  rcases x with - | negative | ⟨negative, x⟩
  · cases hfinite
  · cases hfinite
  by_cases hzero : x.mant = 0
  · rw [Magnitude.eq_zero_of_mant hzero]
    exact ⟨_, readDouble_text_zero negative, rfl, rfl⟩
  have hmant : 1 <<< 52 ≤ x.mant := by simpa [isOrdinary, hzero] using hordinary
  have hunits : 2 ^ 52 ≤ x.units := Nat.le_trans hmant x.mant_le_units
  obtain ⟨⟨m, e⟩, hround⟩ : ∃ p, Decimal.significant 6 x.units Magnitude.unitsPerOne = p :=
    ⟨_, rfl⟩
  have h := Decimal.sixDigits_significant hunits hround
  have hvalue := Decimal.natAbs_num_div_den (m * 10 ^ (e - 5))
  rw [abs_of_nonneg (by positivity)] at hvalue
  obtain ⟨y, hy, hpos, hround'⟩ := h.exists_nearest (Rat.pos _) hvalue
  have hread := readDouble_text_of_sixDigits negative h (Nat.lt_of_lt_of_le (by decide) hunits)
    hround (Rat.pos _) hvalue
  rw [ofRatio, hy] at hread
  refine ⟨_, hread, rfl, ?_⟩
  rw [ofMagnitude?, text_finite negative (Magnitude.mant_ne_zero hpos), text_finite negative hzero]
  exact congrArg _ (Decimal.General.render_congr (hround'.trans hround.symm))

/-- A subnormal double just above `1e-318`, the double nearest to which lies below it. -/
example :
    let x : Double := .finite false ⟨202403, 0, by decide, by decide, .inl rfl⟩
    x.text = ['1', 'e', '-', '3', '1', '8'] ∧ (Decimal.readDouble x.text).map Double.text =
      some ['9', '.', '9', '9', '9', '9', '9', 'e', '-', '3', '1', '9'] := by
  decide +kernel

/-- A double nearest to a number of at most six digits is read back. -/
theorem readDouble_text_ofRatio (negative : Bool) {q : ℚ} (hq : Decimal.HasSixDigits q) :
    (ofRatio negative q.num.natAbs q.den).isFinite = true ∧
      Decimal.readDouble (ofRatio negative q.num.natAbs q.den).text =
        some (ofRatio negative q.num.natAbs q.den) := by
  have hvalue := Decimal.natAbs_num_div_den q
  by_cases hzero : q = 0
  · have hratio : ofRatio negative q.num.natAbs q.den = .finite negative .zero := by
      rw [hzero, ofRatio, Magnitude.nearest_eq_zero (Rat.pos _) (by norm_num)]
      rfl
    rw [hratio]
    exact ⟨rfl, readDouble_text_zero negative⟩
  · obtain ⟨m, e, h, habs⟩ := hq.exists_sixDigits hzero
    rw [habs] at hvalue
    obtain ⟨x, hx, hpos, hround⟩ := h.exists_nearest q.pos hvalue
    have hread := readDouble_text_of_sixDigits negative h hpos hround q.pos hvalue
    have hratio : ofRatio negative q.num.natAbs q.den = .finite negative x := by
      rw [ofRatio, hx]
      rfl
    rw [hratio] at hread ⊢
    exact ⟨rfl, hread⟩

end Double

end ScriptHost
