import Mathlib.Data.Nat.Bitwise
import ScriptHost.Proofs.Decimal.HalfEven
import ScriptHost.Proofs.Decimal.TwoFormats
import ScriptHost.Proofs.Double.Rereading

/-!
# The default text of a double

The text of a finite double that is not zero denotes the double to six significant digits.  The
decimal exponent after rounding decides how it is written: with an exponent below the fourth place
after the point and from a million on, positionally otherwise.  It has no digit that could be left
out, neither in front of the first one that counts nor at the end of the fraction.

## Main definitions

* `Decimal.IsTrimmed` : a fraction without zeros at its end.
* `Decimal.IsPlain`, `Decimal.IsScientific` : the two ways to write a number.
* `Decimal.IsGeneralText` : the default text of a number that was rounded.
* `Double.toRat` : the number that a finite double is.
* `Double.textTwice` : the text of a double by way of two formats.

## Main results

* `Decimal.General.render_form` : the decimal exponent decides how a ratio is written.
* `Double.text_spec` : the default text of a double.
-/

namespace ScriptHost

open Magnitude (unitsPerOne maxUnits)

namespace Decimal

open Json (IsDigits IsFraction NumberText)

/-! ### Ways to write a number -/

/-- A fraction: nothing, or a point and digits of which the last is not zero. -/
inductive IsTrimmed : List Char → Prop
  | absent : IsTrimmed []
  | digits {ds : List Char} {c : Char} (hds : ∀ d ∈ ds, d.isDigit = true) (hc : c.isDigit = true)
      (hzero : c ≠ '0') : IsTrimmed ('.' :: (ds ++ [c]))

/-- Digits without a zero in front of others. -/
structure IsWhole (ds : List Char) : Prop where
  isDigits : IsDigits ds
  no_leading_zero : ds.head? = some '0' → ds = ['0']

/-- The digits of an exponent: at least two, and a zero in front only to make them two. -/
structure IsExponentDigits (ds : List Char) : Prop where
  isDigits : IsDigits ds
  two_le_length : 2 ≤ ds.length
  no_leading_zero : ds.head? = some '0' → ds.length = 2

/-- A number in positional notation. -/
inductive IsPlain : List Char → Prop
  | parts {minus whole fraction : List Char} (hminus : minus = [] ∨ minus = ['-'])
      (hwhole : IsWhole whole) (hfraction : IsTrimmed fraction) :
      IsPlain (minus ++ (whole ++ fraction))

/-- A number in exponent notation, with one digit before the point, which is not zero, and a sign
before the exponent. -/
inductive IsScientific : List Char → Prop
  | parts {minus fraction ds : List Char} {first sign : Char} (hminus : minus = [] ∨ minus = ['-'])
      (hfirst : first.isDigit = true) (hnonzero : first ≠ '0') (hfraction : IsTrimmed fraction)
      (hsign : sign = '+' ∨ sign = '-') (hds : IsExponentDigits ds) :
      IsScientific (minus ++ (first :: fraction ++ 'e' :: sign :: ds))

/-- The default text of a number that was rounded. -/
structure IsGeneralText (text : List Char) (q : ℚ) : Prop where
  value_eq : exactValue text = q
  scientific_iff : IsScientific text ↔ Int.log 10 |q| < -4 ∨ 6 ≤ Int.log 10 |q|
  plain_iff : IsPlain text ↔ -4 ≤ Int.log 10 |q| ∧ Int.log 10 |q| < 6
  numberText : ∃ x, NumberText text x

/-- No number is written in both ways: only one of them has a mark. -/
theorem IsPlain.not_isScientific {s : List Char} (h : IsPlain s) : ¬IsScientific s := by
  obtain @⟨minus, whole, fraction, hminus, hwhole, hfraction⟩ := h
  intro hscientific
  have hmark : 'e' ∈ minus ++ (whole ++ fraction) := by
    generalize minus ++ (whole ++ fraction) = s at hscientific ⊢
    cases hscientific
    simp
  have hdigit {c : Char} (hc : c.isDigit = true) : c ≠ 'e' := Json.ne_of_isDigit hc rfl
  rcases List.mem_append.1 hmark with hmem | hmem
  · rcases hminus with rfl | rfl <;> simp at hmem
  rcases List.mem_append.1 hmem with hmem | hmem
  · exact hdigit (hwhole.isDigits.2 _ hmem) rfl
  · cases hfraction with
    | absent => cases hmem
    | digits hds hc _ =>
      rcases List.mem_append.1 ((List.mem_cons.1 hmem).resolve_left (by decide)) with hmem | hmem
      · exact hdigit (hds _ hmem) rfl
      · exact hdigit hc (List.mem_singleton.1 hmem).symm

/-! ### Digits -/

/-- The first digit of a number is not zero. -/
theorem head?_digits_ne_zero {m : ℕ} (hm : m ≠ 0) : (digits m).head? ≠ some '0' := by
  induction m using Nat.strongRecOn with
  | ind m ih =>
    by_cases hlt : m < 10
    · have hdigit : ∀ m < 10, m ≠ 0 → [m.digitChar].head? ≠ some '0' := by decide
      rw [digits, Nat.toDigits_of_lt_base hlt]
      exact hdigit m hlt hm
    · have hquotient : 0 < m / 10 := Nat.div_pos (Nat.le_of_not_lt hlt) (by decide)
      have hdigits : digits m = digits (m / 10) ++ digits (m % 10) := by
        rw [digits, digits, digits, Nat.toDigits_append_toDigits (by decide) hquotient
          (Nat.mod_lt m (by decide)), Nat.div_add_mod]
      rw [hdigits, List.head?_append_of_ne_nil _ (isDigits_digits _).1]
      exact ih (m / 10) (by omega) hquotient.ne'

theorem isWhole_take_digits {m : ℕ} (hm : m ≠ 0) (i : ℕ) : IsWhole ((digits m).take (i + 1)) := by
  refine ⟨isDigits_take_digits m i, fun hhead ↦ ?_⟩
  rw [List.head?_take, if_neg (Nat.succ_ne_zero i)] at hhead
  exact absurd hhead (head?_digits_ne_zero hm)

theorem isExponentDigits_padZeros (n : ℕ) : IsExponentDigits (padZeros 2 (digits n)) := by
  have hdigits := isDigits_digits n
  refine ⟨isDigits_padZeros 2 hdigits, ?_, fun hhead ↦ ?_⟩
  · rw [padZeros, List.length_append, List.length_replicate]
    omega
  · by_cases hshort : digitCount n ≤ 2
    · rw [padZeros, List.length_append, List.length_replicate, ← digitCount]
      omega
    · rw [padZeros, ← digitCount, Nat.sub_eq_zero_of_le (by omega), List.replicate_zero,
        List.nil_append] at hhead
      have hn : n ≠ 0 := by
        rintro rfl
        exact hshort (by decide)
      exact absurd hhead (head?_digits_ne_zero hn)

/-- What is left of a fraction has no zero at its end. -/
theorem exists_isTrimmed_withFraction (whole : List Char) {fraction : List Char}
    (hfraction : ∀ c ∈ fraction, c.isDigit = true) :
    ∃ f, IsTrimmed f ∧ withFraction whole fraction = whole ++ f := by
  unfold withFraction
  split
  · exact ⟨[], .absent, (List.append_nil whole).symm⟩
  · rename_i hne
    obtain ⟨ds, c, hshown⟩ := (List.eq_nil_or_concat' (trimZeros fraction)).resolve_left hne
    have hmem : ∀ d ∈ ds ++ [c], d.isDigit = true := fun d hd ↦
      hfraction d (mem_of_mem_trimZeros (hshown ▸ hd))
    refine ⟨_, ?_, rfl⟩
    rw [hshown]
    refine .digits (fun d hd ↦ hmem d (List.mem_append_left _ hd)) (hmem c (by simp)) ?_
    rintro rfl
    have hhead := List.head?_dropWhile_not (· == '0') fraction.reverse
    rw [← List.reverse_reverse (List.dropWhile _ _), ← trimZeros, hshown] at hhead
    simp at hhead

namespace General

variable {f : General} {num den m : ℕ} {e : ℤ} {minus : List Char}

/-- Digits with a point after the first one and with an exponent. -/
theorem isScientific_withFraction (hminus : minus = [] ∨ minus = ['-']) (hm : m ≠ 0)
    (hwidth : f.exponentWidth = 2) :
    IsScientific (minus ++
      (withFraction ((digits m).take 1) ((digits m).drop 1) ++ f.exponentText e)) := by
  obtain ⟨first, rest, hdigits⟩ := List.exists_cons_of_ne_nil (isDigits_digits m).1
  have hfirst : first.isDigit = true := (isDigits_digits m).2 _ (hdigits ▸ List.mem_cons_self)
  have hnonzero : first ≠ '0' := fun h ↦ head?_digits_ne_zero hm (by rw [hdigits, h]; rfl)
  obtain ⟨fraction, hfraction, htext⟩ :=
    exists_isTrimmed_withFraction ((digits m).take 1) (isDigit_drop_digits m 1)
  have hsign : (if e < 0 then '-' else '+') = '+' ∨ (if e < 0 then '-' else '+') = '-' := by
    split_ifs
    · exact .inr rfl
    · exact .inl rfl
  rw [htext, hdigits, exponentText, hwidth]
  exact .parts hminus hfirst hnonzero hfraction hsign (isExponentDigits_padZeros e.natAbs)

/-- Digits with a point among them or after some zeros in front of them. -/
theorem isPlain_positional (hminus : minus = [] ∨ minus = ['-']) (hm : m ≠ 0) :
    IsPlain (minus ++ positional (digits m) e) := by
  cases e with
  | ofNat e =>
    obtain ⟨fraction, hfraction, htext⟩ := exists_isTrimmed_withFraction ((digits m).take (e + 1))
      (isDigit_drop_digits m (e + 1))
    rw [positional, htext]
    exact .parts hminus (isWhole_take_digits hm e) hfraction
  | negSucc e =>
    have hzeros : ∀ c ∈ List.replicate e '0' ++ digits m, c.isDigit = true :=
      List.forall_mem_append.2 ⟨fun c hc ↦ List.eq_of_mem_replicate hc ▸ rfl,
        (isDigits_digits m).2⟩
    obtain ⟨fraction, hfraction, htext⟩ := exists_isTrimmed_withFraction ['0'] hzeros
    rw [positional, htext]
    exact .parts hminus ⟨⟨by simp, by simp⟩, fun _ ↦ rfl⟩ hfraction

/-- The decimal exponent after rounding decides how a ratio is written. -/
theorem render_form (hminus : minus = [] ∨ minus = ['-']) (hwidth : f.exponentWidth = 2)
    (h : significant f.precision num den = (m, e)) (hm : m ≠ 0) :
    if e < f.leastExponent ∨ f.precision ≤ e then IsScientific (minus ++ f.render num den)
    else IsPlain (minus ++ f.render num den) := by
  simp only [render, h]
  split_ifs
  · exact isScientific_withFraction hminus hm hwidth
  · exact isPlain_positional hminus hm

end General

end Decimal

/-! ### Doubles -/

namespace Double

open Decimal

/-- The number that a finite double is. -/
def toRat (n : Double) : ℚ := n.units / unitsPerOne

/-- The text of a finite double that is not zero, by way of the two formats. -/
def textTwice : Double → List Char
  | .finite negative x => general.renderTwice (minusText negative) x.units unitsPerOne
  | n => n.text

variable {x : Magnitude} {m : ℕ} {e : ℤ}

theorem toRat_finite (negative : Bool) (x : Magnitude) :
    (Double.finite negative x).toRat = (if negative then -1 else 1) * (x.units / unitsPerOne) := by
  cases negative <;> simp [toRat, units, neg_div]

/-- The largest double is below a power of two. -/
theorem maxUnits_lt : maxUnits < 2 ^ 1024 * unitsPerOne := by
  have hmant : 1 <<< 53 - 1 < 2 ^ 53 := by decide
  have hlt := Nat.shiftLeft_lt (m := 2045) hmant
  rw [← Magnitude.two_pow_add]
  exact Nat.lt_of_lt_of_eq hlt (congrArg (2 ^ ·) rfl)

/-- The decimal exponents of the doubles. -/
theorem exponentOf_bounds (hx : 0 < x.units) :
    -1074 ≤ exponentOf x.units unitsPerOne ∧ exponentOf x.units unitsPerOne < 1024 := by
  have hone : (0 : ℚ) < unitsPerOne := unitsPerOne_cast_pos
  have hxQ : (1 : ℚ) ≤ x.units := Nat.one_le_cast.2 (Nat.succ_le_of_lt hx)
  have hpos : (0 : ℚ) < x.units / unitsPerOne := div_pos (Nat.cast_pos.2 hx) hone
  have hpower (k : ℕ) : (2 : ℚ) ^ k ≤ 10 ^ k := pow_le_pow_left₀ (by norm_num) (by norm_num) k
  -- The powers are kept as variables, so that they are not computed.
  obtain ⟨j, hj, hunits⟩ : ∃ j, j = 1074 ∧ unitsPerOne = 2 ^ j := ⟨_, rfl, Magnitude.unitsPerOne_eq⟩
  obtain ⟨k, hk, hmax⟩ : ∃ k, k = 1024 ∧ maxUnits < 2 ^ k * unitsPerOne :=
    ⟨_, rfl, maxUnits_lt⟩
  rw [exponentOf_eq_log hx Magnitude.unitsPerOne_pos]
  constructor
  · have hlow : (10 : ℚ) ^ (-j : ℤ) ≤ x.units / unitsPerOne := by
      rw [le_div_iff₀ hone, zpow_neg, zpow_natCast, hunits, Nat.cast_pow, Nat.cast_ofNat]
      refine le_trans ?_ hxQ
      rw [inv_mul_le_one₀ (by positivity)]
      exact hpower j
    have hlog := (Int.zpow_le_iff_le_log (b := 10) (by decide) hpos).1 hlow
    omega
  · have hhigh : (x.units / unitsPerOne : ℚ) < 10 ^ (k : ℤ) := by
      have hmaxQ : (x.units : ℚ) < 2 ^ k * unitsPerOne := by
        exact_mod_cast x.units_le_maxUnits.trans_lt hmax
      rw [div_lt_iff₀ hone, zpow_natCast]
      exact hmaxQ.trans_le (mul_le_mul_of_nonneg_right (hpower k) hone.le)
    have hlog := (Int.lt_zpow_iff_log_lt (b := 10) (by decide) hpos).1 hhigh
    omega

/-- They are far from the ends of the range of an exponent, also after rounding. -/
theorem natAbs_exponent_lt (hx : 0 < x.units)
    (h : significant general.precision x.units unitsPerOne = (m, e)) :
    e.natAbs < exponentRange := by
  obtain ⟨hlow, hhigh⟩ := exponentOf_bounds hx
  have hrange : 2000 ≤ exponentRange := by decide
  have hcarry := significant_succ 5 x.units unitsPerOne
  rw [show significant (5 + 1) x.units unitsPerOne = (m, e) from h] at hcarry
  split_ifs at hcarry
  · obtain ⟨-, rfl⟩ := Prod.mk.inj hcarry
    omega
  · obtain ⟨-, rfl⟩ := Prod.mk.inj hcarry
    omega

/-- A double to six significant digits. -/
theorem toSignificant_toRat (negative : Bool) (hx : 0 < x.units)
    (h : significant general.precision x.units unitsPerOne = (m, e)) :
    toSignificant 6 (Double.finite negative x).toRat =
      (if negative then -1 else 1) * (m * 10 ^ (e - 5)) := by
  have hratio := toSignificant_ratio (c := 5) hx Magnitude.unitsPerOne_pos h
  rw [toRat_finite]
  cases negative with
  | false => simpa using hratio
  | true => simpa [toSignificant_neg] using hratio

/-- The default text denotes the digits. -/
theorem exactValue_text (negative : Bool) (hx : 0 < x.units)
    (h : significant general.precision x.units unitsPerOne = (m, e)) :
    exactValue (Double.finite negative x).text =
      (if negative then -1 else 1) * (m * 10 ^ (e - 5)) := by
  have hcount := digitCount_of_significant hx Magnitude.unitsPerOne_pos h
  obtain ⟨whole, fraction, exponent, hwhole, hfraction, hexponent, htext, -, hvalue⟩ :=
    general.denotes_render h hcount
  have hminus : minusText negative = ['-'] ↔ negative = true := by cases negative <;> decide
  rw [text_finite negative (Magnitude.mant_ne_zero hx), htext,
    exactValue_parts (minusText_cases negative) hwhole hfraction hexponent, hvalue]
  simp only [hminus]
  congr 3
  simp only [general]
  push_cast
  ring

/-- The default text of a finite double that is not zero: by way of the two formats it is the same,
and it is the text of the double to six significant digits. -/
theorem text_spec {n : Double} (hfinite : n.isFinite = true) (hzero : n.isZero = false) :
    n.text = n.textTwice ∧ IsGeneralText n.text (toSignificant 6 n.toRat) := by
  rcases n with - | negative | ⟨negative, x⟩
  · cases hfinite
  · cases hfinite
  have hmant : x.mant ≠ 0 := by simpa [isZero] using hzero
  have hx : 0 < x.units := Nat.lt_of_lt_of_le (Nat.pos_of_ne_zero hmant) x.mant_le_units
  obtain ⟨⟨m, e⟩, hround⟩ : ∃ p, significant general.precision x.units unitsPerOne = p := ⟨_, rfl⟩
  have hcount := digitCount_of_significant hx Magnitude.unitsPerOne_pos hround
  obtain ⟨hlow, hhigh, -⟩ := significant_spec (c := 5) hx Magnitude.unitsPerOne_pos hround
  have hminus := minusText_cases negative
  have htext := text_finite negative hmant
  constructor
  · have hrange := natAbs_exponent_lt hx hround
    rw [textTwice, htext]
    exact (general.renderTwice_eq Magnitude.unitsPerOne_pos hround hcount hrange
      (by rcases hminus with h | h <;> simp [h, HasNoPoint])
      (by rcases hminus with h | h <;> simp [h])).symm
  have hrounded := toSignificant_toRat negative hx hround
  have hexponent : Int.log 10 |toSignificant 6 (Double.finite negative x).toRat| = e := by
    have hpos : (0 : ℚ) ≤ m * 10 ^ (e - 5) := by positivity
    rw [hrounded, abs_mul, abs_of_nonneg hpos]
    cases negative with
    | false => simpa using log_of_digits hlow hhigh e
    | true => simpa using log_of_digits hlow hhigh e
  have hform := general.render_form hminus rfl hround (Nat.lt_of_lt_of_le (by decide) hlow).ne'
  rw [← htext] at hform
  refine ⟨(exactValue_text negative hx hround).trans hrounded.symm, ?_, ?_,
    exists_numberText_text rfl⟩
  · rw [hexponent]
    split_ifs at hform with hscientific
    · exact iff_of_true hform hscientific
    · exact iff_of_false hform.not_isScientific hscientific
  · rw [hexponent]
    split_ifs at hform with hscientific
    · refine iff_of_false (fun hplain ↦ hplain.not_isScientific hform) fun hrange ↦ ?_
      exact hscientific.elim (not_lt.2 hrange.1) (not_le.2 hrange.2)
    · exact iff_of_true hform ⟨not_lt.1 (not_or.1 hscientific).1, not_le.1 (not_or.1 hscientific).2⟩

/-- Just below a million, rounding carries into the next power of ten. -/
theorem text_spec_below_million :
    let n : Double := .finite false ⟨1999999 <<< 32, 1041, by decide, by decide, by decide⟩
    n.isFinite = true ∧ n.isZero = false ∧ n.toRat = 1999999 / 2 ∧
      n.text = ['1', 'e', '+', '0', '6'] ∧ IsGeneralText n.text 1000000 := by
  intro n
  have hunits : n.units * 2 = 1999999 * unitsPerOne := by decide +kernel
  have hrat : n.toRat = 1999999 / 2 := by
    have hunitsQ : (n.units * 2 : ℚ) = 1999999 * unitsPerOne := by exact_mod_cast hunits
    rw [toRat, div_eq_div_iff unitsPerOne_cast_pos.ne' two_ne_zero]
    exact hunitsQ
  have hcarry : toSignificant 6 n.toRat = 1000000 := by
    have hdigits : significant (5 + 1) 1999999 2 = (100000, 6) := by decide +kernel
    have hratio := toSignificant_ratio (by decide) (by decide) hdigits
    rw [hrat]
    norm_num at hratio ⊢
    exact hratio
  have hspec := (text_spec (n := n) rfl rfl).2
  rw [hcarry] at hspec
  exact ⟨rfl, rfl, hrat, by decide +kernel, hspec⟩

end Double

end ScriptHost
