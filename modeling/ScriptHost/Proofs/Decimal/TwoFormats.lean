import ScriptHost.Proofs.Json.Numerals
import ScriptHost.Proofs.Text.Lines

/-!
# Rounding once and rounding twice

The default text of a number can be put together from two other formats: the scientific one tells
the exponent, and a number that is not written with it is formatted a second time with a fixed count
of digits after the point, a count which the exponent decides.  The number is then rounded twice, at
places that were computed from each other.  Both roundings give the same digits, also where the
first one carries into the next power of ten, so that the text is the one that rounding once gives.

## Main definitions

* `Decimal.scientificText`, `Decimal.fixedText` : the two formats, each rounded to even.
* `Decimal.trimFraction` : a text without the zeros at the end of its fraction.
* `Decimal.General.renderTwice` : the default text by way of the two formats.

## Main results

* `Decimal.roundScaled_of_significant` : the second rounding gives the digits of the first.
* `Decimal.General.renderTwice_eq` : the two ways give one text.
-/

namespace ScriptHost.Decimal

/-- Digits with a point between them, if any stand behind it. -/
def joinPoint (whole fraction : List Char) : List Char :=
  if fraction.isEmpty then whole else whole ++ '.' :: fraction

/-- An integer with a minus where it is negative. -/
def signedDigits (e : Int) : List Char :=
  if e < 0 then '-' :: digits e.natAbs else digits e.natAbs

/-- A positive ratio in scientific notation, with one digit before the point and `places` behind
it. -/
def scientificText (places num den : Nat) : List Char :=
  let (m, e) := significant (places + 1) num den
  joinPoint ((digits m).take 1) ((digits m).drop 1) ++ 'e' :: signedDigits e

/-- A positive ratio in positional notation with `places` digits behind the point. -/
def fixedText (places num den : Nat) : List Char :=
  let ds := padZeros (places + 1) (digits (roundScaled num den places))
  joinPoint (ds.take (ds.length - places)) (ds.drop (ds.length - places))

/-- A text without the zeros at the end of its fraction, and without the point if nothing is left
behind it.  A text without a point stays as it is. -/
def trimFraction (s : List Char) : List Char :=
  if '.' ∈ s then Text.trimEndWhile (· == '.') (Text.trimEndWhile (· == '0') s) else s

/-- How many exponents of one sign there are. -/
def exponentRange : Nat := 1 <<< 31

/-- The exponent that a text in scientific notation states, and what stands in front of it. -/
def splitExponent (sci : List Char) : List Char × Int :=
  match Text.splitOnce 'e' sci with
  | some (mantissa, e) => (mantissa, (readInt exponentRange e).getD 0)
  | none => (sci, 0)

/-- The text of a positive ratio behind a sign, by way of the two formats. -/
def General.renderTwice (f : General) (sign : List Char) (num den : Nat) : List Char :=
  let (mantissa, e) := splitExponent (sign ++ scientificText (f.precision - 1) num den)
  if e < f.leastExponent ∨ f.precision ≤ e then trimFraction mantissa ++ f.exponentText e
  else trimFraction (sign ++ fixedText ((f.precision : Int) - 1 - e).toNat num den)

/-! ### The second rounding -/

section Ratio

variable {c num den m : ℕ} {e : ℤ}

/-- Rounding at the place of the last significant digit gives the significant digits.  After a carry
that place is one further to the left than the one at which they were found. -/
theorem roundScaled_of_significant (hden : 0 < den)
    (h : significant (c + 1) num den = (m, e)) : roundScaled num den (c - e) = m := by
  have hround := abs_roundScaled_sub_le num hden (c - exponentOf num den)
  rw [significant_succ] at h
  split_ifs at h with hcarry
  · obtain ⟨rfl, rfl⟩ := Prod.mk.inj h
    have htenth : (num / den * 10 ^ (c - (exponentOf num den + 1)) : ℚ) =
        num / den * 10 ^ (c - exponentOf num den) / 10 := by
      rw [← sub_sub, zpow_sub_one₀ (by norm_num)]
      ring
    refine roundScaled_eq hden ?_
    rw [hcarry, Nat.cast_pow, Nat.cast_ofNat, pow_succ, abs_le] at hround
    rw [htenth, Nat.cast_pow, Nat.cast_ofNat, abs_lt]
    constructor <;> linarith
  · obtain ⟨rfl, rfl⟩ := Prod.mk.inj h
    rfl

end Ratio

/-! ### Points -/

/-- No point stands in this text. -/
abbrev HasNoPoint (s : List Char) : Prop := '.' ∉ s

theorem hasNoPoint_of_isDigit {s : List Char} (h : ∀ c ∈ s, c.isDigit = true) : HasNoPoint s :=
  fun hmem ↦ absurd (h '.' hmem) (by decide)

theorem trimEndWhile_append_cons {p : Char → Bool} {a : Char} (ha : p a = false)
    (s t : List Char) :
    Text.trimEndWhile p (s ++ a :: t) = s ++ a :: Text.trimEndWhile p t := by
  have hkept : (s ++ [a]).reverse.dropWhile p = (s ++ [a]).reverse := by
    rw [List.reverse_append, List.reverse_singleton, List.singleton_append,
      List.dropWhile_cons_of_neg (by simp [ha])]
  rw [List.append_cons s a t, List.append_cons s a (Text.trimEndWhile p t), Text.trimEndWhile,
    List.reverse_append, List.dropWhile_append]
  split_ifs with hempty
  · rw [hkept, List.reverse_reverse, Text.trimEndWhile, List.isEmpty_iff.1 hempty,
      List.reverse_nil, List.append_nil]
  · rw [List.reverse_append, List.reverse_reverse, Text.trimEndWhile]

/-- Trimming the text of a number trims its fraction. -/
theorem trimFraction_joinPoint {whole fraction : List Char} (hwhole : HasNoPoint whole)
    (hfraction : HasNoPoint fraction) :
    trimFraction (joinPoint whole fraction) = withFraction whole fraction := by
  have hlast {s : List Char} (hs : HasNoPoint s) : ∀ c ∈ s.getLast?, (c == '.') = false :=
    fun c hc ↦ beq_eq_false_iff_ne.2 fun heq ↦ hs (heq ▸ List.mem_of_mem_getLast? hc)
  unfold joinPoint
  split_ifs with hempty
  · rw [List.isEmpty_iff.1 hempty, trimFraction, if_neg hwhole]
    rfl
  · have hzeros : Text.trimEndWhile (· == '0') (whole ++ '.' :: fraction) =
        whole ++ '.' :: trimZeros fraction := trimEndWhile_append_cons rfl whole fraction
    rw [trimFraction, if_pos (List.mem_append_right _ List.mem_cons_self), hzeros, withFraction]
    split
    · rename_i hnil
      rw [hnil, Text.trimEndWhile_append (by simp), Text.trimEndWhile_of_last (hlast hwhole)]
    · rename_i hne
      refine Text.trimEndWhile_of_last fun c hc ↦ ?_
      rw [List.getLast?_append_cons, List.getLast?_cons_of_ne_nil hne] at hc
      exact hlast (fun hmem ↦ hfraction (mem_of_mem_trimZeros hmem)) c hc

theorem withFraction_append (sign whole fraction : List Char) :
    withFraction (sign ++ whole) fraction = sign ++ withFraction whole fraction := by
  unfold withFraction
  split
  · rfl
  · exact List.append_assoc _ _ _

theorem joinPoint_append (sign whole fraction : List Char) :
    joinPoint (sign ++ whole) fraction = sign ++ joinPoint whole fraction := by
  unfold joinPoint
  split_ifs
  · rfl
  · exact List.append_assoc _ _ _

/-! ### The two formats -/

/-- An integer in range is read back, also the least one. -/
theorem readInt_signedDigits {bound : ℕ} {e : ℤ} (hlow : -(bound : ℤ) ≤ e) (hhigh : e < bound) :
    readInt bound (signedDigits e) = some e := by
  have hds := isDigits_digits e.natAbs
  have hempty : (digits e.natAbs).isEmpty = false := List.isEmpty_eq_false_iff.2 hds.1
  have hall : (digits e.natAbs).all Char.isDigit = true := List.all_eq_true.2 hds.2
  have hplain := Json.spanSign_append (.inl rfl) hds []
  rw [List.append_nil, List.nil_append] at hplain
  unfold signedDigits readInt
  split_ifs with hneg
  · have hspan : spanSign ('-' :: digits e.natAbs) = (true, digits e.natAbs) := rfl
    rw [hspan]
    simp only [hempty, hall, Bool.not_true, Bool.or_false, Bool.false_eq_true, if_false, if_true,
      ofDigits_digits]
    rw [if_pos (by omega)]
    congr 1
    omega
  · rw [hplain]
    simp only [hempty, hall, Bool.not_true, Bool.or_false, Bool.false_eq_true, if_false,
      ofDigits_digits, List.nil_eq, reduceCtorEq, decide_false]
    rw [if_pos (by omega)]
    congr 1
    omega

/-- The mantissa and the exponent are told apart at the mark. -/
theorem splitExponent_append {mantissa : List Char} {e : ℤ} (hmantissa : 'e' ∉ mantissa)
    (he : e.natAbs < exponentRange) :
    splitExponent (mantissa ++ 'e' :: signedDigits e) = (mantissa, e) := by
  rw [splitExponent, Text.splitOnce_eq_some_iff.2 ⟨rfl, hmantissa⟩]
  dsimp only
  rw [readInt_signedDigits (by omega) (by omega), Option.getD_some]

theorem mem_joinPoint {c : Char} {whole fraction : List Char} (hc : c ∈ joinPoint whole fraction) :
    c ∈ whole ∨ c = '.' ∨ c ∈ fraction := by
  unfold joinPoint at hc
  split_ifs at hc
  · exact .inl hc
  · rcases List.mem_append.1 hc with hc | hc
    · exact .inl hc
    · exact .inr (List.mem_cons.1 hc)

/-- The digits of a number that has as many as stand before the point and behind it. -/
theorem fixedText_of_digitCount {places num den m k : ℕ}
    (hround : roundScaled num den places = m) (hcount : digitCount m = places + k + 1) :
    fixedText places num den = joinPoint ((digits m).take (k + 1)) ((digits m).drop (k + 1)) := by
  have hpad : padZeros (places + 1) (digits m) = digits m := by
    rw [padZeros, ← digitCount, hcount, Nat.sub_eq_zero_of_le (by omega), List.replicate_zero,
      List.nil_append]
  have hwhole : (digits m).length - places = k + 1 := by rw [← digitCount]; omega
  simp only [fixedText, hround, hpad, hwhole]

/-- A number all of whose digits stand behind the point, after some zeros. -/
theorem fixedText_of_zeros {places num den m k : ℕ}
    (hround : roundScaled num den places = m) (hcount : digitCount m + k = places) :
    fixedText places num den = joinPoint ['0'] (List.replicate k '0' ++ digits m) := by
  have hpad : padZeros (places + 1) (digits m) = ['0'] ++ (List.replicate k '0' ++ digits m) := by
    rw [padZeros, ← digitCount, show places + 1 - digitCount m = k + 1 by omega,
      List.replicate_succ, List.cons_append, List.singleton_append]
  have hwhole : (['0'] ++ (List.replicate k '0' ++ digits m)).length - places =
      ['0'].length := by
    rw [List.length_append, List.length_append, List.length_replicate, ← digitCount]
    simp only [List.length_singleton]
    omega
  simp only [fixedText, hround, hpad, hwhole, List.take_left, List.drop_left]

namespace General

variable {f : General} {sign : List Char} {num den m : ℕ} {e : ℤ}

/-- The positional text of the significant digits is what trimming leaves of the second format. -/
theorem trimFraction_fixedText (hden : 0 < den)
    (h : significant f.precision num den = (m, e)) (hcount : digitCount m = f.precision)
    (he : e < f.precision) (hsign : HasNoPoint sign) :
    trimFraction (sign ++ fixedText ((f.precision : ℤ) - 1 - e).toNat num den) =
      sign ++ positional (digits m) e := by
  obtain ⟨c, hc⟩ : ∃ c, f.precision = c + 1 :=
    Nat.exists_eq_succ_of_ne_zero (hcount ▸ (digitCount_pos m).ne')
  rw [hc] at h hcount he ⊢
  have hround := roundScaled_of_significant hden h
  have hdigits := isDigits_digits m
  have hplaces : ((((c + 1 : ℕ) : ℤ) - 1 - e).toNat : ℤ) = c - e := by push_cast; omega
  rw [← hplaces] at hround
  generalize (((c + 1 : ℕ) : ℤ) - 1 - e).toNat = places at hround hplaces ⊢
  cases e with
  | ofNat e =>
    rw [Int.ofNat_eq_natCast] at hplaces
    have hwhole : HasNoPoint (sign ++ (digits m).take (e + 1)) := fun hmem ↦
      (List.mem_append.1 hmem).elim hsign
        (hasNoPoint_of_isDigit (isDigits_take_digits m e).2)
    rw [fixedText_of_digitCount (k := e) hround (by omega), ← joinPoint_append,
      trimFraction_joinPoint hwhole (hasNoPoint_of_isDigit (isDigit_drop_digits m (e + 1))),
      withFraction_append, positional]
  | negSucc e =>
    have hwhole : HasNoPoint (sign ++ ['0']) := fun hmem ↦
      (List.mem_append.1 hmem).elim hsign (by simp)
    have hfraction : HasNoPoint (List.replicate e '0' ++ digits m) := fun hmem ↦
      (List.mem_append.1 hmem).elim (by simp) (hasNoPoint_of_isDigit hdigits.2)
    rw [fixedText_of_zeros (k := e) hround (by omega), ← joinPoint_append,
      trimFraction_joinPoint hwhole hfraction, withFraction_append, positional]

/-- Formatting twice gives the text that rounding once gives. -/
theorem renderTwice_eq (hden : 0 < den) (h : significant f.precision num den = (m, e))
    (hcount : digitCount m = f.precision) (he : e.natAbs < exponentRange)
    (hsign : HasNoPoint sign) (hmark : 'e' ∉ sign) :
    f.renderTwice sign num den = sign ++ f.render num den := by
  have hprecision : f.precision - 1 + 1 = f.precision :=
    Nat.sub_add_cancel (hcount ▸ digitCount_pos m)
  have hnotDigit {ds : List Char} (hds : ∀ c ∈ ds, c.isDigit = true) : 'e' ∉ ds :=
    fun hmem ↦ absurd (hds 'e' hmem) (by decide)
  have hfirst := (isDigits_take_digits m 0).2
  have hrest := isDigit_drop_digits m 1
  have hmantissa : 'e' ∉ sign ++ joinPoint ((digits m).take 1) ((digits m).drop 1) := by
    intro hmem
    rcases List.mem_append.1 hmem with hmem | hmem
    · exact hmark hmem
    · rcases mem_joinPoint hmem with hmem | hmem | hmem
      · exact hnotDigit hfirst hmem
      · exact absurd hmem (by decide)
      · exact hnotDigit hrest hmem
  have hwhole : HasNoPoint (sign ++ (digits m).take 1) := fun hmem ↦
    (List.mem_append.1 hmem).elim hsign (hasNoPoint_of_isDigit hfirst)
  have hsci : splitExponent (sign ++ scientificText (f.precision - 1) num den) =
      (sign ++ joinPoint ((digits m).take 1) ((digits m).drop 1), e) := by
    simp only [scientificText, hprecision, h]
    rw [← List.append_assoc, splitExponent_append hmantissa he]
  simp only [renderTwice, render, hsci, h]
  split_ifs with hform
  · rw [← joinPoint_append, trimFraction_joinPoint hwhole (hasNoPoint_of_isDigit hrest),
      withFraction_append, List.append_assoc]
  · exact trimFraction_fixedText hden h hcount (not_le.1 (not_or.1 hform).2) hsign

end General

end ScriptHost.Decimal
