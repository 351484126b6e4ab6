import ScriptHost.Proofs.Decimal.ExactValue

/-!
# The text of a number is a number

The default text of a finite double, positional or with an exponent, is a number of the grammar.
What is left of the fraction after its zeros went decides whether there is a point.  The number that
the text denotes is the one to which the double was rounded.

## Main definitions

* `Decimal.Denotes` : an unsigned number of the grammar and the number that it denotes.

## Main results

* `Decimal.General.denotes_render` : the text of a positive ratio and the number that it denotes.
* `Double.exists_numberText_text` : the text of a finite double as a number of the grammar.
* `Json.NumberText.ne_nan` : no text of a number denotes NaN.
-/

namespace ScriptHost

namespace Decimal

open Json (IsDigits IsFraction IsExponent)

theorem isDigits_digits (n : Nat) : IsDigits (digits n) :=
  ⟨Nat.toDigits_ne_nil, fun _ hc ↦ Nat.isDigit_of_mem_toDigits (by decide) (by decide) hc⟩

theorem isDigits_padZeros (width : Nat) {ds : List Char} (hds : IsDigits ds) :
    IsDigits (padZeros width ds) := by
  refine ⟨List.append_ne_nil_of_right_ne_nil _ hds.1, fun c hc ↦ ?_⟩
  rcases List.mem_append.1 hc with hc | hc
  · rw [List.eq_of_mem_replicate hc]
    rfl
  · exact hds.2 c hc

/-! ### The number that the parts denote -/

theorem exists_trimZeros_append (text : List Char) :
    ∃ k, trimZeros text ++ List.replicate k '0' = text := by
  have hzeros : ∀ c ∈ text.reverse.takeWhile (· == '0'), c = '0' := fun c hc ↦
    eq_of_beq (List.all_eq_true.1 List.all_takeWhile c hc)
  refine ⟨(text.reverse.takeWhile (· == '0')).length, ?_⟩
  rw [← List.eq_replicate_of_mem hzeros, trimZeros, ← List.reverse_inj, List.reverse_append,
    List.reverse_reverse, List.eq_replicate_of_mem hzeros, List.reverse_replicate,
    ← List.eq_replicate_of_mem hzeros, List.takeWhile_append_dropWhile]

theorem mem_of_mem_trimZeros {c : Char} {text : List Char} (hc : c ∈ trimZeros text) :
    c ∈ text := by
  obtain ⟨k, hk⟩ := exists_trimZeros_append text
  exact hk ▸ List.mem_append_left _ hc

/-- Zeros at the end of a fraction do not count. -/
theorem fixedPoint_append_zeros (whole fraction : List Char) (k : ℕ) :
    fixedPoint whole (fraction ++ List.replicate k '0') = fixedPoint whole fraction := by
  rw [fixedPoint, fixedPoint, ← List.append_assoc, ofDigits_append, ofDigits_replicate_zero,
    add_zero, List.length_append, List.length_replicate, pow_add, Nat.cast_mul, Nat.cast_pow,
    Nat.cast_ofNat, mul_div_mul_right _ _ (by positivity)]

/-- Digits with a point somewhere in them. -/
theorem fixedPoint_take_drop {ds : List Char} {i : ℕ} (hi : i ≤ ds.length) :
    fixedPoint (ds.take i) (ds.drop i) = ofDigits ds * 10 ^ ((i : ℤ) - ds.length) := by
  rw [fixedPoint, List.take_append_drop, List.length_drop, ← neg_sub, zpow_neg, ← Nat.cast_sub hi,
    zpow_natCast, div_eq_mul_inv]

/-- Digits after the point and after some zeros. -/
theorem fixedPoint_zeros_append (k : ℕ) (ds : List Char) :
    fixedPoint ['0'] (List.replicate k '0' ++ ds) =
      ofDigits ds * 10 ^ (-(k + ds.length : ℤ)) := by
  rw [fixedPoint, List.singleton_append, ← List.cons_append, ← List.replicate_succ,
    ofDigits_replicate_append, List.length_append, List.length_replicate, zpow_neg, ← Nat.cast_add,
    zpow_natCast, div_eq_mul_inv]

/-- A fraction that is left empty has no point. -/
theorem exists_isFraction_withFraction (whole : List Char) {fraction : List Char}
    (hfraction : ∀ c ∈ fraction, c.isDigit = true) :
    ∃ f, IsFraction f ∧ withFraction whole fraction = whole ++ f ∧
      fixedPoint whole f.tail = fixedPoint whole fraction := by
  obtain ⟨k, hk⟩ := exists_trimZeros_append fraction
  have htrim := fixedPoint_append_zeros whole (trimZeros fraction) k
  rw [hk] at htrim
  unfold withFraction
  split
  · rename_i hnil
    rw [hnil] at htrim
    exact ⟨[], .absent, (List.append_nil whole).symm, htrim.symm⟩
  · rename_i hne
    exact ⟨_, .digits ⟨hne, fun c hc ↦ hfraction c (mem_of_mem_trimZeros hc)⟩, rfl, htrim.symm⟩

theorem General.isExponent_exponentText (f : General) (e : Int) :
    IsExponent (f.exponentText e) := by
  have hds := isDigits_padZeros f.exponentWidth (isDigits_digits e.natAbs)
  have hminus := IsExponent.digits (.inl rfl : 'e' = 'e' ∨ 'e' = 'E') (.inr (.inr rfl)) hds
  have hplus := IsExponent.digits (.inl rfl : 'e' = 'e' ∨ 'e' = 'E') (.inr (.inl rfl)) hds
  unfold exponentText
  split
  · exact hminus
  · exact hplus

theorem General.exponentInFull_exponentText (f : General) (e : ℤ) :
    exponentInFull (f.exponentText e) = e := by
  have hdigits : ofDigits (padZeros f.exponentWidth (digits e.natAbs)) = e.natAbs := by
    rw [padZeros, ofDigits_replicate_append, ofDigits_digits]
  unfold exponentText
  split_ifs with he
  · simp only [exponentInFull, spanSign, if_true, hdigits]
    omega
  · simp only [exponentInFull, spanSign, Bool.false_eq_true, if_false, hdigits]
    omega

/-- The text is an unsigned number of the grammar with an exponent no larger than this one, and
denotes this number. -/
def Denotes (text : List Char) (e : ℤ) (q : ℚ) : Prop :=
  ∃ whole fraction exponent, IsDigits whole ∧ IsFraction fraction ∧ IsExponent exponent ∧
    text = whole ++ (fraction ++ exponent) ∧ (exponentInFull exponent).natAbs ≤ e.natAbs ∧
    fixedPoint whole fraction.tail * 10 ^ exponentInFull exponent = q

theorem isDigits_take_digits (m i : ℕ) : IsDigits ((digits m).take (i + 1)) := by
  have hds := isDigits_digits m
  refine ⟨?_, fun c hc ↦ hds.2 c (List.mem_of_mem_take hc)⟩
  rw [Ne, List.take_eq_nil_iff]
  rintro (h | h)
  · cases h
  · exact hds.1 h

theorem isDigit_drop_digits (m i : ℕ) : ∀ c ∈ (digits m).drop i, c.isDigit = true := fun c hc ↦
  (isDigits_digits m).2 c (List.mem_of_mem_drop hc)

/-- Digits with a point after the first one and with an exponent. -/
theorem General.denotes_withFraction_append (f : General) (m : ℕ) (e : ℤ) :
    Denotes (withFraction ((digits m).take 1) ((digits m).drop 1) ++ f.exponentText e) e
      (m * 10 ^ (e + 1 - digitCount m)) := by
  obtain ⟨fraction, hfraction, htext, hvalue⟩ :=
    exists_isFraction_withFraction ((digits m).take 1) (isDigit_drop_digits m 1)
  have hexponent := f.exponentInFull_exponentText e
  refine ⟨_, fraction, _, isDigits_take_digits m 0, hfraction, f.isExponent_exponentText e, ?_,
    le_of_eq (congrArg Int.natAbs hexponent), ?_⟩
  · rw [htext, List.append_assoc]
  · rw [hvalue, hexponent, fixedPoint_take_drop (digitCount_pos m), ofDigits_digits, mul_assoc,
      ← zpow_add₀ (by norm_num), ← digitCount]
    congr 2
    push_cast
    ring

/-- Digits with a point among them or after some zeros in front of them. -/
theorem General.denotes_positional {m : ℕ} {e : ℤ} (he : e < digitCount m) :
    Denotes (positional (digits m) e) e (m * 10 ^ (e + 1 - digitCount m)) := by
  cases e with
  | ofNat e =>
    obtain ⟨fraction, hfraction, htext, hvalue⟩ :=
      exists_isFraction_withFraction ((digits m).take (e + 1)) (isDigit_drop_digits m (e + 1))
    refine ⟨_, fraction, [], isDigits_take_digits m e, hfraction, .absent, ?_, Nat.zero_le _, ?_⟩
    · rw [List.append_nil]
      exact htext
    · rw [hvalue, fixedPoint_take_drop (Int.ofNat_lt.1 he), ofDigits_digits, ← digitCount,
        exponentInFull, zpow_zero, mul_one]
      rfl
  | negSucc e =>
    have hzeros : ∀ c ∈ List.replicate e '0' ++ digits m, c.isDigit = true :=
      List.forall_mem_append.2 ⟨fun c hc ↦ List.eq_of_mem_replicate hc ▸ rfl,
        (isDigits_digits m).2⟩
    obtain ⟨fraction, hfraction, htext, hvalue⟩ := exists_isFraction_withFraction ['0'] hzeros
    refine ⟨['0'], fraction, [], ⟨by simp, by simp⟩, hfraction, .absent, ?_, Nat.zero_le _, ?_⟩
    · rw [List.append_nil]
      exact htext
    · rw [hvalue, fixedPoint_zeros_append, ofDigits_digits, ← digitCount, exponentInFull, zpow_zero,
        mul_one]
      congr 2
      rw [Int.negSucc_eq]
      ring

/-- The text of a positive ratio denotes the number to which the ratio is rounded. -/
theorem General.denotes_render (f : General) {num den m : ℕ} {e : ℤ}
    (h : significant f.precision num den = (m, e)) (hcount : digitCount m = f.precision) :
    Denotes (f.render num den) e (m * 10 ^ (e + 1 - f.precision)) := by
  unfold render
  rw [h, ← hcount]
  dsimp only
  split_ifs with hform
  · exact f.denotes_withFraction_append m e
  · exact denotes_positional (not_le.1 (not_or.1 hform).2)

/-- Six digits are as many as are asked for. -/
theorem digitCount_of_significant {num den m : ℕ} {e : ℤ} (hnum : 0 < num) (hden : 0 < den)
    (h : significant Double.general.precision num den = (m, e)) :
    digitCount m = Double.general.precision := by
  obtain ⟨hlow, hhigh, -⟩ := significant_spec (c := 5) hnum hden h
  exact digitCount_eq hlow hhigh

end Decimal

namespace Double

theorem ofRatio_ne_nan (negative : Bool) (num den : Nat) : ofRatio negative num den ≠ .nan := by
  rw [ofRatio]
  generalize Magnitude.nearest num den = m
  cases m with
  | none => exact Double.noConfusion
  | some x => exact Double.noConfusion

theorem ofDecimal_ne_nan (negative : Bool) (digits : Nat) (power : Int) :
    ofDecimal negative digits power ≠ .nan := by
  rw [ofDecimal.eq_def]
  split_ifs
  · exact Double.noConfusion
  cases power with
  | ofNat p =>
    dsimp only
    split_ifs
    · exact Double.noConfusion
    · exact ofRatio_ne_nan _ _ _
  | negSucc p =>
    dsimp only
    split_ifs
    · exact Double.noConfusion
    · exact ofRatio_ne_nan _ _ _

end Double

/-- No text of a number denotes NaN. -/
theorem Json.NumberText.ne_nan {s : List Char} {x : Double} (h : NumberText s x) : x ≠ .nan := by
  obtain @⟨minus, whole, fraction, exponent, x, hminus, hwhole, hfraction, hexponent, hx⟩ := h
  obtain ⟨v, hv, -⟩ := exists_exponent hexponent
  rw [readDouble_parts hminus hwhole hfraction hexponent hv, Option.some.injEq] at hx
  exact hx ▸ Double.ofDecimal_ne_nan _ _ _

/-- The parts of a number make the text of one. -/
theorem Json.exists_numberText {minus whole fraction exponent : List Char}
    (hminus : minus = [] ∨ minus = ['-']) (hwhole : IsDigits whole)
    (hfraction : IsFraction fraction) (hexponent : IsExponent exponent) :
    ∃ x, NumberText (minus ++ (whole ++ (fraction ++ exponent))) x := by
  obtain ⟨v, hv, -⟩ := exists_exponent hexponent
  exact ⟨_, .parts hminus hwhole hfraction hexponent
    (readDouble_parts hminus hwhole hfraction hexponent hv)⟩

/-- What is read from the text of a number. -/
theorem Json.NumberText.readDouble_eq {s : List Char} {x : Double} (h : NumberText s x) :
    Decimal.readDouble s = some x := by
  cases h
  assumption

/-- The text of a finite double is a number of the grammar. -/
theorem Double.exists_numberText_text {n : Double} (hn : n.isFinite = true) :
    ∃ x, Json.NumberText n.text x := by
  rcases n with - | negative | ⟨negative, m⟩
  · cases hn
  · cases hn
  have hshown : ∃ whole fraction exponent, Json.IsDigits whole ∧ Json.IsFraction fraction ∧
      Json.IsExponent exponent ∧
      (if m.mant = 0 then ['0'] else Double.general.render m.units Magnitude.unitsPerOne) =
        whole ++ (fraction ++ exponent) := by
    split
    · exact ⟨['0'], [], [], ⟨by simp, by simp⟩, .absent, .absent, rfl⟩
    · rename_i hmant
      have hunits := Nat.lt_of_lt_of_le (Nat.pos_of_ne_zero hmant) m.mant_le_units
      have hcount := Decimal.digitCount_of_significant hunits Magnitude.unitsPerOne_pos rfl
      obtain ⟨whole, fraction, exponent, hwhole, hfraction, hexponent, htext, -⟩ :=
        Double.general.denotes_render rfl hcount
      exact ⟨whole, fraction, exponent, hwhole, hfraction, hexponent, htext⟩
  obtain ⟨whole, fraction, exponent, hwhole, hfraction, hexponent, hshown⟩ := hshown
  simp only [Double.text, hshown]
  cases negative with
  | false => exact Json.exists_numberText (.inl rfl) hwhole hfraction hexponent
  | true => exact Json.exists_numberText (.inr rfl) hwhole hfraction hexponent

end ScriptHost
