import Mathlib.Tactic.Common
import ScriptHost.Proofs.Json.Grammar

/-!
# Numbers

The reader takes the longest number at the front of a text.  It gives the double to which the
conversion of the same text leads, which reads a sign, digits, a fraction and an exponent by other
functions; both are brought to the parts of the number.

## Main results

* `Json.readDouble_parts` : the conversion of a number by its parts.
* `Json.readNumber?_append` : a number is read to its end.
* `Json.numberText_of_readNumber?` : what is read as a number is one.
-/

namespace ScriptHost.Json

/-- No number goes on into this text. -/
def EndsNumber (r : List Char) : Prop :=
  ∀ c ∈ r.head?, c.isDigit = false ∧ c ≠ '.' ∧ c ≠ 'e' ∧ c ≠ 'E'

theorem endsNumber_nil : EndsNumber [] := by simp [EndsNumber]

theorem spanDigits_append {ds r : List Char} (hds : ∀ c ∈ ds, c.isDigit = true)
    (hr : ∀ c ∈ r.head?, c.isDigit = false) : Decimal.spanDigits (ds ++ r) = (ds, r) := by
  unfold Decimal.spanDigits
  rw [List.takeWhile_append_of_pos hds, List.dropWhile_append_of_pos hds]
  cases r with
  | nil => simp
  | cons c r =>
    have hc : c.isDigit = false := hr c rfl
    simp [hc]

/-- A digit is no sign, no point and no mark of an exponent. -/
theorem ne_of_isDigit {c d : Char} (hc : c.isDigit = true) (hd : d.isDigit = false) : c ≠ d := by
  rintro rfl
  rw [hc] at hd
  exact Bool.noConfusion hd

/-- A fraction is read to its end. -/
theorem readFraction_append {f r : List Char} (hf : IsFraction f)
    (hr : ∀ c ∈ r.head?, c.isDigit = false ∧ c ≠ '.') :
    readFraction (f ++ r) = some (f.tail, r) := by
  cases hf with
  | absent =>
    cases r with
    | nil => rfl
    | cons c r =>
      have hpoint : c ≠ '.' := (hr c rfl).2
      rw [List.nil_append, readFraction.eq_def]
      split
      · rename_i hs
        exact absurd (List.cons.inj hs).1 hpoint
      · rfl
  | @digits ds hds =>
    have hspan := spanDigits_append hds.2 fun c hc ↦ (hr c hc).1
    simp only [List.cons_append, readFraction, hspan, List.tail_cons]
    rw [if_neg]
    simpa using hds.1

theorem spanSign_append {sign ds : List Char} (hsign : sign = [] ∨ sign = ['+'] ∨ sign = ['-'])
    (hds : IsDigits ds) (r : List Char) :
    Decimal.spanSign (sign ++ (ds ++ r)) = (decide (sign = ['-']), ds ++ r) := by
  obtain ⟨d, ds, rfl⟩ := List.exists_cons_of_ne_nil hds.1
  have hd : d.isDigit = true := hds.2 d List.mem_cons_self
  rcases hsign with rfl | rfl | rfl
  · have hminus : d ≠ '-' := ne_of_isDigit hd rfl
    have hplus : d ≠ '+' := ne_of_isDigit hd rfl
    rw [List.nil_append, List.cons_append, Decimal.spanSign.eq_def]
    split
    · exact absurd (List.cons.inj ‹_›).1 hminus
    · exact absurd (List.cons.inj ‹_›).1 hplus
    · rfl
  · rfl
  · rfl

/-- The value of an exponent with this sign and these digits. -/
def exponentValue (sign ds : List Char) : Int :=
  if decide (sign = ['-']) then -(Decimal.exponentOfDigits ds : Int)
  else Decimal.exponentOfDigits ds

theorem decimal_readExponent {mark : Char} {sign ds : List Char} (hmark : mark = 'e' ∨ mark = 'E')
    (hsign : sign = [] ∨ sign = ['+'] ∨ sign = ['-']) (hds : IsDigits ds) :
    Decimal.readExponent (mark :: (sign ++ ds)) = some (exponentValue sign ds) := by
  have hmark : (mark == 'e' || mark == 'E') = true := by simpa using hmark
  have hempty : ds.isEmpty = false := by simpa using hds.1
  have hall : ds.all Char.isDigit = true := List.all_eq_true.2 hds.2
  have hspan := spanSign_append hsign hds []
  rw [List.append_nil] at hspan
  simp only [Decimal.readExponent, hmark, if_true, hspan, hempty, hall]
  rfl

/-- An exponent has one value, whether it ends its text or stands in front of another. -/
theorem exists_exponent {e : List Char} (he : IsExponent e) :
    ∃ v, Decimal.readExponent e = some v ∧
      ∀ r, EndsNumber r → readExponent (e ++ r) = some (v, r) := by
  cases he with
  | absent =>
    refine ⟨0, rfl, fun r hr ↦ ?_⟩
    cases r with
    | nil => rfl
    | cons c r =>
      obtain ⟨-, -, hlower, hupper⟩ := hr c rfl
      simp [readExponent, hlower, hupper]
  | @digits mark sign ds hmark hsign hds =>
    refine ⟨_, decimal_readExponent hmark hsign hds, fun r hr ↦ ?_⟩
    have hmark : (mark == 'e' || mark == 'E') = true := by simpa using hmark
    have hempty : ds.isEmpty = false := by simpa using hds.1
    have hspan := spanDigits_append hds.2 fun c hc ↦ (hr c hc).1
    simp only [List.cons_append, List.append_assoc, readExponent, hmark, if_true,
      spanSign_append hsign hds r, hspan, hempty]
    rfl

/-- An exponent does not go on with digits or with a fraction. -/
theorem exponent_head? {e r : List Char} (he : IsExponent e) (hr : EndsNumber r) :
    ∀ c ∈ (e ++ r).head?, c.isDigit = false ∧ c ≠ '.' := by
  cases he with
  | absent => exact fun c hc ↦ ⟨(hr c hc).1, (hr c hc).2.1⟩
  | digits hmark =>
    rintro c hc
    obtain rfl : _ = c := Option.some.inj hc
    rcases hmark with rfl | rfl <;> decide

/-- A fraction does not go on with digits. -/
theorem fraction_head? {f r : List Char} (hf : IsFraction f)
    (hr : ∀ c ∈ r.head?, c.isDigit = false ∧ c ≠ '.') :
    ∀ c ∈ (f ++ r).head?, c.isDigit = false := by
  cases hf with
  | absent => exact fun c hc ↦ (hr c hc).1
  | digits =>
    rintro c hc
    obtain rfl : _ = c := Option.some.inj hc
    rfl

theorem spanFraction_append {f r : List Char} (hf : IsFraction f)
    (hr : ∀ c ∈ r.head?, c.isDigit = false ∧ c ≠ '.') :
    Decimal.spanFraction (f ++ r) = (f.tail, r) := by
  cases hf with
  | absent =>
    rw [List.nil_append, Decimal.spanFraction.eq_def]
    split
    · exact absurd rfl (hr '.' rfl).2
    · rfl
  | digits hds => exact spanDigits_append hds.2 fun c hc ↦ (hr c hc).1

/-- A text that begins with a digit is no word. -/
theorem ofList_map_toLower_ne {d : Char} (hd : d.isDigit = true) (r : List Char) (word : String)
    {w : Char} (hw : word.toList.head? = some w) (hdigit : w.isDigit = false) :
    (String.ofList ((d :: r).map Char.toLower) == word) = false := by
  rw [beq_eq_false_iff_ne]
  rintro rfl
  rw [String.toList_ofList, List.map_cons, List.head?_cons, Option.some.injEq] at hw
  have hlower : d.toLower = d := by
    refine dif_neg fun hupper ↦ ?_
    simp only [Char.isDigit, Bool.and_eq_true, decide_eq_true_eq] at hd
    exact absurd (UInt32.le_trans hupper.1 hd.2) (by decide)
  rw [← hw, hlower, hd] at hdigit
  exact Bool.noConfusion hdigit

/-- The conversion of a number by its parts. -/
theorem readDouble_parts {minus whole fraction exponent : List Char} {v : Int}
    (hminus : minus = [] ∨ minus = ['-']) (hwhole : IsDigits whole)
    (hfraction : IsFraction fraction) (hexponent : IsExponent exponent)
    (hv : Decimal.readExponent exponent = some v) :
    Decimal.readDouble (minus ++ (whole ++ (fraction ++ exponent))) =
      some (Decimal.scientific (decide (minus = ['-'])) whole fraction.tail v) := by
  have hsign := spanSign_append (hminus.imp_right Or.inr) hwhole (fraction ++ exponent)
  have hhead := exponent_head? hexponent endsNumber_nil
  rw [List.append_nil] at hhead
  have hspan := spanDigits_append hwhole.2 (fraction_head? hfraction hhead)
  have hfrac := spanFraction_append hfraction hhead
  have hempty : whole.isEmpty = false := by simpa using hwhole.1
  have hunsigned : Decimal.readUnsigned (decide (minus = ['-'])) (whole ++ (fraction ++ exponent)) =
      some (Decimal.scientific (decide (minus = ['-'])) whole fraction.tail v) := by
    simp only [Decimal.readUnsigned, hspan, hfrac, hempty, hv]
    rfl
  obtain ⟨d, ds, rfl⟩ := List.exists_cons_of_ne_nil hwhole.1
  have hd : d.isDigit = true := hwhole.2 d List.mem_cons_self
  have hinf := ofList_map_toLower_ne hd (ds ++ (fraction ++ exponent)) "inf" rfl rfl
  have hinfinity := ofList_map_toLower_ne hd (ds ++ (fraction ++ exponent)) "infinity" rfl rfl
  have hnan := ofList_map_toLower_ne hd (ds ++ (fraction ++ exponent)) "nan" rfl rfl
  simp only [List.cons_append] at hsign hunsigned ⊢
  simp only [Decimal.readDouble, hsign, hinf, hinfinity, hnan, hunsigned]
  rfl

theorem spanMinus_append {minus ds : List Char} (hminus : minus = [] ∨ minus = ['-'])
    (hds : IsDigits ds) (r : List Char) :
    spanMinus (minus ++ (ds ++ r)) = (decide (minus = ['-']), ds ++ r) := by
  obtain ⟨d, ds, rfl⟩ := List.exists_cons_of_ne_nil hds.1
  rcases hminus with rfl | rfl
  · have hne : d ≠ '-' := ne_of_isDigit (hds.2 d List.mem_cons_self) rfl
    rw [List.nil_append, List.cons_append, spanMinus.eq_def]
    split
    · exact absurd (List.cons.inj ‹_›).1 hne
    · rfl
  · rfl

/-- A number is read to its end. -/
theorem readNumber?_append {s r : List Char} {x : Double} (h : NumberText s x)
    (hr : EndsNumber r) : readNumber? (s ++ r) = some (x, r) := by
  obtain @⟨minus, whole, fraction, exponent, x, hminus, hwhole, hfraction, hexponent, hx⟩ := h
  obtain ⟨v, hv, hread⟩ := exists_exponent hexponent
  have hparts := readDouble_parts hminus hwhole hfraction hexponent hv
  rw [hx, Option.some.injEq] at hparts
  have hhead := exponent_head? hexponent hr
  have hspan := spanDigits_append hwhole.2 (fraction_head? hfraction hhead)
  have hfrac := readFraction_append hfraction hhead
  have hempty : whole.isEmpty = false := by simpa using hwhole.1
  simp only [List.append_assoc, readNumber?, spanMinus_append hminus hwhole, hspan, hempty]
  simp [hfrac, hread r hr, hparts]

/-! ### From what was read to the grammar -/

theorem exists_digits_of_spanDigits (s : List Char) (h : (Decimal.spanDigits s).1.isEmpty = false) :
    IsDigits (Decimal.spanDigits s).1 ∧
      s = (Decimal.spanDigits s).1 ++ (Decimal.spanDigits s).2 := by
  refine ⟨⟨by simpa using h, ?_⟩, List.takeWhile_append_dropWhile.symm⟩
  exact List.all_eq_true.1 List.all_takeWhile

theorem isFraction_of_readFraction {s ds r : List Char} (h : readFraction s = some (ds, r)) :
    ∃ f, IsFraction f ∧ f.tail = ds ∧ s = f ++ r := by
  unfold readFraction at h
  split at h
  · rename_i s'
    by_cases hempty : (Decimal.spanDigits s').1.isEmpty = true
    · simp [hempty] at h
    · obtain ⟨hds, hs⟩ := exists_digits_of_spanDigits s' ((Bool.not_eq_true _).mp hempty)
      simp only [hempty, Bool.false_eq_true, if_false, Option.some.injEq, Prod.mk.injEq] at h
      obtain ⟨rfl, rfl⟩ := h
      exact ⟨_, .digits hds, rfl, congrArg ('.' :: ·) hs⟩
  · cases h
    exact ⟨[], .absent, rfl, rfl⟩

theorem exists_sign_of_spanSign (s : List Char) :
    ∃ sign, (sign = [] ∨ sign = ['+'] ∨ sign = ['-']) ∧
      (Decimal.spanSign s).1 = decide (sign = ['-']) ∧ s = sign ++ (Decimal.spanSign s).2 := by
  unfold Decimal.spanSign
  split
  · exact ⟨['-'], .inr (.inr rfl), rfl, rfl⟩
  · exact ⟨['+'], .inr (.inl rfl), rfl, rfl⟩
  · exact ⟨[], .inl rfl, rfl, rfl⟩

theorem isExponent_of_readExponent {s r : List Char} {v : Int}
    (h : readExponent s = some (v, r)) :
    ∃ e, IsExponent e ∧ Decimal.readExponent e = some v ∧ s = e ++ r := by
  unfold readExponent at h
  split at h
  · cases h
    exact ⟨[], .absent, rfl, rfl⟩
  · rename_i mark s'
    split_ifs at h with hmark
    · obtain ⟨sign, hsign, hnegative, hs'⟩ := exists_sign_of_spanSign s'
      by_cases hempty : (Decimal.spanDigits (Decimal.spanSign s').2).1.isEmpty = true
      · simp [hempty] at h
      · rw [Bool.not_eq_true] at hempty
        obtain ⟨hds, hr⟩ := exists_digits_of_spanDigits _ hempty
        have hmark : mark = 'e' ∨ mark = 'E' := by simpa using hmark
        simp only [hempty, Bool.false_eq_true, if_false, Option.some.injEq, Prod.mk.injEq] at h
        obtain ⟨rfl, rfl⟩ := h
        refine ⟨_, .digits hmark hsign hds, ?_, ?_⟩
        · rw [decimal_readExponent hmark hsign hds, exponentValue, hnegative]
        · rw [List.cons_append, List.append_assoc, ← hr, ← hs']
    · cases h
      exact ⟨[], .absent, rfl, rfl⟩

theorem exists_minus_of_spanMinus (s : List Char) :
    ∃ minus, (minus = [] ∨ minus = ['-']) ∧ (spanMinus s).1 = decide (minus = ['-']) ∧
      s = minus ++ (spanMinus s).2 := by
  unfold spanMinus
  split
  · exact ⟨['-'], .inr rfl, rfl, rfl⟩
  · exact ⟨[], .inl rfl, rfl, rfl⟩

/-- What is read as a number is one. -/
theorem numberText_of_readNumber? {s r : List Char} {x : Double}
    (h : readNumber? s = some (x, r)) : ∃ k, NumberText k x ∧ s = k ++ r := by
  obtain ⟨minus, hminus, hnegative, hs⟩ := exists_minus_of_spanMinus s
  simp only [readNumber?] at h
  split_ifs at h with hempty
  rw [Bool.not_eq_true] at hempty
  obtain ⟨hwhole, hs₁⟩ := exists_digits_of_spanDigits _ hempty
  simp only [Option.bind_eq_bind, Option.bind_eq_some_iff] at h
  obtain ⟨⟨ds, s₂⟩, hf, ⟨v, s₃⟩, he, h⟩ := h
  obtain ⟨f, hfraction, rfl, hs₂⟩ := isFraction_of_readFraction hf
  obtain ⟨e, hexponent, hv, hs₃⟩ := isExponent_of_readExponent he
  simp only [Option.some.injEq, Prod.mk.injEq] at h
  obtain ⟨rfl, rfl⟩ := h
  refine ⟨_, .parts hminus hwhole hfraction hexponent ?_, ?_⟩
  · rw [hnegative]
    exact readDouble_parts hminus hwhole hfraction hexponent hv
  · dsimp only at hs₂ hs₃
    rw [List.append_assoc, List.append_assoc, List.append_assoc, ← hs₃, ← hs₂, ← hs₁, ← hs]

end ScriptHost.Json
