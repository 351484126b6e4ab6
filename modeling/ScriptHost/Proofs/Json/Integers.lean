import ScriptHost.Proofs.Decimal.TwoFormats
import ScriptHost.Proofs.Double.DefaultText
import ScriptHost.Proofs.Json.Literals

/-!
# Integers as values

An integer of 64 bits becomes a number as long as every integer of its magnitude is a double, and
beyond that a literal with its decimal digits.  Either way the value tells which integer it was, so
that no two integers become values that are deeply equal.

## Main definitions

* `TypedLiteral.HoldsInteger` : a value tells an integer, as a number or as a literal.

## Main results

* `Double.toRat_ofInt` : below `2 ^ 53` in magnitude an integer is a double.
* `Decimal.readInt_toString` : the decimal digits of an integer in range are read back.
* `TypedLiteral.HoldsInteger.deepEq?_eq_false` : values that tell different integers differ.
* `TypedLiteral.holdsInteger_and_deepEq?_integer` : what becomes of the integers of 64 bits.
-/

namespace ScriptHost

/-! ### Integers that are doubles -/

namespace Magnitude

/-- A ratio of units that needs no rounding. -/
theorem rounded_eq {scaled den m : ℕ} (hden : 0 < den)
    (h : (scaled / den : ℚ) = m * 2 ^ binade scaled den) : rounded scaled den = m :=
  Nat.le_antisymm (rounded_le hden h.le) (le_rounded hden h.ge)

/-- The last place of a natural number below `2 ^ 53` counts one at most. -/
theorem binade_natural_le {n : ℕ} (hn : n < 2 ^ 53) : binade (n * unitsPerOne) 1 ≤ 1074 := by
  rw [binade, Nat.div_one]
  by_cases hzero : n = 0
  · rw [hzero, Nat.zero_mul, Nat.log2_zero]
    exact Nat.zero_le _
  · have hne : n * unitsPerOne ≠ 0 := Nat.mul_ne_zero hzero unitsPerOne_pos.ne'
    have hlt : n * unitsPerOne < 2 ^ (53 + 1074) := by
      rw [two_pow_add]
      exact Nat.mul_lt_mul_of_pos_right hn unitsPerOne_pos
    have hlog := (Nat.log2_lt hne).2 hlt
    omega

/-- A natural number below `2 ^ 53` is a magnitude. -/
theorem exists_nearest_natural {n : ℕ} (hn : n < 2 ^ 53) :
    ∃ x, nearest n 1 = some x ∧ x.units = n * unitsPerOne := by
  have hmax : n * unitsPerOne ≤ maxUnits := by
    rw [unitsPerOne_eq]
    exact mul_two_pow_le_maxUnits hn (by omega)
  have hratio : ((n : ℕ) * unitsPerOne / (1 : ℕ) : ℚ) ≤ maxUnits := by
    rw [Nat.cast_one, div_one]
    exact_mod_cast hmax
  obtain ⟨x, hx⟩ := exists_nearest one_pos hratio
  obtain ⟨k, hk⟩ := Nat.exists_eq_add_of_le' (binade_natural_le hn)
  have hscaled : n * unitsPerOne = n * 2 ^ k * 2 ^ binade (n * unitsPerOne) 1 := by
    rw [Nat.mul_assoc, ← Nat.pow_add, ← hk, unitsPerOne_eq]
  have hrounded : rounded (n * unitsPerOne) 1 = n * 2 ^ k := by
    refine rounded_eq one_pos ?_
    rw [Nat.cast_one, div_one]
    exact_mod_cast hscaled
  exact ⟨x, hx, by rw [units_of_nearest hx, hrounded, ← hscaled]⟩

end Magnitude

namespace Double

/-- Below `2 ^ 53` in magnitude an integer is a double. -/
theorem exists_ofInt_eq_finite {i : ℤ} (hi : i.natAbs < 2 ^ 53) :
    ∃ x : Magnitude, ofInt i = .finite (decide (i < 0)) x ∧
      x.units = i.natAbs * Magnitude.unitsPerOne := by
  obtain ⟨x, hx, hunits⟩ := Magnitude.exists_nearest_natural hi
  exact ⟨x, by rw [ofInt, ofRatio, hx, ofMagnitude?], hunits⟩

theorem isFinite_ofInt {i : ℤ} (hi : i.natAbs < 2 ^ 53) : (ofInt i).isFinite = true := by
  obtain ⟨x, hx, -⟩ := exists_ofInt_eq_finite hi
  rw [hx]
  rfl

/-- Such a double is exactly the integer. -/
theorem toRat_ofInt {i : ℤ} (hi : i.natAbs < 2 ^ 53) : (ofInt i).toRat = i := by
  obtain ⟨x, hx, hunits⟩ := exists_ofInt_eq_finite hi
  have hpos : (Magnitude.unitsPerOne : ℚ) ≠ 0 := by exact_mod_cast Magnitude.unitsPerOne_pos.ne'
  rw [hx, toRat_finite, hunits, Nat.cast_mul, mul_div_cancel_right₀ _ hpos, Nat.cast_natAbs,
    Int.cast_abs]
  by_cases hneg : i < 0
  · have hcast : (i : ℚ) < 0 := by exact_mod_cast hneg
    rw [decide_eq_true hneg, if_pos rfl, abs_of_neg hcast, neg_one_mul, neg_neg]
  · have hcast : (0 : ℚ) ≤ i := by exact_mod_cast not_lt.1 hneg
    rw [decide_eq_false hneg, if_neg Bool.false_ne_true, abs_of_nonneg hcast, one_mul]

/-- Finite doubles that are not the same number differ. -/
theorem same_eq_false_of_toRat_ne {x y : Double} (h : x.toRat ≠ y.toRat) : x.same y = false := by
  rw [Bool.eq_false_iff]
  intro hsame
  cases x with
  | nan => cases hsame
  | infinite s =>
    cases y with
    | infinite t => exact h rfl
    | _ => cases hsame
  | finite s m =>
    cases y with
    | finite t n => exact h (by rw [toRat, toRat, eq_of_beq hsame])
    | _ => cases hsame

end Double

/-! ### Integers that are literals -/

namespace Decimal

theorem toList_toString (i : ℤ) : (toString i).toList = signedDigits i := by
  cases i with
  | ofNat n => exact Nat.toList_repr
  | negSucc n =>
    rw [signedDigits, if_pos (Int.negSucc_lt_zero n)]
    exact (String.toList_append ..).trans (congrArg ('-' :: ·) Nat.toList_repr)

/-- The decimal digits of an integer in range are read back. -/
theorem readInt_toString {bound : ℕ} {i : ℤ} (hlow : -(bound : ℤ) ≤ i) (hhigh : i < bound) :
    readInt bound (toString i).toList = some i := by
  rw [toList_toString, readInt_signedDigits hlow hhigh]

end Decimal

namespace Heap

variable {heap : Heap} {g h : Handle}

/-- Two objects are deeply equal only if they are one object or their members are. -/
theorem deepEq?_object_eq_false (hgh : g ≠ h)
    (hall : ∀ depth, allSame (heap.deepEqWithin depth) (heap.get g).members (heap.get h).members =
      some false) : heap.deepEq? (.object g) (.object h) = some false := by
  rw [deepEq?, deepEqWithin, if_neg hgh]
  dsimp only
  split_ifs
  · exact hall _
  · rfl

/-- Objects that hold different strings under one name are not deeply equal. -/
theorem deepEq?_eq_false_of_strings {name s t : String}
    (hg : (heap.get g).members = [(name, .string s)])
    (hh : (heap.get h).members = [(name, .string t)]) (hst : s ≠ t) :
    heap.deepEq? (.object g) (.object h) = some false := by
  have hgh : g ≠ h := by
    rintro rfl
    rw [hg] at hh
    cases hh
    exact hst rfl
  refine deepEq?_object_eq_false hgh fun depth ↦ ?_
  have hstrings : heap.deepEqWithin depth (.string s) (.string t) = some false :=
    (deepEqWithin_scalar depth (.inl rfl)).trans (congrArg some (beq_eq_false_iff_ne.2 hst))
  rw [hg, hh, allSame, if_pos rfl, hstrings]

end Heap

namespace TypedLiteral

/-- A value tells an integer: up to `2 ^ 53 - 1` in magnitude it is a number that is exactly this
integer, and beyond that an object that is recognized as a literal of it. -/
inductive HoldsInteger (heap : Heap) (i : ℤ) : Value → Prop
  | number {x : Double} (hi : i.natAbs ≤ 2 ^ 53 - 1) (hfinite : x.isFinite = true)
      (hx : x.toRat = i) : HoldsInteger heap i (.number x)
  | literal {h : Handle} (hi : 2 ^ 53 - 1 < i.natAbs)
      (hl : (ofValue? heap (.object h)).bind int64? = some i) : HoldsInteger heap i (.object h)

/-- Only literals of integers have an integer. -/
theorem exists_digits_of_int64? {l : TypedLiteral} {i : ℤ} (h : l.int64? = some i) :
    ∃ digits, l = int64 digits ∧ Decimal.readInt (1 <<< 63) digits.toList = some i := by
  cases l with
  | int64 digits => exact ⟨digits, rfl, h⟩
  | _ => cases h

variable {heap : Heap}

/-- The digits in the object of a literal that has an integer. -/
theorem exists_members_eq_of_int64? {h : Handle} {i : ℤ}
    (hi : (ofValue? heap (.object h)).bind int64? = some i) :
    ∃ digits, (heap.get h).members = [("$i64", .string digits)] ∧
      Decimal.readInt (1 <<< 63) digits.toList = some i := by
  obtain ⟨l, hl, hint⟩ := Option.bind_eq_some_iff.1 hi
  obtain ⟨digits, rfl, hread⟩ := exists_digits_of_int64? hint
  exact ⟨digits, List.perm_singleton.1 (perm_of_ofObject?_eq_some hl), hread⟩

/-- Values that tell different integers are not deeply equal. -/
theorem HoldsInteger.deepEq?_eq_false {i j : ℤ} {v w : Value} (hv : HoldsInteger heap i v)
    (hw : HoldsInteger heap j w) (hij : i ≠ j) : heap.deepEq? v w = some false := by
  cases hv with
  | @number x _ _ hx =>
    rw [Heap.deepEq?, Heap.deepEqWithin_scalar _ (.inl rfl)]
    cases hw with
    | @number y _ _ hy =>
      have hne : x.toRat ≠ y.toRat := by
        rw [hx, hy]
        exact_mod_cast hij
      exact congrArg some (Double.same_eq_false_of_toRat_ne hne)
    | literal _ _ => rfl
  | literal _ hl =>
    cases hw with
    | number _ _ _ =>
      rw [Heap.deepEq?, Heap.deepEqWithin_scalar _ (.inr rfl)]
      rfl
    | literal _ hl' =>
      obtain ⟨s, hs, hread⟩ := exists_members_eq_of_int64? hl
      obtain ⟨t, ht, hread'⟩ := exists_members_eq_of_int64? hl'
      refine Heap.deepEq?_eq_false_of_strings hs ht ?_
      rintro rfl
      exact hij (Option.some.inj (hread.symm.trans hread'))

/-! ### What an integer becomes -/

theorem maxSafeInteger_eq : maxSafeInteger = 2 ^ 53 - 1 := rfl

/-- What leads to the tree of an integer of 64 bits tells the integer. -/
theorem holdsInteger_of_leadsTo {i : Int64} {v : Value}
    (h : heap.LeadsTo v (integer i.toInt)) : HoldsInteger heap i.toInt v := by
  unfold integer at h
  split_ifs at h with hi
  · cases h
    rw [maxSafeInteger_eq] at hi
    have hlt : i.toInt.natAbs < 2 ^ 53 := by omega
    exact .number hi (Double.isFinite_ofInt hlt) (Double.toRat_ofInt hlt)
  · rw [toTree_eq] at h
    obtain ⟨g, rfl, hms⟩ := h.exists_object
    have hmembers := hms.eq_of_strings
    have hliteral : ofValue? heap (.object g) = some (int64 (toString i.toInt)) :=
      ofObject?_of_perm (hmembers ▸ .refl _)
    have hread : int64? (int64 (toString i.toInt)) = some i.toInt :=
      Decimal.readInt_toString i.le_toInt i.toInt_lt
    refine .literal (Nat.lt_of_not_le hi) ?_
    rw [hliteral]
    exact hread

theorem hasDistinctNames_integer (i : ℤ) : (integer i).HasDistinctNames := by
  unfold integer
  split_ifs
  · exact True.intro
  · exact hasDistinctNames_toTree _

theorem hasNoNan_integer (i : ℤ) : (integer i).HasNoNan := by
  unfold integer
  split_ifs
  · exact Double.ofRatio_ne_nan _ _ _
  · rw [toTree_eq]
    exact ⟨True.intro, True.intro⟩

/-- Values that lead to the trees of two integers are deeply equal if the integers are equal, and
else they are not. -/
theorem deepEq?_of_leadsTo {i j : Int64} {v w : Value} (hv : heap.LeadsTo v (integer i.toInt))
    (hw : heap.LeadsTo w (integer j.toInt)) (hsize : (integer i.toInt).nesting ≤ heap.size) :
    heap.deepEq? v w = some (decide (i = j)) := by
  by_cases hij : i = j
  · subst hij
    rw [decide_eq_true rfl]
    exact hv.deepEq?_eq hw (.refl (hasNoNan_integer _)) hsize
  · rw [decide_eq_false hij]
    exact (holdsInteger_of_leadsTo hv).deepEq?_eq_false (holdsInteger_of_leadsTo hw)
      fun heq ↦ hij (Int64.toInt_inj.1 heq)

/-- An integer of 64 bits becomes a value that tells it: the number that is exactly this integer up
to `2 ^ 53 - 1` in magnitude, and beyond that an object that is recognized as a literal with the
integer.  So what two integers become, one after the other, is deeply equal only if they are one
integer, whichever of the two is compared with the other. -/
theorem holdsInteger_and_deepEq?_integer :
    (∀ (i : Int64) (heap : Heap),
      let (v, heap) := heap.realize (integer i.toInt)
      HoldsInteger heap i.toInt v) ∧
    ∀ (i j : Int64) (heap : Heap),
      let (v, heap) := heap.realize (integer i.toInt)
      let (w, heap) := heap.realize (integer j.toInt)
      heap.deepEq? v w = some (decide (i = j)) ∧ heap.deepEq? w v = some (decide (j = i)) := by
  have hrealized (i : Int64) (heap : Heap) :=
    heap.realized_realize (integer i.toInt) (hasDistinctNames_integer _)
  refine ⟨fun i heap ↦ holdsInteger_of_leadsTo (hrealized i heap).leadsTo, fun i j heap ↦ ?_⟩
  have hfirst := hrealized i heap
  have hsecond := hrealized j (heap.realize (integer i.toInt)).2
  have hv := hfirst.leadsTo.mono hsecond.ext
  have hle := hfirst.size_le
  have hle' := hsecond.size_le
  exact ⟨deepEq?_of_leadsTo hv hsecond.leadsTo (by omega),
    deepEq?_of_leadsTo hsecond.leadsTo hv (by omega)⟩

end TypedLiteral

end ScriptHost
