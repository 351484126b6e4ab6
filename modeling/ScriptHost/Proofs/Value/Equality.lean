import Mathlib.Tactic.Common
import ScriptHost.Equality
import ScriptHost.Proofs.Json.Numerals

/-!
# Strict and loose equality

Numbers are equal as such: NaN differs from itself, and the two zeros agree, which are the only
doubles that agree without being one.  Strict and loose equality of values are symmetric and
transitive, and every value but NaN is equal to itself.  Transitivity of the loose one is not lost
where numbers meet booleans, since both are compared as the numbers that they stand for.

## Main definitions

* `Value.IsEquality` : symmetric, transitive, and reflexive but for NaN.

## Main results

* `Double.eq_of_same` : numbers that agree are one, unless one of them is the negative zero.
* `Value.isEquality_strictEq`, `Value.isEquality_looseEq` : the two equalities of values.
* `Value.looseEq_of_strictEq` : the strict one is the finer one.
-/

namespace ScriptHost

/-! ### Numbers -/

/-- A magnitude is told from the others by its units. -/
theorem Magnitude.units_injective : Function.Injective Magnitude.units := by
  have hle {x y : Magnitude} (h : x.units = y.units) : y.expo ≤ x.expo := by
    by_contra hlt
    obtain ⟨k, hk⟩ := Nat.exists_eq_add_of_lt (Nat.lt_of_not_le hlt)
    have hmant := y.canonical.resolve_left (by omega)
    -- one binade up there are no mantissas as small as those below
    have hgrowth : x.mant * 2 ^ x.expo < y.mant * 2 ^ y.expo :=
      calc x.mant * 2 ^ x.expo
          < 2 ^ 53 * 2 ^ x.expo := Nat.mul_lt_mul_of_pos_right x.mant_lt (Nat.two_pow_pos _)
        _ = 2 ^ 52 * 2 ^ (x.expo + 1) := by rw [Nat.pow_succ 2 x.expo]; omega
        _ ≤ y.mant * 2 ^ y.expo :=
          Nat.mul_le_mul hmant (Nat.pow_le_pow_right (by decide) (by omega))
    rw [units, units, Nat.shiftLeft_eq, Nat.shiftLeft_eq] at h
    exact Nat.ne_of_lt hgrowth h
  intro x y h
  have hexpo := Nat.le_antisymm (hle h.symm) (hle h)
  have hmant : x.mant = y.mant := by
    rw [units, units, Nat.shiftLeft_eq, Nat.shiftLeft_eq, hexpo] at h
    exact Nat.eq_of_mul_eq_mul_right (Nat.two_pow_pos _) h
  cases x
  cases y
  cases hexpo
  cases hmant
  rfl

namespace Double

variable {x y z : Double}

theorem same_comm (x y : Double) : x.same y = y.same x := by
  cases x <;> cases y <;> first | rfl | exact Bool.beq_comm

theorem same_trans (hxy : x.same y = true) (hyz : y.same z = true) : x.same z = true := by
  cases x with
  | nan => cases hxy
  | infinite s =>
    cases y with
    | infinite t => rwa [eq_of_beq hxy]
    | _ => cases hxy
  | finite s m =>
    cases y with
    | finite t n =>
      cases z with
      | finite u o => exact beq_iff_eq.2 ((eq_of_beq hxy).trans (eq_of_beq hyz))
      | _ => cases hyz
    | _ => cases hxy

/-- A number other than NaN is the same as itself. -/
theorem same_self (hx : x ≠ .nan) : x.same x = true := by
  cases x with
  | nan => exact absurd rfl hx
  | infinite negative => exact beq_self_eq_true negative
  | finite negative m => exact beq_self_eq_true _

theorem ofNat_ne_nan (n : Nat) : ofNat n ≠ .nan := ofRatio_ne_nan false n 1

/-- Numbers that agree are one number, unless one of them is the negative zero. -/
theorem eq_of_same (h : x.same y = true) (hx : x ≠ .finite true .zero)
    (hy : y ≠ .finite true .zero) : x = y := by
  cases x with
  | nan => cases h
  | infinite s =>
    cases y with
    | infinite t => rw [eq_of_beq h]
    | _ => cases h
  | finite s m =>
    cases y with
    | finite t n =>
      have hunits : (finite s m).units = (finite t n).units := eq_of_beq h
      have hzero {o : Magnitude} (ho : o.units = 0) : o = .zero := Magnitude.units_injective ho
      cases s <;> cases t <;> simp only [units] at hunits
      · rw [Magnitude.units_injective (Int.ofNat_inj.1 hunits)]
      · exact absurd (by rw [hzero (by omega : n.units = 0)]) hy
      · exact absurd (by rw [hzero (by omega : m.units = 0)]) hx
      · rw [Magnitude.units_injective (Int.ofNat_inj.1 (Int.neg_inj.1 hunits))]
    | _ => cases h

end Double

namespace Value

variable {a b c : Value}

/-- An equality of values: symmetric and transitive, and every value but NaN is equal to itself. -/
structure IsEquality (same : Value → Value → Bool) : Prop where
  symm : ∀ a b, same a b = same b a
  trans : ∀ a b c, same a b = true → same b c = true → same a c = true
  refl_iff : ∀ a, same a a = true ↔ a ≠ .number .nan

/-- Only NaN differs from itself. -/
theorem strictEq_self (h : a ≠ number .nan) : a.strictEq a = true := by
  cases a with
  | nil => rfl
  | number n => exact Double.same_self fun heq ↦ h (congrArg number heq)
  | _ => exact beq_self_eq_true _

theorem strictEq_comm (a b : Value) : a.strictEq b = b.strictEq a := by
  cases a <;> cases b <;> first | rfl | exact Double.same_comm _ _ | exact Bool.beq_comm

theorem strictEq_trans (hab : a.strictEq b = true) (hbc : b.strictEq c = true) :
    a.strictEq c = true := by
  cases a with
  | nil =>
    cases b with
    | nil => exact hbc
    | _ => cases hab
  | number x =>
    cases b with
    | number y =>
      cases c with
      | number z => exact Double.same_trans hab hbc
      | _ => cases hbc
    | _ => cases hab
  | boolean s =>
    cases b with
    | boolean t => rwa [eq_of_beq hab]
    | _ => cases hab
  | string s =>
    cases b with
    | string t => rwa [eq_of_beq hab]
    | _ => cases hab
  | object g =>
    cases b with
    | object h => rwa [eq_of_beq hab]
    | _ => cases hab

/-- Nothing else is an object. -/
theorem eq_object_of_strictEq {h : Handle} (ha : a.strictEq (object h) = true) : a = object h := by
  cases a with
  | object g => rw [eq_of_beq ha]
  | _ => cases ha

/-- Values that are strictly equal are one value, unless one of them is the negative zero. -/
theorem eq_of_strictEq (hab : a.strictEq b = true) (ha : a ≠ number (.finite true .zero))
    (hb : b ≠ number (.finite true .zero)) : a = b := by
  cases a <;> cases b <;> try cases hab
  case nil.nil => rfl
  case number.number x y =>
    exact congrArg number
      (Double.eq_of_same hab (mt (congrArg number) ha) (mt (congrArg number) hb))
  all_goals rw [eq_of_beq hab]

theorem isEquality_strictEq : IsEquality strictEq where
  symm := strictEq_comm
  trans _ _ _ := strictEq_trans
  refl_iff a := by
    refine ⟨?_, strictEq_self⟩
    rintro h rfl
    cases h

/-! ### The loose equality -/

theorem asQuantity?_ne_nan {x : Double} (ha : a ≠ number .nan) (hx : a.asQuantity? = some x) :
    x ≠ .nan := by
  rintro rfl
  cases a with
  | number n =>
    cases hx
    exact ha rfl
  | boolean s => cases s <;> exact Double.ofNat_ne_nan _ (Option.some.inj hx)
  | _ => cases hx

/-- Values are loosely equal as quantities, or else strictly. -/
theorem looseEq_eq_true_iff : a.looseEq b = true ↔
    (∃ x y, a.asQuantity? = some x ∧ b.asQuantity? = some y ∧ x.same y = true) ∨
      a.asQuantity? = none ∧ b.asQuantity? = none ∧ a.strictEq b = true := by
  cases ha : a.asQuantity? <;> cases hb : b.asQuantity? <;> simp [looseEq, ha, hb]

theorem looseEq_comm (a b : Value) : a.looseEq b = b.looseEq a := by
  rw [looseEq, looseEq]
  cases a.asQuantity? <;> cases b.asQuantity? <;>
    first | rfl | exact strictEq_comm a b | exact Double.same_comm _ _

theorem looseEq_trans (hab : a.looseEq b = true) (hbc : b.looseEq c = true) :
    a.looseEq c = true := by
  rw [looseEq_eq_true_iff] at *
  rcases hab with ⟨x, y, hx, hy, hxy⟩ | ⟨ha, hb, hab⟩
  · rcases hbc with ⟨y', z, hy', hz, hyz⟩ | ⟨hb, -, -⟩
    · obtain rfl := Option.some.inj (hy.symm.trans hy')
      exact .inl ⟨x, z, hx, hz, Double.same_trans hxy hyz⟩
    · cases hb.symm.trans hy
  · rcases hbc with ⟨y', z, hy', -, -⟩ | ⟨-, hc, hbc⟩
    · cases hb.symm.trans hy'
    · exact .inr ⟨ha, hc, strictEq_trans hab hbc⟩

theorem looseEq_self (h : a ≠ number .nan) : a.looseEq a = true := by
  rw [looseEq_eq_true_iff]
  cases ha : a.asQuantity? with
  | none => exact .inr ⟨rfl, rfl, strictEq_self h⟩
  | some x => exact .inl ⟨x, x, rfl, rfl, Double.same_self (asQuantity?_ne_nan h ha)⟩

theorem isEquality_looseEq : IsEquality looseEq where
  symm := looseEq_comm
  trans _ _ _ := looseEq_trans
  refl_iff a := by
    refine ⟨?_, looseEq_self⟩
    rintro h rfl
    cases h

/-- What is strictly equal is loosely equal. -/
theorem looseEq_of_strictEq (h : a.strictEq b = true) : a.looseEq b = true := by
  cases a with
  | number x =>
    cases b with
    | number y => exact h
    | _ => cases h
  | boolean s =>
    cases b with
    | boolean t =>
      obtain rfl := eq_of_beq h
      exact looseEq_self Value.noConfusion
    | _ => cases h
  | _ =>
    cases b with
    | number _ | boolean _ => cases h
    | _ => exact h

end Value

end ScriptHost
