import ScriptHost.Builtin.Surroundings
import ScriptHost.Proofs.Builtin.NoPanic
import ScriptHost.Proofs.Double.Rounding

/-!
# Pauses that are too long

A pause is given in milliseconds and counted in seconds, which takes a division that rounds.  The
system has no pause of `2 ^ 64` seconds.  Rounding does not matter for that: a pause is too long
exactly if the milliseconds are a thousand times that or more, because below that bound the doubles
stand too far apart for their quotients to be rounded up to it.

## Main results

* `Magnitude.units_add_le` : the gap below a bound.
* `Builtin.noPanic_sleep_iff` : which pauses are no panic.
-/

namespace ScriptHost

/-- A magnitude below a multiple of a power of two is so by the whole power, if the multiple takes
more than 52 bits. -/
theorem Magnitude.units_add_le {x : Magnitude} {m k : ℕ} (hm : 2 ^ 52 < m)
    (h : x.units < m * 2 ^ k) : x.units + 2 ^ k ≤ m * 2 ^ k := by
  have hunits : x.units = x.mant * 2 ^ x.expo := Nat.shiftLeft_eq _ _
  rcases Nat.lt_or_ge x.expo k with hlt | hle
  · have hmant : x.mant < 2 * 2 ^ 52 := x.mant_lt
    have hpow : 2 * 2 ^ x.expo ≤ 2 ^ k := by
      rw [← Nat.pow_succ']
      exact Nat.pow_le_pow_right two_pos hlt
    calc x.units + 2 ^ k ≤ 2 ^ 52 * (2 * 2 ^ x.expo) + 2 ^ k := by
          rw [hunits, ← Nat.mul_assoc, Nat.mul_comm _ 2]
          exact Nat.add_le_add_right (Nat.mul_le_mul_right _ hmant.le) _
      _ ≤ 2 ^ 52 * 2 ^ k + 2 ^ k := Nat.add_le_add_right (Nat.mul_le_mul_left _ hpow) _
      _ = (2 ^ 52 + 1) * 2 ^ k := by rw [Nat.add_mul, Nat.one_mul]
      _ ≤ m * 2 ^ k := Nat.mul_le_mul_right _ hm
  · obtain ⟨j, hj⟩ := Nat.exists_eq_add_of_le' hle
    rw [hj, Nat.pow_add, ← Nat.mul_assoc] at hunits
    rw [hunits] at h ⊢
    have hlt := Nat.lt_of_mul_lt_mul_right h
    rw [← Nat.succ_mul]
    exact Nat.mul_le_mul_right _ hlt

namespace Builtin

open Magnitude (unitsPerOne unitsPerOne_pos)

/-- The quotient by a thousand in units. -/
theorem ratio_thousand (n : ℕ) :
    ((n * unitsPerOne : ℚ) / (unitsPerOne * 1000 : ℕ)) = n / 1000 := by
  have hne : (unitsPerOne : ℚ) ≠ 0 := Nat.cast_ne_zero.2 unitsPerOne_pos.ne'
  push_cast
  field_simp

/-- Rounding the quotient by a thousand does not cross the bound. -/
theorem units_lt_iff_of_nearest {x s : Magnitude} {k : ℕ} (hk : 10 < k)
    (h : Magnitude.nearest x.units (unitsPerOne * 1000) = some s) :
    s.units < 2 ^ k * 2 ^ 43 ↔ x.units < 125 * 2 ^ 46 * 2 ^ k := by
  have hden : 0 < unitsPerOne * 1000 := Nat.mul_pos unitsPerOne_pos (by decide)
  have hratio := ratio_thousand x.units
  constructor
  · contrapose!
    intro hle
    rw [← pow_add]
    refine Magnitude.two_pow_le_units hden h ?_
    have hle : (125 * 2 ^ 46 * 2 ^ k : ℚ) ≤ x.units := by exact_mod_cast hle
    rw [hratio, le_div_iff₀ (by norm_num), pow_add]
    linarith
  · intro hlt
    have hgap := Magnitude.units_add_le (by norm_num) hlt
    have hgap : (x.units : ℚ) + 2 ^ k ≤ 125 * 2 ^ 46 * 2 ^ k := by exact_mod_cast hgap
    have hpow : (2 : ℚ) ^ 10 < 2 ^ k := pow_lt_pow_right₀ one_lt_two hk
    have hround := (abs_le.1 (Magnitude.abs_units_sub_le hden h)).2
    rw [hratio] at hround
    have hbound : (s.units : ℚ) < 2 ^ k * 2 ^ 43 := by
      rcases le_max_iff.1 hround with hround | hround <;> linarith
    exact_mod_cast hbound

/-- Whether the system has the pause of so many milliseconds. -/
theorem floor?_lt_pauseBound_iff (x : Magnitude) :
    (Double.ofRatio false x.units (unitsPerOne * 1000)).floor?.any (· < pauseBound) = true ↔
      x.units < 1000 * pauseBound * unitsPerOne := by
  have hden : 0 < unitsPerOne * 1000 := Nat.mul_pos unitsPerOne_pos (by decide)
  have hle : (x.units * unitsPerOne : ℚ) / (unitsPerOne * 1000 : ℕ) ≤ Magnitude.maxUnits := by
    have hmax : (x.units : ℚ) ≤ Magnitude.maxUnits := by exact_mod_cast x.units_le_maxUnits
    have hnonneg : (0 : ℚ) ≤ x.units := Nat.cast_nonneg _
    rw [ratio_thousand, div_le_iff₀ (by norm_num)]
    linarith
  obtain ⟨s, hs⟩ := Magnitude.exists_nearest hden hle
  have hbound : pauseBound = 2 ^ 64 := rfl
  have hunits := Magnitude.two_pow_add 21
  have hpause : pauseBound * unitsPerOne = 2 ^ (21 + 1074) * 2 ^ 43 := by
    rw [hunits, hbound]
    ring
  have hmillis : 1000 * pauseBound * unitsPerOne = 125 * 2 ^ 46 * 2 ^ (21 + 1074) := by
    rw [hunits, hbound]
    ring
  rw [hmillis, ← units_lt_iff_of_nearest (by decide) hs, ← hpause,
    ← Nat.div_lt_iff_lt_mul unitsPerOne_pos, Double.ofRatio, hs]
  exact decide_eq_true_iff

/-- A pause is no panic unless it is of `2 ^ 64` seconds or more. -/
theorem noPanic_sleep_iff (args : List Value) (w : World) :
    NoPanic (sleep args) w (fun _ _ ↦ True) ↔
      ∀ x, args[0]? = some (.number (.finite false x)) →
        x.units < 1000 * pauseBound * unitsPerOne := by
  have hpause (x : Magnitude) :
      NoPanic (if (Double.ofRatio false x.units (unitsPerOne * 1000)).floor?.any (· < pauseBound)
          then return .nil else Action.panic : Action Value) w (fun _ _ ↦ True) ↔
        x.units < 1000 * pauseBound * unitsPerOne := by
    rw [← floor?_lt_pauseBound_iff]
    split_ifs with h <;> simp [h]
  unfold sleep
  rw [noPanic_bind, noPanic_expect]
  rcases args with - | ⟨v, args⟩
  · simp
  simp only [noPanic_bind, noPanic_argument, noPanic_toNumber, arg, List.length_cons,
    List.getElem?_cons_zero, Option.getD_some, Option.some.injEq, Nat.le_add_left, Nat.zero_lt_succ,
    true_and, forall_const]
  constructor
  · rintro h x rfl
    exact (hpause x).1 (h _ rfl)
  · rintro h n rfl
    rcases n with - | _ | ⟨_ | _, x⟩
    · exact True.intro
    · exact True.intro
    · exact (hpause x).2 (h x rfl)
    · exact True.intro

end Builtin

end ScriptHost
