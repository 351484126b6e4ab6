/-!
# Double-precision numbers

The number type of the script language, given by meaning: a double is not a number, an infinity,
or a sign with a finite magnitude.  A magnitude is `mant * 2 ^ expo` units of `2 ^ (-1074)` in its
unique canonical form, so two finite doubles of one sign are equal exactly when their magnitudes
are.

## Main definitions

* `Magnitude` : the finite magnitudes, normal and subnormal.
* `Double` : the doubles, with one value for every NaN.
* `Double.same` : equality of numbers, where the zeros agree and NaN differs from itself.
* `Double.floor?` : the natural number obtained by dropping the fraction.
-/

namespace ScriptHost

/-- A finite magnitude: `mant * 2 ^ expo` units of `2 ^ (-1074)`, with the least possible `expo`
or with all 53 bits of `mant` in use. -/
structure Magnitude where
  mant : Nat
  expo : Nat
  mant_lt : mant < 1 <<< 53
  expo_le : expo ≤ 2045
  canonical : expo = 0 ∨ 1 <<< 52 ≤ mant
deriving DecidableEq

namespace Magnitude

/-- The magnitude zero. -/
def zero : Magnitude := ⟨0, 0, by decide, by decide, Or.inl rfl⟩

/-- How many units of `2 ^ (-1074)` the magnitude holds. -/
def units (x : Magnitude) : Nat := x.mant <<< x.expo

/-- The number of units in one. -/
def unitsPerOne : Nat := 1 <<< 1074

end Magnitude

/-- A double.  All NaNs are one value. -/
inductive Double where
  | nan
  | infinite (negative : Bool)
  | finite (negative : Bool) (magnitude : Magnitude)
deriving DecidableEq

namespace Double

/-- Positive zero. -/
def zero : Double := .finite false .zero

instance : Inhabited Double := ⟨zero⟩

/-- Neither NaN nor infinite. -/
def isFinite : Double → Bool
  | .finite .. => true
  | _ => false

/-- Positive or negative zero. -/
def isZero : Double → Bool
  | .finite _ x => x.mant == 0
  | _ => false

/-- The double without its sign. -/
def abs : Double → Double
  | .nan => .nan
  | .infinite _ => .infinite false
  | .finite _ x => .finite false x

/-- A finite double as a signed count of units of `2 ^ (-1074)`. -/
def units : Double → Int
  | .finite true x => -x.units
  | .finite false x => x.units
  | _ => 0

/-- Equality of numbers: NaN differs from everything, the two zeros agree. -/
def same : Double → Double → Bool
  | .infinite s, .infinite t => s == t
  | .finite s x, .finite t y => (Double.finite s x).units == (Double.finite t y).units
  | _, _ => false

/-- The order of numbers.  NaN is neither below nor above anything. -/
def le : Double → Double → Bool
  | .nan, _ | _, .nan => false
  | .infinite s, .infinite t => s || !t
  | .infinite s, .finite .. => s
  | .finite .., .infinite t => !t
  | .finite s x, .finite t y => decide ((Double.finite s x).units ≤ (Double.finite t y).units)

/-- Strictly below. -/
def lt (a b : Double) : Bool := a.le b && !a.same b

/-- The larger of two numbers; NaN gives way to a number. -/
def max (a b : Double) : Double :=
  match a, b with
  | .nan, _ => b
  | _, .nan => a
  | _, _ => if a.le b then b else a

/-- The smaller of two numbers; NaN gives way to a number. -/
def min (a b : Double) : Double :=
  match a, b with
  | .nan, _ => b
  | _, .nan => a
  | _, _ => if a.le b then a else b

/-- The integral part of a finite double that is at least zero. -/
def floor? : Double → Option Nat
  | .finite s x => if s && x.mant != 0 then none else some (x.units / Magnitude.unitsPerOne)
  | _ => none

end Double

end ScriptHost
