import ScriptHost.Double

/-!
# Rounding to the nearest double

A ratio of natural numbers has a nearest double; of two equally near ones the one with the even
mantissa is taken.  Everything is computed in exact arithmetic on natural numbers.

## Main definitions

* `roundRatio` : a ratio rounded to a natural number, ties to even.
* `Magnitude.nearest` : the magnitude nearest to a ratio, if it is not beyond the largest one.
* `Double.ofDecimal` : the double nearest to `digits * 10 ^ power`.
* `Double.ofInt` : the double nearest to an integer.
-/

namespace ScriptHost

/-- The natural number nearest to `num / den`; a tie goes to the even neighbour. -/
def roundRatio (num den : Nat) : Nat :=
  let q := num / den
  let twice := 2 * (num % den)
  if twice < den then q
  else if den < twice then q + 1
  else q + q % 2

namespace Magnitude

/-- The magnitude with this mantissa and exponent, if there is one. -/
def ofParts? (mant expo : Nat) : Option Magnitude :=
  if h : mant < 1 <<< 53 ∧ expo ≤ 2045 ∧ (expo = 0 ∨ 1 <<< 52 ≤ mant) then
    some ⟨mant, expo, h.1, h.2.1, h.2.2⟩
  else none

/-- The magnitude nearest to `num / den`.  There is none when the ratio rounds beyond the largest
magnitude. -/
def nearest (num den : Nat) : Option Magnitude :=
  let scaled := num * unitsPerOne
  let expo := (scaled / den).log2 - 52
  let mant := roundRatio scaled (den <<< expo)
  if mant = 1 <<< 53 then ofParts? (1 <<< 52) (expo + 1) else ofParts? mant expo

end Magnitude

namespace Double

/-- A sign with a magnitude; without a magnitude, the infinity of that sign. -/
def ofMagnitude? (negative : Bool) : Option Magnitude → Double
  | some x => .finite negative x
  | none => .infinite negative

/-- The double nearest to a ratio, with a sign. -/
def ofRatio (negative : Bool) (num den : Nat) : Double :=
  ofMagnitude? negative (Magnitude.nearest num den)

/-- The double nearest to `digits * 10 ^ power`.  Powers so large or so small that the answer is an
infinity or a zero whatever the digits are answered without computing them. -/
def ofDecimal (negative : Bool) (digits : Nat) (power : Int) : Double :=
  if digits = 0 then .finite negative .zero
  else match power with
    | .ofNat p =>
      if 400 < p then .infinite negative
      else ofRatio negative (digits * Nat.pow 10 p) 1
    | .negSucc p =>
      if 400 + digits.log2 < p then .finite negative .zero
      else ofRatio negative digits (Nat.pow 10 (p + 1))

/-- The double nearest to a natural number. -/
def ofNat (n : Nat) : Double := ofRatio false n 1

/-- The double nearest to an integer. -/
def ofInt (i : Int) : Double :=
  ofRatio (decide (i < 0)) i.natAbs 1

instance (n : Nat) : OfNat Double n := ⟨ofNat n⟩

end Double

end ScriptHost
