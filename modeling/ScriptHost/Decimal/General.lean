import ScriptHost.Double.Nearest

/-!
# Six significant digits

The default text of a number: six significant digits, a half going to the even neighbour, written
positionally while the decimal exponent is from -4 to 5 and with an exponent otherwise, trailing
zeros of the fraction left out.

## Main definitions

* `Decimal.exponentOf` : the decimal exponent of a positive ratio.
* `Decimal.significant` : a positive ratio rounded to a number of significant digits.
* `Decimal.General` : the choices of such a number format, `Decimal.General.render` its text.
* `Double.text` : the default text of a double.
-/

namespace ScriptHost

namespace Decimal

/-- The digits of a natural number in base ten. -/
def digits (n : Nat) : List Char := Nat.toDigits 10 n

/-- How many digits a natural number has; zero has one. -/
def digitCount (n : Nat) : Nat := (digits n).length

/-- The exponent `e` with `10 ^ e ≤ num / den < 10 ^ (e + 1)`, for a positive ratio. -/
def exponentOf (num den : Nat) : Int :=
  if den ≤ num then (digitCount (num / den) : Int) - 1
  else -(digitCount ((den - 1) / num) : Int)

/-- `num / den * 10 ^ shift` rounded to a natural number, ties to even. -/
def roundScaled (num den : Nat) : Int → Nat
  | .ofNat s => roundRatio (num * Nat.pow 10 s) den
  | .negSucc s => roundRatio num (den * Nat.pow 10 (s + 1))

/-- A positive ratio rounded to `count` significant digits: the digits as one number of exactly
`count` digits, and the decimal exponent of the first of them. -/
def significant (count num den : Nat) : Nat × Int :=
  let e := exponentOf num den
  let m := roundScaled num den (count - 1 - e)
  if m = Nat.pow 10 count then (Nat.pow 10 (count - 1), e + 1) else (m, e)

/-- `text` without the zeros at its end. -/
def trimZeros (text : List Char) : List Char := (text.reverse.dropWhile (· == '0')).reverse

/-- Digits before and after the point; no point when nothing but zeros follows it. -/
def withFraction (whole fraction : List Char) : List Char :=
  match trimZeros fraction with
  | [] => whole
  | shown => whole ++ '.' :: shown

/-- `text` with zeros in front until it has at least `width` characters. -/
def padZeros (width : Nat) (text : List Char) : List Char :=
  List.replicate (width - text.length) '0' ++ text

/-- The choices of a number format with a fixed count of significant digits. -/
structure General where
  /-- How many significant digits are kept. -/
  precision : Nat
  /-- Numbers with a decimal exponent below this one are written with an exponent. -/
  leastExponent : Int
  /-- The exponent has at least this many digits. -/
  exponentWidth : Nat

namespace General

/-- The exponent part: mark, sign and padded digits. -/
def exponentText (f : General) (e : Int) : List Char :=
  'e' :: (if e < 0 then '-' else '+') :: padZeros f.exponentWidth (digits e.natAbs)

/-- The positional text of `ds`, whose first digit has the decimal exponent `e`. -/
def positional (ds : List Char) : Int → List Char
  | .ofNat e => withFraction (ds.take (e + 1)) (ds.drop (e + 1))
  | .negSucc e => withFraction ['0'] (List.replicate e '0' ++ ds)

/-- The text of a positive ratio. -/
def render (f : General) (num den : Nat) : List Char :=
  let (m, e) := significant f.precision num den
  let ds := digits m
  if e < f.leastExponent ∨ f.precision ≤ e then
    withFraction (ds.take 1) (ds.drop 1) ++ f.exponentText e
  else positional ds e

end General

end Decimal

/-- Six significant digits, positional from `0.0001` on, exponents of at least two digits. -/
def Double.general : Decimal.General := ⟨6, -4, 2⟩

/-- The default text of a double. -/
def Double.text : Double → List Char
  | .nan => ['n', 'a', 'n']
  | .infinite negative => if negative then ['-', 'i', 'n', 'f'] else ['i', 'n', 'f']
  | .finite negative x =>
    let shown :=
      if x.mant = 0 then ['0'] else Double.general.render x.units Magnitude.unitsPerOne
    if negative then '-' :: shown else shown

end ScriptHost
