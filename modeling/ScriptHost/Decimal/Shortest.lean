import ScriptHost.Decimal.General

/-!
# The fewest digits that read back

The shortest decimal whose nearest double is a given one, written without an exponent.  For each
count of digits the two neighbours of the value on that decimal grid are tried; the first grid with
a hit wins, of two hits the nearer, and of two equally near ones the greater.

## Main definitions

* `Decimal.shortest` : the digits and the decimal exponent of the shortest decimal.
* `Double.plainText` : the shortest text of a double, always positional.
-/

namespace ScriptHost

namespace Decimal

/-- The value `m * 10 ^ power` as a ratio. -/
def ratioOf (m : Nat) : Int → Nat × Nat
  | .ofNat p => (m * Nat.pow 10 p, 1)
  | .negSucc p => (m, Nat.pow 10 (p + 1))

/-- Whether `m * 10 ^ power` is read as the magnitude `x`. -/
def readsAs (x : Magnitude) (m : Nat) (power : Int) : Bool :=
  let (num, den) := ratioOf m power
  decide (Magnitude.nearest num den = some x)

/-- The neighbour of `x` on the grid of multiples of `10 ^ power` that is read as `x`, if one is;
the nearer one if both are, and the greater one if `x` is half-way between them. -/
def onGrid? (x : Magnitude) (power : Int) : Option Nat :=
  let (gridNum, gridDen) := ratioOf 1 power
  let num := x.units * gridDen
  let den := Magnitude.unitsPerOne * gridNum
  let below := num / den
  let (nearer, other) :=
    if den ≤ 2 * (num % den) then (below + 1, below) else (below, below + 1)
  if readsAs x nearer power then some nearer
  else if readsAs x other power then some other
  else none

/-- Tries the grids from `count` significant digits on, at most `tries` of them. -/
def shortestFrom (x : Magnitude) (e : Int) (count : Nat) : Nat → Nat × Int
  | 0 => (roundScaled x.units Magnitude.unitsPerOne (16 - e), e - 16)
  | tries + 1 =>
    let power := e + 1 - count
    match onGrid? x power with
    | some m => (m, power)
    | none => shortestFrom x e (count + 1) tries

/-- The shortest decimal `m * 10 ^ power` that is read as the magnitude `x`, which is not zero. -/
def shortest (x : Magnitude) : Nat × Int :=
  shortestFrom x (exponentOf x.units Magnitude.unitsPerOne) 1 17

/-- `m * 10 ^ power` without an exponent. -/
def positional (m : Nat) : Int → List Char
  | .ofNat p => digits (m * Nat.pow 10 p)
  | .negSucc p =>
    let ds := padZeros (p + 2) (digits m)
    withFraction (ds.take (ds.length - (p + 1))) (ds.drop (ds.length - (p + 1)))

end Decimal

/-- The shortest text of a double, never with an exponent. -/
def Double.plainText : Double → List Char
  | .nan => ['N', 'a', 'N']
  | .infinite negative => if negative then ['-', 'i', 'n', 'f'] else ['i', 'n', 'f']
  | .finite negative x =>
    let shown :=
      if x.mant = 0 then ['0']
      else
        let (m, power) := Decimal.shortest x
        Decimal.positional m power
    if negative then '-' :: shown else shown

end ScriptHost
