import ScriptHost.Double.Nearest

/-!
# The 64-bit interchange format

A double as one sign bit, eleven exponent bits and fifty-two fraction bits.  Every NaN pattern is
read as the one NaN.

## Main definitions

* `Double.ofBits`, `Double.toBits` : reading and writing the pattern as a number below `2 ^ 64`.
-/

namespace ScriptHost.Double

/-- The double with this bit pattern; bits beyond the sixty-fourth are ignored. -/
def ofBits (bits : Nat) : Double :=
  let fraction := bits % 1 <<< 52
  let exponent := bits >>> 52 % 1 <<< 11
  let negative := bits >>> 63 % 2 == 1
  if exponent = 2047 then
    if fraction = 0 then .infinite negative else .nan
  else if exponent = 0 then ofMagnitude? negative (Magnitude.ofParts? fraction 0)
  else ofMagnitude? negative (Magnitude.ofParts? (1 <<< 52 + fraction) (exponent - 1))

private def signBit (negative : Bool) : Nat := if negative then 1 <<< 63 else 0

/-- The bit pattern of a double; NaN is written as the quiet NaN. -/
def toBits : Double → Nat
  | .nan => 2047 <<< 52 + 1 <<< 51
  | .infinite negative => signBit negative + 2047 <<< 52
  | .finite negative x =>
    if x.mant < 1 <<< 52 then signBit negative + x.mant
    else signBit negative + (x.expo + 1) <<< 52 + (x.mant - 1 <<< 52)

end ScriptHost.Double
