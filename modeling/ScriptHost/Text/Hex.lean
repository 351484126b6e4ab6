/-!
# Hexadecimal digits

## Main definitions

* `Text.Hex.digit`, `Text.Hex.value?` : the digit of a number below sixteen, and back.
* `Text.Hex.encode` : two lower-case digits for each byte.
* `Text.Hex.fixed` : a number with a fixed count of digits.
-/

namespace ScriptHost.Text.Hex

/-- The lower-case digit of a number below sixteen. -/
def digit (n : Nat) : Char :=
  if n < 10 then Char.ofNat ('0'.toNat + n) else Char.ofNat ('a'.toNat + (n - 10))

/-- The value of a digit of either case. -/
def value? (c : Char) : Option Nat :=
  if '0' ≤ c ∧ c ≤ '9' then some (c.toNat - '0'.toNat)
  else if 'a' ≤ c ∧ c ≤ 'f' then some (c.toNat - 'a'.toNat + 10)
  else if 'A' ≤ c ∧ c ≤ 'F' then some (c.toNat - 'A'.toNat + 10)
  else none

/-- Two lower-case digits for each byte. -/
def encode (bytes : List UInt8) : List Char :=
  bytes.flatMap fun b ↦ [digit (b.toNat / 16), digit (b.toNat % 16)]

/-- The last `width` digits of `n`. -/
def fixed (n : Nat) : Nat → List Char
  | 0 => []
  | width + 1 => digit (n >>> (4 * width) % 16) :: fixed n width

end ScriptHost.Text.Hex
