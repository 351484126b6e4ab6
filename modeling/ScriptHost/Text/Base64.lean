/-!
# Base64

The standard alphabet with mandatory padding.  Reading accepts exactly what writing produces: no
missing or extra padding, no stray bits, no other characters.

## Main definitions

* `Text.Base64.encode`, `Text.Base64.decode?` : writing and reading.
-/

namespace ScriptHost.Text.Base64

/-- The character for six bits. -/
def symbol (n : Nat) : Char :=
  if n < 26 then Char.ofNat ('A'.toNat + n)
  else if n < 52 then Char.ofNat ('a'.toNat + (n - 26))
  else if n < 62 then Char.ofNat ('0'.toNat + (n - 52))
  else if n = 62 then '+'
  else '/'

/-- The six bits of a character. -/
def value? (c : Char) : Option Nat :=
  if 'A' ≤ c ∧ c ≤ 'Z' then some (c.toNat - 'A'.toNat)
  else if 'a' ≤ c ∧ c ≤ 'z' then some (c.toNat - 'a'.toNat + 26)
  else if '0' ≤ c ∧ c ≤ '9' then some (c.toNat - '0'.toNat + 52)
  else if c = '+' then some 62
  else if c = '/' then some 63
  else none

/-- Groups of three bytes as four characters each, the last one padded. -/
def encode : List UInt8 → List Char
  | [] => []
  | [a] =>
    let n := a.toNat * 16
    [symbol (n / 64), symbol (n % 64), '=', '=']
  | [a, b] =>
    let n := (a.toNat * 256 + b.toNat) * 4
    [symbol (n / 4096), symbol (n / 64 % 64), symbol (n % 64), '=']
  | a :: b :: c :: bytes =>
    let n := (a.toNat * 256 + b.toNat) * 256 + c.toNat
    symbol (n / 262144) :: symbol (n / 4096 % 64) :: symbol (n / 64 % 64) :: symbol (n % 64) ::
      encode bytes

/-- The bytes of a group of four characters; a padded one ends the text and has no stray bits. -/
def decode? : List Char → Option (List UInt8)
  | [] => some []
  | [c, d, '=', '='] => do
    let n := (← value? c) * 64 + (← value? d)
    if n % 16 = 0 then some [UInt8.ofNat (n / 16)] else none
  | [c, d, e, '='] => do
    let n := ((← value? c) * 64 + (← value? d)) * 64 + (← value? e)
    if n % 4 = 0 then some [UInt8.ofNat (n / 1024), UInt8.ofNat (n / 4)] else none
  | c :: d :: e :: f :: s => do
    let n := (((← value? c) * 64 + (← value? d)) * 64 + (← value? e)) * 64 + (← value? f)
    let rest ← decode? s
    some (UInt8.ofNat (n / 65536) :: UInt8.ofNat (n / 256) :: UInt8.ofNat n :: rest)
  | _ => none

end ScriptHost.Text.Base64
