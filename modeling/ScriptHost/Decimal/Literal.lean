import ScriptHost.Double.Nearest

/-!
# Reading numbers

Digit strings, decimal number literals and decimal integers of a fixed range.

## Main definitions

* `Decimal.Digits` : digit strings that are joined, with the numbers that they denote.
* `Decimal.ofDigits` : the number that a digit string denotes.
* `Decimal.exponentOfDigits` : the exponent that a digit string denotes, as far as it is read.
* `Decimal.scientific` : the double denoted by the parts of a literal.
* `Decimal.readDouble` : numbers as they are written by hand, with or without a sign, a point, an
  exponent; also the words for infinity and NaN.
* `Decimal.readNat`, `Decimal.readInt` : whole numbers within a range.
-/

namespace ScriptHost.Decimal

/-- The value of a digit. -/
def digitValue (c : Char) : Nat := c.toNat - '0'.toNat

/-- Digits that stand together: the number that they denote, and ten to the power of how many they
are. -/
structure Digits where
  value : Nat
  scale : Nat

namespace Digits

/-- No digits. -/
def empty : Digits := ⟨0, 1⟩

/-- One digit. -/
def ofDigit (c : Char) : Digits := ⟨digitValue c, 10⟩

/-- Some digits followed by others. -/
def append (a b : Digits) : Digits := ⟨a.value * b.scale + b.value, a.scale * b.scale⟩

/-- Every two neighbours joined. -/
def joinPairs : List Digits → List Digits
  | a :: b :: parts => a.append b :: joinPairs parts
  | parts => parts

/-- All of them joined, after some rounds in pairs.  Each round multiplies numbers of about one
length, which is less work than adding one digit after another to a long number. -/
def join : (rounds : Nat) → List Digits → Digits
  | 0, parts => parts.foldl append empty
  | rounds + 1, parts => join rounds (joinPairs parts)

theorem append_assoc (a b c : Digits) : (a.append b).append c = a.append (b.append c) := by
  simp only [append, Digits.mk.injEq]
  constructor
  · rw [Nat.add_mul, Nat.mul_assoc, Nat.add_assoc]
  · exact Nat.mul_assoc a.scale b.scale c.scale

theorem foldl_joinPairs (parts : List Digits) (a : Digits) :
    (joinPairs parts).foldl append a = parts.foldl append a := by
  fun_induction joinPairs parts generalizing a with
  | case1 b c parts ih =>
    rw [List.foldl_cons, ih, ← append_assoc, List.foldl_cons, List.foldl_cons]
  | case2 parts _ => rfl

/-- The rounds do not change the outcome. -/
theorem join_eq_foldl (rounds : Nat) (parts : List Digits) :
    join rounds parts = parts.foldl append empty := by
  induction rounds generalizing parts with
  | zero => rfl
  | succ rounds ih => rw [join, ih, foldl_joinPairs]

theorem value_foldl_append (ds : List Char) (a : Digits) :
    ((ds.map ofDigit).foldl append a).value =
      ds.foldl (fun n c ↦ 10 * n + digitValue c) a.value := by
  induction ds generalizing a with
  | nil => rfl
  | cons c ds ih =>
    rw [List.map_cons, List.foldl_cons, List.foldl_cons, ih, append, ofDigit, Nat.mul_comm]

end Digits

/-- The number that a digit string denotes. -/
def ofDigits (ds : List Char) : Nat :=
  (Digits.join (ds.length.log2 + 1) (ds.map Digits.ofDigit)).value

/-- Each digit counts ten times as much as the one after it. -/
theorem ofDigits_eq_foldl (ds : List Char) :
    ofDigits ds = ds.foldl (fun n c ↦ 10 * n + digitValue c) 0 := by
  rw [ofDigits, Digits.join_eq_foldl, Digits.value_foldl_append, Digits.empty]

/-- An exponent that has reached this bound takes no further digits. -/
def exponentBound : Nat := 1 <<< 16

/-- The exponent that a digit string denotes.  Digits are taken one by one while what they denote is
below the bound; the rest of them are passed over. -/
def exponentOfDigits (ds : List Char) : Nat :=
  ds.foldl (fun n c ↦ if n < exponentBound then 10 * n + digitValue c else n) 0

/-- The longest run of digits at the front, and what follows it. -/
def spanDigits (s : List Char) : List Char × List Char :=
  (s.takeWhile Char.isDigit, s.dropWhile Char.isDigit)

theorem length_spanDigits (s : List Char) :
    (spanDigits s).1.length + (spanDigits s).2.length = s.length := by
  rw [← List.length_append]
  exact congrArg List.length List.takeWhile_append_dropWhile

/-- The double nearest to the literal with these digits before and after the point and this
exponent. -/
def scientific (negative : Bool) (whole fraction : List Char) (exponent : Int) : Double :=
  .ofDecimal negative (ofDigits (whole ++ fraction)) (exponent - fraction.length)

/-- A sign at the front, true for a minus, and what follows it. -/
def spanSign : List Char → Bool × List Char
  | '-' :: s => (true, s)
  | '+' :: s => (false, s)
  | s => (false, s)

theorem length_spanSign_le (s : List Char) : (spanSign s).2.length ≤ s.length := by
  unfold spanSign
  split <;> simp

/-- The exponent part of a literal, which may be missing and must end the text. -/
def readExponent : List Char → Option Int
  | [] => some 0
  | c :: s =>
    if c == 'e' || c == 'E' then
      let (negative, t) := spanSign s
      if t.isEmpty || !t.all Char.isDigit then none
      else some (if negative then -(exponentOfDigits t : Int) else exponentOfDigits t)
    else none

/-- The fraction of a literal, which may be missing, and what follows it. -/
def spanFraction : List Char → List Char × List Char
  | '.' :: s => spanDigits s
  | s => ([], s)

/-- An unsigned literal: digits on at least one side of an optional point, then an optional
exponent. -/
def readUnsigned (negative : Bool) (s : List Char) : Option Double :=
  let (whole, r) := spanDigits s
  let (fraction, r) := spanFraction r
  if whole.isEmpty && fraction.isEmpty then none
  else (readExponent r).map (scientific negative whole fraction)

/-- A number with an optional sign.  The words `inf`, `infinity` and `nan` are read in any letter
case. -/
def readDouble (s : List Char) : Option Double :=
  let (negative, r) := spanSign s
  let word := String.ofList (r.map Char.toLower)
  if word == "inf" || word == "infinity" then some (.infinite negative)
  else if word == "nan" then some .nan
  else readUnsigned negative r

/-- A natural number below `bound`, with an optional plus sign. -/
def readNat (bound : Nat) (s : List Char) : Option Nat :=
  let ds := match s with
    | '+' :: r => r
    | _ => s
  if ds.isEmpty || !ds.all Char.isDigit then none
  else if ofDigits ds < bound then some (ofDigits ds) else none

/-- An integer from `-bound` up to `bound - 1`, with an optional sign. -/
def readInt (bound : Nat) (s : List Char) : Option Int :=
  let (negative, ds) := spanSign s
  if ds.isEmpty || !ds.all Char.isDigit then none
  else
    let i : Int := if negative then -(ofDigits ds : Int) else ofDigits ds
    if -(bound : Int) ≤ i ∧ i < bound then some i else none

end ScriptHost.Decimal
