/-!
# Names of hosts

Which texts can be asked for as the name of a host: labels of ASCII letters, digits, hyphens and
underscores, with points between them.  A hyphen does not begin the name, a point may end it, and
the lengths are bounded.  A backslash before three decimal digits stands for the character with that
code, before any other character for that character.

## Main definitions

* `Network.isHostName` : the property.
-/

namespace ScriptHost.Network

/-- Whether a character may stand in a label. -/
def isLabelChar (c : Char) : Bool := c.isAlphanum || c == '-' || c == '_'

/-- A character with a code given by three digits. -/
def ofCode? (a b c : Char) : Option Char :=
  if a.isDigit && b.isDigit && c.isDigit then
    let digit (d : Char) : Nat := d.toNat - '0'.toNat
    some (Char.ofNat (100 * digit a + 10 * digit b + digit c))
  else none

/-- A name without backslashes; nothing if one of them stands for a character that is none of a
label. -/
def withoutEscapes : List Char → Option (List Char)
  | [] => some []
  | '\\' :: a :: s =>
    if a.isDigit then
      match s with
      | b :: c :: r => do
        let d ← (ofCode? a b c).filter isLabelChar
        return d :: (← withoutEscapes r)
      | _ => none
    else if isLabelChar a then (withoutEscapes s).map (a :: ·)
    else none
  | c :: s => if c == '\\' then none else (withoutEscapes s).map (c :: ·)

/-- The longest label. -/
def maxLabel : Nat := 63

/-- The longest name, where each label counts one more than it has characters, and its end one. -/
def maxName : Nat := 255

/-- Whether a text can be asked for as the name of a host. -/
def isHostName (s : List Char) : Bool :=
  match withoutEscapes s with
  | none => false
  | some ['.'] => true
  | some name =>
    let labels := name.splitOn '.'
    let labels := if labels.getLast?.any List.isEmpty then labels.dropLast else labels
    !labels.isEmpty && name.head? != some '-' &&
      labels.all (fun l ↦ !l.isEmpty && l.length ≤ maxLabel && l.all isLabelChar) &&
      labels.foldl (fun n l ↦ n + l.length + 1) 1 ≤ maxName

example : isHostName "a-b.example.".toList = true := by cbv

example : isHostName "a..b".toList = false := by cbv

end ScriptHost.Network
