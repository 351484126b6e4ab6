import ScriptHost.Text.GraphemeExtend
import ScriptHost.Text.Hex
import ScriptHost.Text.Unprintable

/-!
# Quoted texts in diagnostics

## Main definitions

* `Text.quoted` : a text between double quotes, with escapes for all that would not be seen.
-/

namespace ScriptHost.Text

/-- A number in hexadecimal without leading zeros. -/
def hexNumber (n : Nat) : List Char := Nat.toDigits 16 n

/-- The form of a character in a quoted text. -/
def quotedChar (c : Char) : List Char :=
  if c = '\x00' then ['\\', '0']
  else if c = '\t' then ['\\', 't']
  else if c = '\n' then ['\\', 'n']
  else if c = '\r' then ['\\', 'r']
  else if c = '"' ∨ c = '\\' then ['\\', c]
  else if isUnprintable c || extendsGrapheme c then
    '\\' :: 'u' :: '{' :: (hexNumber c.toNat ++ ['}'])
  else [c]

/-- A text between double quotes. -/
def quoted (s : List Char) : List Char := '"' :: (s.flatMap quotedChar ++ ['"'])

end ScriptHost.Text
