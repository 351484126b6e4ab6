/-!
# White space

The characters with the Unicode property White_Space, and trimming by them.

## Main definitions

* `Text.isBlank` : the property.
* `Text.trim`, `Text.trimEndWhile` : a text without what surrounds or ends it.
-/

namespace ScriptHost.Text

/-- The characters with the Unicode property White_Space. -/
def isBlank (c : Char) : Bool :=
  let n := c.toNat
  (9 ≤ n && n ≤ 13) || n == 0x20 || n == 0x85 || n == 0xA0 || n == 0x1680 ||
    (0x2000 ≤ n && n ≤ 0x200A) || n == 0x2028 || n == 0x2029 || n == 0x202F || n == 0x205F ||
    n == 0x3000

/-- A text without the characters at its end that satisfy `p`. -/
def trimEndWhile (p : Char → Bool) (s : List Char) : List Char :=
  (s.reverse.dropWhile p).reverse

/-- A text without white space at either end. -/
def trim (s : List Char) : List Char := trimEndWhile isBlank (s.dropWhile isBlank)

/-- Every ASCII white space character is in the table. -/
example : " \t\n\r\x0b\x0c".toList.all isBlank = true := by decide

end ScriptHost.Text
