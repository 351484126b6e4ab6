import ScriptHost.Json.Parser

/-!
# The language of JSON texts

Which texts are JSON, and what they denote, said without a reader.  A relation is given for each
kind of token and for values, elements and members; those of values count how many containers
enclose the value that lies deepest.

The dialect allows leading zeros in numbers and raw control characters in strings.  A number denotes
what the conversion of its text to a double gives.  An escape by code point denotes its character
within ASCII and a question mark beyond.  A name that is written more than once keeps its first
place and takes its last value.

## Main definitions

* `Json.NumberText`, `Json.StringText` : tokens and what they denote.
* `Json.LastWins` : the members that remain of those written.
* `Json.ValueText` : values, with `Json.ElementsText` and `Json.MembersText` for what is between the
  brackets of a container.
* `Json.DocumentText` : a value with white space around it.
-/

namespace ScriptHost.Json

/-! ### Tokens -/

/-- White space between tokens: any run of spaces, tabs, line feeds and carriage returns. -/
def IsBlank (w : List Char) : Prop := ∀ c ∈ w, c = ' ' ∨ c = '\t' ∨ c = '\n' ∨ c = '\r'

/-- A run of at least one decimal digit. -/
def IsDigits (ds : List Char) : Prop := ds ≠ [] ∧ ∀ c ∈ ds, c.isDigit = true

/-- A fraction: nothing, or a point and digits. -/
inductive IsFraction : List Char → Prop
  | absent : IsFraction []
  | digits {ds : List Char} (hds : IsDigits ds) : IsFraction ('.' :: ds)

/-- An exponent: nothing, or a mark, perhaps a sign, and digits. -/
inductive IsExponent : List Char → Prop
  | absent : IsExponent []
  | digits {mark : Char} {sign ds : List Char} (hmark : mark = 'e' ∨ mark = 'E')
      (hsign : sign = [] ∨ sign = ['+'] ∨ sign = ['-']) (hds : IsDigits ds) :
      IsExponent (mark :: (sign ++ ds))

/-- A number and the double that its text is converted to. -/
inductive NumberText : List Char → Double → Prop
  | parts {minus whole fraction exponent : List Char} {x : Double}
      (hminus : minus = [] ∨ minus = ['-']) (hwhole : IsDigits whole)
      (hfraction : IsFraction fraction) (hexponent : IsExponent exponent)
      (hx : Decimal.readDouble (minus ++ (whole ++ (fraction ++ exponent))) = some x) :
      NumberText (minus ++ (whole ++ (fraction ++ exponent))) x

/-- The escapes of one letter and the characters that they denote. -/
def shortEscapes : List (Char × Char) :=
  [('"', '"'), ('\\', '\\'), ('/', '/'), ('b', '\x08'), ('f', '\x0c'), ('n', '\n'), ('r', '\r'),
    ('t', '\t')]

/-- A hexadecimal digit of either case and its value. -/
inductive HexDigit : Char → Nat → Prop
  | decimal {c : Char} (hlow : '0' ≤ c) (hhigh : c ≤ '9') : HexDigit c (c.toNat - '0'.toNat)
  | lower {c : Char} (hlow : 'a' ≤ c) (hhigh : c ≤ 'f') : HexDigit c (c.toNat - 'a'.toNat + 10)
  | upper {c : Char} (hlow : 'A' ≤ c) (hhigh : c ≤ 'F') : HexDigit c (c.toNat - 'A'.toNat + 10)

/-- What stands between the quotes of a string, and the characters that it denotes. -/
inductive StringText : List Char → List Char → Prop
  | nil : StringText [] []
  | plain {c : Char} {s t : List Char} (hquote : c ≠ '"') (hbackslash : c ≠ '\\')
      (h : StringText s t) : StringText (c :: s) (c :: t)
  | short {e c : Char} {s t : List Char} (he : (e, c) ∈ shortEscapes) (h : StringText s t) :
      StringText ('\\' :: e :: s) (c :: t)
  | ascii {c₃ c₂ c₁ c₀ : Char} {n₃ n₂ n₁ n₀ : Nat} {s t : List Char} (h₃ : HexDigit c₃ n₃)
      (h₂ : HexDigit c₂ n₂) (h₁ : HexDigit c₁ n₁) (h₀ : HexDigit c₀ n₀)
      (hn : ((n₃ * 16 + n₂) * 16 + n₁) * 16 + n₀ ≤ 0x7F) (h : StringText s t) :
      StringText ('\\' :: 'u' :: c₃ :: c₂ :: c₁ :: c₀ :: s)
        (Char.ofNat (((n₃ * 16 + n₂) * 16 + n₁) * 16 + n₀) :: t)
  | beyond {c₃ c₂ c₁ c₀ : Char} {n₃ n₂ n₁ n₀ : Nat} {s t : List Char} (h₃ : HexDigit c₃ n₃)
      (h₂ : HexDigit c₂ n₂) (h₁ : HexDigit c₁ n₁) (h₀ : HexDigit c₀ n₀)
      (hn : 0x7F < ((n₃ * 16 + n₂) * 16 + n₁) * 16 + n₀) (h : StringText s t) :
      StringText ('\\' :: 'u' :: c₃ :: c₂ :: c₁ :: c₀ :: s) ('?' :: t)

/-! ### Values -/

/-- What remains of the members that were written: the names in the order of their first writing,
under each of them what was written last. -/
structure LastWins (written kept : List (String × Tree)) : Prop where
  names_eq : kept.map Prod.fst = (written.map Prod.fst).eraseDups
  lookup_eq : ∀ name, kept.lookup name = written.reverse.lookup name

mutual

/-- The text of a value that denotes a tree.  The value in it that lies deepest is enclosed by
`depth` of its containers. -/
inductive ValueText : (depth : Nat) → List Char → Tree → Prop
  | nullWord : ValueText 0 ['n', 'u', 'l', 'l'] .nil
  | trueWord : ValueText 0 ['t', 'r', 'u', 'e'] (.boolean true)
  | falseWord : ValueText 0 ['f', 'a', 'l', 's', 'e'] (.boolean false)
  | number {s : List Char} {x : Double} (h : NumberText s x) : ValueText 0 s (.number x)
  | string {s t : List Char} (h : StringText s t) :
      ValueText 0 ('"' :: (s ++ ['"'])) (.string (String.ofList t))
  | emptyArray {w : List Char} (hw : IsBlank w) :
      ValueText 0 ('[' :: (w ++ [']'])) (.node .array [])
  | array {d : Nat} {s : List Char} {ts : List Tree} (h : ElementsText d s ts) :
      ValueText (d + 1) ('[' :: (s ++ [']']))
        (.node .array (ts.zipIdx.map fun (t, i) ↦ (Nat.repr i, t)))
  | emptyObject {w : List Char} (hw : IsBlank w) : ValueText 0 ('{' :: (w ++ ['}'])) (.node .map [])
  | object {d : Nat} {s : List Char} {written kept : List (String × Tree)}
      (h : MembersText d s written) (hkept : LastWins written kept) :
      ValueText (d + 1) ('{' :: (s ++ ['}'])) (.node .map kept)

/-- The text of elements with commas between them, of which there is at least one. -/
inductive ElementsText : (depth : Nat) → List Char → List Tree → Prop
  | last {d : Nat} {w₁ s w₂ : List Char} {t : Tree} (hw₁ : IsBlank w₁) (h : ValueText d s t)
      (hw₂ : IsBlank w₂) : ElementsText d (w₁ ++ (s ++ w₂)) [t]
  | cons {d e : Nat} {w₁ s w₂ r : List Char} {t : Tree} {ts : List Tree} (hw₁ : IsBlank w₁)
      (h : ValueText d s t) (hw₂ : IsBlank w₂) (hr : ElementsText e r ts) :
      ElementsText (max d e) (w₁ ++ (s ++ (w₂ ++ ',' :: r))) (t :: ts)

/-- The text of members with commas between them, of which there is at least one. -/
inductive MembersText : (depth : Nat) → List Char → List (String × Tree) → Prop
  | last {d : Nat} {w₁ k name w₂ w₃ s w₄ : List Char} {t : Tree} (hw₁ : IsBlank w₁)
      (hname : StringText k name) (hw₂ : IsBlank w₂) (hw₃ : IsBlank w₃) (h : ValueText d s t)
      (hw₄ : IsBlank w₄) :
      MembersText d (w₁ ++ '"' :: (k ++ '"' :: (w₂ ++ ':' :: (w₃ ++ (s ++ w₄)))))
        [(String.ofList name, t)]
  | cons {d e : Nat} {w₁ k name w₂ w₃ s w₄ r : List Char} {t : Tree}
      {ms : List (String × Tree)} (hw₁ : IsBlank w₁) (hname : StringText k name)
      (hw₂ : IsBlank w₂) (hw₃ : IsBlank w₃) (h : ValueText d s t) (hw₄ : IsBlank w₄)
      (hr : MembersText e r ms) :
      MembersText (max d e)
        (w₁ ++ '"' :: (k ++ '"' :: (w₂ ++ ':' :: (w₃ ++ (s ++ (w₄ ++ ',' :: r))))))
        ((String.ofList name, t) :: ms)

end

/-- A document: the text of a value with white space around it. -/
inductive DocumentText : (depth : Nat) → List Char → Tree → Prop
  | intro {d : Nat} {w₁ s w₂ : List Char} {t : Tree} (hw₁ : IsBlank w₁) (h : ValueText d s t)
      (hw₂ : IsBlank w₂) : DocumentText d (w₁ ++ (s ++ w₂)) t

end ScriptHost.Json
