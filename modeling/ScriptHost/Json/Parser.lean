import ScriptHost.Decimal.Literal
import ScriptHost.Text.Hex
import ScriptHost.Text.Pieces
import ScriptHost.Tree

/-!
# Reading JSON

A reader of JSON text by recursive descent.  Each reader takes the remaining text and gives what it
has read with the text that is left; a failure is a fault with the text that was left when it was
met, from which the byte offset follows.

The dialect allows leading zeros in numbers and raw control characters in strings.  An escape by
code point gives the character only within ASCII and a question mark beyond.

## Main definitions

* `Json.Fault`, `Json.Failure` : why and where reading stopped, `Json.Fault.message` the wording.
* `Json.readString`, `Json.readNumber` : the two kinds of tokens with content.
* `Json.readValue` : a value under a bound on the nesting.
* `Json.parse` : a whole document.
-/

namespace ScriptHost.Json

/-- Why reading stopped. -/
inductive Fault where
  | unexpectedEnd
  | trailingCharacters
  | expectedColon
  | expectedKey
  | expectedObjectSeparator
  | expectedArraySeparator
  | invalidNumber
  | invalidEscape
  | unterminatedString
  | nestingTooDeep
  | unexpectedCharacter (c : Char)
deriving DecidableEq

/-- The wording of a fault. -/
def Fault.message : Fault → String
  | unexpectedEnd => "Unexpected end of input"
  | trailingCharacters => "Trailing characters after JSON value"
  | expectedColon => "Expected ':' after object key"
  | expectedKey => "Expected string key in object"
  | expectedObjectSeparator => "Expected ',' or '\x7d' in object"
  | expectedArraySeparator => "Expected ',' or ']' in array"
  | invalidNumber => "Invalid number"
  | invalidEscape => "Invalid escape sequence"
  | unterminatedString => "Unterminated string"
  | nestingTooDeep => "Nesting too deep"
  | unexpectedCharacter c => "Unexpected character '" ++ String.singleton c ++ "'"

/-- A fault and the text that was left when it was met. -/
structure Stop where
  fault : Fault
  left : List Char

/-- A result with the text left after it, which is shorter than `s`. -/
abbrev Reading (α : Type) (s : List Char) : Type :=
  Except Stop (α × { r : List Char // r.length < s.length })

/-- White space between tokens. -/
def isSpace (c : Char) : Bool := c == ' ' || c == '\t' || c == '\n' || c == '\r'

/-- The text after the white space at its front. -/
def skipSpace (s : List Char) : List Char := s.dropWhile isSpace

theorem length_skipSpace_le (s : List Char) : (skipSpace s).length ≤ s.length :=
  (List.dropWhile_sublist isSpace).length_le

/-! ### Strings -/

/-- The character that a one-letter escape stands for. -/
def escape? (c : Char) : Option Char :=
  if c = '"' then some '"'
  else if c = '\\' then some '\\'
  else if c = '/' then some '/'
  else if c = 'b' then some '\x08'
  else if c = 'f' then some '\x0c'
  else if c = 'n' then some '\n'
  else if c = 'r' then some '\r'
  else if c = 't' then some '\t'
  else none

/-- The code point that four hexadecimal digits stand for. -/
def codePoint? (a b c d : Char) : Option Nat := do
  some ((((← Text.Hex.value? a) * 16 + (← Text.Hex.value? b)) * 16 + (← Text.Hex.value? c)) * 16 +
    (← Text.Hex.value? d))

/-- The character for an escaped code point: itself within ASCII, else a question mark. -/
def ofCodePoint (n : Nat) : Char := if n ≤ 0x7F then Char.ofNat n else '?'

/-- Puts a character in front of the text read. -/
def prepend (c : Char) :
    Except Stop (List Char × List Char) → Except Stop (List Char × List Char)
  | .ok (text, left) => .ok (c :: text, left)
  | .error stop => .error stop

/-- The text of a string literal up to its closing quote, and what is left after it.  `opened` is
the text from the opening quote on. -/
def readString (opened : List Char) : List Char → Except Stop (List Char × List Char)
  | [] => .error ⟨.unterminatedString, opened⟩
  | '"' :: s => .ok ([], s)
  | ['\\'] => .error ⟨.unterminatedString, []⟩
  | '\\' :: 'u' :: a :: b :: c :: d :: s =>
    match codePoint? a b c d with
    | some n => prepend (ofCodePoint n) (readString opened s)
    | none => .error ⟨.invalidEscape, a :: b :: c :: d :: s⟩
  | '\\' :: 'u' :: s => .error ⟨.invalidEscape, s⟩
  | '\\' :: e :: s =>
    match escape? e with
    | some c => prepend c (readString opened s)
    | none => .error ⟨.invalidEscape, e :: s⟩
  | c :: s => prepend c (readString opened s)

theorem length_of_readString {opened s text left : List Char}
    (h : readString opened s = .ok (text, left)) : left.length < s.length := by
  fun_induction readString opened s generalizing text left with
  | case2 s => simp_all
  | case4 a b c d s n hn ih =>
    cases hr : readString opened s with
    | error => simp [hr, prepend] at h
    | ok p =>
      rcases p with ⟨t, l⟩
      have := ih hr
      simp only [hr, prepend, Except.ok.injEq, Prod.mk.injEq] at h
      simp only [List.length_cons]; rw [← h.2]; omega
  | case7 e s _ _ c hc ih =>
    cases hr : readString opened s with
    | error => simp [hr, prepend] at h
    | ok p =>
      rcases p with ⟨t, l⟩
      have := ih hr
      simp only [hr, prepend, Except.ok.injEq, Prod.mk.injEq] at h
      simp only [List.length_cons]; rw [← h.2]; omega
  | case9 c s _ _ _ _ _ ih =>
    cases hr : readString opened s with
    | error => simp [hr, prepend] at h
    | ok p =>
      rcases p with ⟨t, l⟩
      have := ih hr
      simp only [hr, prepend, Except.ok.injEq, Prod.mk.injEq] at h
      simp only [List.length_cons]; rw [← h.2]; omega
  | _ => simp_all

/-- A string literal at the front of `s`, whose opening quote is known to be there. -/
def readLiteral (s : List Char) : Reading String s :=
  match h : readString s s.tail with
  | .error stop => .error stop
  | .ok (text, left) =>
    .ok (String.ofList text, ⟨left, by
      have := length_of_readString h
      have : s.tail.length ≤ s.length := by simp
      omega⟩)

/-! ### Numbers -/

/-- The fraction at the front of a text: none without a point, and then at least one digit. -/
def readFraction : List Char → Option (List Char × List Char)
  | '.' :: s =>
    let (ds, left) := Decimal.spanDigits s
    if ds.isEmpty then none else some (ds, left)
  | s => some ([], s)

/-- The exponent at the front of a text: zero without a mark, and then at least one digit. -/
def readExponent : List Char → Option (Int × List Char)
  | [] => some (0, [])
  | c :: s =>
    if c == 'e' || c == 'E' then
      let (negative, t) := Decimal.spanSign s
      let (ds, left) := Decimal.spanDigits t
      if ds.isEmpty then none
      else
        let e := Decimal.exponentOfDigits ds
        some (if negative then -(e : Int) else e, left)
    else some (0, c :: s)

/-- A minus at the front of a text, if there is one. -/
def spanMinus : List Char → Bool × List Char
  | '-' :: s => (true, s)
  | s => (false, s)

theorem length_spanMinus_le (s : List Char) : (spanMinus s).2.length ≤ s.length := by
  unfold spanMinus
  split <;> simp

theorem length_of_readFraction {s ds left : List Char} (h : readFraction s = some (ds, left)) :
    left.length ≤ s.length := by
  unfold readFraction at h
  split at h
  · rename_i t
    have hdigits := Decimal.length_spanDigits t
    by_cases hd : (Decimal.spanDigits t).1.isEmpty = true
    · simp [hd] at h
    · simp only [hd, Bool.false_eq_true, if_false, Option.some.injEq, Prod.mk.injEq] at h
      simp only [List.length_cons]; rw [← h.2]; omega
  · simp only [Option.some.injEq, Prod.mk.injEq] at h
    exact Nat.le_of_eq (congrArg List.length h.2.symm)

theorem length_of_readExponent {s left : List Char} {e : Int}
    (h : readExponent s = some (e, left)) : left.length ≤ s.length := by
  unfold readExponent at h
  split at h
  · simp_all
  · rename_i c t
    have hsign := Decimal.length_spanSign_le t
    have hdigits := Decimal.length_spanDigits (Decimal.spanSign t).2
    split at h
    · by_cases hd : (Decimal.spanDigits (Decimal.spanSign t).2).1.isEmpty = true
      · simp [hd] at h
      · simp only [hd, Bool.false_eq_true, if_false, Option.some.injEq, Prod.mk.injEq] at h
        simp only [List.length_cons]; rw [← h.2]; omega
    · simp_all

/-- The double nearest to the number at the front of a text, and what is left after it. -/
def readNumber? (s : List Char) : Option (Double × List Char) := do
  let (negative, s) := spanMinus s
  let (whole, s) := Decimal.spanDigits s
  if whole.isEmpty then none
  else
    let (fraction, s) ← readFraction s
    let (exponent, s) ← readExponent s
    some (Decimal.scientific negative whole fraction exponent, s)

theorem length_of_readNumber? {s left : List Char} {n : Double}
    (h : readNumber? s = some (n, left)) : left.length < s.length := by
  have hminus := length_spanMinus_le s
  have hdigits := Decimal.length_spanDigits (spanMinus s).2
  simp only [readNumber?] at h
  split at h
  · simp at h
  · rename_i hw
    have hw : 0 < (Decimal.spanDigits (spanMinus s).2).1.length := by
      simpa [List.isEmpty_iff, List.length_pos_iff] using hw
    simp only [Option.bind_eq_bind, Option.bind_eq_some_iff] at h
    obtain ⟨⟨fraction, s₁⟩, hf, ⟨exponent, s₂⟩, he, h⟩ := h
    have hf : s₁.length ≤ _ := length_of_readFraction hf
    have he : s₂.length ≤ s₁.length := length_of_readExponent he
    simp only [Option.some.injEq, Prod.mk.injEq] at h
    rw [← h.2]; omega

/-- A number at the front of `s`; the fault of a malformed one is where it begins. -/
def readNumber (s : List Char) : Reading Double s :=
  match h : readNumber? s with
  | some (n, left) => .ok (n, ⟨left, length_of_readNumber? h⟩)
  | none => .error ⟨.invalidNumber, s⟩

/-! ### Values -/

/-- Reads `word` at the front of `s`, whose first character `c` is known to be its own. -/
def readWord (word : List Char) (t : Tree) (c : Char) (s : List Char) : Reading Tree (c :: s) :=
  if word.isPrefixOf s then
    .ok (t, ⟨s.drop word.length, by rw [List.length_drop, List.length_cons]; omega⟩)
  else .error ⟨.unexpectedCharacter c, c :: s⟩

/-- The elements of an array up to its closing bracket, of which there is at least one. -/
def readElements (item : (s : List Char) → Reading Tree s) (s : List Char) :
    Reading (List Tree) s :=
  match item (skipSpace s) with
  | .error stop => .error stop
  | .ok (t, ⟨left, hleft⟩) =>
    have := length_skipSpace_le s
    have := length_skipSpace_le left
    match h : skipSpace left with
    | ',' :: s' =>
      have : (',' :: s').length < s.length := by rw [← h]; omega
      match readElements item s' with
      | .error stop => .error stop
      | .ok (ts, ⟨r, hr⟩) => .ok (t :: ts, ⟨r, by simp at this; omega⟩)
    | ']' :: s' => .ok ([t], ⟨s', by simp [h] at this; omega⟩)
    | s' => .error ⟨.expectedArraySeparator, s'⟩
termination_by s.length
decreasing_by simp at this; omega

/-- The name of a member and its colon. -/
def readName (s : List Char) : Reading String s :=
  match s with
  | [] => .error ⟨.unexpectedEnd, []⟩
  | '"' :: s' =>
    match readLiteral ('"' :: s') with
    | .error stop => .error stop
    | .ok (name, ⟨left, hleft⟩) =>
      have := length_skipSpace_le left
      match h : skipSpace left with
      | ':' :: r => .ok (name, ⟨r, by simp [h] at this; simp at hleft ⊢; omega⟩)
      | r => .error ⟨.expectedColon, r⟩
  | s' => .error ⟨.expectedKey, s'⟩

/-- The members of an object up to its closing brace, of which there is at least one. -/
def readMembers (item : (s : List Char) → Reading Tree s) (s : List Char) :
    Reading (List (String × Tree)) s :=
  match readName (skipSpace s) with
  | .error stop => .error stop
  | .ok (name, ⟨afterName, hname⟩) =>
    match item (skipSpace afterName) with
    | .error stop => .error stop
    | .ok (t, ⟨left, hleft⟩) =>
      have := length_skipSpace_le s
      have := length_skipSpace_le afterName
      have := length_skipSpace_le left
      match h : skipSpace left with
      | ',' :: s' =>
        have : (',' :: s').length < s.length := by rw [← h]; omega
        match readMembers item s' with
        | .error stop => .error stop
        | .ok (ms, ⟨r, hr⟩) => .ok ((name, t) :: ms, ⟨r, by simp at this; omega⟩)
      | '}' :: s' => .ok ([(name, t)], ⟨s', by simp [h] at this; omega⟩)
      | s' => .error ⟨.expectedObjectSeparator, s'⟩
termination_by s.length
decreasing_by simp at this; omega

/-- The rest of an array after its opening bracket. -/
def readArray (item : (s : List Char) → Reading Tree s) (s : List Char) : Reading Tree s :=
  have := length_skipSpace_le s
  match h : skipSpace s with
  | ']' :: left => .ok (.array [], ⟨left, by simp [h] at this; omega⟩)
  | _ =>
    match readElements item s with
    | .error stop => .error stop
    | .ok (ts, left) => .ok (.array ts, left)

/-- The rest of an object after its opening brace. -/
def readObject (item : (s : List Char) → Reading Tree s) (s : List Char) : Reading Tree s :=
  have := length_skipSpace_le s
  match h : skipSpace s with
  | '}' :: left => .ok (.map [], ⟨left, by simp [h] at this; omega⟩)
  | _ =>
    match readMembers item s with
    | .error stop => .error stop
    | .ok (ms, left) => .ok (.map ms, left)

/-- Lets a reading of the text after one character count as one of the whole. -/
def afterFirst {α : Type} {c : Char} {s : List Char} : Reading α s → Reading α (c :: s)
  | .error stop => .error stop
  | .ok (a, ⟨left, h⟩) => .ok (a, ⟨left, by simp; omega⟩)

/-- A value in which no value is enclosed by `levels` or more containers. -/
def readValue : (levels : Nat) → (s : List Char) → Reading Tree s
  | 0, s => .error ⟨.nestingTooDeep, s⟩
  | levels + 1, s =>
    match s with
    | [] => .error ⟨.unexpectedEnd, []⟩
    | c :: s' =>
      if c = '{' then afterFirst (readObject (readValue levels) s')
      else if c = '[' then afterFirst (readArray (readValue levels) s')
      else if c = '"' then
        match readLiteral (c :: s') with
        | .error stop => .error stop
        | .ok (text, left) => .ok (.string text, left)
      else if c = '-' ∨ c.isDigit then
        match readNumber (c :: s') with
        | .error stop => .error stop
        | .ok (n, left) => .ok (.number n, left)
      else if c = 't' then readWord ['r', 'u', 'e'] (.boolean true) c s'
      else if c = 'f' then readWord ['a', 'l', 's', 'e'] (.boolean false) c s'
      else if c = 'n' then readWord ['u', 'l', 'l'] .nil c s'
      else .error ⟨.unexpectedCharacter c, c :: s'⟩

/-- How many containers may enclose a value. -/
def maxNesting : Nat := 512

/-- A document: a value with white space around it and nothing else. -/
def readDocument (s : List Char) : Except Stop Tree :=
  match readValue (maxNesting + 1) (skipSpace s) with
  | .error stop => .error stop
  | .ok (t, ⟨left, _⟩) =>
    match skipSpace left with
    | [] => .ok t
    | r => .error ⟨.trailingCharacters, r⟩

/-- A fault and the byte offset at which it was met. -/
structure Failure where
  fault : Fault
  offset : Nat
deriving DecidableEq

/-- The fault with its offset. -/
def Failure.message (f : Failure) : String :=
  f.fault.message ++ " at byte " ++ Nat.repr f.offset

/-- The tree of a document. -/
def parse (text : String) : Except Failure Tree :=
  let s := text.toList
  match readDocument s with
  | .ok t => .ok t
  | .error stop => .error ⟨stop.fault, Text.byteCount s - Text.byteCount stop.left⟩

end ScriptHost.Json
