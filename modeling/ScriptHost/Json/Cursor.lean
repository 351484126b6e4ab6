import ScriptHost.Json.Parser
import ScriptHost.Text.Utf8

/-!
# Reading JSON by byte offsets

The reader of `ScriptHost.Json.Parser` as it goes over the bytes of a text, with the index of the
byte that it has come to.  A piece of the text is taken between two indices, which have to be in
range and may not lie within a character; a piece that cannot be taken is a panic.

A byte is looked at as the character with its number, which is the byte's own character in ASCII.

## Main definitions

* `Json.Cursor.Halt` : why reading gives nothing, a failure or a panic.
* `Json.Cursor.slice?`, `Json.Cursor.suffix?` : the pieces of the text that can be taken.
* `Json.Cursor.readValue`, `Json.Cursor.parse` : values and documents.
-/

namespace ScriptHost.Json.Cursor

/-- Why reading gives nothing. -/
inductive Halt where
  | failed (f : Failure)
  | panicked
deriving DecidableEq

/-- A reading that failed at an index. -/
def Halt.fault (f : Fault) (i : Nat) : Halt := .failed ⟨f, i⟩

/-- A result with the index after it, which is beyond `i`. -/
abbrev Reading (α : Type) (i : Nat) : Type := Except Halt (α × { j : Nat // i < j })

variable (bytes : List UInt8)

/-! ### Looking at the text -/

/-- The byte at an index, as the character with its number. -/
def peek (i : Nat) : Option Char := bytes[i]?.map fun b ↦ Char.ofNat b.toNat

/-- Whether an index is at the beginning of a character or at the end of the text. -/
def isBoundary (i : Nat) : Bool :=
  match bytes[i]? with
  | none => i == bytes.length
  | some b => i == 0 || b < 0x80 || 0xC0 ≤ b

/-- The text between two indices, where it can be taken. -/
def slice? (i j : Nat) : Option (List Char) :=
  if i ≤ j ∧ isBoundary bytes i ∧ isBoundary bytes j then
    some (Text.Utf8.decode (bytes.extract i j))
  else none

/-- The bytes from an index on, where they can be taken. -/
def suffix? (i : Nat) : Option (List UInt8) :=
  if i ≤ bytes.length then some (bytes.drop i) else none

theorem lt_length_of_peek {i : Nat} {c : Char} (h : peek bytes i = some c) : i < bytes.length := by
  obtain ⟨b, hb, -⟩ := Option.map_eq_some_iff.1 h
  exact (List.getElem?_eq_some_iff.1 hb).1

/-- The index of the first byte from `i` on that does not satisfy `p`. -/
def skipWhile (p : Char → Bool) (i : Nat) : Nat :=
  match h : peek bytes i with
  | none => i
  | some c => if p c then skipWhile p (i + 1) else i
termination_by bytes.length - i
decreasing_by
  have := lt_length_of_peek bytes h
  omega

theorem le_skipWhile (p : Char → Bool) (i : Nat) : i ≤ skipWhile bytes p i := by
  fun_induction skipWhile bytes p i with
  | case1 => exact Nat.le_refl _
  | case2 i c h hc ih => exact Nat.le_trans (Nat.le_succ i) ih
  | case3 => exact Nat.le_refl _

/-- The index after the white space from `i` on. -/
def skipSpace (i : Nat) : Nat := skipWhile bytes isSpace i

theorem le_skipSpace (i : Nat) : i ≤ skipSpace bytes i := le_skipWhile bytes isSpace i

/-- A character where none can stand. -/
def unexpected (i : Nat) : Halt :=
  match slice? bytes i bytes.length with
  | none => .panicked
  | some s => .fault (.unexpectedCharacter (s.headD '\x00')) i

/-! ### Strings -/

/-- The code point of the four hexadecimal digits at an index. -/
def codePointAt? (i : Nat) : Option Nat := do
  codePoint? (← peek bytes i) (← peek bytes (i + 1)) (← peek bytes (i + 2)) (← peek bytes (i + 3))

theorem lt_add_five (i : Nat) : i < i + 5 := by omega

/-- The character of an escape, from behind its backslash. -/
def readEscape (i : Nat) : Reading Char i :=
  match peek bytes i with
  | none => .error (.fault .unterminatedString i)
  | some e =>
    if e = 'u' then
      match codePointAt? bytes (i + 1) with
      | none => .error (.fault .invalidEscape (i + 1))
      | some n => .ok (ofCodePoint n, ⟨i + 5, lt_add_five i⟩)
    else
      match escape? e with
      | none => .error (.fault .invalidEscape i)
      | some c => .ok (c, ⟨i + 1, Nat.lt_succ_self i⟩)

/-- A character that stands for itself in a string. -/
def isPlain (c : Char) : Bool := !(c == '"' || c == '\\')

/-- The text of a string literal up to its closing quote: runs of plain characters, which are taken
as a whole, with escapes between them. -/
def readString (opened : Nat) (i : Nat) : Reading (List Char) i :=
  let j := skipWhile bytes isPlain i
  have hj : i ≤ j := le_skipWhile bytes isPlain i
  match slice? bytes i j with
  | none => .error .panicked
  | some run =>
    match h : peek bytes j with
    | none => .error (.fault .unterminatedString opened)
    | some '"' => .ok (run, ⟨j + 1, by omega⟩)
    | some _ =>
      match readEscape bytes (j + 1) with
      | .error halt => .error halt
      | .ok (c, ⟨k, hk⟩) =>
        match readString opened k with
        | .error halt => .error halt
        | .ok (text, ⟨l, hl⟩) => .ok (run ++ c :: text, ⟨l, by omega⟩)
termination_by bytes.length - i
decreasing_by
  have := lt_length_of_peek bytes h
  omega

/-- A string literal whose opening quote is known to be at `i`. -/
def readLiteral (i : Nat) : Reading String i :=
  match readString bytes i (i + 1) with
  | .error halt => .error halt
  | .ok (text, ⟨j, hj⟩) => .ok (String.ofList text, ⟨j, by omega⟩)

/-! ### Numbers -/

/-- The index after the digits at `i`, of which there is at least one. -/
def skipDigits? (i : Nat) : Option Nat :=
  let j := skipWhile bytes Char.isDigit i
  if i < j then some j else none

/-- The index after the fraction at `i`. -/
def skipFraction? (i : Nat) : Option Nat :=
  if peek bytes i = some '.' then skipDigits? bytes (i + 1) else some i

/-- The index after the sign at `i`. -/
def skipSign (i : Nat) : Nat :=
  if peek bytes i = some '+' ∨ peek bytes i = some '-' then i + 1 else i

/-- The index after the exponent at `i`. -/
def skipExponent? (i : Nat) : Option Nat :=
  if peek bytes i = some 'e' ∨ peek bytes i = some 'E' then
    skipDigits? bytes (skipSign bytes (i + 1))
  else some i

/-- The index after the minus at `i`. -/
def skipMinus (i : Nat) : Nat := if peek bytes i = some '-' then i + 1 else i

/-- The index after the number at `i`. -/
def skipNumber? (i : Nat) : Option Nat := do
  let fraction ← skipDigits? bytes (skipMinus bytes i)
  let exponent ← skipFraction? bytes fraction
  skipExponent? bytes exponent

theorem lt_of_skipDigits? {i j : Nat} (h : skipDigits? bytes i = some j) : i < j := by
  simp only [skipDigits?] at h
  split at h
  · cases h
    assumption
  · cases h

theorem le_of_skipFraction? {i j : Nat} (h : skipFraction? bytes i = some j) : i ≤ j := by
  unfold skipFraction? at h
  split at h
  · have := lt_of_skipDigits? bytes h
    omega
  · cases h
    exact Nat.le_refl i

theorem le_skipSign (i : Nat) : i ≤ skipSign bytes i := by
  unfold skipSign
  split <;> omega

theorem le_of_skipExponent? {i j : Nat} (h : skipExponent? bytes i = some j) : i ≤ j := by
  unfold skipExponent? at h
  split at h
  · have := lt_of_skipDigits? bytes h
    have := le_skipSign bytes (i + 1)
    omega
  · cases h
    exact Nat.le_refl i

theorem le_skipMinus (i : Nat) : i ≤ skipMinus bytes i := by
  unfold skipMinus
  split <;> omega

theorem lt_of_skipNumber? {i j : Nat} (h : skipNumber? bytes i = some j) : i < j := by
  simp only [skipNumber?, Option.bind_eq_bind, Option.bind_eq_some_iff] at h
  obtain ⟨k, hk, l, hl, h⟩ := h
  have := lt_of_skipDigits? bytes hk
  have := le_of_skipFraction? bytes hl
  have := le_of_skipExponent? bytes h
  have := le_skipMinus bytes i
  omega

/-- A number, which is converted from the piece of the text that it takes. -/
def readNumber (i : Nat) : Reading Double i :=
  match h : skipNumber? bytes i with
  | none => .error (.fault .invalidNumber i)
  | some j =>
    match slice? bytes i j with
    | none => .error .panicked
    | some text =>
      match Decimal.readDouble text with
      | none => .error (.fault .invalidNumber i)
      | some x => .ok (x, ⟨j, lt_of_skipNumber? bytes h⟩)

/-! ### Values -/

theorem length_encode_cons_pos (c : Char) (s : List Char) :
    0 < (Text.Utf8.encode (c :: s)).length := by
  rw [Text.Utf8.encode, List.flatMap_cons, List.length_append]
  exact Nat.add_pos_left (List.length_pos_iff.2 String.utf8EncodeChar_ne_nil) _

/-- Reads the word that begins with `c` and goes on with `word`. -/
def readWord (word : List Char) (t : Tree) (c : Char) (i : Nat) : Reading Tree i :=
  match suffix? bytes i with
  | none => .error .panicked
  | some rest =>
    if (Text.Utf8.encode (c :: word)).isPrefixOf rest then
      .ok (t, ⟨i + (Text.Utf8.encode (c :: word)).length,
        Nat.lt_add_of_pos_right (length_encode_cons_pos c word)⟩)
    else .error (unexpected bytes i)

/-- The elements of an array up to its closing bracket, of which there is at least one. -/
def readElements (item : (i : Nat) → Reading Tree i) (i : Nat) : Reading (List Tree) i :=
  have hi := le_skipSpace bytes i
  match item (skipSpace bytes i) with
  | .error halt => .error halt
  | .ok (t, ⟨j, hj⟩) =>
    have hk := le_skipSpace bytes j
    if h : peek bytes (skipSpace bytes j) = some ',' then
      match readElements item (skipSpace bytes j + 1) with
      | .error halt => .error halt
      | .ok (ts, ⟨l, hl⟩) => .ok (t :: ts, ⟨l, by omega⟩)
    else if peek bytes (skipSpace bytes j) = some ']' then
      .ok ([t], ⟨skipSpace bytes j + 1, by omega⟩)
    else .error (.fault .expectedArraySeparator (skipSpace bytes j))
termination_by bytes.length - i
decreasing_by
  have := lt_length_of_peek bytes h
  omega

/-- The name of a member and its colon. -/
def readName (i : Nat) : Reading String i :=
  if peek bytes i = some '"' then
    match readLiteral bytes i with
    | .error halt => .error halt
    | .ok (name, ⟨j, hj⟩) =>
      have hk := le_skipSpace bytes j
      if peek bytes (skipSpace bytes j) = some ':' then
        .ok (name, ⟨skipSpace bytes j + 1, by omega⟩)
      else .error (.fault .expectedColon (skipSpace bytes j))
  else if peek bytes i = none then .error (.fault .unexpectedEnd i)
  else .error (.fault .expectedKey i)

/-- The members of an object up to its closing brace, of which there is at least one. -/
def readMembers (item : (i : Nat) → Reading Tree i) (i : Nat) :
    Reading (List (String × Tree)) i :=
  have hi := le_skipSpace bytes i
  match readName bytes (skipSpace bytes i) with
  | .error halt => .error halt
  | .ok (name, ⟨afterName, hname⟩) =>
    have hvalue := le_skipSpace bytes afterName
    match item (skipSpace bytes afterName) with
    | .error halt => .error halt
    | .ok (t, ⟨j, hj⟩) =>
      have hk := le_skipSpace bytes j
      if h : peek bytes (skipSpace bytes j) = some ',' then
        match readMembers item (skipSpace bytes j + 1) with
        | .error halt => .error halt
        | .ok (ms, ⟨l, hl⟩) => .ok ((name, t) :: ms, ⟨l, by omega⟩)
      else if peek bytes (skipSpace bytes j) = some '}' then
        .ok ([(name, t)], ⟨skipSpace bytes j + 1, by omega⟩)
      else .error (.fault .expectedObjectSeparator (skipSpace bytes j))
termination_by bytes.length - i
decreasing_by
  have := lt_length_of_peek bytes h
  omega

/-- An array, from its opening bracket on. -/
def readArray (item : (i : Nat) → Reading Tree i) (i : Nat) : Reading Tree i :=
  have hi := le_skipSpace bytes (i + 1)
  if peek bytes (skipSpace bytes (i + 1)) = some ']' then
    .ok (.array [], ⟨skipSpace bytes (i + 1) + 1, by omega⟩)
  else
    match readElements bytes item (skipSpace bytes (i + 1)) with
    | .error halt => .error halt
    | .ok (ts, ⟨j, hj⟩) => .ok (.array ts, ⟨j, by omega⟩)

/-- An object, from its opening brace on. -/
def readObject (item : (i : Nat) → Reading Tree i) (i : Nat) : Reading Tree i :=
  have hi := le_skipSpace bytes (i + 1)
  if peek bytes (skipSpace bytes (i + 1)) = some '}' then
    .ok (.map [], ⟨skipSpace bytes (i + 1) + 1, by omega⟩)
  else
    match readMembers bytes item (skipSpace bytes (i + 1)) with
    | .error halt => .error halt
    | .ok (ms, ⟨j, hj⟩) => .ok (.map ms, ⟨j, by omega⟩)

/-- A value in which no value is enclosed by `levels` or more containers. -/
def readValue : (levels : Nat) → (i : Nat) → Reading Tree i
  | 0, i => .error (.fault .nestingTooDeep i)
  | levels + 1, i =>
    match peek bytes i with
    | none => .error (.fault .unexpectedEnd i)
    | some c =>
      if c = '{' then readObject bytes (readValue levels) i
      else if c = '[' then readArray bytes (readValue levels) i
      else if c = '"' then
        match readLiteral bytes i with
        | .error halt => .error halt
        | .ok (text, j) => .ok (.string text, j)
      else if c = '-' ∨ c.isDigit then
        match readNumber bytes i with
        | .error halt => .error halt
        | .ok (x, j) => .ok (.number x, j)
      else if c = 't' then readWord bytes ['r', 'u', 'e'] (.boolean true) c i
      else if c = 'f' then readWord bytes ['a', 'l', 's', 'e'] (.boolean false) c i
      else if c = 'n' then readWord bytes ['u', 'l', 'l'] .nil c i
      else .error (unexpected bytes i)

/-- A document: a value with white space around it and nothing else. -/
def readDocument : Except Halt Tree :=
  match readValue bytes (maxNesting + 1) (skipSpace bytes 0) with
  | .error halt => .error halt
  | .ok (t, ⟨i, _⟩) =>
    if bytes.length ≤ skipSpace bytes i then .ok t
    else .error (.fault .trailingCharacters (skipSpace bytes i))

/-- The tree of a document. -/
def parse (text : String) : Except Halt Tree := readDocument (Text.Utf8.encode text.toList)

end ScriptHost.Json.Cursor
