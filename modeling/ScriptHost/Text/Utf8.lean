/-!
# UTF-8 with replacement characters

Bytes read as text.  Where the bytes are no UTF-8, one replacement character stands for each
maximal part that begins a character and does not complete it, or for a single byte that begins
none.

## Main definitions

* `Text.Utf8.encode` : the bytes of a text.
* `Text.Utf8.decode` : the text of arbitrary bytes.
* `Text.Utf8.decode?` : the text of bytes that are UTF-8.
-/

namespace ScriptHost.Text.Utf8

/-- The bytes of a text. -/
def encode (s : List Char) : List UInt8 := s.flatMap String.utf8EncodeChar

/-- The character that stands for bytes that are no UTF-8. -/
def replacement : Char := '\uFFFD'

/-- A character begun and not completed: how many bytes are owed, the range of the next one, and
the bits read so far. -/
structure Begun where
  owed : Nat
  low : Nat
  high : Nat
  code : Nat
deriving DecidableEq

/-- What the first byte of a character of several bytes announces. -/
def lead? (b : Nat) : Option Begun :=
  if 0xC2 ≤ b ∧ b ≤ 0xDF then some ⟨1, 0x80, 0xBF, b - 0xC0⟩
  else if b = 0xE0 then some ⟨2, 0xA0, 0xBF, 0⟩
  else if b = 0xED then some ⟨2, 0x80, 0x9F, 0xD⟩
  else if 0xE1 ≤ b ∧ b ≤ 0xEF then some ⟨2, 0x80, 0xBF, b - 0xE0⟩
  else if b = 0xF0 then some ⟨3, 0x90, 0xBF, 0⟩
  else if 0xF1 ≤ b ∧ b ≤ 0xF3 then some ⟨3, 0x80, 0xBF, b - 0xF0⟩
  else if b = 0xF4 then some ⟨3, 0x80, 0x8F, 4⟩
  else none

/-- A byte between characters: the text it completes and the character it begins. -/
def start (b : Nat) : List Char × Option Begun :=
  if b < 0x80 then ([Char.ofNat b], none)
  else match lead? b with
    | some begun => ([], some begun)
    | none => ([replacement], none)

/-- One byte: the text it completes and the character that is then begun. -/
def step : Option Begun → Nat → List Char × Option Begun
  | none, b => start b
  | some p, b =>
    if p.low ≤ b ∧ b ≤ p.high then
      let code := p.code * 64 + (b - 0x80)
      if p.owed ≤ 1 then ([Char.ofNat code], none) else ([], some ⟨p.owed - 1, 0x80, 0xBF, code⟩)
    else
      let (text, begun) := start b
      (replacement :: text, begun)

/-- The text of the bytes that follow a character begun, or none. -/
def decodeFrom : Option Begun → List UInt8 → List Char
  | none, [] => []
  | some _, [] => [replacement]
  | state, b :: bytes =>
    let (text, next) := step state b.toNat
    text ++ decodeFrom next bytes

/-- The text of arbitrary bytes. -/
def decode (bytes : List UInt8) : List Char := decodeFrom none bytes

/-- The text of bytes that are UTF-8, which are the bytes of their own text. -/
def decode? (bytes : List UInt8) : Option (List Char) :=
  let text := decode bytes
  if encode text = bytes then some text else none

end ScriptHost.Text.Utf8
