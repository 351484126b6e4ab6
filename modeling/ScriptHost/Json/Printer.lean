import ScriptHost.Decimal.General
import ScriptHost.Text.Hex
import ScriptHost.Tree

/-!
# Writing JSON

Trees as JSON text, on one line or indented.  Each writer puts its text in front of the text that
follows, which makes `write t rest` the text of `t` followed by `rest`.

## Main definitions

* `Json.escaped` : the form of a character inside a string literal.
* `Json.Layout` : compact, or one member a line with some spaces for each level.
* `Json.write` : the text of a tree.
* `Json.compact`, `Json.pretty` : the two texts of a value.
-/

namespace ScriptHost.Json

/-- The form of a character inside a string literal. -/
def escaped (c : Char) : List Char :=
  if c = '"' then ['\\', '"']
  else if c = '\\' then ['\\', '\\']
  else if c = '\n' then ['\\', 'n']
  else if c = '\r' then ['\\', 'r']
  else if c = '\t' then ['\\', 't']
  else if c = '\x08' then ['\\', 'b']
  else if c = '\x0c' then ['\\', 'f']
  else if c.toNat < 0x20 then '\\' :: 'u' :: Text.Hex.fixed c.toNat 4
  else [c]

/-- A string literal in front of `rest`. -/
def quoted (s : String) (rest : List Char) : List Char :=
  '"' :: s.toList.foldr (fun c rest ↦ escaped c ++ rest) ('"' :: rest)

/-- How the members of an object are set apart. -/
inductive Layout where
  /-- Nothing is put between the tokens. -/
  | compact
  /-- One member a line, `width` spaces for each level, a space after each colon. -/
  | indented (width : Nat)

/-- A line break before a token at some depth, in front of `rest`. -/
def Layout.newline (layout : Layout) (depth : Nat) (rest : List Char) : List Char :=
  match layout with
  | compact => rest
  | indented width => '\n' :: (List.replicate (depth * width) ' ' ++ rest)

/-- The name of a member, in front of `rest`. -/
def Layout.name (layout : Layout) (name : String) (rest : List Char) : List Char :=
  quoted name (':' :: match layout with
    | compact => rest
    | indented _ => ' ' :: rest)

/-- The text of a number; there is none for NaN and the infinities, which become null. -/
def numeral (n : Double) : List Char := if n.isFinite then n.text else ['n', 'u', 'l', 'l']

mutual

/-- The text of a tree at some depth, in front of `rest`. -/
def writeAt (layout : Layout) (depth : Nat) : Tree → List Char → List Char
  | .nil, rest => 'n' :: 'u' :: 'l' :: 'l' :: rest
  | .number n, rest => numeral n ++ rest
  | .boolean true, rest => 't' :: 'r' :: 'u' :: 'e' :: rest
  | .boolean false, rest => 'f' :: 'a' :: 'l' :: 's' :: 'e' :: rest
  | .string s, rest => quoted s rest
  | .node shape members, rest =>
    let array := Tree.countsAsArray shape members
    let close := (if array then ']' else '}') :: rest
    (if array then '[' else '{') ::
      match members with
      | [] => close
      | m :: ms =>
        writeMembers layout (depth + 1) array false (m :: ms) (layout.newline depth close)

/-- The text of members at some depth, each but the first after a comma, in front of `rest`. -/
def writeMembers (layout : Layout) (depth : Nat) (array comma : Bool) :
    List (String × Tree) → List Char → List Char
  | [], rest => rest
  | (name, t) :: ms, rest =>
    let shown := writeAt layout depth t (writeMembers layout depth array true ms rest)
    let line := layout.newline depth (if array then shown else layout.name name shown)
    if comma then ',' :: line else line

end

/-- The text of a tree, in front of `rest`. -/
def write (layout : Layout) (t : Tree) (rest : List Char) : List Char := writeAt layout 0 t rest

/-- The text of a value on one line. -/
def compact (heap : Heap) (v : Value) : String :=
  String.ofList (write .compact (heap.unfold v) [])

/-- The text of a value with one member a line, indented by two spaces a level. -/
def pretty (heap : Heap) (v : Value) : String :=
  String.ofList (write (.indented 2) (heap.unfold v) [])

end ScriptHost.Json

namespace ScriptHost.Heap

/-- A value as plain text: strings as they are, objects as compact JSON. -/
def display (heap : Heap) : Value → String
  | .nil => "nil"
  | .number n => String.ofList n.text
  | .boolean b => if b then "true" else "false"
  | .string s => s
  | .object h => Json.compact heap (.object h)

end ScriptHost.Heap
