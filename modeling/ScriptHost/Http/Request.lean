import ScriptHost.Decimal.Literal
import ScriptHost.Text.Blank
import ScriptHost.Text.Pieces
import ScriptHost.Text.Utf8

/-!
# Requests

The text of a buffered request taken apart.  Only the request line must be there; the header block
ends at a blank line or with the buffer, and a body is taken only after a full blank line and with a
declared length.

## Main definitions

* `Http.Method`, `Http.Method.ofLine?` : the methods that are served.
* `Http.Request`, `Http.Request.parse` : a request from its bytes.
* `Http.Request.header?` : a header by its name in any letter case.
* `Http.headerEnd?` : where the header block ends.
-/

namespace ScriptHost.Http

/-- The methods that are served. -/
inductive Method where
  | get
  | post
  | put
  | patch
  | delete
deriving DecidableEq

namespace Method

/-- The name of a method. -/
def name : Method → String
  | get => "GET"
  | post => "POST"
  | put => "PUT"
  | patch => "PATCH"
  | delete => "DELETE"

/-- All methods. -/
def all : List Method := [get, post, put, patch, delete]

/-- The bytes of a method's name and the space after it. -/
def lead (m : Method) : List UInt8 := Text.Utf8.encode (m.name.toList ++ [' '])

/-- The method that a request line begins with. -/
def ofLine? (line : List UInt8) : Option Method := all.find? fun m ↦ m.lead.isPrefixOf line

end Method

/-- Why bytes are no request. -/
inductive RequestFault where
  | empty
  | unsupportedMethod
  | malformedRequestLine
deriving DecidableEq

/-- The wording of a fault. -/
def RequestFault.message : RequestFault → String
  | empty => "empty request"
  | unsupportedMethod => "unsupported method"
  | malformedRequestLine => "malformed request line"

/-- A request. -/
structure Request where
  method : Method
  /-- What the client asks for, as it was sent. -/
  target : String
  /-- The target before its first question mark. -/
  path : String
  /-- The target after its first question mark. -/
  query : String
  /-- The headers in order, names and values without white space around them. -/
  headers : List (String × String)
  body : String
deriving DecidableEq

/-- The space. -/
def space : UInt8 := 0x20

/-- The line feed. -/
def lineFeed : UInt8 := 0x0A

/-- The carriage return. -/
def carriageReturn : UInt8 := 0x0D

/-- The position of the first blank line, with the line end before it, as four bytes. -/
def headerEnd? : List UInt8 → Option Nat
  | [] => none
  | b :: bytes =>
    if [carriageReturn, lineFeed, carriageReturn, lineFeed].isPrefixOf (b :: bytes) then some 0
    else (headerEnd? bytes).map (· + 1)

/-- The text of bytes. -/
def textOf (bytes : List UInt8) : String := String.ofList (Text.Utf8.decode bytes)

/-- The first line of a request, without its line end. -/
def firstLine (bytes : List UInt8) : List UInt8 :=
  let line := bytes.takeWhile (· != lineFeed)
  if line.getLast? = some carriageReturn then line.dropLast else line

/-- The bytes between the first line and the end of the header block. -/
def headBytes (bytes : List UInt8) : List UInt8 :=
  let stop := (headerEnd? bytes).getD bytes.length
  (bytes.take stop).drop ((bytes.takeWhile (· != lineFeed)).length + 1)

/-- The name and the value on a header line; a line without a colon holds none. -/
def headerOf? (line : List Char) : Option (String × String) :=
  (Text.splitOnce ':' line).map fun (name, value) ↦
    (String.ofList (Text.trim name), String.ofList (Text.trim value))

/-- The headers up to the first line that is blank. -/
def readHeaders (head : List Char) : List (String × String) :=
  let lines := (head.splitOn '\n').map (Text.trimEndWhile (· == '\r'))
  (lines.takeWhile (!·.isEmpty)).filterMap headerOf?

/-- The value of the first header with this name, in any letter case. -/
def headerIn? (headers : List (String × String)) (name : String) : Option String :=
  (headers.find? fun h ↦ Text.sameIgnoringCase h.1.toList name.toList).map Prod.snd

/-- Lengths are below this bound. -/
def lengthBound : Nat := 1 <<< 64

/-- The body length that headers declare. -/
def contentLengthIn? (headers : List (String × String)) : Option Nat :=
  (headerIn? headers "Content-Length").bind fun v ↦ Decimal.readNat lengthBound v.toList

/-- The body: as many bytes after the blank line as were declared, or as there are. -/
def bodyOf (bytes : List UInt8) (headers : List (String × String)) : String :=
  match headerEnd? bytes, contentLengthIn? headers with
  | some stop, some length => textOf ((bytes.drop (stop + 4)).take length)
  | _, _ => ""

namespace Request

/-- The request in a buffer. -/
def parse (bytes : List UInt8) : Except RequestFault Request :=
  if bytes.isEmpty then .error .empty
  else
    let line := firstLine bytes
    match Method.ofLine? line with
    | none => .error .unsupportedMethod
    | some method =>
      let rest := line.drop method.lead.length
      if !rest.contains space || rest.head? = some space then .error .malformedRequestLine
      else
        let target := Text.Utf8.decode (rest.takeWhile (· != space))
        let (path, query) := (Text.splitOnce '?' target).getD (target, [])
        let headers := readHeaders (Text.Utf8.decode (headBytes bytes))
        .ok {
          method
          target := String.ofList target
          path := String.ofList path
          query := String.ofList query
          headers
          body := bodyOf bytes headers }

/-- The value of the first header with this name, in any letter case. -/
def header? (r : Request) (name : String) : Option String := headerIn? r.headers name

/-- The cookies of a request; empty if it has none. -/
def cookies (r : Request) : String := (r.header? "Cookie").getD ""

/-- The body length that a request declares. -/
def contentLength? (r : Request) : Option Nat := contentLengthIn? r.headers

end Request

end ScriptHost.Http
