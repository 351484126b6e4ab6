import ScriptHost.Json.Printer
import ScriptHost.Text.Blank
import ScriptHost.Text.Utf8

/-!
# Responses

## Main definitions

* `Http.Response`, `Http.Response.wire` : a response and its text on the connection.
* `Http.Response.ofValue` : the response that a route's value stands for.
-/

namespace ScriptHost.Http

/-- The words that go with a status. -/
def reasonPhrase : Nat → String
  | 200 => "OK"
  | 201 => "Created"
  | 204 => "No Content"
  | 301 => "Moved Permanently"
  | 302 => "Found"
  | 303 => "See Other"
  | 304 => "Not Modified"
  | 307 => "Temporary Redirect"
  | 400 => "Bad Request"
  | 401 => "Unauthorized"
  | 403 => "Forbidden"
  | 404 => "Not Found"
  | 405 => "Method Not Allowed"
  | 409 => "Conflict"
  | 500 => "Internal Server Error"
  | _ => "OK"

/-- A response. -/
structure Response where
  status : Nat
  contentType : String
  body : String
  location : Option String
  /-- A header line that is written as it is. -/
  extraHeader : Option String
  setCookie : Option String
deriving DecidableEq

namespace Response

/-- A response with no headers of its own. -/
def plain (status : Nat) (contentType body : String) : Response :=
  ⟨status, contentType, body, none, none, none⟩

/-- Plain text. -/
def text (body : String) : Response := plain 200 "text/plain" body

/-- JSON text. -/
def json (body : String) : Response := plain 200 "application/json" body

/-- The answer when there is no route. -/
def notFound : Response := plain 404 "text/plain" "Not Found"

/-- The answer to what is no request. -/
def badRequest : Response := plain 400 "text/plain" "Bad Request"

/-- The lines of the head. -/
def headLines (r : Response) : List String :=
  ["HTTP/1.1 " ++ Nat.repr r.status ++ " " ++ reasonPhrase r.status,
    "Content-Type: " ++ r.contentType,
    "Content-Length: " ++ Nat.repr r.body.utf8ByteSize] ++
  r.location.toList.map ("Location: " ++ ·) ++
  r.extraHeader.toList.map (fun h ↦
    String.ofList (Text.trimEndWhile (fun c ↦ c == '\r' || c == '\n') h.toList)) ++
  r.setCookie.toList.map ("Set-Cookie: " ++ ·) ++
  ["Connection: close"]

/-- The text of a response on the connection. -/
def wire (r : Response) : String :=
  String.join (r.headLines.map (· ++ "\r\n")) ++ "\r\n" ++ r.body

/-- The bytes of a response on the connection. -/
def bytes (r : Response) : List UInt8 := Text.Utf8.encode r.wire.toList

/-- A string unless it is empty. -/
def nonempty? (s : String) : Option String := if s.isEmpty then none else some s

/-- The status that a number stands for. -/
def status? (n : Double) : Option Nat :=
  n.floor?.filter fun code ↦ 100 ≤ code && code < 1000

/-- The response that an object stands for before its status, type and headers apply. -/
def baseOfObject (heap : Heap) (h : Handle) : Response :=
  let o := heap.get h
  match o.get? "redirect", o.get? "body", o.get? "json" with
  | some target, _, _ => { plain 302 "text/plain" "" with location := some (heap.display target) }
  | none, some body, _ => text (heap.display body)
  | none, none, some v => json (Json.compact heap v)
  | none, none, none => json (Json.compact heap (.object h))

/-- The response that an object stands for. -/
def ofObject (heap : Heap) (h : Handle) : Response :=
  let o := heap.get h
  let base := baseOfObject heap h
  let string? (name : String) : Option String := (o.get? name).bind Value.asString?
  { base with
    status := (((o.get? "status").bind Value.asNumber?).bind status?).getD base.status
    contentType := (string? "content_type").getD base.contentType
    extraHeader := (string? "header").bind nonempty?
    setCookie := (string? "cookie").bind nonempty? }

/-- The response that a route's value stands for: objects by their members, strings as plain text,
all else as JSON. -/
def ofValue (heap : Heap) : Value → Response
  | .string s => text s
  | .object h => ofObject heap h
  | v => json (Json.compact heap v)

end Response

end ScriptHost.Http
