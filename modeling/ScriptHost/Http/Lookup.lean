import ScriptHost.Text.Blank
import ScriptHost.Text.Pieces

/-!
# Query strings and cookies

## Main definitions

* `Http.queryGet?`, `Http.cookieGet?` : the first value under a name.
-/

namespace ScriptHost.Http

/-- The first value under a name in a query string; a name without `=` has the empty value. -/
def queryGet? (query name : List Char) : Option (List Char) :=
  (query.splitOn '&').findSome? fun piece ↦
    match Text.splitOnce '=' piece with
    | some (k, v) => if k = name then some v else none
    | none => if piece = name then some [] else none

/-- The first value under a name in a cookie header. -/
def cookieGet? (header name : List Char) : Option (List Char) :=
  (header.splitOn ';').findSome? fun piece ↦
    match Text.splitOnce '=' (Text.trim piece) with
    | some (k, v) => if k = name then some v else none
    | none => none

end ScriptHost.Http
