import ScriptHost.Json.Parser

/-!
# Parse results as values

Operations that must tell failure apart from an empty answer give a report: an object with the
members `ok`, `value` and `error`.

## Main definitions

* `Heap.report` : such an object.
* `Heap.parseOrNil`, `Heap.parseReport` : reading JSON into the heap.
-/

namespace ScriptHost.Heap

/-- An object with the members `ok`, `value` and `error`. -/
def report (heap : Heap) (ok : Bool) (value : Value) (error : String) : Value × Heap :=
  let (h, heap) := heap.alloc <| (Object.empty .map).setAll
    [("ok", .boolean ok), ("value", value), ("error", .string error)]
  (.object h, heap)

/-- The value of a document, nil if the text is none. -/
def parseOrNil (heap : Heap) (text : String) : Value × Heap :=
  match Json.parse text with
  | .ok t => heap.realize t
  | .error _ => (.nil, heap)

/-- The report on reading a document. -/
def parseReport (heap : Heap) (text : String) : Value × Heap :=
  match Json.parse text with
  | .ok t =>
    let (v, heap) := heap.realize t
    heap.report true v ""
  | .error failure => heap.report false .nil failure.message

end ScriptHost.Heap
