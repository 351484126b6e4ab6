import ScriptHost.Callbacks
import ScriptHost.Http.Request
import ScriptHost.Http.Response

/-!
# Answering requests

A route table maps `METHOD path` or a bare path to a value.  A route with a handler is replaced by
what the callback of that name returns.

## Main definitions

* `Http.Routes`, `Http.Routes.ofValue` : a route table, which must be an object.
* `Http.Routes.resolve` : the route of a request.
* `Http.Routes.handle` : the response to a request.
-/

namespace ScriptHost.Http

/-- Why a server does not serve, or stops. -/
inductive ServeFault where
  | listen (address reason : String)
  | accept (reason : String)
  | routesNotObject (type : String)
deriving DecidableEq

/-- The wording of a fault. -/
def ServeFault.message : ServeFault → String
  | listen address reason => "failed to bind " ++ address ++ ": " ++ reason
  | accept reason => "failed to accept connection: " ++ reason
  | routesNotObject type => "route table must be an object, got " ++ type

/-- A route table. -/
structure Routes where
  table : Handle

namespace Routes

/-- The route table in a value. -/
def ofValue (heap : Heap) : Value → Except ServeFault Routes
  | .object table => .ok ⟨table⟩
  | v => .error (.routesNotObject (heap.typeName v))

/-- The route of a request: under its method and path, or else under its path. -/
def resolve (routes : Routes) (heap : Heap) (method : Method) (path : String) : Option Value :=
  let o := heap.get routes.table
  (o.get? (method.name ++ " " ++ path)).or (o.get? path)

/-- The name of the callback that handles a route. -/
def handlerName? (heap : Heap) : Value → Option String
  | .object h => ((heap.get h).get? "handler").bind Value.asString?
  | _ => none

/-- The value that answers a request which has the route `v`. -/
def answer (callbacks : Callbacks) (request : Request) (v : Value) : Action Value := do
  match handlerName? (← get).heap v with
  | none => return v
  | some name =>
    callbacks.call name .web [.string request.method.name, .string request.path,
      .string request.query, .string request.body, .string request.cookies]

/-- The response to a request. -/
def respond (routes : Routes) (callbacks : Callbacks) (request : Request) : Action Response := do
  match routes.resolve (← get).heap request.method request.path with
  | none => return .notFound
  | some route =>
    let v ← answer callbacks request route
    Action.inspect fun heap ↦ Response.ofValue heap v

/-- The response to a buffered request. -/
def handle (routes : Routes) (callbacks : Callbacks) (raw : List UInt8) : Action Response := do
  match Request.parse raw with
  | .ok request => routes.respond callbacks request
  | .error fault =>
    Action.log .debug .server ("rejecting request: " ++ fault.message)
    return .badRequest

end Routes

end ScriptHost.Http
