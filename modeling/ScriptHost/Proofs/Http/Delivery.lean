import ScriptHost.Http.Service
import ScriptHost.Proofs.Callback.Calls
import ScriptHost.Proofs.Http.Message

/-!
# From the connection to the handler

A well-formed request reaches its handler with the parts that the client put in, however the stream
that begins with it is cut and whatever else the stream holds.

## Main results

* `Http.Message.exists_receive` : reading and parsing give the request that is meant.
* `Http.Routes.handle_of_handler` : a request is answered by its handler, called once.
* `Http.Message.exists_receive_handle` : both together.
-/

namespace ScriptHost

namespace Http

/-! ### Reading a message -/

namespace Message

variable (m : Message) {more : List UInt8} {pieces : List (List UInt8)} {limit : Nat}

/-- What there is room for of a stream that begins with a message that fits. -/
theorem take_bytes_append_of_le (hlimit : m.bytes.length ≤ limit) (more : List UInt8) :
    (m.bytes ++ more).take limit = m.bytes ++ more.take (limit - m.bytes.length) := by
  rw [List.take_append, List.take_of_length_le hlimit]

/-- A message is read from every cutting of a stream that begins with it. -/
theorem exists_receive (hcutting : IsCutting (m.bytes ++ more) pieces)
    (hlimit : m.bytes.length ≤ limit) (hmax : limit ≤ maxBufferBytes) :
    ∃ received, receive limit (deliveries pieces) = .ok received ∧
      Request.parse received.buffer = .ok m.request := by
  obtain ⟨received, hreceive, hbuffer⟩ := Http.exists_receive hcutting hmax
  refine ⟨received, hreceive, ?_⟩
  have hbound : maxBufferBytes < lengthBound := by decide
  have hseen := List.length_take_le limit (m.bytes ++ more)
  rw [m.take_bytes_append_of_le hlimit] at hbuffer hseen
  rw [(m.waitsForBody _).parse_eq hseen hbuffer]
  exact m.parse_append _ (by omega)

end Message

/-! ### Handling a request -/

section Handler

variable {routes : Routes} {callbacks : Callbacks} {w : World} {raw : List UInt8} {r : Request}
  {h : Handle} {name : String} {cb : Callback}

/-- The handler of a route is called once, and what it returns is the answer. -/
theorem Routes.handle_of_handler (hparse : Request.parse raw = .ok r)
    (hroute : routes.resolve w.heap r.method r.path = some (.object h))
    (hhandler : (w.heap.get h).get? "handler" = some (.string name))
    (hcallback : callbacks.get? name = some cb) (hkind : cb.kind = .web) :
    routes.handle callbacks raw w = (do
      let v ← cb.run [.string r.method.name, .string r.path, .string r.query, .string r.body,
        .string r.cookies]
      Action.inspect fun heap ↦ Response.ofValue heap v) w := by
  have hname : Routes.handlerName? w.heap (.object h) = some name := by
    rw [Routes.handlerName?, hhandler]
    rfl
  have hanswer : Routes.answer callbacks r (.object h) w =
      cb.run [.string r.method.name, .string r.path, .string r.query, .string r.body,
        .string r.cookies] w := by
    rw [Routes.answer, Action.get_bind, hname]
    exact callbacks.call_of_get? hcallback hkind _ w
  unfold Routes.handle
  rw [hparse]
  dsimp only
  rw [Routes.respond, Action.get_bind, hroute]
  exact Action.bind_congr hanswer

end Handler

namespace Message

/-- A well-formed request reaches its handler intact.  It is read from every cutting of a stream
that begins with it, into every buffer that it fits in; and the callback that its route names is
called once, in the world as it is, with the parts of the request. -/
theorem exists_receive_handle (m : Message) {more : List UInt8} {pieces : List (List UInt8)}
    {limit : Nat} (hcutting : IsCutting (m.bytes ++ more) pieces)
    (hlimit : m.bytes.length ≤ limit) (hmax : limit ≤ maxBufferBytes) :
    ∃ received, receive limit (deliveries pieces) = .ok received ∧
      Request.parse received.buffer = .ok m.request ∧
      ∀ (routes : Routes) (callbacks : Callbacks) (w : World) (h : Handle) (name : String)
        (cb : Callback),
        routes.resolve w.heap m.method m.request.path = some (.object h) →
        (w.heap.get h).get? "handler" = some (.string name) →
        callbacks.get? name = some cb → cb.kind = .web →
        routes.handle callbacks received.buffer w = (do
          let v ← cb.run [.string m.method.name, .string m.request.path, .string m.request.query,
            .string m.body, .string ((m.header? "Cookie").getD "")]
          Action.inspect fun heap ↦ Response.ofValue heap v) w := by
  obtain ⟨received, hreceive, hparse⟩ := m.exists_receive hcutting hlimit hmax
  refine ⟨received, hreceive, hparse, ?_⟩
  intro routes callbacks w h name cb hroute hhandler hcallback hkind
  have hcookies : m.request.cookies = (m.header? "Cookie").getD "" :=
    congrArg (Option.getD · "") (m.headerIn?_headers "Cookie")
  rw [Routes.handle_of_handler hparse hroute hhandler hcallback hkind, hcookies]
  rfl

/-- A request with a body in which there is a blank line. -/
def greeting : Message where
  method := .post
  target := "/greet?lang=en"
  version := "HTTP/1.1"
  headers := [{
    name := "content-length"
    value := "9"
    name_mem := by simp
    value_mem := by simp
    name_isTrimmed := ⟨by simp [Text.isBlank], by simp [Text.isBlank]⟩
    value_isTrimmed := ⟨by simp [Text.isBlank], by simp [Text.isBlank]⟩ }]
  body := "hello\r\n\r\n"
  target_ne := by decide
  target_mem := by simp
  version_mem := by simp
  length_eq := by rfl

/-- A request whose stream is cut within its header block, and which another request follows. -/
theorem exists_receive_handle_greeting :
    let route : Object Value := (Object.empty .map).set "handler" (.string "echo")
    let table : Object Value := (Object.empty .map).set "POST /greet" (.object ⟨0⟩)
    let echo : Callback := ⟨.web, fun args ↦ return args.getD 3 .nil⟩
    let w := { World.initial with heap := ⟨#[route, table]⟩ }
    ∃ received, receive 1024 (deliveries [greeting.bytes.take 30,
        greeting.bytes.drop 30 ++ Text.Utf8.encode "GET / HTTP/1.1\r\n\r\n".toList]) =
          .ok received ∧
      Request.parse received.buffer = .ok greeting.request ∧
      Routes.handle ⟨⟨1⟩⟩ ⟨[("echo", echo)]⟩ received.buffer w = .ok (.text "hello\r\n\r\n") w := by
  intro route table echo w
  have hcutting : IsCutting (greeting.bytes ++ Text.Utf8.encode "GET / HTTP/1.1\r\n\r\n".toList)
      [greeting.bytes.take 30,
        greeting.bytes.drop 30 ++ Text.Utf8.encode "GET / HTTP/1.1\r\n\r\n".toList] := by
    constructor
    · decide +kernel
    · decide +kernel
  obtain ⟨received, hreceive, hparse, hhandle⟩ :=
    greeting.exists_receive_handle hcutting (show greeting.bytes.length ≤ 1024 by decide +kernel)
      (by decide)
  refine ⟨received, hreceive, hparse, ?_⟩
  rw [hhandle ⟨⟨1⟩⟩ ⟨[("echo", echo)]⟩ w ⟨0⟩ "echo" echo rfl rfl rfl rfl]
  rfl

/-- No buffer is as large as a limit may be, so even a request that would fit may not be read. -/
theorem receive_greeting_eq_bufferTooLarge :
    IsCutting (greeting.bytes ++ []) [greeting.bytes] ∧ greeting.bytes.length ≤ (1 <<< 64) - 1 ∧
      receive ((1 <<< 64) - 1) (deliveries [greeting.bytes]) = .error .bufferTooLarge := by
  refine ⟨⟨?_, ?_⟩, ?_, ?_⟩
  · rw [List.append_nil, List.flatten_singleton]
  · decide +kernel
  · decide +kernel
  · exact if_neg (by decide)

end Message

end Http

end ScriptHost
