import ScriptHost.Proofs.Http.Delivery

/-!
# Which entry answers a request

What is no request is refused before any routing.  Of a request only two entries of the route table
are looked up, and an object among them that names a handler is replaced by what one call of the
handler returns.  The path of a request holds no space, so that an entry for another method is not
one of the two, whatever the client asks for.

## Main definitions

* `Http.Routes.entry?` : the entry of a table under a key.
* `Http.Routes.IsForeignKey` : the key of an entry for another method.
* `Http.Routes.AnswersByEntries` : how bytes are answered.

## Main results

* `Http.Request.space_notMem_path` : the path of a request holds no space.
* `Http.Routes.handle_congr` : tables that agree on the two keys give the same answer.
* `Http.Routes.answersByEntries` : bytes are answered so, in every world.
-/

namespace ScriptHost.Http

/-! ### Paths and keys -/

/-- What stands before a space in the request line is taken for the target, so that no space is left
in it. -/
theorem Request.space_notMem_path {raw : List UInt8} {r : Request}
    (h : Request.parse raw = .ok r) : ' ' ∉ r.path.toList := by
  simp only [Request.parse] at h
  split at h
  · cases h
  split at h
  · cases h
  rename_i method _
  split at h
  · cases h
  obtain rfl := Except.ok.inj h
  generalize (firstLine raw).drop method.lead.length = rest
  intro hmem
  have htarget : ' ' ∈ Text.Utf8.decode (rest.takeWhile (· != space)) := by
    rw [Text.splitOnce_getD, String.toList_ofList] at hmem
    exact (List.takeWhile_sublist _).mem hmem
  obtain ⟨b, hb, hvalue⟩ := Text.Utf8.mem_of_mem_decode (by decide) (by decide) htarget
  have hne : (b != space) = true := List.all_eq_true.1 List.all_takeWhile b hb
  exact bne_iff_ne.1 hne (UInt8.toNat_inj.1 hvalue)

theorem Method.space_notMem_name (m : Method) : ' ' ∉ m.name.toList := by
  cases m <;> decide

namespace Routes

/-- The entry of a table under a key. -/
def entry? (routes : Routes) (heap : Heap) (key : String) : Option Value :=
  (heap.get routes.table).get? key

/-- The key of a request's entry for its method only. -/
def methodKey (r : Request) : String := r.method.name ++ " " ++ r.path

/-- A word other than the method, a space and any text. -/
def IsForeignKey (m : Method) (key : String) : Prop :=
  ∃ other path, ' ' ∉ other.toList ∧ other ≠ m.name ∧ key = other ++ " " ++ path

/-- A key for another method is neither of the two that are looked up. -/
theorem IsForeignKey.ne {raw : List UInt8} {r : Request} {key : String}
    (hparse : Request.parse raw = .ok r) (h : IsForeignKey r.method key) :
    key ≠ methodKey r ∧ key ≠ r.path := by
  obtain ⟨other, path, hspace, hother, rfl⟩ := h
  have hsplit : Text.splitOnce ' ' (other ++ " " ++ path).toList =
      some (other.toList, path.toList) :=
    Text.splitOnce_eq_some_iff.2 ⟨by simp [String.toList_append], hspace⟩
  constructor
  · intro heq
    have hsplit' : Text.splitOnce ' ' (methodKey r).toList =
        some (r.method.name.toList, r.path.toList) :=
      Text.splitOnce_eq_some_iff.2
        ⟨by simp [methodKey, String.toList_append], r.method.space_notMem_name⟩
    rw [heq, hsplit'] at hsplit
    exact hother (String.toList_inj.1 (Prod.mk.inj (Option.some.inj hsplit)).1).symm
  · intro heq
    rw [heq, Text.splitOnce_eq_none_iff.2 (Request.space_notMem_path hparse)] at hsplit
    cases hsplit

/-! ### Answers -/

variable {routes routes' : Routes} {callbacks : Callbacks} {raw : List UInt8} {r : Request}
  {v : Value} {name : String} {w : World}

theorem handle_of_error {fault : RequestFault} (h : Request.parse raw = .error fault) :
    ∃ entry, ∀ routes callbacks w,
      handle routes callbacks raw w = .ok .badRequest { w with log := w.log.push entry } := by
  refine ⟨⟨.debug, .server, "rejecting request: " ++ fault.message⟩, fun routes callbacks w ↦ ?_⟩
  unfold handle
  rw [h]
  rfl

theorem handle_of_parse (h : Request.parse raw = .ok r) :
    routes.handle callbacks raw w = routes.respond callbacks r w := by
  unfold handle
  rw [h]

theorem handle_of_resolve_eq_none (hparse : Request.parse raw = .ok r)
    (h : routes.resolve w.heap r.method r.path = none) :
    routes.handle callbacks raw w = .ok .notFound w := by
  rw [handle_of_parse hparse, respond, Action.get_bind, h]
  rfl

theorem handle_of_resolve (hparse : Request.parse raw = .ok r)
    (h : routes.resolve w.heap r.method r.path = some v) :
    routes.handle callbacks raw w = (do
      let v ← answer callbacks r v
      Action.inspect fun heap ↦ Response.ofValue heap v) w := by
  rw [handle_of_parse hparse, respond, Action.get_bind, h]

/-- The handler that a value names is its member under that key. -/
theorem handlerName?_eq_some_iff {heap : Heap} :
    handlerName? heap v = some name ↔ heap.member v "handler" = .string name := by
  cases v with
  | object h =>
    rw [handlerName?, Heap.member]
    cases (heap.get h).get? "handler" with
    | none => simp
    | some u => cases u <;> simp [Value.asString?]
  | _ => simp [handlerName?, Heap.member]

theorem answer_of_handlerName? (h : handlerName? w.heap v = some name) :
    answer callbacks r v w = callbacks.call name .web [.string r.method.name, .string r.path,
      .string r.query, .string r.body, .string r.cookies] w := by
  rw [answer, Action.get_bind, h]

theorem answer_of_handlerName?_eq_none (h : handlerName? w.heap v = none) :
    answer callbacks r v w = .ok v w := by
  rw [answer, Action.get_bind, h]
  rfl

/-- Tables that agree on the two keys of a request give the same answer. -/
theorem handle_congr (hparse : Request.parse raw = .ok r)
    (hmethod : routes.entry? w.heap (methodKey r) = routes'.entry? w.heap (methodKey r))
    (hpath : routes.entry? w.heap r.path = routes'.entry? w.heap r.path) :
    routes.handle callbacks raw w = routes'.handle callbacks raw w := by
  have hresolve : routes.resolve w.heap r.method r.path =
      routes'.resolve w.heap r.method r.path := congrArg₂ Option.or hmethod hpath
  rw [handle_of_parse hparse, handle_of_parse hparse, respond, respond, Action.get_bind,
    Action.get_bind, hresolve]

end Routes

/-- A response that says that the request is at fault says so because its value does. -/
theorem Response.exists_status_of_ofValue {heap : Heap} {v : Value}
    (h : (Response.ofValue heap v).status = 400 ∨ (Response.ofValue heap v).status = 404) :
    ∃ n, heap.member v "status" = .number n ∧
      Response.status? n = some (Response.ofValue heap v).status := by
  cases v with
  | object o =>
    have hbase : (baseOfObject heap o).status = 302 ∨ (baseOfObject heap o).status = 200 := by
      simp only [baseOfObject]
      split
      · exact .inl rfl
      all_goals exact .inr rfl
    simp only [ofValue, ofObject] at h ⊢
    cases hstated : (((heap.get o).get? "status").bind Value.asNumber?).bind status? with
    | none =>
      rw [hstated, Option.getD_none] at h
      omega
    | some code =>
      obtain ⟨n, hn, hcode⟩ := Option.bind_eq_some_iff.1 hstated
      obtain ⟨u, hu, hnumber⟩ := Option.bind_eq_some_iff.1 hn
      cases u with
      | number m =>
        obtain rfl := Option.some.inj hnumber
        exact ⟨m, by rw [Heap.member, hu, Option.getD_some], by rw [hcode, Option.getD_some]⟩
      | _ => cases hnumber
  | _ => simp [ofValue, text, json, plain] at h

namespace Routes

/-- How bytes are answered, by a table and with callbacks, in a world. -/
structure AnswersByEntries (routes : Routes) (callbacks : Callbacks) (raw : List UInt8)
    (w : World) : Prop where
  /-- What is no request is refused.  Neither the table nor the callbacks nor the world matter, and
  nothing is done but to log why. -/
  refused {fault : RequestFault} (hparse : Request.parse raw = .error fault) :
    ∃ entry, ∀ (routes : Routes) (callbacks : Callbacks) (w : World),
      routes.handle callbacks raw w = .ok .badRequest { w with log := w.log.push entry }
  /-- Nothing else is refused whatever the table is. -/
  refused_iff : (∀ (routes : Routes) (callbacks : Callbacks) (w : World),
      ∃ w', routes.handle callbacks raw w = .ok .badRequest w') ↔
    ∃ fault, Request.parse raw = .error fault
  /-- A request without an entry under either key is not found, and nothing is done. -/
  unknown {r : Request} (hparse : Request.parse raw = .ok r)
    (hmethod : routes.entry? w.heap (methodKey r) = none)
    (hpath : routes.entry? w.heap r.path = none) :
    routes.handle callbacks raw w = .ok .notFound w
  /-- An entry that names no handler is the answer itself.  The one for the method comes first. -/
  constant {r : Request} {v : Value} (hparse : Request.parse raw = .ok r)
    (hentry : (routes.entry? w.heap (methodKey r)).or (routes.entry? w.heap r.path) = some v)
    (hhandler : ∀ name, w.heap.member v "handler" ≠ .string name) :
    routes.handle callbacks raw w = .ok (Response.ofValue w.heap v) w
  /-- A handler is called once with the parts of the request, and what it returns is the answer,
  also where that names a handler again. -/
  dispatched {r : Request} {v : Value} {name : String} {cb : Callback}
    (hparse : Request.parse raw = .ok r)
    (hentry : (routes.entry? w.heap (methodKey r)).or (routes.entry? w.heap r.path) = some v)
    (hhandler : w.heap.member v "handler" = .string name)
    (hcallback : callbacks.get? name = some cb) (hkind : cb.kind = .web) :
    routes.handle callbacks raw w = (do
      let v ← cb.run [.string r.method.name, .string r.path, .string r.query, .string r.body,
        .string r.cookies]
      Action.inspect fun heap ↦ Response.ofValue heap v) w
  /-- A handler that is missing or takes other arguments answers as nil does. -/
  unbound {r : Request} {v : Value} {name : String} (hparse : Request.parse raw = .ok r)
    (hentry : (routes.entry? w.heap (methodKey r)).or (routes.entry? w.heap r.path) = some v)
    (hhandler : w.heap.member v "handler" = .string name)
    (hcallback : ∀ cb, callbacks.get? name = some cb → cb.kind ≠ .web) :
    ∃ entry, routes.handle callbacks raw w =
      .ok (Response.ofValue w.heap .nil) { w with log := w.log.push entry }
  /-- Besides these a response says that the request is at fault only if its value does. -/
  stated {heap : Heap} {v : Value}
    (h : (Response.ofValue heap v).status = 400 ∨ (Response.ofValue heap v).status = 404) :
    ∃ n, heap.member v "status" = .number n ∧
      Response.status? n = some (Response.ofValue heap v).status
  /-- Tables that agree on the two keys give the same answer. -/
  congr {r : Request} {routes' : Routes} (hparse : Request.parse raw = .ok r)
    (hmethod : routes.entry? w.heap (methodKey r) = routes'.entry? w.heap (methodKey r))
    (hpath : routes.entry? w.heap r.path = routes'.entry? w.heap r.path) :
    routes.handle callbacks raw w = routes'.handle callbacks raw w
  /-- The path holds no space. -/
  space_notMem_path {r : Request} (hparse : Request.parse raw = .ok r) : ' ' ∉ r.path.toList
  /-- Entries for other methods do not matter. -/
  isolated {r : Request} {routes' : Routes} (hparse : Request.parse raw = .ok r)
    (hentries : ∀ key, ¬IsForeignKey r.method key →
      routes.entry? w.heap key = routes'.entry? w.heap key) :
    routes.handle callbacks raw w = routes'.handle callbacks raw w

/-- In a world without objects the entries of no table are found. -/
theorem exists_handle_eq_notFound (callbacks : Callbacks) (hparse : Request.parse raw = .ok r) :
    ∃ routes w, handle routes callbacks raw w = .ok .notFound w :=
  ⟨⟨⟨0⟩⟩, .initial, handle_of_resolve_eq_none hparse rfl⟩

/-- Bytes are answered by the two entries of the request that they are. -/
theorem answersByEntries (routes : Routes) (callbacks : Callbacks) (raw : List UInt8) (w : World) :
    AnswersByEntries routes callbacks raw w where
  refused := handle_of_error
  refused_iff := by
    constructor
    · intro hrefused
      cases hparse : Request.parse raw with
      | error fault => exact ⟨fault, rfl⟩
      | ok r =>
        obtain ⟨routes, w, hunknown⟩ := exists_handle_eq_notFound .empty hparse
        obtain ⟨w', hrefused⟩ := hrefused routes .empty w
        rw [hunknown] at hrefused
        cases hrefused
    · rintro ⟨fault, hparse⟩ routes callbacks w
      obtain ⟨entry, hhandle⟩ := handle_of_error hparse
      exact ⟨_, hhandle routes callbacks w⟩
  unknown hparse hmethod hpath :=
    handle_of_resolve_eq_none hparse (Option.or_eq_none_iff.2 ⟨hmethod, hpath⟩)
  constant hparse hentry hhandler := by
    have hname := Option.eq_none_iff_forall_ne_some.2 fun name h ↦
      hhandler name (handlerName?_eq_some_iff.1 h)
    rw [handle_of_resolve hparse hentry, Action.bind_of_ok (answer_of_handlerName?_eq_none hname)]
    rfl
  dispatched hparse hentry hhandler hcallback hkind := by
    rw [handle_of_resolve hparse hentry]
    refine Action.bind_congr ?_
    rw [answer_of_handlerName? (handlerName?_eq_some_iff.2 hhandler),
      callbacks.call_of_get? hcallback hkind]
  unbound hparse hentry hhandler hcallback := by
    obtain ⟨entry, -, hcall⟩ := Callbacks.exists_call_eq_nil hcallback w
    have hname := handlerName?_eq_some_iff.2 hhandler
    refine ⟨entry, ?_⟩
    rw [handle_of_resolve hparse hentry,
      Action.bind_of_ok ((answer_of_handlerName? hname).trans (hcall _))]
    rfl
  stated := Response.exists_status_of_ofValue
  congr := handle_congr
  space_notMem_path := Request.space_notMem_path
  isolated hparse hentries :=
    handle_congr hparse (hentries _ fun h ↦ (h.ne hparse).1 rfl)
      (hentries _ fun h ↦ (h.ne hparse).2 rfl)

/-- The target holds an encoded space, a tab and a byte of no character. -/
example :
    let raw := Text.Utf8.encode "GET /a%20b\t".toList ++ [0xFF] ++ Text.Utf8.encode "?q x".toList
    (Request.parse raw).toOption.map (·.path.toList) = some "/a%20b\t\uFFFD".toList := by
  decide +kernel

end Routes

end ScriptHost.Http
