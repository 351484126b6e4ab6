import Mathlib.Data.List.Forall2
import ScriptHost.Proofs.Http.Framing
import ScriptHost.Proofs.Tree.Reaching

/-!
# A member and its own header line

Three members of a route become one header line each.  A text without full line ends in one of them
is seen by a client on that line and nowhere else, if the member that is sent does not lead back to
the route; a carriage return or a line feed alone does no harm.  Where it does lead back, or where
the whole route is sent, the text shows in the body as well, and in the lines that tell of what is
sent.

## Main definitions

* `Http.Field` : the members that become one header line.
* `Http.Response.sent?` : the member that is sent.
* `Http.AgreeUpTo` : two lines are one, or both have the same label.

## Main results

* `Http.Field.ofBytes?_put` : what a client sees of two routes that differ in one such member.
-/

namespace ScriptHost.Http

/-- The members of a route that become one header line each. -/
inductive Field where
  | redirect
  | contentType
  | cookie
deriving DecidableEq

namespace Field

/-- The name of the member. -/
def name : Field → String
  | redirect => "redirect"
  | contentType => "content_type"
  | cookie => "cookie"

/-- What the header line begins with. -/
def label : Field → String
  | redirect => "Location: "
  | contentType => "Content-Type: "
  | cookie => "Set-Cookie: "

/-- Writes a text into the member of a route. -/
def put (field : Field) (heap : Heap) (h : Handle) (text : String) : Heap :=
  heap.write h ((heap.get h).set field.name (.string text))

/-- A response with this text on the header line. -/
def fill (field : Field) (text : String) (r : Response) : Response :=
  match field with
  | redirect => { r with location := some text }
  | contentType => { r with contentType := text }
  | cookie => { r with setCookie := some text }

end Field

/-- The member that is sent, if not the whole route is. -/
def Response.sent? (o : Object Value) : Option Value :=
  (o.get? "redirect").or ((o.get? "body").or (o.get? "json"))

/-- Two lines are one, or both begin with the same one of some labels. -/
def AgreeUpTo (labels : List String) (line line' : String) : Prop :=
  line = line' ∨ ∃ label ∈ labels, label.toList <+: line.toList ∧ label.toList <+: line'.toList

/-! ### The responses of two routes -/

namespace Response

variable {heap heap' : Heap} {h : Handle}

/-- Two routes with the same members to send. -/
structure SendsAlike (o o' : Object Value) : Prop where
  redirect_eq : o'.get? "redirect" = o.get? "redirect"
  body_eq : o'.get? "body" = o.get? "body"
  json_eq : o'.get? "json" = o.get? "json"

/-- The members that are sent decide on all but the texts. -/
theorem baseOfObject_of_sendsAlike (ho : SendsAlike (heap.get h) (heap'.get h)) :
    baseOfObject heap' h = { baseOfObject heap h with
        body := (baseOfObject heap' h).body
        location := (baseOfObject heap' h).location } ∧
      (baseOfObject heap' h).location.isSome = (baseOfObject heap h).location.isSome := by
  unfold baseOfObject
  dsimp only
  rw [ho.redirect_eq, ho.body_eq, ho.json_eq]
  split <;> exact ⟨rfl, rfl⟩

/-- The texts of the member that is sent decide on the rest. -/
theorem baseOfObject_eq (ho : SendsAlike (heap.get h) (heap'.get h)) {v : Value}
    (hv : sent? (heap.get h) = some v) (hdisplay : heap'.display v = heap.display v)
    (hcompact : Json.compact heap' v = Json.compact heap v) :
    baseOfObject heap' h = baseOfObject heap h := by
  unfold sent? at hv
  unfold baseOfObject
  dsimp only
  rw [ho.redirect_eq, ho.body_eq, ho.json_eq]
  split
  · rename_i hredirect
    rw [hredirect] at hv
    obtain rfl := Option.some.inj hv
    rw [hdisplay]
  · rename_i hredirect hbody
    rw [hredirect, hbody] at hv
    obtain rfl := Option.some.inj hv
    rw [hdisplay]
  · rename_i hredirect hbody hjson
    rw [hredirect, hbody, hjson] at hv
    obtain rfl := Option.some.inj hv
    rw [hcompact]
  · rename_i hredirect hbody hjson
    rw [hredirect, hbody, hjson] at hv
    cases hv

/-- A redirection leaves nothing else to send. -/
theorem baseOfObject_redirect {target : Value}
    (htarget : (heap.get h).get? "redirect" = some target) :
    baseOfObject heap h = ⟨302, "text/plain", "", some (heap.display target), none, none⟩ := by
  unfold baseOfObject
  dsimp only
  rw [htarget]
  rfl

end Response

namespace Field

open Response

variable {field : Field} {heap : Heap} {h : Handle} {s t : String}

theorem get?_put (hh : h.index < heap.size) (field : Field) (text k : String) :
    ((field.put heap h text).get h).get? k =
      if k = field.name then some (.string text) else (heap.get h).get? k := by
  rw [put, Heap.get_write_self hh, Object.get?_set]

/-- Only a redirection bears on what is sent. -/
theorem sendsAlike_put (hh : h.index < heap.size) (hfield : field ≠ .redirect) (s t : String) :
    SendsAlike ((field.put heap h s).get h) ((field.put heap h t).get h) := by
  constructor <;> rw [get?_put hh, get?_put hh] <;> cases field <;> first | contradiction | rfl

/-- What is sent for a redirection. -/
theorem baseOfObject_put_redirect (hh : h.index < heap.size) (text : String) :
    baseOfObject (redirect.put heap h text) h = ⟨302, "text/plain", "", some text, none, none⟩ :=
  baseOfObject_redirect (get?_put hh redirect text "redirect")

/-- A text in a member bears on its own header line and on what is sent. -/
theorem ofObject_put (hh : h.index < heap.size) (hcookie : field = .cookie → t ≠ "") :
    ofObject (field.put heap h t) h = { field.fill t (ofObject (field.put heap h s) h) with
      body := (baseOfObject (field.put heap h t) h).body
      location := (baseOfObject (field.put heap h t) h).location } := by
  have hbase : (baseOfObject (field.put heap h t) h).status =
        (baseOfObject (field.put heap h s) h).status ∧
      (baseOfObject (field.put heap h t) h).contentType =
        (baseOfObject (field.put heap h s) h).contentType := by
    by_cases hfield : field = .redirect
    · subst hfield
      rw [baseOfObject_put_redirect hh, baseOfObject_put_redirect hh]
      exact ⟨rfl, rfl⟩
    · have hsame := (baseOfObject_of_sendsAlike (sendsAlike_put hh hfield s t)).1
      rw [hsame]
      exact ⟨rfl, rfl⟩
  have hother (k : String) (hk : k ≠ field.name) :
      ((field.put heap h t).get h).get? k = ((field.put heap h s).get h).get? k := by
    rw [get?_put hh, get?_put hh, if_neg hk, if_neg hk]
  have hown (text : String) :
      ((field.put heap h text).get h).get? field.name = some (.string text) := by
    rw [get?_put hh, if_pos rfl]
  unfold ofObject
  dsimp only
  rw [hbase.1, hbase.2]
  cases field with
  | redirect =>
    rw [hother "status" (by decide), hother "content_type" (by decide), hother "header" (by decide),
      hother "cookie" (by decide)]
    rfl
  | contentType =>
    have hown : ((contentType.put heap h t).get h).get? "content_type" = some (.string t) := hown t
    rw [hother "status" (by decide), hown, hother "header" (by decide), hother "cookie" (by decide)]
    rfl
  | cookie =>
    have hown : ((cookie.put heap h t).get h).get? "cookie" = some (.string t) := hown t
    have hempty : nonempty? t = some t := if_neg (by rw [String.isEmpty_iff]; exact hcookie rfl)
    rw [hother "status" (by decide), hother "content_type" (by decide), hother "header" (by decide),
      hown, Option.bind_some, Value.asString?, Option.bind_some, hempty]
    rfl

theorem fill_ofObject_put (hh : h.index < heap.size) (hcookie : field = .cookie → s ≠ "") :
    field.fill s (ofObject (field.put heap h s) h) = ofObject (field.put heap h s) h := by
  refine Eq.trans ?_ (ofObject_put (s := s) hh hcookie).symm
  cases field with
  | redirect =>
    rw [baseOfObject_put_redirect hh]
    exact congrArg (fun body ↦ { ofObject (redirect.put heap h s) h with
      body := body, location := some s })
      (congrArg Response.body (baseOfObject_put_redirect hh s))
  | _ => rfl

theorem isSome_location_put (hh : h.index < heap.size) (field : Field) (s t : String) :
    (ofObject (field.put heap h t) h).location.isSome =
      (ofObject (field.put heap h s) h).location.isSome := by
  change (baseOfObject _ h).location.isSome = (baseOfObject _ h).location.isSome
  by_cases hfield : field = .redirect
  · subst hfield
    rw [baseOfObject_put_redirect hh, baseOfObject_put_redirect hh]
    rfl
  · exact (baseOfObject_of_sendsAlike (sendsAlike_put hh hfield s t)).2

/-- A text that leads to nothing new leaves all but its own header line. -/
theorem ofObject_put_eq_fill (hh : h.index < heap.size) (hcookie : field = .cookie → t ≠ "")
    (hsent : field = .redirect ∨ ∃ v, sent? (heap.get h) = some v ∧ ¬heap.Reaches h v) :
    ofObject (field.put heap h t) h = field.fill t (ofObject (field.put heap h s) h) := by
  rw [ofObject_put (s := s) hh hcookie]
  by_cases hfield : field = .redirect
  · subst hfield
    change _ = { ofObject (redirect.put heap h s) h with location := some t }
    have hbody : (ofObject (redirect.put heap h s) h).body = "" :=
      congrArg Response.body (baseOfObject_put_redirect hh s)
    rw [baseOfObject_put_redirect hh, ← hbody]
    rfl
  · obtain ⟨v, hv, hreach⟩ := hsent.resolve_left hfield
    have hother (k : String) (hk : k ≠ field.name) :
        ((field.put heap h s).get h).get? k = (heap.get h).get? k := by
      rw [get?_put hh, if_neg hk]
    have hv : sent? ((field.put heap h s).get h) = some v := by
      rw [← hv, sent?, sent?]
      cases field with
      | redirect => exact absurd rfl hfield
      | _ => rw [hother "redirect" (by decide), hother "body" (by decide),
          hother "json" (by decide)]
    have hdisplay (text : String) : (field.put heap h text).display v = heap.display v :=
      heap.display_write hreach _
    have hcompact (text : String) :
        Json.compact (field.put heap h text) v = Json.compact heap v :=
      heap.compact_write hreach _
    rw [baseOfObject_eq (sendsAlike_put hh hfield s t) hv ((hdisplay t).trans (hdisplay s).symm)
      ((hcompact t).trans (hcompact s).symm)]
    cases field with
    | redirect => exact absurd rfl hfield
    | _ => rfl

end Field

/-! ### The lines of two responses -/

section Lines

variable {labels : List String} {r r' : Response}

theorem agreeUpTo_label {label : String} (h : label ∈ labels) (s t : String) :
    AgreeUpTo labels (label ++ s) (label ++ t) := by
  refine .inr ⟨label, h, ?_, ?_⟩ <;> rw [String.toList_append] <;> exact List.prefix_append _ _

theorem forall₂_agreeUpTo_refl (lines : List String) :
    List.Forall₂ (AgreeUpTo labels) lines lines :=
  List.forall₂_same.2 fun _ _ ↦ .inl rfl

/-- Two lines that may be missing, with the same label. -/
theorem forall₂_agreeUpTo_label {label : String} (h : label ∈ labels) {x y : Option String}
    (hxy : y.isSome = x.isSome) :
    List.Forall₂ (AgreeUpTo labels) (x.map (label ++ ·)).toList (y.map (label ++ ·)).toList := by
  cases x with
  | none =>
    obtain rfl : y = none := Option.not_isSome_iff_eq_none.1 (by rw [hxy]; exact Bool.false_ne_true)
    exact .nil
  | some s =>
    obtain ⟨t, rfl⟩ := Option.isSome_iff_exists.1 hxy
    exact .cons (agreeUpTo_label h s t) .nil

/-- A text in a member, and what is sent, bear on a header line each and on the length. -/
theorem Field.forall₂_headLines (field : Field) {s t : String} {body : String}
    {location : Option String} (hr : r = field.fill s r)
    (hr' : r' = { field.fill t r with body := body, location := location })
    (hlocation : r'.location.isSome = r.location.isSome) :
    List.Forall₂ (AgreeUpTo [field.label, "Content-Length: ", "Location: "]) r.headLines
      r'.headLines := by
  have hlength : List.Forall₂ (AgreeUpTo [field.label, "Content-Length: ", "Location: "])
      ["Content-Length: " ++ Nat.repr (Text.Utf8.encode r.body.toList).length]
      ["Content-Length: " ++ Nat.repr (Text.Utf8.encode r'.body.toList).length] :=
    .cons (agreeUpTo_label (by simp) _ _) .nil
  have hlocation : List.Forall₂ (AgreeUpTo [field.label, "Content-Length: ", "Location: "])
      (r.location.map ("Location: " ++ ·)).toList (r'.location.map ("Location: " ++ ·)).toList :=
    forall₂_agreeUpTo_label (by simp) hlocation
  have hstatus : r'.statusLine = r.statusLine := by
    rw [hr']
    cases field <;> rfl
  have hextra : r'.headerLine? = r.headerLine? := by
    rw [hr']
    cases field <;> rfl
  have htype : AgreeUpTo [field.label, "Content-Length: ", "Location: "]
      ("Content-Type: " ++ r.contentType) ("Content-Type: " ++ r'.contentType) := by
    cases field with
    | contentType => exact agreeUpTo_label (by simp [label]) _ _
    | _ => exact .inl (by rw [hr']; rfl)
  have hcookie : List.Forall₂ (AgreeUpTo [field.label, "Content-Length: ", "Location: "])
      (r.setCookie.map ("Set-Cookie: " ++ ·)).toList
      (r'.setCookie.map ("Set-Cookie: " ++ ·)).toList := by
    cases field with
    | cookie =>
      refine forall₂_agreeUpTo_label (by simp [label]) ?_
      rw [hr, hr']
      rfl
    | _ =>
      rw [hr']
      exact forall₂_agreeUpTo_refl _
  rw [Response.headLines_eq, Response.headLines_eq, hstatus, hextra]
  refine .cons (.inl rfl) (List.rel_append (.cons htype (List.rel_append hlength hlocation)) ?_)
  exact List.rel_append (forall₂_agreeUpTo_refl _)
    (List.rel_append hcookie (forall₂_agreeUpTo_refl _))

/-- The line of a member within the head. -/
theorem Field.exists_headLines_fill (field : Field) (r : Response) :
    ∃ before after, ∀ text, (field.fill text r).headLines =
      r.statusLine :: (before ++ (field.label ++ text) :: after) := by
  cases field with
  | redirect =>
    refine ⟨["Content-Type: " ++ r.contentType,
      "Content-Length: " ++ Nat.repr (Text.Utf8.encode r.body.toList).length],
      r.headerLine?.toList ++ r.linesBehind, fun text ↦ ?_⟩
    rw [Response.headLines_eq]
    rfl
  | contentType =>
    refine ⟨[], ("Content-Length: " ++ Nat.repr (Text.Utf8.encode r.body.toList).length) ::
      ((r.location.map ("Location: " ++ ·)).toList ++
        (r.headerLine?.toList ++ r.linesBehind)), fun text ↦ ?_⟩
    rw [Response.headLines_eq]
    rfl
  | cookie =>
    refine ⟨r.linesBefore ++ r.headerLine?.toList, ["Connection: close"], fun text ↦ ?_⟩
    rw [Response.headLines_eq, List.append_assoc]
    rfl

end Lines

/-! ### What a client sees -/

theorem endsInLineEnds_of_isLine {s : String} (h : IsLine s) : EndsInLineEnds s :=
  ⟨s.toList, [], (List.append_nil _).symm, h, List.forall_mem_nil _⟩

/-- What a client sees of an object without full line ends. -/
theorem Response.ofBytes?_ofObject {heap : Heap} {h : Handle}
    (hplain : HasPlainMembers heap (.object h))
    (hheader : ∀ s, heap.member (.object h) "header" = .string s → IsLine s) :
    Reply.ofBytes? (ofObject heap h).bytes =
      some ⟨(ofObject heap h).headLines, Text.Utf8.encode (ofObject heap h).body.toList⟩ := by
  have hline := isLinewise_ofValue hplain fun s hs ↦ endsInLineEnds_of_isLine (hheader s hs)
  have htext : (ofValue heap (.object h)).HasHeaderText := by
    refine hasHeaderText_ofValue_iff.2 fun s hs hne ↦ ?_
    obtain ⟨c, hc⟩ := List.exists_mem_of_ne_nil s.toList (mt String.toList_eq_nil_iff.1 hne)
    exact ⟨c, hc, hheader s hs c hc⟩
  rw [ofValue] at hline htext
  exact ofBytes?_bytes hline htext

namespace Field

open Response

/-- The first line does not depend on the member. -/
theorem head?_headLines_put {field : Field} {heap : Heap} {h : Handle} {s t : String}
    (hh : h.index < heap.size) (hcookie : field = .cookie → t ≠ "") :
    (ofObject (field.put heap h t) h).headLines.head? =
      (ofObject (field.put heap h s) h).headLines.head? := by
  have hstatus (r : Response) (body : String) (location : Option String) :
      statusLine { field.fill t r with body := body, location := location } = r.statusLine := by
    cases field <;> rfl
  rw [headLines_eq, headLines_eq, List.head?_cons, List.head?_cons,
    ofObject_put (s := s) hh hcookie, hstatus]

/-- Where the line of a member stands in the heads of two routes. -/
theorem exists_headLines_put {field : Field} {heap : Heap} {h : Handle} {s t : String}
    (hh : h.index < heap.size) (hcookie : field = .cookie → s ≠ "" ∧ t ≠ "")
    (hsent : field = .redirect ∨ ∃ v, sent? (heap.get h) = some v ∧ ¬heap.Reaches h v) :
    ∃ status before after,
      (ofObject (field.put heap h s) h).headLines =
        status :: (before ++ (field.label ++ s) :: after) ∧
      (ofObject (field.put heap h t) h).headLines =
        status :: (before ++ (field.label ++ t) :: after) ∧
      (ofObject (field.put heap h t) h).body = (ofObject (field.put heap h s) h).body := by
  have hown := fill_ofObject_put hh fun heq ↦ (hcookie heq).1
  have hother := ofObject_put_eq_fill (s := s) hh (fun heq ↦ (hcookie heq).2) hsent
  obtain ⟨before, after, hfill⟩ := field.exists_headLines_fill (ofObject (field.put heap h s) h)
  refine ⟨(ofObject (field.put heap h s) h).statusLine, before, after, ?_, ?_, ?_⟩
  · exact (congrArg headLines hown.symm).trans (hfill s)
  · exact (congrArg headLines hother).trans (hfill t)
  · rw [hother]
    cases field <;> rfl

/-- A client sees a text without full line ends in a member on its own header line alone, if the
member that is sent is there and does not lead back to the route.  In any case it sees the same
status line and as many lines, of which all but that one and those that tell of what is sent are
the same. -/
theorem ofBytes?_put (field : Field) {heap : Heap} {h : Handle} {s t : String}
    (hh : h.index < heap.size) (hcookie : field = .cookie → s ≠ "" ∧ t ≠ "")
    (hs : HasPlainMembers (field.put heap h s) (.object h))
    (ht : HasPlainMembers (field.put heap h t) (.object h))
    (hheader : ∀ u, heap.member (.object h) "header" = .string u → IsLine u) :
    ∃ a b, Reply.ofBytes? (Response.ofValue (field.put heap h s) (.object h)).bytes = some a ∧
      Reply.ofBytes? (Response.ofValue (field.put heap h t) (.object h)).bytes = some b ∧
      b.lines.head? = a.lines.head? ∧
      List.Forall₂ (AgreeUpTo [field.label, "Content-Length: ", "Location: "]) a.lines b.lines ∧
      (field = .redirect ∨
          (∃ v, Response.sent? (heap.get h) = some v ∧ ¬heap.Reaches h v) →
        ∃ status before after body,
          a = ⟨status :: (before ++ (field.label ++ s) :: after), body⟩ ∧
          b = ⟨status :: (before ++ (field.label ++ t) :: after), body⟩) := by
  have hname : "header" ≠ field.name := by cases field <;> decide
  have hheader (text : String) (u : String)
      (hu : (field.put heap h text).member (.object h) "header" = .string u) : IsLine u := by
    rw [Heap.member, get?_put hh, if_neg hname] at hu
    exact hheader u hu
  have hown := (fill_ofObject_put hh fun heq ↦ (hcookie heq).1).symm
  have hother := ofObject_put (s := s) hh fun heq ↦ (hcookie heq).2
  rw [ofValue, ofValue]
  refine ⟨_, _, ofBytes?_ofObject hs (hheader s), ofBytes?_ofObject ht (hheader t),
    head?_headLines_put hh fun heq ↦ (hcookie heq).2,
    field.forall₂_headLines hown hother (isSome_location_put hh field s t), fun hsent ↦ ?_⟩
  obtain ⟨status, before, after, hs, ht, hbody⟩ := exists_headLines_put hh hcookie hsent
  exact ⟨status, before, after, Text.Utf8.encode (ofObject (field.put heap h s) h).body.toList,
    congrArg (Reply.mk · _) hs, congrArg₂ Reply.mk ht (by rw [hbody])⟩

/-- Two cookies of a route with a body. -/
theorem ofBytes?_put_cookie :
    let heap : Heap := ⟨#[(Object.empty .map).set "body" (.string "x")]⟩
    let h : Handle := ⟨0⟩
    h.index < heap.size ∧ (cookie = .cookie → "a" ≠ "" ∧ "b" ≠ "") ∧
      HasPlainMembers (cookie.put heap h "a") (.object h) ∧
      HasPlainMembers (cookie.put heap h "b") (.object h) ∧
      (∀ u, heap.member (.object h) "header" = .string u → IsLine u) ∧
      (∃ v, Response.sent? (heap.get h) = some v ∧ ¬heap.Reaches h v) ∧
      ∃ status before after body,
        Reply.ofBytes? (Response.ofValue (cookie.put heap h "a") (.object h)).bytes =
          some ⟨status :: (before ++ "Set-Cookie: a" :: after), body⟩ ∧
        Reply.ofBytes? (Response.ofValue (cookie.put heap h "b") (.object h)).bytes =
          some ⟨status :: (before ++ "Set-Cookie: b" :: after), body⟩ := by
  intro heap h
  have hh : h.index < heap.size := by decide
  have hplain (text : String) (htext : IsUnbroken text) :
      HasPlainMembers (cookie.put heap h text) (.object h) := by
    refine ⟨fun s hs ↦ ?_, ?_, fun s hs ↦ ?_⟩ <;> rw [Heap.member, get?_put hh] at *
    · cases hs
    · exact (by decide : IsLine "nil").isUnbroken
    · cases hs
      exact htext
  have hheader : ∀ u, heap.member (.object h) "header" = .string u → IsLine u := fun u hu ↦ by
    cases hu
  have hsent : ∃ v, Response.sent? (heap.get h) = some v ∧ ¬heap.Reaches h v :=
    ⟨.string "x", rfl, fun hreach ↦ by cases hreach⟩
  have ha := hplain "a" (by decide : IsLine "a").isUnbroken
  have hb := hplain "b" (by decide : IsLine "b").isUnbroken
  refine ⟨hh, by decide, ha, hb, hheader, hsent, ?_⟩
  obtain ⟨a, b, hbytes, hbytes', -, -, hown⟩ :=
    ofBytes?_put .cookie hh (by decide) ha hb hheader
  obtain ⟨status, before, after, body, rfl, rfl⟩ := hown (.inr hsent)
  exact ⟨status, before, after, body, hbytes, hbytes'⟩

/-- A cookie is seen in the body where the whole route is sent, and on a line of another name where
it holds a full line end. -/
theorem ofBytes?_put_cookie_ne :
    let whole : Heap := ⟨#[Object.empty .map]⟩
    let page : Heap := ⟨#[(Object.empty .map).set "body" (.string "x")]⟩
    let seen (heap : Heap) (cookie : String) : Option Reply :=
      Reply.ofBytes? (Response.ofValue (Field.cookie.put heap ⟨0⟩ cookie) (.object ⟨0⟩)).bytes
    (seen whole "a").map Reply.body = some (Text.Utf8.encode "\x7b\"cookie\":\"a\"\x7d".toList) ∧
      (seen whole "b").map Reply.body = some (Text.Utf8.encode "\x7b\"cookie\":\"b\"\x7d".toList) ∧
      (seen whole "b").map Reply.body ≠ (seen whole "a").map Reply.body ∧
      (seen page "a").map (fun reply ↦ reply.lines.drop 3) =
        some ["Set-Cookie: a", "Connection: close"] ∧
      (seen page "a\r\nX: 1").map (fun reply ↦ reply.lines.drop 3) =
        some ["Set-Cookie: a", "X: 1", "Connection: close"] := by
  decide +kernel

end Field

end ScriptHost.Http
