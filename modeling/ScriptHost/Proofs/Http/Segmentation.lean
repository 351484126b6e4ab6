import ScriptHost.Proofs.Http.Buffering
import ScriptHost.Proofs.Text.Utf8

/-!
# How the cuts of a stream show

All that a request has before its body is known once the header block is buffered.  How the stream
is cut shows in the body alone, and only if reading waits for fewer bytes of it than the request
declares, and those that it does not wait for matter to the text of the body.

## Main definitions

* `Http.bodyWithin` : the body that some bytes hold behind the header block.
* `Http.WaitsForBody` : reading waits for the body that the request declares.
* `Http.answer` : what becomes of a stream that is cut into pieces.

## Main results

* `Http.parse_take` : the request in a buffer that holds the header block.
* `Http.answer_eq_iff` : when the cuts do not show.
-/

namespace ScriptHost.Http

/-! ### The request in a part of the stream -/

theorem takeWhile_append_of_mem {α : Type} {p : α → Bool} {a : α} {xs : List α} (ha : a ∈ xs)
    (hp : p a = false) (ys : List α) : (xs ++ ys).takeWhile p = xs.takeWhile p := by
  induction xs with
  | nil => exact absurd ha List.not_mem_nil
  | cons x xs ih =>
    rw [List.cons_append, List.takeWhile_cons, List.takeWhile_cons]
    split_ifs with hx
    · have hne : a ≠ x := by
        rintro rfl
        rw [hp] at hx
        cases hx
      rw [ih ((List.mem_cons.1 ha).resolve_left hne)]
    · rfl

theorem takeWhile_bne_append {α : Type} [BEq α] [LawfulBEq α] {a : α} {xs : List α} (ha : a ∉ xs)
    (ys : List α) : (xs ++ a :: ys).takeWhile (· != a) = xs := by
  have hall : ∀ x ∈ xs, (x != a) = true := fun x hx ↦ bne_iff_ne.2 fun heq ↦ ha (heq ▸ hx)
  have hend : ¬(a != a) = true := by simp
  rw [List.takeWhile_append_of_pos hall, List.takeWhile_cons_of_neg (p := (· != a)) hend,
    List.append_nil]

/-- The header block has a line end. -/
theorem lineFeed_mem {bytes : List UInt8} {e : Nat} (h : headerEnd? bytes = some e) :
    lineFeed ∈ bytes := by
  have hmem : lineFeed ∈ bytes.drop e := by
    rw [drop_of_headerEnd? h]
    exact List.mem_cons_of_mem _ List.mem_cons_self
  exact List.mem_of_mem_drop hmem

section Append

variable {head : List UInt8} {e : Nat}

theorem takeWhile_lineFeed_append (h : headerEnd? head = some e) (tail : List UInt8) :
    (head ++ tail).takeWhile (· != lineFeed) = head.takeWhile (· != lineFeed) :=
  takeWhile_append_of_mem (p := (· != lineFeed)) (lineFeed_mem h) (bne_self_eq_false lineFeed) tail

theorem firstLine_append (h : headerEnd? head = some e) (tail : List UInt8) :
    firstLine (head ++ tail) = firstLine head := by
  unfold firstLine
  rw [takeWhile_lineFeed_append h]

theorem headBytes_append (h : headerEnd? head = some e) (tail : List UInt8) :
    headBytes (head ++ tail) = headBytes head := by
  have hle := add_four_le_of_headerEnd? h
  have htake : (head ++ tail).take e = head.take e :=
    List.take_append_of_le_length (by omega)
  unfold headBytes
  rw [takeWhile_lineFeed_append h, headerEnd?_append h, h]
  exact congrArg (List.drop _) htake

/-- What follows the header block bears on the body alone. -/
theorem parse_append (h : headerEnd? head = some e) (tail : List UInt8) :
    Request.parse (head ++ tail) = (Request.parse head).map fun r ↦
      { r with body := bodyOf (head ++ tail) r.headers } := by
  have hne : head ≠ [] := by
    rintro rfl
    cases h
  have hempty : head.isEmpty = false := by simpa using hne
  have hempty' : (head ++ tail).isEmpty = false := by simp [hne]
  unfold Request.parse
  rw [firstLine_append h, headBytes_append h, hempty, hempty']
  simp only [Bool.false_eq_true, if_false]
  cases Method.ofLine? (firstLine head) with
  | none => rfl
  | some method =>
    dsimp only
    split_ifs
    · rfl
    · rfl

end Append

/-- The body that these bytes hold behind the header block. -/
def bodyWithin (bytes : List UInt8) (r : Request) : String :=
  match r.contentLength? with
  | some length => textOf (bytes.take length)
  | none => ""

section Take

variable {seen : List UInt8} {e : Nat} {r : Request}

theorem bodyOf_take (h : headerEnd? seen = some e) (n : Nat) (r : Request) :
    bodyOf (seen.take (e + 4 + n)) r.headers = bodyWithin ((seen.drop (e + 4)).take n) r := by
  unfold bodyOf bodyWithin Request.contentLength?
  rw [headerEnd?_take h (Nat.le_add_right _ n)]
  cases contentLengthIn? r.headers with
  | none => rfl
  | some length =>
    dsimp only
    rw [List.drop_take, Nat.add_sub_cancel_left]

/-- The request in a buffer that holds the header block. -/
theorem parse_take (h : headerEnd? seen = some e) (n : Nat) :
    Request.parse (seen.take (e + 4 + n)) = (Request.parse (seen.take (e + 4))).map fun r ↦
      { r with body := bodyWithin ((seen.drop (e + 4)).take n) r } := by
  have hhead := headerEnd?_take h (Nat.le_refl (e + 4))
  rw [List.take_add, parse_append hhead, ← List.take_add]
  cases Request.parse (seen.take (e + 4)) with
  | error fault => rfl
  | ok r => exact congrArg (fun body ↦ Except.ok { r with body }) (bodyOf_take h n r)

/-- The request in all of the stream, which has the header block. -/
theorem parse_seen (h : headerEnd? seen = some e) :
    Request.parse seen = (Request.parse (seen.take (e + 4))).map fun r ↦
      { r with body := bodyWithin (seen.drop (e + 4)) r } := by
  have htake := parse_take h (seen.drop (e + 4)).length
  have hle := add_four_le_of_headerEnd? h
  rwa [List.take_length, List.length_drop, Nat.add_sub_cancel' hle, List.take_length] at htake

/-- The request in a part of the stream is that in all of it, up to the body. -/
theorem parse_take_eq_map (h : headerEnd? seen = some e) (n : Nat) :
    Request.parse (seen.take (e + 4 + n)) = (Request.parse seen).map fun r ↦
      { r with body := bodyWithin ((seen.drop (e + 4)).take n) r } := by
  rw [parse_take h, parse_seen h]
  cases Request.parse (seen.take (e + 4)) with
  | error fault => rfl
  | ok r => rfl

/-- The body of the request in all of the stream. -/
theorem body_eq_bodyWithin (h : headerEnd? seen = some e) (hr : Request.parse seen = .ok r) :
    r.body = bodyWithin (seen.drop (e + 4)) r := by
  rw [parse_seen h] at hr
  cases hhead : Request.parse (seen.take (e + 4)) with
  | error fault =>
    rw [hhead] at hr
    cases hr
  | ok r' =>
    rw [hhead] at hr
    cases hr
    rfl

end Take

/-! ### Waiting for the body -/

/-- Reading waits for the body that the request declares, or for so much of it that the rest does
not matter to its text. -/
def WaitsForBody (seen : List UInt8) : Prop :=
  ∀ e r length, headerEnd? seen = some e → Request.parse seen = .ok r →
    r.contentLength? = some length →
      textOf ((seen.drop (e + 4)).take (min (declaredLength (seen.take e)) length)) =
        textOf ((seen.drop (e + 4)).take length)

/-- What becomes of a stream that arrives in pieces. -/
def answer (limit : Nat) (pieces : List (List UInt8)) :
    Except ReadFault (Except RequestFault Request) :=
  (receive limit (deliveries pieces)).map fun r ↦ Request.parse r.buffer

theorem decode_of_textOf {u v : List UInt8} (h : textOf u = textOf v) :
    Text.Utf8.decode u = Text.Utf8.decode v := String.ofList_injective h

/-- A part of the body that holds what is waited for has the text of the body. -/
theorem textOf_take_take {bytes : List UInt8} {wanted length n : Nat}
    (h : textOf (bytes.take (min wanted length)) = textOf (bytes.take length))
    (hn : wanted ≤ n ∨ bytes.length ≤ n) :
    textOf ((bytes.take n).take length) = textOf (bytes.take length) := by
  rw [List.take_take]
  rcases Nat.le_total length n with hle | hle
  · rw [Nat.min_eq_left hle]
  rw [Nat.min_eq_right hle]
  rcases hn with hn | hn
  · obtain ⟨j, rfl⟩ := Nat.exists_eq_add_of_le hn
    obtain ⟨k, rfl⟩ := Nat.exists_eq_add_of_le hle
    have hall : bytes.take (wanted + j + k) =
        bytes.take wanted ++ (bytes.drop wanted).take (j + k) := by
      rw [Nat.add_assoc, List.take_add]
    rw [Nat.min_eq_left (by omega), hall] at h
    have htake := Text.Utf8.decode_append_take (decode_of_textOf h).symm j
    rw [List.take_take, Nat.min_eq_left (Nat.le_add_right j k), ← List.take_add] at htake
    rw [hall]
    exact congrArg String.ofList (htake.trans (decode_of_textOf h))
  · rw [List.take_of_length_le hn, List.take_of_length_le (Nat.le_trans hn hle)]

/-- A request is the same in every buffer at which reading may stop. -/
theorem WaitsForBody.parse_eq {seen buffer : List UInt8} {limit : Nat} (h : WaitsForBody seen)
    (hseen : seen.length ≤ limit) (hbuffer : Buffered limit seen buffer) :
    Request.parse buffer = Request.parse seen := by
  cases he : headerEnd? seen with
  | none => rw [hbuffer.eq_seen hseen he]
  | some e =>
    obtain ⟨n, rfl, hn⟩ := hbuffer.exists_take hseen he
    rw [parse_take_eq_map he]
    cases hr : Request.parse seen with
    | error fault => rfl
    | ok r =>
      have hbody := body_eq_bodyWithin he hr
      have hwithin : bodyWithin ((seen.drop (e + 4)).take n) r = r.body := by
        rw [hbody]
        unfold bodyWithin
        cases hlength : r.contentLength? with
        | none => rfl
        | some length =>
          refine textOf_take_take (h e r length he hr hlength) (hn.imp_right fun hle ↦ ?_)
          rw [List.length_drop]
          omega
      exact congrArg (fun body ↦ Except.ok { r with body }) hwithin

/-- Reading may stop once it has what it waits for. -/
theorem waitsForBody_of_answer_eq {stream : List UInt8} {limit : Nat}
    (hlimit : limit ≤ maxBufferBytes)
    (h : ∀ pieces pieces', IsCutting stream pieces → IsCutting stream pieces' →
      answer limit pieces = answer limit pieces') : WaitsForBody (stream.take limit) := by
  intro e r length he hr hlength
  have hle := add_four_le_of_headerEnd? he
  generalize hbytes : (stream.take limit).drop (e + 4) = bytes
  have hcount : (stream.take limit).length = e + 4 + bytes.length := by
    rw [← hbytes, List.length_drop]
    omega
  generalize hwanted : declaredLength ((stream.take limit).take e) = wanted
  rcases Nat.lt_or_ge bytes.length wanted with hlt | hge
  · rcases Nat.le_total length wanted with hle | hle
    · rw [Nat.min_eq_right hle]
    · rw [Nat.min_eq_left hle, List.take_of_length_le (Nat.le_of_lt hlt),
        List.take_of_length_le (by omega)]
  · have hparse (n : Nat) (hn : wanted ≤ n) (hle : n ≤ bytes.length) : ∃ pieces,
        IsCutting stream pieces ∧
          answer limit pieces = .ok (.ok { r with body := bodyWithin (bytes.take n) r }) := by
      rw [← hwanted] at hn
      obtain ⟨pieces, received, hcutting, hreceive, hbuffer⟩ :=
        exists_cutting hlimit he hn (by omega)
      refine ⟨pieces, hcutting, ?_⟩
      rw [answer, hreceive, Except.map, hbuffer, parse_take_eq_map he, hr, hbytes]
      rfl
    obtain ⟨first, hfirst, hanswer⟩ := hparse wanted (Nat.le_refl _) hge
    obtain ⟨all, hall, hanswer'⟩ := hparse bytes.length hge (Nat.le_refl _)
    have heq := (hanswer.symm.trans (h first all hfirst hall)).trans hanswer'
    have hbody := congrArg Request.body (Except.ok.inj (Except.ok.inj heq))
    change bodyWithin _ r = bodyWithin _ r at hbody
    unfold bodyWithin at hbody
    rw [hlength] at hbody
    dsimp only at hbody
    rwa [List.take_take, Nat.min_comm, List.take_length] at hbody

/-- The cuts of a stream do not show exactly if reading waits for the body that the request
declares, or if there is no buffer of the size that was asked for. -/
theorem answer_eq_iff (stream : List UInt8) (limit : Nat) :
    (∀ pieces pieces', IsCutting stream pieces → IsCutting stream pieces' →
      answer limit pieces = answer limit pieces') ↔
        (limit ≤ maxBufferBytes → WaitsForBody (stream.take limit)) := by
  constructor
  · exact fun h hlimit ↦ waitsForBody_of_answer_eq hlimit h
  · intro h pieces pieces' hcutting hcutting'
    by_cases hlimit : limit ≤ maxBufferBytes
    · obtain ⟨r, hr, hbuffer⟩ := exists_receive hcutting hlimit
      obtain ⟨r', hr', hbuffer'⟩ := exists_receive hcutting' hlimit
      have hseen : (stream.take limit).length ≤ limit := List.length_take_le _ _
      have hparse := (h hlimit).parse_eq hseen hbuffer
      have hparse' := (h hlimit).parse_eq hseen hbuffer'
      rw [answer, answer, hr, hr', Except.map, Except.map, hparse, hparse']
    · rw [answer, answer, receive, receive, if_neg hlimit, if_neg hlimit]

/-- A header line that follows a bare line feed declares the length to the parser and not to the
reader, so a cut between the header block and the body loses the body. -/
theorem answer_ne_of_bare_lineFeed :
    let head := Text.Utf8.encode "POST /p HTTP/1.1\nContent-Length: 5\r\n\r\n".toList
    let body := Text.Utf8.encode "hello".toList
    IsCutting (head ++ body) [head ++ body] ∧ IsCutting (head ++ body) [head, body] ∧
      declaredLength (head.take 34) = 0 ∧
      contentLengthIn? (readHeaders (Text.Utf8.decode (headBytes head))) = some 5 ∧
      answer 1024 [head ++ body] ≠ answer 1024 [head, body] := by
  refine ⟨⟨?_, ?_⟩, ⟨?_, ?_⟩, ?_⟩
  · decide +kernel
  · decide +kernel
  · decide +kernel
  · decide +kernel
  · decide +kernel

end ScriptHost.Http
