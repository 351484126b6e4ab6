import ScriptHost.Http.Response
import ScriptHost.Proofs.Http.Message

/-!
# Where the head of a response ends

A client takes the bytes of a response apart at the first blank line and the head at full line ends.
It sees the lines and the body that were meant if no line of the head is empty or holds a full line
end, a carriage return with a line feed behind it.
The header of a route that is written as it is loses the line ends behind it only after it was
looked at for being empty: one that consists of them alone leaves an empty line in the head, where
the client sees the body begin.

## Main definitions

* `Http.Reply` : what a client sees.
* `Http.Reply.Frames` : a client sees the response that was meant.
* `Http.IsLine`, `Http.IsUnbroken` : texts without line ends, and without full line ends.
* `Http.Response.IsLinewise` : no part of the head holds a full line end.
* `Http.HasPlainMembers` : no member of a route that is written on a line of its own holds a full
  line end.

## Main results

* `Http.Reply.ofBytes?_joinLines` : what a client sees of lines and a body.
* `Http.Response.frames_ofValue_iff` : for which headers a client sees what was meant.
-/

namespace ScriptHost.Http

/-- What a client sees of a response. -/
structure Reply where
  /-- The lines of the head. -/
  lines : List String
  body : List UInt8
deriving DecidableEq

/-- What a client sees in some bytes, of which the head ends at the first blank line. -/
def Reply.ofBytes? (bytes : List UInt8) : Option Reply :=
  (headerEnd? bytes).map fun stop ↦
    ⟨(Text.splitPair '\r' '\n' (Text.Utf8.decode (bytes.take stop))).map String.ofList,
      bytes.drop (stop + 4)⟩

/-- A text without line ends. -/
def IsLine (s : String) : Prop := ∀ c ∈ s.toList, c ≠ '\r' ∧ c ≠ '\n'

instance (s : String) : Decidable (IsLine s) :=
  List.decidableBAll (fun c ↦ c ≠ '\r' ∧ c ≠ '\n') s.toList

/-- A text without full line ends: no carriage return in it has a line feed behind it. -/
def IsUnbroken (s : String) : Prop := ¬['\r', '\n'] <:+: s.toList

/-- What a client sees is the response that was meant: its body, a status of three digits, the
length of the body, and no more lines than the response has headers, none of them empty. -/
structure Reply.Frames (reply : Reply) (r : Response) : Prop where
  body_eq : reply.body = Text.Utf8.encode r.body.toList
  lines_eq : reply.lines =
    ["HTTP/1.1 " ++ Nat.repr r.status ++ " " ++ reasonPhrase r.status,
      "Content-Type: " ++ r.contentType,
      "Content-Length: " ++ Nat.repr reply.body.length] ++
    (r.location.map ("Location: " ++ ·)).toList ++
    (r.extraHeader.map fun header ↦ String.ofList
      (Text.trimEndWhile (fun c ↦ c == '\r' || c == '\n') header.toList)).toList ++
    (r.setCookie.map ("Set-Cookie: " ++ ·)).toList ++
    ["Connection: close"]
  ne_empty : ∀ line ∈ reply.lines, line ≠ ""
  le_status : 100 ≤ r.status
  status_lt : r.status < 1000

/-! ### Lines -/

theorem isLine_append {s t : String} (hs : IsLine s) (ht : IsLine t) : IsLine (s ++ t) := by
  intro c hc
  rw [String.toList_append] at hc
  exact (List.mem_append.1 hc).elim (hs c) (ht c)

/-- The digits of a number are no line end. -/
theorem isLine_repr (n : Nat) : IsLine (Nat.repr n) := by
  intro c hc
  rw [Nat.toList_repr] at hc
  have hdigit : c.isDigit = true := Nat.isDigit_of_mem_toDigits (by decide) (by decide) hc
  constructor <;> rintro rfl <;> exact absurd hdigit (by decide)

theorem isLine_reasonPhrase (status : Nat) : IsLine (reasonPhrase status) := by
  unfold reasonPhrase
  split <;> decide

theorem IsLine.isUnbroken {s : String} (h : IsLine s) : IsUnbroken s :=
  Text.pair_notInfix_of_notMem fun hmem ↦ (h '\n' hmem).2 rfl

/-- A text behind a label has no full line end that it does not have by itself. -/
theorem isUnbroken_append {label s : String} (hlabel : IsLine label) (hs : IsUnbroken s) :
    IsUnbroken (label ++ s) := by
  rw [IsUnbroken, String.toList_append]
  exact Text.pair_notInfix_append (fun hmem ↦ (hlabel '\r' hmem).1 rfl) hs

theorem notInfix_encode_of_isUnbroken {s : String} (h : IsUnbroken s) :
    ¬[carriageReturn, lineFeed] <:+: Text.Utf8.encode s.toList := fun hinfix ↦
  h (Text.Utf8.pair_isInfix_of_encode (by decide) (by decide) hinfix)

/-- What a client sees of lines and a body. -/
theorem Reply.ofBytes?_joinLines {first : String} {rest : List String} (hfirst : IsUnbroken first)
    (hrest : ∀ line ∈ rest, line ≠ "" ∧ IsUnbroken line) (body : List UInt8) :
    Reply.ofBytes? (joinLines (Text.Utf8.encode first.toList)
      (rest.map fun line ↦ Text.Utf8.encode line.toList) ++
        carriageReturn :: lineFeed :: carriageReturn :: lineFeed :: body) =
      some ⟨first :: rest, body⟩ := by
  have hlines : ∀ line ∈ rest.map fun line ↦ Text.Utf8.encode line.toList,
      line ≠ [] ∧ ¬[carriageReturn, lineFeed] <:+: line := by
    intro line hline
    obtain ⟨s, hs, rfl⟩ := List.mem_map.1 hline
    obtain ⟨hne, hs⟩ := hrest s hs
    exact ⟨Text.Utf8.encode_ne_nil fun hnil ↦ hne (String.toList_eq_nil_iff.1 hnil),
      notInfix_encode_of_isUnbroken hs⟩
  have htexts : ∀ line ∈ rest.map fun line ↦ Text.Utf8.encode line.toList,
      ¬['\r', '\n'] <:+: Text.Utf8.decode line := by
    intro line hline
    obtain ⟨s, hs, rfl⟩ := List.mem_map.1 hline
    rw [Text.Utf8.decode_encode]
    exact (hrest s hs).2
  have hend := headerEnd?_joinLines (notInfix_encode_of_isUnbroken hfirst) hlines body
  have htext : ¬['\r', '\n'] <:+: Text.Utf8.decode (Text.Utf8.encode first.toList) := by
    rw [Text.Utf8.decode_encode]
    exact hfirst
  have hsplit := splitPair_joinLines htext htexts
  have hdecode (s : String) :
      String.ofList (Text.Utf8.decode (Text.Utf8.encode s.toList)) = s := by
    rw [Text.Utf8.decode_encode, String.ofList_toList]
  rw [ofBytes?, hend, Option.map_some, List.take_left, hsplit, ← List.drop_drop, List.drop_left,
    List.map_map, List.map_cons, List.map_map]
  refine congrArg some (congrArg₂ Reply.mk (congrArg₂ List.cons (hdecode first) ?_) rfl)
  exact (List.map_congr_left fun s _ ↦ hdecode s).trans (List.map_id rest)

namespace Response

/-! ### The bytes of a response -/

/-- The bytes of a response whose head has these lines. -/
theorem bytes_of_headLines {r : Response} {first : String} {rest : List String}
    (h : r.headLines = first :: rest) :
    r.bytes = joinLines (Text.Utf8.encode first.toList)
      (rest.map fun line ↦ Text.Utf8.encode line.toList) ++
        carriageReturn :: lineFeed :: carriageReturn :: lineFeed ::
          Text.Utf8.encode r.body.toList := by
  have hwire : r.wire.toList = first.toList ++ lineEnd ++
      (rest.map String.toList).flatMap (· ++ lineEnd) ++ lineEnd ++ r.body.toList := by
    rw [wire, h, String.toList_append, String.toList_append, String.toList_join, List.flatMap_map,
      List.flatMap_cons, List.flatMap_map, String.toList_append]
    simp only [String.toList_append]
    rfl
  rw [bytes, hwire, encode_lines, List.map_map]
  rfl

/-- No part of the head holds a full line end, those behind the extra header aside. -/
structure IsLinewise (r : Response) : Prop where
  contentType : IsUnbroken r.contentType
  location : ∀ s ∈ r.location, IsUnbroken s
  extraHeader : ∀ s ∈ r.extraHeader, IsUnbroken
    (String.ofList (Text.trimEndWhile (fun c ↦ c == '\r' || c == '\n') s.toList))
  setCookie : ∀ s ∈ r.setCookie, IsUnbroken s

/-- The extra header has something besides line ends. -/
def HasHeaderText (r : Response) : Prop :=
  ∀ s ∈ r.extraHeader, ∃ c ∈ s.toList, c ≠ '\r' ∧ c ≠ '\n'

/-! ### The lines of the head -/

/-- The first line of the head. -/
def statusLine (r : Response) : String :=
  "HTTP/1.1 " ++ Nat.repr r.status ++ " " ++ reasonPhrase r.status

/-- The lines between the first one and the extra header. -/
def linesBefore (r : Response) : List String :=
  ["Content-Type: " ++ r.contentType,
    "Content-Length: " ++ Nat.repr (Text.Utf8.encode r.body.toList).length] ++
  (r.location.map ("Location: " ++ ·)).toList

/-- The line of the extra header. -/
def headerLine? (r : Response) : Option String :=
  r.extraHeader.map fun header ↦
    String.ofList (Text.trimEndWhile (fun c ↦ c == '\r' || c == '\n') header.toList)

/-- The lines behind the extra header. -/
def linesBehind (r : Response) : List String :=
  (r.setCookie.map ("Set-Cookie: " ++ ·)).toList ++ ["Connection: close"]

section Head

variable {r : Response}

theorem headLines_eq (r : Response) :
    r.headLines = r.statusLine :: (r.linesBefore ++ (r.headerLine?.toList ++ r.linesBehind)) := by
  have hlength : r.body.utf8ByteSize = (Text.Utf8.encode r.body.toList).length :=
    (congrArg String.utf8ByteSize String.ofList_toList.symm).trans List.size_toByteArray
  simp only [headLines, statusLine, linesBefore, headerLine?, linesBehind, hlength,
    Option.toList_map, List.append_assoc, List.cons_append, List.nil_append]

/-- A label makes a line that is not empty. -/
theorem append_ne_empty {label : String} (h : label ≠ "") (s : String) : label ++ s ≠ "" :=
  fun hnil ↦ h (String.append_eq_empty_iff.1 hnil).1

theorem isLine_statusLine (r : Response) : IsLine r.statusLine :=
  isLine_append (isLine_append (isLine_append (by decide) (isLine_repr _)) (by decide))
    (isLine_reasonPhrase _)

theorem mem_linesBefore (h : r.IsLinewise) :
    ∀ line ∈ r.linesBefore, line ≠ "" ∧ IsUnbroken line := by
  intro line hline
  rcases List.mem_append.1 hline with hline | hline
  · rw [List.mem_cons, List.mem_singleton] at hline
    rcases hline with rfl | rfl
    · exact ⟨append_ne_empty (by decide) _, isUnbroken_append (by decide) h.contentType⟩
    · exact ⟨append_ne_empty (by decide) _,
        isUnbroken_append (by decide) (isLine_repr _).isUnbroken⟩
  · obtain ⟨s, hs, rfl⟩ := Option.map_eq_some_iff.1 (Option.mem_toList.1 hline)
    exact ⟨append_ne_empty (by decide) _, isUnbroken_append (by decide) (h.location s hs)⟩

theorem mem_linesBehind (h : r.IsLinewise) :
    ∀ line ∈ r.linesBehind, line ≠ "" ∧ IsUnbroken line := by
  intro line hline
  rcases List.mem_append.1 hline with hline | hline
  · obtain ⟨s, hs, rfl⟩ := Option.map_eq_some_iff.1 (Option.mem_toList.1 hline)
    exact ⟨append_ne_empty (by decide) _, isUnbroken_append (by decide) (h.setCookie s hs)⟩
  · rw [List.mem_singleton.1 hline]
    exact ⟨by decide, (by decide : IsLine "Connection: close").isUnbroken⟩

/-- The line of a header is empty if the header consists of line ends. -/
theorem headerLine?_eq_empty_iff : r.headerLine? = some "" ↔ ¬r.HasHeaderText := by
  unfold headerLine? HasHeaderText
  constructor
  · intro hempty htext
    obtain ⟨s, hs, hline⟩ := Option.map_eq_some_iff.1 hempty
    obtain ⟨c, hc, hreturn, hfeed⟩ := htext s hs
    obtain ⟨ends, hends, hall⟩ :=
      Text.exists_trimEndWhile_append (fun c ↦ c == '\r' || c == '\n') s.toList
    rw [String.ofList_eq_empty_iff.1 hline, List.nil_append] at hends
    have hend := hall c (hends ▸ hc)
    simp [hreturn, hfeed] at hend
  · intro htext
    push Not at htext
    obtain ⟨s, hs, hends⟩ := htext
    have hall : ∀ c ∈ s.toList, (c == '\r' || c == '\n') = true := by
      intro c hc
      simpa using or_iff_not_imp_left.2 (hends c hc)
    rw [Option.mem_def.1 hs, Option.map_some, ← List.nil_append s.toList,
      Text.trimEndWhile_append hall]
    rfl

/-- The lines behind the first one. -/
theorem mem_tail_headLines (h : r.IsLinewise) (hheader : r.HasHeaderText) :
    ∀ line ∈ r.linesBefore ++ (r.headerLine?.toList ++ r.linesBehind),
      line ≠ "" ∧ IsUnbroken line := by
  intro line hline
  rcases List.mem_append.1 hline with hline | hline
  · exact mem_linesBefore h line hline
  rcases List.mem_append.1 hline with hline | hline
  · have hline := Option.mem_toList.1 hline
    refine ⟨fun hempty ↦ headerLine?_eq_empty_iff.1 (hempty ▸ hline) hheader, ?_⟩
    obtain ⟨s, hs, rfl⟩ := Option.map_eq_some_iff.1 hline
    exact h.extraHeader s hs
  · exact mem_linesBehind h line hline

/-- What a client sees of a response in which no line is empty. -/
theorem ofBytes?_bytes (h : r.IsLinewise) (hheader : r.HasHeaderText) :
    Reply.ofBytes? r.bytes = some ⟨r.headLines, Text.Utf8.encode r.body.toList⟩ := by
  rw [bytes_of_headLines r.headLines_eq, headLines_eq]
  exact Reply.ofBytes?_joinLines (isLine_statusLine r).isUnbroken (mem_tail_headLines h hheader) _

theorem ne_empty_of_mem_headLines (h : r.IsLinewise) (hheader : r.HasHeaderText) :
    ∀ line ∈ r.headLines, line ≠ "" := by
  rw [headLines_eq]
  refine List.forall_mem_cons.2 ⟨?_, fun line hline ↦ (mem_tail_headLines h hheader line hline).1⟩
  rw [statusLine, String.append_assoc, String.append_assoc]
  exact append_ne_empty (by decide) _

/-- An empty line within the head is where a client sees the body begin. -/
theorem exists_ofBytes?_bytes (h : r.IsLinewise) (hheader : ¬r.HasHeaderText) :
    ∃ lines left, left ≠ [] ∧
      Reply.ofBytes? r.bytes = some ⟨lines, left ++ Text.Utf8.encode r.body.toList⟩ := by
  obtain ⟨next, more, hbehind⟩ : ∃ next more, r.linesBehind = next :: more :=
    List.exists_cons_of_ne_nil (List.append_ne_nil_of_right_ne_nil _ (List.cons_ne_nil _ _))
  have hlines := r.headLines_eq
  rw [headerLine?_eq_empty_iff.2 hheader, hbehind] at hlines
  -- The empty line is the blank line of the lines before it.
  have hbytes : r.bytes = joinLines (Text.Utf8.encode r.statusLine.toList)
      (r.linesBefore.map fun line ↦ Text.Utf8.encode line.toList) ++
        carriageReturn :: lineFeed :: carriageReturn :: lineFeed ::
          (joinLines (Text.Utf8.encode next.toList)
            (more.map fun line ↦ Text.Utf8.encode line.toList) ++
              [carriageReturn, lineFeed, carriageReturn, lineFeed] ++
                Text.Utf8.encode r.body.toList) := by
    rw [bytes_of_headLines hlines, List.map_append]
    change joinLines _ (_ ++ [] :: Text.Utf8.encode next.toList :: _) ++ _ = _
    rw [joinLines_append, joinLines_cons, List.append_assoc, List.append_assoc]
    rfl
  have hreply := Reply.ofBytes?_joinLines (isLine_statusLine r).isUnbroken (mem_linesBefore h)
    (joinLines (Text.Utf8.encode next.toList)
      (more.map fun line ↦ Text.Utf8.encode line.toList) ++
        [carriageReturn, lineFeed, carriageReturn, lineFeed] ++ Text.Utf8.encode r.body.toList)
  rw [← hbytes] at hreply
  exact ⟨_, _, List.append_ne_nil_of_right_ne_nil _ (List.cons_ne_nil _ _), hreply⟩

end Head

end Response

/-! ### Routes -/

/-- A text whose line ends, if it has any, all stand at its end. -/
def EndsInLineEnds (s : String) : Prop :=
  ∃ line ends, s.toList = line ++ ends ∧ (∀ c ∈ line, c ≠ '\r' ∧ c ≠ '\n') ∧
    ∀ c ∈ ends, c = '\r' ∨ c = '\n'

/-- The members of a route that are written on lines of their own hold no full line ends. -/
structure HasPlainMembers (heap : Heap) (v : Value) : Prop where
  contentType : ∀ s, heap.member v "content_type" = .string s → IsUnbroken s
  redirect : IsUnbroken (heap.display (heap.member v "redirect"))
  cookie : ∀ s, heap.member v "cookie" = .string s → IsUnbroken s

theorem isLine_trimEndWhile {s : String} (h : EndsInLineEnds s) :
    IsLine (String.ofList (Text.trimEndWhile (fun c ↦ c == '\r' || c == '\n') s.toList)) := by
  obtain ⟨line, ends, hs, hline, hends⟩ := h
  have hlast : ∀ c ∈ line.getLast?, (c == '\r' || c == '\n') = false := fun c hc ↦ by
    simpa using hline c (List.mem_of_mem_getLast? hc)
  rw [hs, Text.trimEndWhile_append fun c hc ↦ by simpa using hends c hc,
    Text.trimEndWhile_of_last hlast]
  intro c hc
  rw [String.toList_ofList] at hc
  exact hline c hc

namespace Response

variable {heap : Heap} {h : Handle} {v : Value}

/-- The string in a member of an object. -/
theorem bind_asString?_eq_some_iff {name s : String} :
    ((heap.get h).get? name).bind Value.asString? = some s ↔
      heap.member (.object h) name = .string s := by
  rw [Heap.member]
  rcases (heap.get h).get? name with - | w
  · simp
  · cases w <;> simp [Value.asString?]

/-- The string in a member of an object, unless it is empty. -/
theorem bind_nonempty?_eq_some_iff {name s : String} :
    (((heap.get h).get? name).bind Value.asString?).bind nonempty? = some s ↔
      heap.member (.object h) name = .string s ∧ s ≠ "" := by
  have hnonempty (t : String) : nonempty? t = some s ↔ t = s ∧ s ≠ "" := by
    unfold nonempty?
    split_ifs with ht
    · rw [String.isEmpty_iff] at ht
      subst ht
      simp
    · rw [String.isEmpty_iff] at ht
      rw [Option.some_inj]
      exact ⟨fun hts ↦ ⟨hts, hts ▸ ht⟩, And.left⟩
  rw [Option.bind_eq_some_iff]
  simp only [bind_asString?_eq_some_iff, hnonempty]
  constructor
  · rintro ⟨t, ht, rfl, hne⟩
    exact ⟨ht, hne⟩
  · rintro ⟨hs, hne⟩
    exact ⟨s, hs, rfl, hne⟩

/-- The response of an object before its status, type and headers apply. -/
theorem baseOfObject_cases (heap : Heap) (h : Handle) :
    (∃ target, (heap.get h).get? "redirect" = some target ∧
      baseOfObject heap h = ⟨302, "text/plain", "", some (heap.display target), none, none⟩) ∨
    ∃ contentType body, (contentType = "text/plain" ∨ contentType = "application/json") ∧
      baseOfObject heap h = plain 200 contentType body := by
  unfold baseOfObject
  dsimp only
  split
  · rename_i htarget
    exact .inl ⟨_, htarget, rfl⟩
  · exact .inr ⟨_, _, .inl rfl, rfl⟩
  · exact .inr ⟨_, _, .inr rfl, rfl⟩
  · exact .inr ⟨_, _, .inr rfl, rfl⟩

theorem contentType_ofObject (heap : Heap) (h : Handle) :
    (ofObject heap h).contentType =
      (((heap.get h).get? "content_type").bind Value.asString?).getD
        (baseOfObject heap h).contentType := rfl

theorem status_ofObject (heap : Heap) (h : Handle) :
    (ofObject heap h).status =
      ((((heap.get h).get? "status").bind Value.asNumber?).bind status?).getD
        (baseOfObject heap h).status := rfl

/-- A response from a route without full line ends in its members has none in its head. -/
theorem isLinewise_ofValue (hv : HasPlainMembers heap v)
    (hheader : ∀ s, heap.member v "header" = .string s → EndsInLineEnds s) :
    (ofValue heap v).IsLinewise := by
  have hplain (contentType body : String) (hline : IsUnbroken contentType) :
      (plain 200 contentType body).IsLinewise :=
    ⟨hline, fun _ hs ↦ absurd hs (Option.not_mem_none _),
      fun _ hs ↦ absurd hs (Option.not_mem_none _), fun _ hs ↦ absurd hs (Option.not_mem_none _)⟩
  have htext : IsUnbroken "text/plain" := (by decide : IsLine "text/plain").isUnbroken
  have hjson : IsUnbroken "application/json" := (by decide : IsLine "application/json").isUnbroken
  cases v with
  | object h => ?_
  | string s => exact hplain _ _ htext
  | _ => exact hplain _ _ hjson
  have hbase : (baseOfObject heap h).IsLinewise := by
    rcases baseOfObject_cases heap h with ⟨target, htarget, heq⟩ | ⟨_, body, rfl | rfl, heq⟩
    · have hredirect := hv.redirect
      rw [Heap.member, htarget] at hredirect
      rw [heq]
      exact ⟨htext, fun _ hs ↦ Option.some.inj hs ▸ hredirect,
        fun _ hs ↦ absurd hs (Option.not_mem_none _), fun _ hs ↦ absurd hs (Option.not_mem_none _)⟩
    · exact heq ▸ hplain _ body htext
    · exact heq ▸ hplain _ body hjson
  constructor
  · rw [ofValue, contentType_ofObject]
    cases htype : ((heap.get h).get? "content_type").bind Value.asString? with
    | none => exact hbase.contentType
    | some s => exact hv.contentType s (bind_asString?_eq_some_iff.1 htype)
  · exact hbase.location
  · intro s hs
    exact (isLine_trimEndWhile (hheader s (bind_nonempty?_eq_some_iff.1 hs).1)).isUnbroken
  · intro s hs
    exact hv.cookie s (bind_nonempty?_eq_some_iff.1 hs).1

/-- A status has three digits. -/
theorem status_ofValue (heap : Heap) (v : Value) :
    100 ≤ (ofValue heap v).status ∧ (ofValue heap v).status < 1000 := by
  cases v with
  | object h => ?_
  | _ => exact (by decide : 100 ≤ 200 ∧ 200 < 1000)
  have hbase : 100 ≤ (baseOfObject heap h).status ∧ (baseOfObject heap h).status < 1000 := by
    rcases baseOfObject_cases heap h with ⟨target, -, heq⟩ | ⟨_, body, -, heq⟩
    · rw [heq]
      exact (by decide : 100 ≤ 302 ∧ 302 < 1000)
    · rw [heq]
      exact (by decide : 100 ≤ 200 ∧ 200 < 1000)
  rw [ofValue, status_ofObject]
  cases hstatus : (((heap.get h).get? "status").bind Value.asNumber?).bind status? with
  | none => exact hbase
  | some code =>
    obtain ⟨n, -, hn⟩ := Option.bind_eq_some_iff.1 hstatus
    simpa using (Option.filter_eq_some_iff.1 hn).2

theorem hasHeaderText_ofValue_iff :
    (ofValue heap v).HasHeaderText ↔
      ∀ s, heap.member v "header" = .string s → s ≠ "" → ∃ c ∈ s.toList, c ≠ '\r' ∧ c ≠ '\n' := by
  unfold HasHeaderText
  cases v with
  | object h =>
    have hmem (s : String) : s ∈ (ofValue heap (.object h)).extraHeader ↔
        heap.member (.object h) "header" = .string s ∧ s ≠ "" := bind_nonempty?_eq_some_iff
    simp only [hmem, and_imp]
  | _ => exact ⟨fun _ _ hs ↦ absurd hs (by simp [Heap.member]),
      fun _ _ hs ↦ absurd hs (Option.not_mem_none _)⟩

/-- A client sees the response that a route stands for exactly if its header, unless it is empty,
has something besides line ends. -/
theorem frames_ofValue_iff (hv : HasPlainMembers heap v)
    (hheader : ∀ s, heap.member v "header" = .string s → EndsInLineEnds s) :
    (∃ reply, Reply.ofBytes? (ofValue heap v).bytes = some reply ∧
        reply.Frames (ofValue heap v)) ↔
      ∀ s, heap.member v "header" = .string s → s ≠ "" → ∃ c ∈ s.toList, c ≠ '\r' ∧ c ≠ '\n' := by
  have hline := isLinewise_ofValue hv hheader
  rw [← hasHeaderText_ofValue_iff]
  constructor
  · rintro ⟨reply, hreply, hframes⟩
    by_contra htext
    obtain ⟨lines, left, hleft, hbytes⟩ := exists_ofBytes?_bytes hline htext
    rw [hbytes] at hreply
    obtain rfl := Option.some.inj hreply
    exact hleft (List.append_left_eq_self.1 hframes.body_eq)
  · intro htext
    obtain ⟨hle, hlt⟩ := status_ofValue heap v
    refine ⟨_, ofBytes?_bytes hline htext, rfl, ?_, ?_, hle, hlt⟩
    · rw [headLines_eq, statusLine, linesBefore, headerLine?, linesBehind]
      simp only [List.append_assoc, List.cons_append, List.nil_append]
    · exact ne_empty_of_mem_headLines hline htext

/-- A route with a blank line in its body and a line end behind its header. -/
theorem frames_ofValue_blankLine_body :
    let route : Object Value := (((Object.empty .map).set "body" (.string "a\r\n\r\nb")).set
      "header" (.string "X-Trace: 1\r\n")).set "cookie" (.string "sid=1")
    let heap : Heap := ⟨#[route]⟩
    HasPlainMembers heap (.object ⟨0⟩) ∧
      (∀ s, heap.member (.object ⟨0⟩) "header" = .string s → EndsInLineEnds s) ∧
      ∃ reply, Reply.ofBytes? (ofValue heap (.object ⟨0⟩)).bytes = some reply ∧
        reply.Frames (ofValue heap (.object ⟨0⟩)) := by
  intro route heap
  have htype : heap.member (.object ⟨0⟩) "content_type" = .nil := rfl
  have hcookie : heap.member (.object ⟨0⟩) "cookie" = .string "sid=1" := rfl
  have hheader : heap.member (.object ⟨0⟩) "header" = .string "X-Trace: 1\r\n" := rfl
  have hplain : HasPlainMembers heap (.object ⟨0⟩) := by
    refine ⟨fun s hs ↦ ?_, ?_, fun s hs ↦ ?_⟩
    · exact Value.noConfusion (htype.symm.trans hs)
    · exact (by decide : IsLine "nil").isUnbroken
    · exact Value.string.inj (hcookie.symm.trans hs) ▸ (by decide : IsLine "sid=1").isUnbroken
  have hends : ∀ s, heap.member (.object ⟨0⟩) "header" = .string s → EndsInLineEnds s := by
    rintro s hs
    obtain rfl := Value.string.inj (hheader.symm.trans hs)
    exact ⟨"X-Trace: 1".toList, ['\r', '\n'], rfl, (by decide : IsLine "X-Trace: 1"), by simp⟩
  refine ⟨hplain, hends, (frames_ofValue_iff hplain hends).2 fun s hs _ ↦ ?_⟩
  obtain rfl := Value.string.inj (hheader.symm.trans hs)
  exact ⟨'X', by decide, by decide⟩

/-- A header that is one line end makes a client see the rest of the head as part of the body. -/
theorem not_frames_of_header_lineEnd :
    let route : Object Value :=
      ((Object.empty .map).set "body" (.string "hi")).set "header" (.string "\r\n")
    let heap : Heap := ⟨#[route]⟩
    HasPlainMembers heap (.object ⟨0⟩) ∧
      (∀ s, heap.member (.object ⟨0⟩) "header" = .string s → EndsInLineEnds s) ∧
      ¬∃ reply, Reply.ofBytes? (ofValue heap (.object ⟨0⟩)).bytes = some reply ∧
        reply.Frames (ofValue heap (.object ⟨0⟩)) := by
  intro route heap
  have htype : heap.member (.object ⟨0⟩) "content_type" = .nil := rfl
  have hcookie : heap.member (.object ⟨0⟩) "cookie" = .nil := rfl
  have hheader : heap.member (.object ⟨0⟩) "header" = .string "\r\n" := rfl
  refine ⟨⟨fun s hs ↦ ?_, ?_, fun s hs ↦ ?_⟩, fun s hs ↦ ?_, ?_⟩
  · exact Value.noConfusion (htype.symm.trans hs)
  · exact (by decide : IsLine "nil").isUnbroken
  · exact Value.noConfusion (hcookie.symm.trans hs)
  · obtain rfl := Value.string.inj (hheader.symm.trans hs)
    exact ⟨[], ['\r', '\n'], rfl, by simp, by simp⟩
  · have hbytes : Reply.ofBytes? (ofValue heap (.object ⟨0⟩)).bytes =
        some ⟨["HTTP/1.1 200 OK", "Content-Type: text/plain", "Content-Length: 2"],
          Text.Utf8.encode "Connection: close\r\n\r\nhi".toList⟩ := by decide +kernel
    rintro ⟨reply, hreply, hframes⟩
    obtain rfl := Option.some.inj (hbytes.symm.trans hreply)
    exact absurd hframes.body_eq (by decide +kernel)

end Response

end ScriptHost.Http
