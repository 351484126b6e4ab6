import ScriptHost.Proofs.Http.Segmentation
import ScriptHost.Proofs.Text.Lines

/-!
# Header blocks with full line ends

Reading and parsing look for the declared length in two ways: the one cuts the header block at full
line ends, the other at line feeds and takes carriage returns off.  On a header block in which every
line feed belongs to a full line end they see the same lines, but that parsing stops at a line of
carriage returns.  So reading then waits for all of the body.

## Main definitions

* `Http.joinLines` : lines with full line ends between them.

## Main results

* `Http.headerEnd?_joinLines` : where such a header block ends.
* `Http.declaredLength_joinLines`, `Http.readHeaders_joinLines` : the lines that are seen.
* `Http.waitsForBody_of_joinLines` : reading waits for the body.
-/

namespace ScriptHost.Http

/-- Lines with full line ends between them. -/
def joinLines (first : List UInt8) (rest : List (List UInt8)) : List UInt8 :=
  first ++ rest.flatMap fun line ↦ carriageReturn :: lineFeed :: line

theorem joinLines_nil (first : List UInt8) : joinLines first [] = first := List.append_nil first

theorem joinLines_cons (first line : List UInt8) (rest : List (List UInt8)) :
    joinLines first (line :: rest) = first ++ carriageReturn :: lineFeed :: joinLines line rest :=
  rfl

theorem joinLines_append (first line : List UInt8) (rest more : List (List UInt8)) :
    joinLines first (rest ++ line :: more) =
      joinLines first rest ++ carriageReturn :: lineFeed :: joinLines line more := by
  rw [joinLines, List.flatMap_append, ← List.append_assoc]
  rfl

/-! ### The end of the header block -/

section HeaderEnd

variable {u v body first : List UInt8} {rest : List (List UInt8)}

theorem BlankLineAt.isPrefix {bytes : List UInt8} {i : Nat} (h : BlankLineAt bytes i) :
    [carriageReturn, lineFeed, carriageReturn, lineFeed] <+: bytes.drop i :=
  h ▸ List.take_prefix 4 _

/-- No blank line begins within a line. -/
theorem headerEnd?_line (h : ¬[carriageReturn, lineFeed] <:+: u) (v : List UInt8) :
    headerEnd? (u ++ carriageReturn :: v) =
      (headerEnd? (carriageReturn :: v)).map (u.length + ·) := by
  have hskip : ∀ i < u.length, ¬BlankLineAt (u ++ carriageReturn :: v) i := fun i hi hat ↦ by
    have hprefix := hat.isPrefix
    rw [List.drop_append_of_le_length (Nat.le_of_lt hi)] at hprefix
    have hne : u.drop i ≠ [] := List.drop_eq_nil_iff.not.2 (Nat.not_le_of_lt hi)
    have hdrop : ¬[carriageReturn, lineFeed] <:+: u.drop i := fun hpart ↦
      h (hpart.trans (List.drop_suffix i u).isInfix)
    exact Text.pair_notPrefix_append (by decide) hne hdrop v
      (.trans ⟨[carriageReturn, lineFeed], rfl⟩ hprefix)
  rw [headerEnd?_drop hskip, List.drop_left]

/-- The end of a line that no other one follows is no blank line. -/
theorem headerEnd?_lineEnd (h : ¬[carriageReturn, lineFeed] <+: v) :
    headerEnd? (carriageReturn :: lineFeed :: v) = (headerEnd? v).map (2 + ·) := by
  have hskip : ∀ i < 2, ¬BlankLineAt (carriageReturn :: lineFeed :: v) i := fun i hi hat ↦ by
    obtain ⟨t, ht⟩ := hat.isPrefix
    obtain rfl | rfl : i = 0 ∨ i = 1 := by omega
    · exact h ⟨t, congrArg (List.drop 2) ht⟩
    · exact absurd (List.cons.inj ht).1 (by decide)
  rw [headerEnd?_drop hskip]
  rfl

/-- The header block ends where its lines do. -/
theorem headerEnd?_joinLines (hfirst : ¬[carriageReturn, lineFeed] <:+: first)
    (hrest : ∀ line ∈ rest, line ≠ [] ∧ ¬[carriageReturn, lineFeed] <:+: line)
    (body : List UInt8) :
    headerEnd? (joinLines first rest ++
      carriageReturn :: lineFeed :: carriageReturn :: lineFeed :: body) =
        some (joinLines first rest).length := by
  induction rest generalizing first with
  | nil =>
    have hzero : headerEnd? (carriageReturn :: lineFeed :: carriageReturn :: lineFeed :: body) =
        some 0 := headerEnd?_eq_some_iff.2 ⟨rfl, fun i hi ↦ absurd hi (Nat.not_lt_zero i)⟩
    rw [joinLines_nil, headerEnd?_line hfirst, hzero]
    rfl
  | cons line rest ih =>
    obtain ⟨⟨hne, hline⟩, hrest⟩ := List.forall_mem_cons.1 hrest
    -- What follows the line begins with a line end, also if it is the last one.
    obtain ⟨tail, htail⟩ : ∃ tail, joinLines line rest ++
        carriageReturn :: lineFeed :: carriageReturn :: lineFeed :: body =
          line ++ carriageReturn :: tail := by
      cases rest with
      | nil => exact ⟨_, congrArg (· ++ _) (joinLines_nil line)⟩
      | cons next rest => exact ⟨_, List.append_assoc ..⟩
    have hskip := headerEnd?_lineEnd (htail ▸ Text.pair_notPrefix_append (by decide) hne hline tail)
    rw [ih hline hrest] at hskip
    rw [joinLines_cons, List.append_assoc, List.cons_append, headerEnd?_line hfirst,
      List.cons_append, hskip, List.length_append, List.length_cons, List.length_cons,
      Option.map_some, Option.map_some, Nat.add_comm 2]

end HeaderEnd

/-! ### The lines that are seen -/

section Lines

variable {first line : List UInt8} {rest : List (List UInt8)}

theorem not_mem_decode (h : lineFeed ∉ line) : '\n' ∉ Text.Utf8.decode line := fun hmem ↦ by
  obtain ⟨b, hb, hnat⟩ := Text.Utf8.mem_of_mem_decode (by decide) (by decide) hmem
  have hfeed : b = lineFeed := UInt8.toNat_inj.1 hnat
  exact h (hfeed ▸ hb)

/-- The text of the lines has the line ends of the bytes. -/
theorem decode_joinLines_cons (first line : List UInt8) (rest : List (List UInt8)) :
    Text.Utf8.decode (joinLines first (line :: rest)) =
      Text.Utf8.decode first ++ '\r' :: '\n' :: Text.Utf8.decode (joinLines line rest) := by
  have hreturn : carriageReturn.toNat < 0x80 := by decide
  have hfeed : lineFeed.toNat < 0x80 := by decide
  have hrest := Text.Utf8.decode_append_ascii [] hfeed (joinLines line rest)
  rw [joinLines_cons, Text.Utf8.decode_append_ascii first hreturn]
  exact congrArg (fun text ↦ _ ++ '\r' :: text) hrest

/-- What reading sees. -/
theorem splitPair_joinLines (hfirst : ¬['\r', '\n'] <:+: Text.Utf8.decode first)
    (hrest : ∀ line ∈ rest, ¬['\r', '\n'] <:+: Text.Utf8.decode line) :
    Text.splitPair '\r' '\n' (Text.Utf8.decode (joinLines first rest)) =
      (first :: rest).map Text.Utf8.decode := by
  induction rest generalizing first with
  | nil => rw [joinLines_nil, Text.splitPair_eq_singleton hfirst, List.map_singleton]
  | cons line rest ih =>
    obtain ⟨hline, hrest⟩ := List.forall_mem_cons.1 hrest
    rw [decode_joinLines_cons, Text.splitPair_append (by decide) hfirst, ih hline hrest,
      ← List.map_cons]

/-- What parsing sees. -/
theorem splitOn_joinLines (hfirst : lineFeed ∉ first) (hrest : ∀ line ∈ rest, lineFeed ∉ line) :
    ((Text.Utf8.decode (joinLines first rest)).splitOn '\n').map (Text.trimEndWhile (· == '\r')) =
      ((first :: rest).map Text.Utf8.decode).map (Text.trimEndWhile (· == '\r')) := by
  induction rest generalizing first with
  | nil => rw [joinLines_nil, List.splitOn_eq_singleton (not_mem_decode hfirst)]; rfl
  | cons line rest ih =>
    obtain ⟨hline, hrest⟩ := List.forall_mem_cons.1 hrest
    have hpiece : '\n' ∉ Text.Utf8.decode first ++ ['\r'] := fun hmem ↦
      (List.mem_append.1 hmem).elim (not_mem_decode hfirst) (by decide)
    have htrim : Text.trimEndWhile (· == '\r') (Text.Utf8.decode first ++ ['\r']) =
        Text.trimEndWhile (· == '\r') (Text.Utf8.decode first) :=
      Text.trimEndWhile_append fun c hc ↦ by simpa using hc
    rw [decode_joinLines_cons, List.append_cons, List.splitOn_append_cons_self_of_not_mem hpiece,
      List.map_cons, htrim, ih hline hrest]
    rfl

theorem headerOf?_of_splitOnce {line name value : List Char}
    (h : Text.splitOnce ':' line = some (name, value)) :
    headerOf? line = some (String.ofList (Text.trim name), String.ofList (Text.trim value)) := by
  rw [headerOf?, h]
  rfl

theorem headerOf?_eq_none {line : List Char} (h : ':' ∉ line) : headerOf? line = none := by
  rw [headerOf?, Text.splitOnce_eq_none_iff.2 h]
  rfl

/-- Carriage returns at the end of a line do not bear on its header. -/
theorem headerOf?_trimEndWhile (line : List Char) :
    headerOf? (Text.trimEndWhile (· == '\r') line) = headerOf? line := by
  obtain ⟨t, hline, ht⟩ := Text.exists_trimEndWhile_append (· == '\r') line
  generalize Text.trimEndWhile (· == '\r') line = s at hline
  subst hline
  have hcolon : ':' ∉ t := fun hmem ↦ absurd (ht ':' hmem) (by decide)
  have hblank : ∀ c ∈ t, Text.isBlank c = true := fun c hc ↦ by
    rw [eq_of_beq (ht c hc)]
    decide
  cases hs : Text.splitOnce ':' s with
  | none =>
    rw [Text.splitOnce_eq_none_iff] at hs
    rw [headerOf?_eq_none hs]
    exact (headerOf?_eq_none fun hmem ↦ (List.mem_append.1 hmem).elim hs hcolon).symm
  | some parts =>
    rcases parts with ⟨name, value⟩
    obtain ⟨rfl, hname⟩ := Text.splitOnce_eq_some_iff.1 hs
    have hst : Text.splitOnce ':' (name ++ ':' :: value ++ t) = some (name, value ++ t) :=
      Text.splitOnce_eq_some_iff.2 ⟨List.append_assoc name (':' :: value) t, hname⟩
    rw [headerOf?_of_splitOnce hs, headerOf?_of_splitOnce hst, Text.trim_append hblank]

/-- Parsing takes the headers up to the first line of carriage returns. -/
theorem readHeaders_joinLines (hfirst : lineFeed ∉ first)
    (hrest : ∀ line ∈ rest, lineFeed ∉ line) :
    readHeaders (Text.Utf8.decode (joinLines first rest)) =
      (((first :: rest).map Text.Utf8.decode).takeWhile fun line ↦
        !(Text.trimEndWhile (· == '\r') line).isEmpty).filterMap headerOf? := by
  unfold readHeaders
  dsimp only
  rw [splitOn_joinLines hfirst hrest, List.takeWhile_map, List.filterMap_map]
  exact congrArg (List.filterMap · _) (funext headerOf?_trimEndWhile)

/-- Reading takes the length from all headers of the block. -/
theorem declaredLength_eq (head : List UInt8) :
    declaredLength head =
      (contentLengthIn? (((Text.splitPair '\r' '\n' (Text.Utf8.decode head)).drop 1).filterMap
        headerOf?)).getD 0 := by
  have hlower : "Content-Length".toList.map Char.toLower =
      "content-length".toList.map Char.toLower := by decide
  have hsame (h : List Char × List Char) :
      Text.sameIgnoringCase (Text.trim h.1) "content-length".toList =
        Text.sameIgnoringCase (String.ofList (Text.trim h.1)).toList "Content-Length".toList := by
    have hname : (String.ofList (Text.trim h.1)).toList = Text.trim h.1 := String.toList_ofList
    rw [Text.sameIgnoringCase, Text.sameIgnoringCase, hname, hlower]
  have hread (h : List Char × List Char) :
      Decimal.readNat lengthBound (Text.trim h.2) =
        Decimal.readNat lengthBound (String.ofList (Text.trim h.2)).toList := by
    rw [String.toList_ofList]
  unfold declaredLength contentLengthIn? headerIn? headerOf?
  dsimp only
  rw [funext hsame, funext hread, ← List.map_filterMap, List.find?_map, Option.map_map,
    Option.bind_map]
  rfl

theorem declaredLength_joinLines (hfirst : lineFeed ∉ first)
    (hrest : ∀ line ∈ rest, lineFeed ∉ line) :
    declaredLength (joinLines first rest) =
      (contentLengthIn? ((rest.map Text.Utf8.decode).filterMap headerOf?)).getD 0 := by
  have hline (line : List UInt8) (h : lineFeed ∉ line) :
      ¬['\r', '\n'] <:+: Text.Utf8.decode line :=
    Text.pair_notInfix_of_notMem (not_mem_decode h)
  rw [declaredLength_eq, splitPair_joinLines (hline first hfirst) fun line h ↦
    hline line (hrest line h)]
  rfl

end Lines

/-! ### What reading waits for -/

section Waiting

variable {seen first : List UInt8} {e : Nat} {rest : List (List UInt8)}

theorem headers_of_parse {bytes : List UInt8} {r : Request} (h : Request.parse bytes = .ok r) :
    r.headers = readHeaders (Text.Utf8.decode (headBytes bytes)) := by
  unfold Request.parse at h
  split_ifs at h
  dsimp only at h
  cases hmethod : Method.ofLine? (firstLine bytes) with
  | none =>
    rw [hmethod] at h
    cases h
  | some method =>
    rw [hmethod] at h
    dsimp only at h
    split_ifs at h
    cases h
    rfl

/-- Headers behind those among which the length is found do not bear on it. -/
theorem contentLengthIn?_of_isPrefix {headers more : List (String × String)} {length : Nat}
    (h : headers <+: more) (hlength : contentLengthIn? headers = some length) :
    contentLengthIn? more = some length := by
  obtain ⟨tail, rfl⟩ := h
  obtain ⟨value, hvalue, hread⟩ := Option.bind_eq_some_iff.1 hlength
  obtain ⟨header, hheader, rfl⟩ := Option.map_eq_some_iff.1 hvalue
  have hfind : headerIn? (headers ++ tail) "Content-Length" = some header.2 := by
    rw [headerIn?, List.find?_append, hheader]
    rfl
  rw [contentLengthIn?, hfind]
  exact hread

/-- The bytes before the first line feed. -/
theorem takeWhile_lineEnd (hfirst : lineFeed ∉ first) (tail : List UInt8) :
    (first ++ carriageReturn :: lineFeed :: tail).takeWhile (· != lineFeed) =
      first ++ [carriageReturn] := by
  have hline : lineFeed ∉ first ++ [carriageReturn] := fun hmem ↦
    (List.mem_append.1 hmem).elim hfirst (by decide)
  rw [List.append_cons, takeWhile_bne_append hline]

theorem headBytes_of_nil (he : headerEnd? seen = some e) (hhead : seen.take e = joinLines first [])
    (hfirst : lineFeed ∉ first) : headBytes seen = [] := by
  rw [joinLines_nil] at hhead
  have hline : seen.takeWhile (· != lineFeed) = first ++ [carriageReturn] := by
    rw [← List.take_append_drop e seen, hhead, drop_of_headerEnd? he]
    exact takeWhile_lineEnd hfirst _
  rw [headBytes, he, hline]
  refine List.drop_eq_nil_of_le ?_
  change (seen.take e).length ≤ _
  rw [hhead, List.length_append]
  omega

theorem headBytes_of_cons {line : List UInt8} (he : headerEnd? seen = some e)
    (hhead : seen.take e = joinLines first (line :: rest)) (hfirst : lineFeed ∉ first) :
    headBytes seen = joinLines line rest := by
  have hlines : joinLines first (line :: rest) =
      first ++ [carriageReturn] ++ lineFeed :: joinLines line rest :=
    List.append_cons first carriageReturn _
  have hline : seen.takeWhile (· != lineFeed) = first ++ [carriageReturn] := by
    rw [← List.take_append_drop e seen, hhead, joinLines_cons, List.append_assoc]
    exact takeWhile_lineEnd hfirst _
  rw [headBytes, he, hline]
  change (seen.take e).drop ((first ++ [carriageReturn]).length + 1) = _
  rw [hhead, hlines, List.drop_length_add_append]
  rfl

/-- Reading waits for the body if every line feed of the header block ends a line in full. -/
theorem waitsForBody_of_joinLines (he : headerEnd? seen = some e)
    (hhead : seen.take e = joinLines first rest) (hfirst : lineFeed ∉ first)
    (hrest : ∀ line ∈ rest, lineFeed ∉ line) : WaitsForBody seen := by
  intro e' r length he' hr hlength
  obtain rfl := Option.some.inj (he.symm.trans he')
  rw [Request.contentLength?, headers_of_parse hr] at hlength
  cases rest with
  | nil =>
    rw [headBytes_of_nil he hhead hfirst] at hlength
    cases hlength
  | cons line rest =>
    obtain ⟨hline, hlines⟩ := List.forall_mem_cons.1 hrest
    rw [headBytes_of_cons he hhead hfirst, readHeaders_joinLines hline hlines] at hlength
    have hall := contentLengthIn?_of_isPrefix
      ((List.takeWhile_prefix _).filterMap headerOf?) hlength
    have hdeclared := declaredLength_joinLines hfirst hrest
    rw [hall] at hdeclared
    rw [hhead, hdeclared, Option.getD_some, Nat.min_self]

end Waiting

end ScriptHost.Http
