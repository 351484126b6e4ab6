import Mathlib.Data.List.TakeWhile
import ScriptHost.Proofs.Http.Message
import ScriptHost.Proofs.Http.Offsets

/-!
# Which bytes are requests

The first line alone decides whether bytes are a request and which fault they have otherwise.  What
a request says is then read off the bytes: the target from the first line, the headers from the
lines up to a blank one, the body from behind the first blank line with a full line end before it.
The first line feed and that blank line are independent of each other, and each may be missing.

## Main definitions

* `Http.IsFirstLine`, `Http.IsHeaderBlock` : the parts of the bytes.
* `Http.IsHeaders`, `Http.DeclaresLength`, `Http.IsBody` : what they say.
* `Http.IsRequest` : the request that bytes are.
* `Http.Decides` : an answer to what bytes are.
* `Http.Answers` : the cases of the first line with their answers.

## Main results

* `Http.isFirstLine_iff`, `Http.Method.ofLine?_eq_some_iff` : the first line and its method.
* `Http.isHeaders_readHeaders`, `Http.isBody_bodyOf` : the headers and the body.
* `Http.Buffer.decides_parse` : parsing by positions answers for every buffer what its bytes are.
-/

namespace ScriptHost.Http

/-! ### The parts of a request -/

/-- All that stands before the first line feed. -/
def IsUpToLineFeed (bytes raw : List UInt8) : Prop :=
  lineFeed ∉ raw ∧ (bytes = raw ∨ ∃ rest, bytes = raw ++ lineFeed :: rest)

/-- The first line, from which one carriage return at its end is taken off. -/
def IsFirstLine (bytes line : List UInt8) : Prop :=
  ∃ raw, IsUpToLineFeed bytes raw ∧
    (raw = line ++ [carriageReturn] ∨ raw = line ∧ line.getLast? ≠ some carriageReturn)

/-- The first blank line with a full line end before it. -/
def IsHeaderEnd (bytes : List UInt8) (e : Nat) : Prop :=
  BlankLineAt bytes e ∧ ∀ i < e, ¬BlankLineAt bytes i

/-- The bytes from behind the first line feed up to the end of the header block or of the bytes. -/
def IsHeaderBlock (bytes block : List UInt8) : Prop :=
  ∃ raw stop, IsUpToLineFeed bytes raw ∧ block = bytes.extract (raw.length + 1) stop ∧
    (IsHeaderEnd bytes stop ∨ (∀ e, ¬IsHeaderEnd bytes e) ∧ stop = bytes.length)

/-- The headers on some lines, up to the first one of carriage returns alone.  A line without a
colon holds none. -/
inductive IsHeaders : List (List Char) → List (String × String) → Prop
  | nil : IsHeaders [] []
  | blank {line : List Char} {lines : List (List Char)} (hline : ∀ c ∈ line, c = '\r') :
      IsHeaders (line :: lines) []
  | skip {line : List Char} {lines : List (List Char)} {headers : List (String × String)}
      (hline : ∃ c ∈ line, c ≠ '\r') (hcolon : ':' ∉ line) (h : IsHeaders lines headers) :
      IsHeaders (line :: lines) headers
  | header {name value : List Char} {lines : List (List Char)} {headers : List (String × String)}
      (hname : ':' ∉ name) (h : IsHeaders lines headers) :
      IsHeaders ((name ++ ':' :: value) :: lines)
        ((String.ofList (Text.trim name), String.ofList (Text.trim value)) :: headers)

/-- The first header of that name, in any letter case, states this length. -/
def DeclaresLength (headers : List (String × String)) (length : Nat) : Prop :=
  ∃ before name value after, headers = before ++ (name, value) :: after ∧
    (∀ h ∈ before, ¬Text.sameIgnoringCase h.1.toList "Content-Length".toList) ∧
    Text.sameIgnoringCase name.toList "Content-Length".toList ∧
    Decimal.readNat lengthBound value.toList = some length

/-- The body: the text of as many bytes behind the header block as are declared, or as there are;
empty without an end of the header block or a declared length. -/
structure IsBody (bytes : List UInt8) (headers : List (String × String)) (body : String) :
    Prop where
  declared : ∀ e length, IsHeaderEnd bytes e → DeclaresLength headers length →
    ∃ part after, bytes.drop (e + 4) = part ++ after ∧
      part.length = min length (bytes.length - (e + 4)) ∧ body = textOf part
  otherwise : (∀ e, ¬IsHeaderEnd bytes e) ∨ (∀ length, ¬DeclaresLength headers length) → body = ""

/-- The request that bytes are. -/
structure IsRequest (bytes : List UInt8) (r : Request) : Prop where
  line : ∃ target version, IsFirstLine bytes (r.method.lead ++ (target ++ space :: version)) ∧
    target ≠ [] ∧ space ∉ target ∧ r.target = textOf target
  space_notMem : ' ' ∉ r.target.toList
  mark_notMem : '?' ∉ r.path.toList
  target_eq : r.target = r.path ∧ r.query = "" ∨ r.target = r.path ++ "?" ++ r.query
  headers : ∃ block lines, IsHeaderBlock bytes block ∧
    ['\n'].intercalate lines = Text.Utf8.decode block ∧ (∀ line ∈ lines, '\n' ∉ line) ∧
    IsHeaders lines r.headers
  body : IsBody bytes r.headers r.body

/-- An answer to what bytes are. -/
structure Decides (bytes : List UInt8) (answer : Except RequestFault Request) : Prop where
  empty_iff : answer = .error .empty ↔ bytes = []
  unsupportedMethod_iff : answer = .error .unsupportedMethod ↔
    bytes ≠ [] ∧ ∀ (method : Method) (rest : List UInt8), ¬IsFirstLine bytes (method.lead ++ rest)
  malformedRequestLine_iff : answer = .error .malformedRequestLine ↔
    ∃ (method : Method) (rest : List UInt8), IsFirstLine bytes (method.lead ++ rest) ∧
      (space ∉ rest ∨ rest.head? = some space)
  ok_iff : (∃ r, answer = .ok r) ↔
    ∃ (method : Method) (target version : List UInt8),
      IsFirstLine bytes (method.lead ++ (target ++ space :: version)) ∧ target ≠ [] ∧
        space ∉ target
  isRequest : ∀ r, answer = .ok r → IsRequest bytes r

/-! ### The first line -/

section FirstLine

variable {bytes raw line rest : List UInt8} {method : Method}

theorem isUpToLineFeed_iff : IsUpToLineFeed bytes raw ↔ bytes.takeWhile (· != lineFeed) = raw := by
  constructor
  · rintro ⟨hraw, rfl | ⟨rest, rfl⟩⟩
    · exact List.takeWhile_eq_self_iff.2 fun b hb ↦ bne_iff_ne.2 fun heq ↦ hraw (heq ▸ hb)
    · exact takeWhile_bne_append hraw rest
  · rintro rfl
    have hsplit := List.takeWhile_append_dropWhile (p := (· != lineFeed)) (l := bytes)
    refine ⟨fun hmem ↦ by simpa using List.mem_takeWhile_imp hmem, ?_⟩
    cases hrest : bytes.dropWhile (· != lineFeed) with
    | nil =>
      rw [hrest, List.append_nil] at hsplit
      exact .inl hsplit.symm
    | cons b rest =>
      have hhead := List.head?_dropWhile_not (· != lineFeed) bytes
      rw [hrest] at hhead hsplit
      obtain rfl : b = lineFeed := by simpa using hhead
      exact .inr ⟨rest, hsplit.symm⟩

theorem isFirstLine_iff : IsFirstLine bytes line ↔ firstLine bytes = line := by
  unfold IsFirstLine firstLine
  simp only [isUpToLineFeed_iff, exists_eq_left']
  generalize bytes.takeWhile (· != lineFeed) = raw
  split_ifs with hlast
  · obtain ⟨init, rfl⟩ := List.getLast?_eq_some_iff.1 hlast
    rw [List.dropLast_concat]
    constructor
    · rintro (heq | ⟨rfl, hne⟩)
      · exact List.append_cancel_right heq
      · exact absurd hlast hne
    · rintro rfl
      exact .inl rfl
  · constructor
    · rintro (rfl | ⟨rfl, -⟩)
      · exact absurd List.getLast?_concat hlast
      · rfl
    · rintro rfl
      exact .inr ⟨rfl, hlast⟩

/-- A line begins with the name of at most one method and a space. -/
theorem Method.ofLine?_eq_some_iff :
    Method.ofLine? line = some method ↔ ∃ rest, line = method.lead ++ rest := by
  constructor
  · intro h
    obtain ⟨rest, hrest⟩ := Method.lead_isPrefix_of_ofLine? h
    exact ⟨rest, hrest.symm⟩
  · rintro ⟨rest, rfl⟩
    exact Method.ofLine?_lead_append method rest

theorem Method.ofLine?_eq_none_iff :
    Method.ofLine? line = none ↔ ∀ (method : Method) rest, line ≠ method.lead ++ rest := by
  rw [Option.eq_none_iff_forall_ne_some]
  simp only [Ne, Method.ofLine?_eq_some_iff, not_exists]

/-- A line with a method is not empty. -/
theorem firstLine_lead_ne_nil (h : firstLine bytes = method.lead ++ rest) : bytes ≠ [] := by
  rintro rfl
  cases method <;> cases h

end FirstLine

/-! ### The headers -/

section Headers

variable {bytes : List UInt8}

theorem isHeaderEnd_iff {e : Nat} : IsHeaderEnd bytes e ↔ headerEnd? bytes = some e :=
  headerEnd?_eq_some_iff.symm

theorem forall_not_isHeaderEnd_iff : (∀ e, ¬IsHeaderEnd bytes e) ↔ headerEnd? bytes = none := by
  rw [Option.eq_none_iff_forall_ne_some]
  simp only [isHeaderEnd_iff, Ne]

theorem isHeaderBlock_headBytes (bytes : List UInt8) : IsHeaderBlock bytes (headBytes bytes) := by
  refine ⟨_, (headerEnd? bytes).getD bytes.length, isUpToLineFeed_iff.2 rfl, ?_, ?_⟩
  · rw [headBytes, List.extract_eq_take_drop, List.drop_take]
  · cases he : headerEnd? bytes with
    | none => exact .inr ⟨forall_not_isHeaderEnd_iff.2 he, rfl⟩
    | some e => exact .inl (isHeaderEnd_iff.2 he)

/-- A line is blank if nothing is left of it without the carriage returns at its end. -/
theorem isEmpty_trimEndWhile_iff {line : List Char} :
    (Text.trimEndWhile (· == '\r') line).isEmpty = true ↔ ∀ c ∈ line, c = '\r' := by
  simp [Text.trimEndWhile, List.dropWhile_eq_nil_iff]

/-- The headers are read line by line. -/
theorem isHeaders_filterMap (lines : List (List Char)) :
    IsHeaders lines (((lines.map (Text.trimEndWhile (· == '\r'))).takeWhile
      (!·.isEmpty)).filterMap headerOf?) := by
  induction lines with
  | nil => exact .nil
  | cons line lines ih =>
    rw [List.map_cons]
    by_cases hline : ∀ c ∈ line, c = '\r'
    · have hempty := isEmpty_trimEndWhile_iff.2 hline
      rw [List.takeWhile_cons_of_neg (by simp [hempty])]
      exact .blank hline
    have hempty := mt isEmpty_trimEndWhile_iff.1 hline
    rw [List.takeWhile_cons_of_pos (by simpa using hempty), List.filterMap_cons,
      headerOf?_trimEndWhile]
    cases hsplit : Text.splitOnce ':' line with
    | none =>
      rw [Text.splitOnce_eq_none_iff] at hsplit
      rw [headerOf?_eq_none hsplit]
      exact .skip (by simpa using hline) hsplit ih
    | some parts =>
      rcases parts with ⟨name, value⟩
      rw [headerOf?_of_splitOnce hsplit]
      obtain ⟨rfl, hname⟩ := Text.splitOnce_eq_some_iff.1 hsplit
      exact .header hname ih

/-- The text of a header block is read in lines. -/
theorem exists_isHeaders_readHeaders (text : List Char) :
    ∃ lines, ['\n'].intercalate lines = text ∧ (∀ line ∈ lines, '\n' ∉ line) ∧
      IsHeaders lines (readHeaders text) :=
  ⟨text.splitOn '\n', List.intercalate_splitOn '\n',
    fun _ hline ↦ Text.notMem_of_mem_splitOn hline, isHeaders_filterMap _⟩

end Headers

/-! ### The body -/

theorem declaresLength_iff {headers : List (String × String)} {length : Nat} :
    DeclaresLength headers length ↔ contentLengthIn? headers = some length := by
  unfold DeclaresLength contentLengthIn? headerIn?
  simp only [Option.bind_eq_some_iff, Option.map_eq_some_iff, List.find?_eq_some_iff_append]
  constructor
  · rintro ⟨before, name, value, after, heq, hbefore, hname, hvalue⟩
    exact ⟨value, ⟨(name, value), ⟨hname, before, after, heq, by simpa using hbefore⟩, rfl⟩, hvalue⟩
  · rintro ⟨_, ⟨⟨name, value⟩, ⟨hname, before, after, heq, hbefore⟩, rfl⟩, hvalue⟩
    exact ⟨before, name, value, after, heq, by simpa using hbefore, hname, hvalue⟩

theorem isBody_bodyOf (bytes : List UInt8) (headers : List (String × String)) :
    IsBody bytes headers (bodyOf bytes headers) where
  declared e length he hlength := by
    rw [isHeaderEnd_iff] at he
    rw [declaresLength_iff] at hlength
    refine ⟨(bytes.drop (e + 4)).take length, (bytes.drop (e + 4)).drop length,
      (List.take_append_drop _ _).symm, ?_, ?_⟩
    · rw [List.length_take, List.length_drop]
    · rw [bodyOf, he, hlength]
  otherwise h := by
    rw [forall_not_isHeaderEnd_iff] at h
    unfold bodyOf
    split
    · rename_i e length he hlength
      rcases h with hnone | hnone
      · rw [he] at hnone
        cases hnone
      · exact absurd (declaresLength_iff.2 hlength) (hnone length)
    · rfl

/-! ### Parsing -/

/-- The target is the path with the query, which begins behind the first question mark. -/
theorem target_eq_of_splitOnce {target path query : List Char}
    (h : (Text.splitOnce '?' target).getD (target, []) = (path, query)) :
    '?' ∉ path ∧ (String.ofList target = String.ofList path ∧ String.ofList query = "" ∨
      String.ofList target = String.ofList path ++ "?" ++ String.ofList query) := by
  cases hsplit : Text.splitOnce '?' target with
  | none =>
    rw [hsplit] at h
    obtain ⟨rfl, rfl⟩ := Prod.mk.inj h
    exact ⟨Text.splitOnce_eq_none_iff.1 hsplit, .inl ⟨rfl, rfl⟩⟩
  | some parts =>
    rw [hsplit] at h
    obtain rfl : parts = (path, query) := h
    obtain ⟨rfl, hmark⟩ := Text.splitOnce_eq_some_iff.1 hsplit
    refine ⟨hmark, .inr ?_⟩
    rw [List.append_cons, String.ofList_append, String.ofList_append]

/-- No space is read where there is none. -/
theorem space_notMem_decode {bytes : List UInt8} (h : space ∉ bytes) :
    ' ' ∉ Text.Utf8.decode bytes := by
  intro hmem
  obtain ⟨b, hb, hnat⟩ := Text.Utf8.mem_of_mem_decode (by decide) (by decide) hmem
  obtain rfl : b = space := UInt8.toNat_inj.1 hnat
  exact h hb

section Parse

variable {bytes rest : List UInt8} {method : Method}

theorem parse_eq_unsupportedMethod (hne : bytes ≠ [])
    (h : ∀ (method : Method) (rest : List UInt8), firstLine bytes ≠ method.lead ++ rest) :
    Request.parse bytes = .error .unsupportedMethod := by
  rw [Request.parse, if_neg (by simpa using hne)]
  dsimp only
  rw [Method.ofLine?_eq_none_iff.2 h]

/-- What is behind the method decides whether there is a target. -/
theorem parse_eq_malformedRequestLine (h : firstLine bytes = method.lead ++ rest)
    (hrest : space ∉ rest ∨ rest.head? = some space) :
    Request.parse bytes = .error .malformedRequestLine := by
  rw [Request.parse, if_neg (by simpa using firstLine_lead_ne_nil h)]
  dsimp only
  rw [Method.ofLine?_eq_some_iff.2 ⟨rest, h⟩, h]
  dsimp only
  rw [List.drop_left, if_pos (by simpa using hrest)]

/-- A target before a space is all that a request must have. -/
theorem exists_isRequest {target version : List UInt8}
    (h : firstLine bytes = method.lead ++ (target ++ space :: version)) (hne : target ≠ [])
    (hspace : space ∉ target) : ∃ r, Request.parse bytes = .ok r ∧ IsRequest bytes r := by
  have hhead : (target ++ space :: version).head? ≠ some space := by
    cases target with
    | nil => exact absurd rfl hne
    | cons b target => exact fun hb ↦ hspace (Option.some.inj hb ▸ List.mem_cons_self)
  have hcontains : (target ++ space :: version).contains space = true :=
    List.contains_iff_mem.2 (List.mem_append_right _ List.mem_cons_self)
  rw [Request.parse, if_neg (by simpa using firstLine_lead_ne_nil h)]
  dsimp only
  rw [Method.ofLine?_eq_some_iff.2 ⟨_, h⟩, h]
  dsimp only
  rw [List.drop_left, hcontains, decide_eq_false hhead, takeWhile_bne_append hspace]
  obtain ⟨hmark, htarget⟩ := @target_eq_of_splitOnce (Text.Utf8.decode target) _ _ rfl
  obtain ⟨lines, hjoin, hlines, hheaders⟩ :=
    exists_isHeaders_readHeaders (Text.Utf8.decode (headBytes bytes))
  refine ⟨_, rfl, {
    line := ⟨target, version, isFirstLine_iff.2 h, hne, hspace, rfl⟩
    space_notMem := ?_
    mark_notMem := ?_
    target_eq := htarget
    headers := ⟨_, lines, isHeaderBlock_headBytes bytes, hjoin, hlines, hheaders⟩
    body := isBody_bodyOf bytes _ }⟩
  · dsimp only
    rw [String.toList_ofList]
    exact space_notMem_decode hspace
  · dsimp only
    rw [String.toList_ofList]
    exact hmark

/-- What the first line may be, and the answer to each case. -/
inductive Answers (bytes : List UInt8) : Except RequestFault Request → Prop
  | empty (hbytes : bytes = []) : Answers bytes (.error .empty)
  | unsupportedMethod (hne : bytes ≠ [])
      (hline : ∀ (method : Method) rest, firstLine bytes ≠ method.lead ++ rest) :
      Answers bytes (.error .unsupportedMethod)
  | malformedRequestLine {method : Method} {rest : List UInt8}
      (hline : firstLine bytes = method.lead ++ rest)
      (hrest : space ∉ rest ∨ rest.head? = some space) :
      Answers bytes (.error .malformedRequestLine)
  | request {method : Method} {target version : List UInt8} {r : Request}
      (hline : firstLine bytes = method.lead ++ (target ++ space :: version))
      (hne : target ≠ []) (hspace : space ∉ target) (hrequest : IsRequest bytes r) :
      Answers bytes (.ok r)

theorem answers_parse (bytes : List UInt8) : Answers bytes (Request.parse bytes) := by
  by_cases hne : bytes = []
  · subst hne
    exact .empty rfl
  by_cases hmethod : ∀ (method : Method) rest, firstLine bytes ≠ method.lead ++ rest
  · rw [parse_eq_unsupportedMethod hne hmethod]
    exact .unsupportedMethod hne hmethod
  push Not at hmethod
  obtain ⟨method, rest, hline⟩ := hmethod
  by_cases hrest : space ∉ rest ∨ rest.head? = some space
  · rw [parse_eq_malformedRequestLine hline hrest]
    exact .malformedRequestLine hline hrest
  push Not at hrest
  obtain ⟨target, version, rfl, htarget⟩ := List.eq_append_cons_of_mem hrest.1
  have htarget_ne : target ≠ [] := by
    rintro rfl
    exact hrest.2 rfl
  obtain ⟨r, hparse, hrequest⟩ := exists_isRequest hline htarget_ne htarget
  rw [hparse]
  exact .request hline htarget_ne htarget hrequest

end Parse

/-- Each of the answers stands exactly where it should. -/
theorem decides_requestParse (bytes : List UInt8) : Decides bytes (Request.parse bytes) := by
  have hanswers := answers_parse bytes
  constructor
  · refine ⟨fun h ↦ ?_, fun h ↦ h ▸ rfl⟩
    rw [h] at hanswers
    cases hanswers with
    | empty hbytes => exact hbytes
  · simp only [isFirstLine_iff]
    refine ⟨fun h ↦ ?_, fun ⟨hne, hmethod⟩ ↦ parse_eq_unsupportedMethod hne hmethod⟩
    rw [h] at hanswers
    cases hanswers with
    | unsupportedMethod hne hline => exact ⟨hne, hline⟩
  · simp only [isFirstLine_iff]
    refine ⟨fun h ↦ ?_, fun ⟨_, _, hline, hrest⟩ ↦ parse_eq_malformedRequestLine hline hrest⟩
    rw [h] at hanswers
    cases hanswers with
    | malformedRequestLine hline hrest => exact ⟨_, _, hline, hrest⟩
  · simp only [isFirstLine_iff]
    refine ⟨fun ⟨r, h⟩ ↦ ?_, fun ⟨_, _, _, hline, hne, hspace⟩ ↦
      (exists_isRequest hline hne hspace).imp fun _ h ↦ h.1⟩
    rw [h] at hanswers
    cases hanswers with
    | request hline hne hspace _ => exact ⟨_, _, _, hline, hne, hspace⟩
  · intro r h
    rw [h] at hanswers
    cases hanswers with
    | request _ _ _ hrequest => exact hrequest

/-- Parsing by positions answers for every buffer what its bytes are. -/
theorem Buffer.decides_parse (buffer : Buffer) :
    Offsets.parse buffer.bytes = some (Request.parse buffer.bytes) ∧
      Decides buffer.bytes (Request.parse buffer.bytes) :=
  ⟨Offsets.parse_eq buffer.length_le, decides_requestParse buffer.bytes⟩

end ScriptHost.Http
