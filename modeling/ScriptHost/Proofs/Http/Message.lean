import ScriptHost.Proofs.Http.HeaderLines

/-!
# Well-formed requests

A request as a client writes it, and what parsing makes of its bytes: the parts that the client put
in, whatever follows the request in the buffer.

## Main definitions

* `Http.Header`, `Http.Message` : a header and a request as a client writes them.
* `Http.Message.bytes` : how the request is sent.
* `Http.Message.request` : the request that it means.

## Main results

* `Http.Message.parse_append` : the bytes of a request are parsed to what it means.
* `Http.Message.waitsForBody` : reading waits for its body.
-/

namespace ScriptHost

namespace Decimal

theorem readNat_of_isDigit {ds : List Char} {bound : Nat} (hne : ds ≠ [])
    (hdigit : ∀ c ∈ ds, c.isDigit = true) (hlt : ofDigits ds < bound) :
    readNat bound ds = some (ofDigits ds) := by
  have hall : ds.all Char.isDigit = true := List.all_eq_true.2 hdigit
  unfold readNat
  split
  · exact absurd (hdigit '+' List.mem_cons_self) (by decide)
  · dsimp only
    rw [hall, List.isEmpty_eq_false_iff.2 hne]
    exact if_pos hlt

/-- The digits of a natural number are read as it. -/
theorem readNat_repr {n bound : Nat} (h : n < bound) :
    readNat bound (Nat.repr n).toList = some n := by
  have hvalue : ofDigits (Nat.toDigits 10 n) = n := by
    rw [ofDigits_eq_foldl]
    exact Nat.ofDigitChars_eq_foldl.symm.trans Nat.ofDigitChars_ten_toDigits
  have hread : readNat bound (Nat.toDigits 10 n) = some (ofDigits (Nat.toDigits 10 n)) :=
    readNat_of_isDigit Nat.toDigits_ne_nil
      (fun _ hc ↦ Nat.isDigit_of_mem_toDigits (by decide) (by decide) hc) (hvalue.symm ▸ h)
  rw [Nat.toList_repr, hread, hvalue]

end Decimal

namespace Http

/-- A line end as text. -/
def lineEnd : List Char := ['\r', '\n']

/-- A header as a client writes it, with no white space around the name or the value. -/
structure Header where
  name : String
  value : String
  name_mem : ∀ c ∈ name.toList, c ≠ ':' ∧ c ≠ '\r' ∧ c ≠ '\n'
  value_mem : ∀ c ∈ value.toList, c ≠ '\r' ∧ c ≠ '\n'
  name_isTrimmed : Text.IsTrimmed name.toList
  value_isTrimmed : Text.IsTrimmed value.toList

namespace Header

/-- Whether a header has this name, in any letter case. -/
def isNamed (name : String) (h : Header) : Bool :=
  Text.sameIgnoringCase h.name.toList name.toList

/-- The line of a header. -/
def line (h : Header) : List Char := h.name.toList ++ ':' :: ' ' :: h.value.toList

end Header

/-- A request as a client writes it.  The first header of that name states how many bytes the body
has; without one there is no body. -/
structure Message where
  method : Method
  target : String
  version : String
  headers : List Header
  body : String
  target_ne : target ≠ ""
  target_mem : ∀ c ∈ target.toList, c ≠ ' ' ∧ c ≠ '\r' ∧ c ≠ '\n'
  version_mem : ∀ c ∈ version.toList, c ≠ '\r' ∧ c ≠ '\n'
  length_eq :
    match headers.find? (Header.isNamed "Content-Length") with
    | some h => h.value = Nat.repr (Text.Utf8.encode body.toList).length
    | none => body = ""

namespace Message

/-- The first line. -/
def requestLine (m : Message) : List Char :=
  m.method.name.toList ++ ' ' :: (m.target.toList ++ ' ' :: m.version.toList)

/-- How a request is written. -/
def text (m : Message) : List Char :=
  m.requestLine ++ lineEnd ++ m.headers.flatMap (fun h ↦ h.line ++ lineEnd) ++ lineEnd ++
    m.body.toList

/-- How a request is sent. -/
def bytes (m : Message) : List UInt8 := Text.Utf8.encode m.text

/-- The request that is meant. -/
def request (m : Message) : Request where
  method := m.method
  target := m.target
  path := String.ofList (m.target.toList.takeWhile (· != '?'))
  query := String.ofList ((m.target.toList.dropWhile (· != '?')).drop 1)
  headers := m.headers.map fun h ↦ (h.name, h.value)
  body := m.body

/-- The value of the first header with this name, in any letter case. -/
def header? (m : Message) (name : String) : Option String :=
  (m.headers.find? (Header.isNamed name)).map Header.value

end Message

/-! ### Lines -/

theorem Method.name_mem (method : Method) : ∀ c ∈ method.name.toList, c ≠ '\r' ∧ c ≠ '\n' := by
  cases method <;> simp [name]

theorem encode_lineEnd_append (s : List Char) :
    Text.Utf8.encode (lineEnd ++ s) = carriageReturn :: lineFeed :: Text.Utf8.encode s := rfl

/-- Lines that are each ended are lines with line ends between them and one at the end. -/
theorem encode_lines (first : List Char) (lines : List (List Char)) (body : List Char) :
    Text.Utf8.encode (first ++ lineEnd ++ lines.flatMap (· ++ lineEnd) ++ lineEnd ++ body) =
      joinLines (Text.Utf8.encode first) (lines.map Text.Utf8.encode) ++
        carriageReturn :: lineFeed :: carriageReturn :: lineFeed :: Text.Utf8.encode body := by
  induction lines generalizing first with
  | nil =>
    rw [List.flatMap_nil, List.append_nil, List.append_assoc, List.append_assoc,
      Text.Utf8.encode_append, encode_lineEnd_append, encode_lineEnd_append, List.map_nil,
      joinLines_nil]
  | cons line lines ih =>
    have htext : first ++ lineEnd ++ (line :: lines).flatMap (· ++ lineEnd) ++ lineEnd ++ body =
        first ++ (lineEnd ++ (line ++ lineEnd ++ lines.flatMap (· ++ lineEnd) ++ lineEnd ++
          body)) := by
      simp only [List.flatMap_cons, List.append_assoc]
    rw [htext, Text.Utf8.encode_append, encode_lineEnd_append, ih, List.map_cons, joinLines_cons,
      List.append_assoc]
    rfl

namespace Header

variable (h : Header)

theorem line_ne_nil : h.line ≠ [] := List.append_ne_nil_of_right_ne_nil _ (List.cons_ne_nil _ _)

theorem line_mem : ∀ c ∈ h.line, c ≠ '\r' ∧ c ≠ '\n' := by
  intro c hc
  rcases List.mem_append.1 hc with hc | hc
  · exact (h.name_mem c hc).2
  · rcases List.mem_cons.1 hc with rfl | hc
    · decide
    · rcases List.mem_cons.1 hc with rfl | hc
      · decide
      · exact h.value_mem c hc

/-- A header is read from its line. -/
theorem headerOf?_line : headerOf? h.line = some (h.name, h.value) := by
  have hsplit : Text.splitOnce ':' h.line = some (h.name.toList, ' ' :: h.value.toList) :=
    Text.splitOnce_eq_some_iff.2 ⟨rfl, fun hc ↦ (h.name_mem ':' hc).1 rfl⟩
  rw [headerOf?_of_splitOnce hsplit, Text.trim_cons (by decide), h.name_isTrimmed.trim_eq,
    h.value_isTrimmed.trim_eq, String.ofList_toList, String.ofList_toList]

/-- No carriage return stands at the end of the line of a header. -/
theorem trimEndWhile_line : Text.trimEndWhile (· == '\r') h.line = h.line :=
  Text.trimEndWhile_of_last fun c hc ↦
    beq_eq_false_iff_ne.2 (h.line_mem c (List.mem_of_mem_getLast? hc)).1

end Header

/-- The headers are read from their lines. -/
theorem filterMap_headerLines (headers : List Header) :
    (((headers.map fun h ↦ Text.Utf8.encode h.line).map Text.Utf8.decode).takeWhile fun line ↦
      !(Text.trimEndWhile (· == '\r') line).isEmpty).filterMap headerOf? =
        headers.map fun h ↦ (h.name, h.value) := by
  induction headers with
  | nil => rfl
  | cons h headers ih =>
    have hline : (!(Text.trimEndWhile (· == '\r') h.line).isEmpty) = true := by
      rw [h.trimEndWhile_line, List.isEmpty_eq_false_iff.2 h.line_ne_nil]
      rfl
    rw [List.map_cons, List.map_cons, Text.Utf8.decode_encode, List.takeWhile_cons, hline,
      if_pos rfl, List.filterMap_cons_some h.headerOf?_line, ih, List.map_cons]

/-! ### Parsing -/

/-- The line before the first full line end. -/
theorem firstLine_append_lineEnd {line : List UInt8} (h : lineFeed ∉ line) (tail : List UInt8) :
    firstLine (line ++ carriageReturn :: lineFeed :: tail) = line := by
  rw [firstLine, takeWhile_lineEnd h, List.getLast?_concat, if_pos rfl, List.dropLast_concat]

theorem Method.ofLine?_lead_append (method : Method) (bytes : List UInt8) :
    Method.ofLine? (method.lead ++ bytes) = some method := by
  cases method <;> rfl

/-- A target is not empty. -/
theorem head?_ne_space {target : List Char} (hne : target ≠ []) (h : ∀ c ∈ target, c ≠ ' ')
    (tail : List UInt8) : (Text.Utf8.encode target ++ tail).head? ≠ some space := by
  cases htarget : Text.Utf8.encode target with
  | nil => exact absurd htarget (Text.Utf8.encode_ne_nil hne)
  | cons b bytes =>
    intro hb
    have hmem : b ∈ Text.Utf8.encode target := htarget ▸ List.mem_cons_self
    exact Text.Utf8.not_mem_encode (b := space) (by decide) h (Option.some.inj hb ▸ hmem)

/-- What is parsed from a request line in full. -/
theorem Request.parse_of_firstLine {bytes : List UInt8} {method : Method}
    {target version : List Char}
    (hline : firstLine bytes =
      Text.Utf8.encode (method.name.toList ++ ' ' :: (target ++ ' ' :: version)))
    (hne : target ≠ []) (htarget : ∀ c ∈ target, c ≠ ' ') :
    Request.parse bytes = .ok {
      method
      target := String.ofList target
      path := String.ofList (target.takeWhile (· != '?'))
      query := String.ofList ((target.dropWhile (· != '?')).drop 1)
      headers := readHeaders (Text.Utf8.decode (headBytes bytes))
      body := bodyOf bytes (readHeaders (Text.Utf8.decode (headBytes bytes))) } := by
  have hlead : Text.Utf8.encode (method.name.toList ++ ' ' :: (target ++ ' ' :: version)) =
      method.lead ++ (Text.Utf8.encode target ++ space :: Text.Utf8.encode version) := by
    rw [List.append_cons, Text.Utf8.encode_append (method.name.toList ++ [' ']),
      Text.Utf8.encode_append target]
    rfl
  rw [hlead] at hline
  have hbytes : bytes.isEmpty = false := by
    cases bytes with
    | nil => cases method <;> cases hline
    | cons b bytes => rfl
  have hcontains : (Text.Utf8.encode target ++ space :: Text.Utf8.encode version).contains space =
      true := List.contains_iff_mem.2 (List.mem_append_right _ List.mem_cons_self)
  have hhead := head?_ne_space hne htarget (space :: Text.Utf8.encode version)
  have hspace : space ∉ Text.Utf8.encode target := Text.Utf8.not_mem_encode (by decide) htarget
  unfold Request.parse
  rw [hbytes, hline]
  simp only [Bool.false_eq_true, if_false]
  rw [Method.ofLine?_lead_append]
  dsimp only
  rw [List.drop_left, hcontains, decide_eq_false hhead, takeWhile_bne_append hspace,
    Text.Utf8.decode_encode, Text.splitOnce_getD]
  rfl

/-! ### The parts of a message -/

namespace Message

variable (m : Message) (more : List UInt8)

/-- The header block of a message, in lines. -/
def headerLines : List (List UInt8) := m.headers.map fun h ↦ Text.Utf8.encode h.line

/-- The header block of a message. -/
def head : List UInt8 := joinLines (Text.Utf8.encode m.requestLine) m.headerLines

theorem bytes_append :
    m.bytes ++ more = m.head ++ carriageReturn :: lineFeed :: carriageReturn :: lineFeed ::
      (Text.Utf8.encode m.body.toList ++ more) := by
  have htext : m.headers.flatMap (fun h ↦ h.line ++ lineEnd) =
      (m.headers.map Header.line).flatMap (· ++ lineEnd) := by rw [List.flatMap_map]
  rw [bytes, text, htext, encode_lines, List.map_map, List.append_assoc]
  rfl

theorem ne_lineFeed_of_mem_requestLine : ∀ c ∈ m.requestLine, c ≠ '\n' := by
  intro c hc
  rcases List.mem_append.1 hc with hc | hc
  · exact (m.method.name_mem c hc).2
  · rcases List.mem_cons.1 hc with rfl | hc
    · decide
    · rcases List.mem_append.1 hc with hc | hc
      · exact (m.target_mem c hc).2.2
      · rcases List.mem_cons.1 hc with rfl | hc
        · decide
        · exact (m.version_mem c hc).2

theorem lineFeed_not_mem_requestLine : lineFeed ∉ Text.Utf8.encode m.requestLine :=
  Text.Utf8.not_mem_encode (by decide) m.ne_lineFeed_of_mem_requestLine

theorem lineFeed_not_mem_headerLines : ∀ line ∈ m.headerLines, lineFeed ∉ line := by
  intro line hline
  obtain ⟨h, -, rfl⟩ := List.mem_map.1 hline
  exact Text.Utf8.not_mem_encode (by decide) fun c hc ↦ (h.line_mem c hc).2

/-- The header block of a message ends before the blank line. -/
theorem headerEnd?_bytes_append : headerEnd? (m.bytes ++ more) = some m.head.length := by
  have hlines : ∀ line ∈ m.headerLines,
      line ≠ [] ∧ ¬[carriageReturn, lineFeed] <:+: line := by
    intro line hline
    refine ⟨?_, Text.pair_notInfix_of_notMem (m.lineFeed_not_mem_headerLines line hline)⟩
    obtain ⟨h, -, rfl⟩ := List.mem_map.1 hline
    exact Text.Utf8.encode_ne_nil h.line_ne_nil
  rw [bytes_append]
  exact headerEnd?_joinLines (Text.pair_notInfix_of_notMem m.lineFeed_not_mem_requestLine) hlines _

theorem take_bytes_append : (m.bytes ++ more).take m.head.length = m.head := by
  rw [bytes_append, List.take_left]

/-- Reading waits for the body of a message. -/
theorem waitsForBody : WaitsForBody (m.bytes ++ more) :=
  waitsForBody_of_joinLines (m.headerEnd?_bytes_append more) (m.take_bytes_append more)
    m.lineFeed_not_mem_requestLine m.lineFeed_not_mem_headerLines

theorem firstLine_bytes_append : firstLine (m.bytes ++ more) = Text.Utf8.encode m.requestLine := by
  have hline := m.lineFeed_not_mem_requestLine
  rw [bytes_append, head]
  cases m.headerLines with
  | nil =>
    rw [joinLines_nil]
    exact firstLine_append_lineEnd hline _
  | cons line lines =>
    rw [joinLines_cons, List.append_assoc]
    exact firstLine_append_lineEnd hline _

/-- The headers of a message are read in order. -/
theorem readHeaders_bytes_append :
    readHeaders (Text.Utf8.decode (headBytes (m.bytes ++ more))) = m.request.headers := by
  have hend := m.headerEnd?_bytes_append more
  have htake : (m.bytes ++ more).take m.head.length =
      joinLines (Text.Utf8.encode m.requestLine) m.headerLines := m.take_bytes_append more
  have hfirst := m.lineFeed_not_mem_requestLine
  have hlines := m.lineFeed_not_mem_headerLines
  rw [request, ← filterMap_headerLines]
  change _ = ((m.headerLines.map _).takeWhile _).filterMap _
  cases hheaders : m.headerLines with
  | nil =>
    rw [hheaders] at htake
    rw [headBytes_of_nil hend htake hfirst]
    rfl
  | cons line lines =>
    rw [hheaders] at htake hlines
    obtain ⟨hline, hlines⟩ := List.forall_mem_cons.1 hlines
    rw [headBytes_of_cons hend htake hfirst, readHeaders_joinLines hline hlines]

theorem headerIn?_headers (name : String) : headerIn? m.request.headers name = m.header? name := by
  rw [headerIn?, request, List.find?_map, Option.map_map]
  rfl

theorem length_body_le : (Text.Utf8.encode m.body.toList).length ≤ m.bytes.length := by
  have hlength := congrArg List.length (m.bytes_append [])
  rw [List.append_nil, List.append_nil, List.length_append] at hlength
  simp only [List.length_cons] at hlength
  omega

/-- The length that a message states is that of its body. -/
theorem contentLengthIn?_headers (h : m.bytes.length < lengthBound) :
    contentLengthIn? m.request.headers =
      (m.headers.find? (Header.isNamed "Content-Length")).map fun _ ↦
        (Text.Utf8.encode m.body.toList).length := by
  have hlength := m.length_eq
  rw [contentLengthIn?, headerIn?_headers, header?]
  cases hfind : m.headers.find? (Header.isNamed "Content-Length") with
  | none => rfl
  | some header =>
    rw [hfind] at hlength
    rw [Option.map_some, Option.bind_some, hlength]
    exact Decimal.readNat_repr (Nat.lt_of_le_of_lt m.length_body_le h)

/-- The body of a message is read, and nothing behind it. -/
theorem bodyOf_bytes_append (h : m.bytes.length < lengthBound) :
    bodyOf (m.bytes ++ more) m.request.headers = m.body := by
  have hlength := m.length_eq
  have hbody : (m.bytes ++ more).drop (m.head.length + 4) =
      Text.Utf8.encode m.body.toList ++ more := by
    rw [bytes_append, List.drop_length_add_append]
    rfl
  rw [bodyOf, headerEnd?_bytes_append, contentLengthIn?_headers m h]
  cases hfind : m.headers.find? (Header.isNamed "Content-Length") with
  | none =>
    rw [hfind] at hlength
    exact hlength.symm
  | some header =>
    rw [Option.map_some]
    dsimp only
    rw [hbody, List.take_left, textOf, Text.Utf8.decode_encode, String.ofList_toList]

/-- The bytes of a message are parsed to what it means, whatever follows them. -/
theorem parse_append (h : m.bytes.length < lengthBound) :
    Request.parse (m.bytes ++ more) = .ok m.request := by
  have htarget : m.target.toList ≠ [] := fun hnil ↦ m.target_ne (String.toList_eq_nil_iff.1 hnil)
  rw [Request.parse_of_firstLine (m.firstLine_bytes_append more) htarget
    fun c hc ↦ (m.target_mem c hc).1, m.readHeaders_bytes_append, m.bodyOf_bytes_append more h,
    String.ofList_toList]
  rfl

end Message

end Http

end ScriptHost
