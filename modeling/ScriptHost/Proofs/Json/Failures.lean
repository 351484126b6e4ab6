import ScriptHost.Proofs.Json.Cursor.Agreement
import ScriptHost.Proofs.Json.ViablePrefixes

/-!
# What a failure tells

A failure has an offset, which lies between two characters, and the text up to it can be completed
to a document, however deep that goes.  A nesting that is too deep is met where one container more
is open than may enclose a value.

## Main definitions

* `Json.Failure.PointsBehind` : a failure with the text up to its offset.

## Main results

* `Json.parse_pointsBehind` : parsing never panics, and its failures point behind what can be
  completed.
-/

namespace ScriptHost.Json

theorem byteCount_toList (text : String) : Text.byteCount text.toList = text.utf8ByteSize := by
  rw [Text.byteCount_eq, ← String.size_toByteArray, ← String.utf8Encode_toList, List.utf8Encode,
    List.size_toByteArray]
  rfl

/-- A failure in a text and what stands before its offset.  The text is no document that may be
read, and what stands before the offset is not what keeps it from being one. -/
structure Failure.PointsBehind (f : Failure) (text : String) (before : List Char) : Prop where
  offset_le : f.offset ≤ text.utf8ByteSize
  isValid : String.Pos.Raw.IsValid text ⟨f.offset⟩
  slice?_eq : Cursor.slice? (Text.Utf8.encode text.toList) 0 f.offset = some before
  exists_document : ∃ rest d t, DocumentText d (before ++ rest) t
  lt_of_document : ∀ d t, DocumentText d text.toList t → 512 < d
  openContainers_eq : f.fault = .nestingTooDeep → openContainers before = 513

/-- What stands before the place at which reading stops is what the failure points behind. -/
theorem exists_pointsBehind_of_readDocument {text : String} {stop : Stop}
    (h : readDocument text.toList = .error stop) :
    ∃ before, Failure.PointsBehind
      ⟨stop.fault, Text.byteCount text.toList - Text.byteCount stop.left⟩ text before := by
  obtain ⟨before, rest, hs, hdocument, hdeep⟩ := stopsIn_of_readDocument h
  have hoffset : Text.byteCount text.toList - Text.byteCount stop.left = Text.byteCount before := by
    rw [hs, Text.byteCount_append, Nat.add_sub_cancel]
  have htext : text = String.ofList before ++ String.ofList stop.left := by
    rw [← String.ofList_append, ← hs, String.ofList_toList]
  rw [hoffset]
  refine ⟨before, ?_, ?_, ?_, ⟨rest, hdocument⟩, fun d t hd ↦ ?_,
    fun hfault ↦ (hdeep hfault).openContainers_eq⟩
  · rw [← byteCount_toList, hs, Text.byteCount_append]
    exact Nat.le_add_right _ _
  · refine String.Pos.Raw.isValid_iff_exists_append.2 ⟨_, _, htext, ?_⟩
    rw [String.Pos.Raw.ext_iff, String.byteIdx_rawEndPos, ← byteCount_toList, String.toList_ofList]
  · have hplace : Cursor.At text.toList 0 (before ++ stop.left) := hs ▸ Cursor.at_zero _
    have hslice := hplace.slice?_eq
    rwa [Nat.zero_add] at hslice
  · refine Nat.lt_of_not_le fun hle : d ≤ maxNesting ↦ ?_
    have hanswer := hd.answers
    rw [if_pos hle, h] at hanswer
    cases hanswer

/-- Parsing never panics, whether it looks at a byte or takes a piece of the text, and a failure of
it points behind what can be completed to a document. -/
theorem parse_pointsBehind (text : String) :
    Cursor.parse text = (parse text).mapError .failed ∧ Cursor.parse text ≠ .error .panicked ∧
      ∀ f, parse text = .error f → ∃ before, f.PointsBehind text before := by
  have hagree := Cursor.parse_eq_mapError text
  refine ⟨hagree, ?_, fun f hf ↦ ?_⟩
  · rw [hagree]
    cases parse text with
    | error f => simp [Except.mapError]
    | ok t => simp [Except.mapError]
  · rw [parse_eq] at hf
    rcases hread : readDocument text.toList with stop | t
    · rw [hread] at hf
      cases hf
      exact exists_pointsBehind_of_readDocument hread
    · rw [hread] at hf
      cases hf

/-- The character that cannot follow an element is met behind a space. -/
example : (match parse "[1, 2 x]" with
    | .error f => some f
    | .ok _ => none) = some ⟨.expectedArraySeparator, 6⟩ := by
  decide +kernel

/-! ### A text of brackets -/

/-- Each level takes one bracket, and the next bracket is too deep. -/
theorem outcome_readValue_brackets (levels : Nat) (s : List Char) :
    outcome (readValue levels (List.replicate levels '[' ++ '[' :: s)) =
      .error ⟨.nestingTooDeep, '[' :: s⟩ := by
  induction levels with
  | zero => rfl
  | succ levels ih =>
    have hskip : skipSpace (List.replicate levels '[' ++ '[' :: s) =
        List.replicate levels '[' ++ '[' :: s := by
      cases levels <;> rfl
    have hclose (r : List Char) : skipSpace (List.replicate levels '[' ++ '[' :: s) ≠ ']' :: r := by
      cases levels <;> exact fun h ↦ absurd (List.cons.inj h).1 (by decide)
    rw [List.replicate_succ, List.cons_append, outcome_readValue_cons, if_neg (by decide),
      if_pos rfl, outcome_readArray_of_ne _ hclose, outcome_readElements, hskip, ih]
    rfl

theorem byteCount_brackets (n : Nat) : Text.byteCount (List.replicate n '[') = n := by
  induction n with
  | zero => rfl
  | succ n ih =>
    rw [List.replicate_succ, ← List.singleton_append, Text.byteCount_append, ih, Nat.add_comm]
    rfl

/-- One bracket more than containers may be open. -/
theorem parse_brackets :
    parse (String.ofList (List.replicate 514 '[')) = .error ⟨.nestingTooDeep, 513⟩ := by
  have hsplit : List.replicate 514 '[' = List.replicate (maxNesting + 1) '[' ++ ['['] :=
    List.replicate_succ'
  have hskip : skipSpace (List.replicate 514 '[') = List.replicate 514 '[' := rfl
  have hread : readDocument (List.replicate 514 '[') = .error ⟨.nestingTooDeep, ['[']⟩ := by
    rw [readDocument_eq, hskip, hsplit, outcome_readValue_brackets]
    rfl
  rw [parse_eq, String.toList_ofList, hread, byteCount_brackets]
  rfl

/-- The failure of the brackets points behind all of them but the last. -/
theorem exists_pointsBehind_brackets :
    parse (String.ofList (List.replicate 514 '[')) = .error ⟨.nestingTooDeep, 513⟩ ∧
      ∃ before, Failure.PointsBehind ⟨.nestingTooDeep, 513⟩
        (String.ofList (List.replicate 514 '[')) before :=
  ⟨parse_brackets, (parse_pointsBehind _).2.2 _ parse_brackets⟩

end ScriptHost.Json
