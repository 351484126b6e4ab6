import ScriptHost.Http.Offsets
import ScriptHost.Proofs.Http.BlankLine
import ScriptHost.Proofs.Text.Utf8

/-!
# Positions in a buffer

Taking a request apart never takes a piece that is not there, and no sum of positions overflows,
whatever is in the buffer: the first line feed and the first blank line are found independently of
each other, and each may be missing or stand before the other.

## Main results

* `Http.Offsets.findMethod?_eq` : the byte behind a method's name is there when it is looked at.
* `Http.Offsets.headers?_eq`, `Http.Offsets.body?_eq` : so are the header block and the body.
* `Http.Offsets.parse_eq` : parsing by positions always gives an answer, that of `Request.parse`.
-/

namespace ScriptHost.Http

/-- A line begins with the method that is found on it. -/
theorem Method.lead_isPrefix_of_ofLine? {line : List UInt8} {m : Method}
    (h : Method.ofLine? line = some m) : m.lead <+: line := by
  unfold Method.ofLine? at h
  have hlead := List.find?_some h
  exact List.isPrefixOf_iff_prefix.1 hlead

namespace Offsets

section Pieces

variable {bytes : List UInt8} {i j : Nat}

theorem slice?_eq (hij : i ≤ j) (hj : j ≤ bytes.length) :
    slice? bytes i j = some ((bytes.take j).drop i) := by
  rw [slice?, if_pos ⟨hij, hj⟩, List.extract_eq_take_drop, List.drop_take]

/-- What comes before the first byte of a kind. -/
theorem slice?_findIdx (bytes : List UInt8) (p : UInt8 → Bool) :
    slice? bytes 0 (bytes.findIdx p) = some (bytes.takeWhile fun b ↦ !p b) := by
  rw [slice?_eq (Nat.zero_le _) List.findIdx_le_length, List.takeWhile_eq_take_findIdx_not]
  simp

/-- Positions in a buffer are far from the greatest one. -/
theorem add?_eq_some (h : bytes.length ≤ maxBufferBytes) (hi : i + j ≤ bytes.length) :
    add? i j = some (i + j) := by
  have hbound : maxBufferBytes < lengthBound := by decide
  exact if_pos (by omega)

end Pieces

/-! ### The request line -/

theorem firstLine?_eq (bytes : List UInt8) : firstLine? bytes = some (firstLine bytes) := by
  rw [firstLine?, slice?_findIdx]
  rfl

/-- A line is no longer than the bytes that it is in. -/
theorem length_firstLine_le (bytes : List UInt8) : (firstLine bytes).length ≤ bytes.length := by
  have hline := (List.takeWhile_prefix (p := (· != lineFeed)) (l := bytes)).length_le
  unfold firstLine
  dsimp only
  split_ifs
  · rw [List.length_dropLast]
    omega
  · exact hline

theorem lead_eq (m : Method) : m.lead = nameBytes m ++ [space] := Text.Utf8.encode_append _ _

/-- The byte behind the name of a method is looked at only where there is one. -/
theorem hasMethod?_eq (line : List UInt8) (m : Method) :
    hasMethod? line m = some (m.lead.isPrefixOf line) := by
  rw [hasMethod?, lead_eq]
  generalize nameBytes m = name
  split_ifs with h
  · obtain ⟨hlt, hname⟩ := h
    obtain ⟨rest, rfl⟩ := List.isPrefixOf_iff_prefix.1 hname
    cases rest with
    | nil => simp at hlt
    | cons b rest =>
      have hbyte : (name ++ b :: rest)[name.length]? = some b := by simp
      rw [hbyte, Option.map_some, Option.some.injEq, Bool.eq_iff_iff, List.isPrefixOf_iff_prefix,
        List.prefix_append_right_inj, List.cons_prefix_cons, beq_iff_eq]
      exact ⟨fun hb ↦ ⟨hb.symm, List.nil_prefix⟩, fun hb ↦ hb.1.symm⟩
  · rw [Option.some.injEq, eq_comm, Bool.eq_false_iff, Ne, List.isPrefixOf_iff_prefix]
    intro hlead
    have hname : name <+: line := (List.prefix_append _ _).trans hlead
    have hlength := hlead.length_le
    rw [List.length_append, List.length_singleton] at hlength
    exact h ⟨hlength, List.isPrefixOf_iff_prefix.2 hname⟩

theorem findMethod?_eq (line : List UInt8) (ms : List Method) :
    findMethod? line ms = some (ms.find? fun m ↦ m.lead.isPrefixOf line) := by
  induction ms with
  | nil => rfl
  | cons m ms ih =>
    rw [findMethod?, hasMethod?_eq, List.find?_cons]
    cases m.lead.isPrefixOf line with
    | true => rfl
    | false => exact ih

/-- The target is taken between the positions of two spaces. -/
theorem target?_eq {line : List UInt8} {m : Method} (h : line.length ≤ maxBufferBytes)
    (hlead : m.lead <+: line) :
    target? line m = some (
      if !(line.drop m.lead.length).contains space ||
          (line.drop m.lead.length).head? = some space then none
      else some ((line.drop m.lead.length).takeWhile (· != space))) := by
  have hlength : m.lead.length = (nameBytes m).length + 1 := by
    rw [lead_eq, List.length_append, List.length_singleton]
  have hle := hlead.length_le
  rw [hlength] at hle
  unfold target?
  rw [add?_eq_some h hle]
  simp only [Option.bind_eq_bind, Option.bind_some]
  rw [slice?_eq hle (Nat.le_refl _), List.take_length, hlength]
  generalize line.drop ((nameBytes m).length + 1) = rest
  simp only [Option.bind_some]
  have htake := slice?_findIdx rest (· == space)
  cases rest with
  | nil => rfl
  | cons b rest =>
    by_cases hb : b = space
    · subst hb
      rfl
    rw [List.findIdx?_cons, if_neg (by simpa using hb)]
    rw [List.findIdx_cons] at htake
    simp only [beq_eq_false_iff_ne.2 hb, cond_false] at htake
    cases hstop : rest.findIdx? (· == space) with
    | none =>
      have hnone : space ∉ b :: rest := by
        have hrest := List.findIdx?_eq_none_iff.1 hstop
        rintro (_ | ⟨_, hmem⟩)
        · exact hb rfl
        · exact absurd (hrest space hmem) (by decide)
      rw [List.contains_eq_mem, decide_eq_false hnone]
      rfl
    | some stop =>
      obtain ⟨hlt, hfind⟩ := List.findIdx?_eq_some_iff_findIdx_eq.1 hstop
      obtain ⟨c, hc, hspace⟩ := List.findIdx_lt_length.1 (hfind ▸ hlt)
      have hmem : space ∈ b :: rest := List.mem_cons_of_mem b (eq_of_beq hspace ▸ hc)
      rw [hfind] at htake
      rw [List.contains_eq_mem, decide_eq_true hmem]
      simp only [Option.map_some, htake, Option.bind_some]
      rw [if_neg (by simpa using hb)]
      rfl

/-! ### The header block and the body -/

section Parts

variable {bytes : List UInt8}

theorem headStop_le (bytes : List UInt8) : (headerEnd? bytes).getD bytes.length ≤ bytes.length := by
  cases he : headerEnd? bytes with
  | none => exact Nat.le_refl _
  | some e => exact Nat.le_trans (Nat.le_add_right e 4) (add_four_le_of_headerEnd? he)

/-- The header block is taken only where the first line ends before it does. -/
theorem headers?_eq (h : bytes.length ≤ maxBufferBytes) :
    headers? bytes = some (readHeaders (Text.Utf8.decode (headBytes bytes))) := by
  have hstop := headStop_le bytes
  have hline : (bytes.takeWhile (· != lineFeed)).length = bytes.findIdx (· == lineFeed) := by
    rw [List.takeWhile_eq_take_findIdx_not, List.length_take]
    simp [bne, List.findIdx_le_length]
  unfold headers? headBytes
  rw [hline]
  dsimp only
  split_ifs with hlt
  · rw [add?_eq_some h (Nat.le_trans hlt hstop)]
    simp only [Option.bind_eq_bind, Option.bind_some]
    rw [slice?_eq hlt hstop]
    rfl
  · have hnil : (bytes.take ((headerEnd? bytes).getD bytes.length)).drop
        (bytes.findIdx (· == lineFeed) + 1) = [] := by
      refine List.drop_eq_nil_of_le ?_
      rw [List.length_take]
      omega
    rw [hnil]
    rfl

/-- The body is taken only where there are bytes behind the header block, and its end is at most
that of the bytes, however long it is declared to be. -/
theorem body?_eq (h : bytes.length ≤ maxBufferBytes) (headers : List (String × String)) :
    body? bytes headers = some (bodyOf bytes headers) := by
  unfold body? bodyOf
  cases he : headerEnd? bytes with
  | none => rfl
  | some e =>
    cases contentLengthIn? headers with
    | none => rfl
    | some length =>
      have hle := add_four_le_of_headerEnd? he
      have hbound : bytes.length ≤ lengthBound - 1 := Nat.le_trans h (by decide)
      have hstop : min (saturatingAdd (e + 4) length) bytes.length =
          min (e + 4 + length) bytes.length := by
        rw [saturatingAdd]
        omega
      dsimp only
      rw [add?_eq_some h hle]
      simp only [Option.bind_eq_bind, Option.bind_some]
      rw [hstop]
      split_ifs with hlt
      · rw [slice?_eq (Nat.le_of_lt hlt) (Nat.min_le_right _ _)]
        have hpiece : (bytes.take (min (e + 4 + length) bytes.length)).drop (e + 4) =
            (bytes.drop (e + 4)).take length := by
          rw [← List.take_take, List.take_length, List.drop_take, Nat.add_sub_cancel_left]
        rw [hpiece]
        rfl
      · have hnil : (bytes.drop (e + 4)).take length = [] := by
          rw [← List.length_eq_zero_iff, List.length_take, List.length_drop]
          omega
        rw [hnil]
        rfl

end Parts

/-- Parsing by positions always gives an answer. -/
theorem parse_eq {bytes : List UInt8} (h : bytes.length ≤ maxBufferBytes) :
    parse bytes = some (Request.parse bytes) := by
  unfold parse Request.parse
  split_ifs with hempty
  · rfl
  have hmethods : findMethod? (firstLine bytes) Method.all =
      some (Method.ofLine? (firstLine bytes)) := findMethod?_eq _ _
  simp only [firstLine?_eq, hmethods, Option.bind_eq_bind, Option.bind_some]
  cases hmethod : Method.ofLine? (firstLine bytes) with
  | none => rfl
  | some method =>
    have hlead := Method.lead_isPrefix_of_ofLine? hmethod
    have hline : (firstLine bytes).length ≤ maxBufferBytes :=
      Nat.le_trans (length_firstLine_le bytes) h
    simp only [target?_eq hline hlead, Option.bind_some]
    split_ifs
    · rfl
    · simp only [headers?_eq h, body?_eq h, Option.bind_some]
      rfl

end Offsets

end ScriptHost.Http
