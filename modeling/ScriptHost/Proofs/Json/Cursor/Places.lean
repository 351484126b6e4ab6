import Mathlib.Tactic.Common
import ScriptHost.Json.Cursor
import ScriptHost.Proofs.Text.Bytes

/-!
# Places in a text

A place in a text is told by what is left of it, and by an index into its bytes.  At such an index a
piece of the text may be cut, and the byte there tells the character that follows as far as it is in
ASCII.

## Main definitions

* `Json.Cursor.At` : the index of the place at which some text is left.

## Main results

* `Json.Cursor.At.slice?_eq` : the pieces that can be taken between two places.
* `Json.Cursor.At.peek_eq_some_iff` : what the byte at a place tells.
* `Json.Cursor.At.skipWhile_eq` : what is passed over from a place on.
-/

namespace ScriptHost.Json.Cursor

open Text.Utf8

/-- The index of the place in a text at which `left` is left of it. -/
def At (text : List Char) (i : Nat) (left : List Char) : Prop :=
  ∃ before, text = before ++ left ∧ Text.byteCount before = i

section

variable {text left s u : List Char} {i j : Nat} {c : Char}

theorem at_zero (text : List Char) : At text 0 text := ⟨[], rfl, rfl⟩

/-- The index of a place is told by what is left. -/
theorem At.eq_sub (h : At text i left) : i = Text.byteCount text - Text.byteCount left := by
  obtain ⟨before, rfl, rfl⟩ := h
  rw [Text.byteCount_append, Nat.add_sub_cancel]

theorem At.drop_encode (h : At text i left) : (encode text).drop i = encode left := by
  obtain ⟨before, rfl, rfl⟩ := h
  rw [encode_append, Text.byteCount_eq, List.drop_left]

theorem At.append (h : At text i (u ++ s)) : At text (i + Text.byteCount u) s := by
  obtain ⟨before, rfl, rfl⟩ := h
  exact ⟨before ++ u, (List.append_assoc before u s).symm, Text.byteCount_append before u⟩

theorem At.length_eq (h : At text i left) :
    (encode text).length = i + Text.byteCount left := by
  obtain ⟨before, rfl, rfl⟩ := h
  rw [← Text.byteCount_eq, Text.byteCount_append]

theorem At.getElem?_eq (h : At text i left) : (encode text)[i]? = (encode left).head? := by
  rw [← h.drop_encode, List.head?_drop]

/-! ### Pieces -/

theorem At.isBoundary (h : At text i left) : isBoundary (encode text) i = true := by
  unfold Cursor.isBoundary
  rw [h.getElem?_eq]
  cases left with
  | nil =>
    have hlength : i = (encode text).length := h.length_eq.symm
    exact beq_iff_eq.2 hlength
  | cons c left =>
    obtain ⟨b, bs, hb, hfirst⟩ := exists_utf8EncodeChar_eq_cons c
    rw [encode_cons, hb, List.cons_append, List.head?_cons]
    simpa [or_assoc] using Or.inr hfirst

/-- The text between two places can be taken. -/
theorem At.slice?_eq (h : At text i (u ++ s)) :
    slice? (encode text) i (i + Text.byteCount u) = some u := by
  have hextract : (encode text).extract i (i + Text.byteCount u) = encode u := by
    rw [List.extract_eq_take_drop, h.drop_encode, Nat.add_sub_cancel_left, encode_append,
      Text.byteCount_eq, List.take_left]
  rw [slice?, if_pos ⟨Nat.le_add_right _ _, h.isBoundary, h.append.isBoundary⟩, hextract,
    decode_encode]

theorem At.suffix?_eq (h : At text i left) : suffix? (encode text) i = some (encode left) := by
  have hle : i ≤ (encode text).length := h.length_eq ▸ Nat.le_add_right _ _
  rw [suffix?, if_pos hle, h.drop_encode]

/-! ### The byte at a place -/

theorem At.peek_nil (h : At text i []) : peek (encode text) i = none := by
  rw [peek, h.getElem?_eq]
  rfl

/-- The byte at a place is that of the next character, if it is in ASCII, and else beyond ASCII. -/
theorem At.exists_peek (h : At text i (c :: s)) :
    ∃ b, peek (encode text) i = some b ∧ (b = c ∨ 0x80 ≤ b.toNat ∧ 0x80 ≤ c.toNat) := by
  obtain ⟨b, bs, hb, -⟩ := exists_utf8EncodeChar_eq_cons c
  have hpeek : peek (encode text) i = some (Char.ofNat b.toNat) := by
    rw [peek, h.getElem?_eq, encode_cons, hb]
    rfl
  refine ⟨_, hpeek, ?_⟩
  by_cases hc : c.toNat < 0x80
  · rw [utf8EncodeChar_of_lt hc] at hb
    obtain ⟨rfl, -⟩ := List.cons.inj hb
    left
    rw [toNat_ofNat_of_lt (Nat.lt_trans hc (by decide))]
    exact c.ofNat_toNat
  · have hge : 0x80 ≤ b.toNat :=
      ge_of_mem_utf8EncodeChar (Nat.le_of_not_lt hc) (hb ▸ List.mem_cons_self)
    have hlt : b.toNat < 256 := b.toNat_lt
    rw [toNat_ofNat_of_isValidChar (.inl (by omega))]
    exact .inr ⟨hge, Nat.le_of_not_lt hc⟩

/-- What the byte at a place tells: an ASCII character is there exactly when it follows. -/
theorem At.peek_eq_some_iff (h : At text i left) (hc : c.toNat < 0x80) :
    peek (encode text) i = some c ↔ ∃ s, left = c :: s := by
  cases left with
  | nil =>
    rw [h.peek_nil]
    simp
  | cons d s =>
    obtain ⟨b, hb, hbd⟩ := h.exists_peek
    rw [hb, Option.some.injEq]
    constructor
    · rintro rfl
      rcases hbd with rfl | hbeyond
      · exact ⟨s, rfl⟩
      · exact absurd hc (Nat.not_lt.2 hbeyond.1)
    · rintro ⟨s', hs'⟩
      obtain ⟨rfl, -⟩ := List.cons.inj hs'
      rcases hbd with rfl | hbeyond
      · rfl
      · exact absurd hc (Nat.not_lt.2 hbeyond.2)

theorem At.next (h : At text i (c :: s)) (hc : c.toNat < 0x80) : At text (i + 1) s := by
  have hcount : Text.byteCount [c] = 1 := by
    rw [Text.byteCount_eq, encode_cons, utf8EncodeChar_of_lt hc]
    rfl
  have happend := At.append (u := [c]) h
  rwa [hcount] at happend

end

/-! ### Passing over -/

/-- How many bytes are passed over. -/
theorem skipWhile_eq_add (bytes : List UInt8) (p : Char → Bool) (i : Nat) :
    skipWhile bytes p i = i + ((bytes.drop i).takeWhile (onByte p)).length := by
  have hcons {i : Nat} {c : Char} (h : peek bytes i = some c) :
      ∃ b, bytes.drop i = b :: bytes.drop (i + 1) ∧ Char.ofNat b.toNat = c := by
    obtain ⟨b, hb, hc⟩ := Option.map_eq_some_iff.1 h
    obtain ⟨hlt, rfl⟩ := List.getElem?_eq_some_iff.1 hb
    exact ⟨_, List.drop_eq_getElem_cons hlt, hc⟩
  fun_induction skipWhile bytes p i with
  | case1 i h =>
    rw [peek, Option.map_eq_none_iff, List.getElem?_eq_none_iff] at h
    rw [List.drop_eq_nil_of_le h]
    rfl
  | case2 i c h hc ih =>
    obtain ⟨b, hdrop, rfl⟩ := hcons h
    have hb : onByte p b = true := hc
    rw [hdrop, List.takeWhile_cons_of_pos hb, List.length_cons, ih]
    omega
  | case3 i c h hc =>
    obtain ⟨b, hdrop, rfl⟩ := hcons h
    have hb : ¬onByte p b = true := hc
    rw [hdrop, List.takeWhile_cons_of_neg hb]
    rfl

/-- What is passed over from a place on. -/
theorem At.skipWhile_eq {text s : List Char} {i : Nat} {p : Char → Bool} (hp : IsAsciiTest p)
    (h : At text i s) :
    skipWhile (encode text) p i = i + Text.byteCount (s.takeWhile p) := by
  rw [skipWhile_eq_add, h.drop_encode, takeWhile_onByte_encode hp, ← Text.byteCount_eq]

theorem At.skipWhile {text s : List Char} {i : Nat} {p : Char → Bool} (hp : IsAsciiTest p)
    (h : At text i s) : At text (skipWhile (encode text) p i) (s.dropWhile p) := by
  rw [h.skipWhile_eq hp]
  refine At.append ?_
  rwa [List.takeWhile_append_dropWhile]

theorem isAsciiTest_isSpace : IsAsciiTest isSpace := by
  have hfalse {c : Char} (hc : 0x80 ≤ c.toNat) : isSpace c = false := by
    simp [isSpace, ne_of_beyond hc]
  exact fun c d hc hd ↦ (hfalse hc).trans (hfalse hd).symm

theorem isAsciiTest_isPlain : IsAsciiTest isPlain := by
  have htrue {c : Char} (hc : 0x80 ≤ c.toNat) : isPlain c = true := by
    simp [isPlain, ne_of_beyond hc]
  exact fun c d hc hd ↦ (htrue hc).trans (htrue hd).symm

theorem At.skipSpace {text s : List Char} {i : Nat} (h : At text i s) :
    At text (skipSpace (encode text) i) (Json.skipSpace s) :=
  h.skipWhile isAsciiTest_isSpace

end ScriptHost.Json.Cursor
