import Mathlib.Tactic.Common
import ScriptHost.Proofs.Text.Utf8
import ScriptHost.Text.Pieces

/-!
# The bytes of a text

How many bytes a text has, and what they tell of its characters.  A byte that begins a character
goes on no other, and those of a character beyond ASCII are beyond ASCII, so that a condition which
does not tell characters beyond ASCII apart can be checked byte by byte.

## Main definitions

* `Text.Utf8.IsAsciiTest` : conditions that do not tell characters beyond ASCII apart.
* `Text.Utf8.onByte` : a condition on characters as one on bytes.

## Main results

* `Text.byteCount_append` : texts one after another have as many bytes as both.
* `Text.Utf8.encode_isPrefix_iff` : texts begin with each other as their bytes do.
* `Text.Utf8.takeWhile_onByte_encode` : what satisfies a condition at the front of a text, by bytes.
-/

namespace ScriptHost.Text

open Utf8

theorem byteCount_eq (s : List Char) : byteCount s = (encode s).length := by
  induction s with
  | nil => rfl
  | cons c s ih =>
    rw [encode, List.flatMap_cons, List.length_append, String.length_utf8EncodeChar]
    exact congrArg (c.utf8Size + ·) ih

theorem byteCount_append (s t : List Char) : byteCount (s ++ t) = byteCount s + byteCount t := by
  rw [byteCount_eq, encode_append, List.length_append, ← byteCount_eq, ← byteCount_eq]

theorem byteCount_eq_zero_iff {s : List Char} : byteCount s = 0 ↔ s = [] := by
  rw [byteCount_eq, List.length_eq_zero_iff]
  constructor
  · exact fun h ↦ Decidable.byContradiction fun hs ↦ encode_ne_nil hs h
  · rintro rfl
    rfl

namespace Utf8

theorem encode_cons (c : Char) (s : List Char) :
    encode (c :: s) = String.utf8EncodeChar c ++ encode s :=
  List.flatMap_cons

/-- The one byte of an ASCII character. -/
theorem utf8EncodeChar_of_lt {c : Char} (hc : c.toNat < 0x80) :
    String.utf8EncodeChar c = [UInt8.ofNat c.toNat] :=
  if_pos (Nat.le_of_lt_succ hc)

/-- The bytes of a character beyond ASCII are beyond ASCII. -/
theorem ge_of_mem_utf8EncodeChar {c : Char} (hc : 0x80 ≤ c.toNat) {b : UInt8}
    (hb : b ∈ String.utf8EncodeChar c) : 0x80 ≤ b.toNat := by
  refine Nat.le_of_not_lt fun hlt ↦ ?_
  have hmem : b ∈ encode [c] := by rwa [encode_cons, encode, List.flatMap_nil, List.append_nil]
  have heq : Char.ofNat b.toNat = c := List.mem_singleton.1 (mem_of_mem_encode hlt hmem)
  rw [← heq, toNat_ofNat_of_isValidChar (.inl (by omega))] at hc
  omega

/-- The first byte of a character goes on no other. -/
theorem exists_utf8EncodeChar_eq_cons (c : Char) :
    ∃ b bs, String.utf8EncodeChar c = b :: bs ∧ (b < 0x80 ∨ 0xC0 ≤ b) := by
  have hvalid : c.val.toNat < 0x110000 := by
    rcases c.valid with h | h
    · exact Nat.lt_trans h (by decide)
    · exact h.2
  unfold String.utf8EncodeChar
  generalize c.val.toNat = n at hvalid ⊢
  simp only [UInt8.lt_iff_toNat_lt, UInt8.le_iff_toNat_le]
  split_ifs
  · refine ⟨_, _, rfl, .inl ?_⟩
    rw [toNat_ofNat_of_lt (by omega)]
    exact Nat.lt_succ_of_le ‹_›
  all_goals
    refine ⟨_, _, rfl, .inr ?_⟩
    rw [toNat_ofNat_of_lt (by omega)]
    exact Nat.le_trans (by decide) (Nat.le_add_left _ _)

/-- Texts begin with each other as their bytes do. -/
theorem encode_isPrefix_iff {s t : List Char} : encode s <+: encode t ↔ s <+: t := by
  constructor
  · rintro ⟨bytes, h⟩
    refine ⟨decode bytes, ?_⟩
    rw [← decode_encode_append, h, decode_encode]
  · rintro ⟨u, rfl⟩
    exact ⟨encode u, (encode_append s u).symm⟩

/-! ### Conditions on bytes -/

/-- A condition that does not tell characters beyond ASCII apart. -/
def IsAsciiTest (p : Char → Bool) : Prop :=
  ∀ c d : Char, 0x80 ≤ c.toNat → 0x80 ≤ d.toNat → p c = p d

/-- A condition on characters as one on bytes. -/
def onByte (p : Char → Bool) (b : UInt8) : Bool := p (Char.ofNat b.toNat)

/-- The bytes that are passed over are those of the characters that satisfy the condition. -/
theorem takeWhile_onByte_encode {p : Char → Bool} (hp : IsAsciiTest p) (s : List Char) :
    (encode s).takeWhile (onByte p) = encode (s.takeWhile p) := by
  have hbyte {c : Char} {b : UInt8} (hb : b ∈ String.utf8EncodeChar c) : onByte p b = p c := by
    unfold onByte
    by_cases hc : c.toNat < 0x80
    · rw [utf8EncodeChar_of_lt hc, List.mem_singleton] at hb
      rw [hb, toNat_ofNat_of_lt (Nat.lt_trans hc (by decide))]
      exact congrArg p c.ofNat_toNat
    · have hc := Nat.le_of_not_lt hc
      have hge := ge_of_mem_utf8EncodeChar hc hb
      have hlt : b.toNat < 256 := b.toNat_lt
      refine hp _ _ ?_ hc
      rwa [toNat_ofNat_of_isValidChar (.inl (by omega))]
  induction s with
  | nil => rfl
  | cons c s ih =>
    rw [encode_cons]
    by_cases hc : p c = true
    · rw [List.takeWhile_append_of_pos fun b hb ↦ (hbyte hb).trans hc, ih,
        List.takeWhile_cons_of_pos hc, encode_cons]
    · obtain ⟨b, bs, hb, -⟩ := exists_utf8EncodeChar_eq_cons c
      have hfirst : ¬onByte p b = true := by
        rwa [hbyte (hb ▸ List.mem_cons_self)]
      rw [hb, List.cons_append, List.takeWhile_cons_of_neg hfirst, List.takeWhile_cons_of_neg hc]
      rfl

/-- A character beyond ASCII is none in ASCII. -/
theorem ne_of_beyond {c d : Char} (hc : 0x80 ≤ c.toNat) (hd : d.toNat < 0x80) : c ≠ d := by
  rintro rfl
  exact absurd hd (Nat.not_lt.2 hc)

theorem isDigit_of_beyond {c : Char} (hc : 0x80 ≤ c.toNat) : c.isDigit = false := by
  rw [← Bool.not_eq_true]
  intro h
  simp only [Char.isDigit, Bool.and_eq_true, decide_eq_true_eq] at h
  have hle : c.toNat ≤ 57 := h.2
  omega

theorem isAsciiTest_isDigit : IsAsciiTest Char.isDigit :=
  fun _ _ hc hd ↦ (isDigit_of_beyond hc).trans (isDigit_of_beyond hd).symm

end Utf8

end ScriptHost.Text
