import Mathlib.Tactic.Common
import ScriptHost.Text.Utf8

/-!
# Bytes read as text

Reading bytes as text is a machine with one state, the character that is begun.  An ASCII byte ends
whatever is begun, so that the text can be cut there; the bytes of a text are read as that text; and
bytes that add nothing to a text add nothing in part.

## Main definitions

* `Text.Utf8.completed`, `Text.Utf8.after` : the text completed by some bytes and the state after
  them.
* `Text.Utf8.IsState` : the states that are met, in which a character beyond ASCII is begun.

## Main results

* `Text.Utf8.decode_append_ascii` : a text is cut at an ASCII byte.
* `Text.Utf8.mem_of_mem_decode` : an ASCII character comes from its byte.
* `Text.Utf8.decode_encode_append` : the bytes of a text are read as it.
* `Text.Utf8.mem_of_mem_encode` : an ASCII byte comes from its character.
* `Text.Utf8.decode_append_take` : bytes that add nothing add nothing in part.
-/

namespace ScriptHost.Text.Utf8

/-- The text that bytes complete. -/
def completed : Option Begun → List UInt8 → List Char
  | _, [] => []
  | s, b :: bytes => (step s b.toNat).1 ++ completed (step s b.toNat).2 bytes

/-- The character that is begun after these bytes. -/
def after : Option Begun → List UInt8 → Option Begun
  | s, [] => s
  | s, b :: bytes => after (step s b.toNat).2 bytes

theorem decodeFrom_cons (s : Option Begun) (b : UInt8) (bytes : List UInt8) :
    decodeFrom s (b :: bytes) = (step s b.toNat).1 ++ decodeFrom (step s b.toNat).2 bytes := by
  cases s <;> rfl

theorem decodeFrom_append (s : Option Begun) (u v : List UInt8) :
    decodeFrom s (u ++ v) = completed s u ++ decodeFrom (after s u) v := by
  induction u generalizing s with
  | nil => rfl
  | cons b u ih => rw [List.cons_append, decodeFrom_cons, ih, completed, after, List.append_assoc]

theorem decode_eq_completed (u : List UInt8) :
    decode u = completed none u ++ decodeFrom (after none u) [] := by
  rw [decode, ← decodeFrom_append, List.append_nil]

/-! ### The states that are met -/

/-- A character beyond ASCII is begun: with the least of its next bytes it is beyond ASCII, whatever
follows. -/
structure Begun.IsBeyondAscii (p : Begun) : Prop where
  owed_pos : 1 ≤ p.owed
  low_ge : 0x80 ≤ p.low
  least_ge : 0x80 ≤ (p.code * 64 + (p.low - 0x80)) * Nat.pow 64 (p.owed - 1)

/-- The states that are met. -/
def IsState (s : Option Begun) : Prop := ∀ p ∈ s, p.IsBeyondAscii

theorem isState_none : IsState none := fun _ hp ↦ absurd hp (Option.not_mem_none _)

theorem isBeyondAscii_of_lead? {b : Nat} {p : Begun} (h : lead? b = some p) :
    p.IsBeyondAscii := by
  unfold lead? at h
  split_ifs at h <;> cases h <;> refine ⟨Nat.le_add_left _ _, Nat.le_add_left _ _, ?_⟩ <;>
    simp only [Nat.pow_eq] <;> omega

theorem isState_start (b : Nat) : IsState (start b).2 := by
  rintro p hp
  unfold start at hp
  split_ifs at hp
  · exact absurd hp (Option.not_mem_none _)
  · split at hp
    · rename_i hlead
      cases hp
      exact isBeyondAscii_of_lead? hlead
    · exact absurd hp (Option.not_mem_none _)

theorem isState_step {s : Option Begun} (hs : IsState s) (b : Nat) : IsState (step s b).2 := by
  rcases s with - | p
  · exact isState_start b
  have hp := hs p rfl
  unfold step
  dsimp only
  split_ifs with hrange howed
  · exact isState_none
  · rintro q hq
    obtain rfl := Option.some.inj hq
    obtain ⟨k, hk⟩ : ∃ k, p.owed = k + 2 := ⟨p.owed - 2, by omega⟩
    refine ⟨by dsimp only; omega, Nat.le_refl _, ?_⟩
    have hleast := hp.least_ge
    have hle : p.code * 64 + (p.low - 0x80) ≤ p.code * 64 + (b - 0x80) := by omega
    have hmul := Nat.mul_le_mul_right (Nat.pow 64 (k + 1)) hle
    rw [hk] at hleast ⊢
    dsimp only
    rw [Nat.sub_self, Nat.add_zero, Nat.mul_assoc, show k + 2 - 1 - 1 = k from rfl,
      Nat.mul_comm 64]
    exact Nat.le_trans hleast hmul
  · exact isState_start b

theorem isState_after {s : Option Begun} (hs : IsState s) (u : List UInt8) :
    IsState (after s u) := by
  induction u generalizing s with
  | nil => exact hs
  | cons b u ih => exact ih (isState_step hs _)

/-! ### ASCII bytes -/

/-- An ASCII byte is its character, and ends what was begun. -/
theorem decodeFrom_ascii {s : Option Begun} (hs : IsState s) {b : UInt8} (hb : b.toNat < 0x80)
    (v : List UInt8) :
    decodeFrom s (b :: v) = decodeFrom s [] ++ Char.ofNat b.toNat :: decode v := by
  have hstart : start b.toNat = ([Char.ofNat b.toNat], none) := if_pos hb
  rcases s with - | p
  · rw [decodeFrom_cons, step, hstart]
    rfl
  · have hlow := (hs p rfl).low_ge
    have hrange : ¬(p.low ≤ b.toNat ∧ b.toNat ≤ p.high) := fun h ↦ by omega
    rw [decodeFrom_cons, step, if_neg hrange, hstart]
    rfl

/-- A text is cut at an ASCII byte. -/
theorem decode_append_ascii (u : List UInt8) {b : UInt8} (hb : b.toNat < 0x80)
    (v : List UInt8) : decode (u ++ b :: v) = decode u ++ Char.ofNat b.toNat :: decode v := by
  rw [decode, decodeFrom_append, decodeFrom_ascii (isState_after isState_none u) hb,
    decode_eq_completed u, List.append_assoc]

theorem toNat_ofNat_of_isValidChar {n : Nat} (h : n.isValidChar) : (Char.ofNat n).toNat = n := by
  rw [Char.ofNat, dif_pos h]
  rfl

/-- A code point beyond ASCII gives a character beyond ASCII, or the zero character. -/
theorem toNat_ofNat_of_ge {n : Nat} (hn : 0x80 ≤ n) :
    0x80 ≤ (Char.ofNat n).toNat ∨ (Char.ofNat n).toNat = 0 := by
  by_cases hvalid : n.isValidChar
  · rw [toNat_ofNat_of_isValidChar hvalid]
    exact .inl hn
  · rw [Char.ofNat, dif_neg hvalid]
    exact .inr rfl

/-- An ASCII character, save the zero character, that a byte completes is that byte. -/
theorem eq_of_mem_start {b : Nat} {c : Char} (hc : c.toNat < 0x80) (h : c ∈ (start b).1) :
    b = c.toNat := by
  unfold start at h
  split_ifs at h with hb
  · rw [List.mem_singleton.1 h, toNat_ofNat_of_isValidChar (.inl (by omega))]
  · split at h
    · exact absurd h List.not_mem_nil
    · rw [List.mem_singleton.1 h] at hc
      exact absurd hc (by decide)

theorem eq_of_mem_step {s : Option Begun} (hs : IsState s) {b : Nat} {c : Char}
    (hc : c.toNat < 0x80) (hc₀ : c.toNat ≠ 0) (h : c ∈ (step s b).1) : b = c.toNat := by
  rcases s with - | p
  · exact eq_of_mem_start hc h
  have hp := hs p rfl
  unfold step at h
  dsimp only at h
  split_ifs at h with hrange howed
  · rw [List.mem_singleton.1 h] at hc hc₀
    have hleast := hp.least_ge
    have howed : p.owed - 1 = 0 := by omega
    rw [howed] at hleast
    have hge : 0x80 ≤ p.code * 64 + (b - 0x80) := by
      simp only [Nat.pow_eq, Nat.pow_zero] at hleast
      omega
    rcases toNat_ofNat_of_ge hge with h | h <;> omega
  · exact absurd h List.not_mem_nil
  · rcases List.mem_cons.1 h with rfl | h
    · exact absurd hc (by decide)
    · exact eq_of_mem_start hc h

/-- An ASCII character, save the zero character, comes from its byte. -/
theorem mem_of_mem_decodeFrom {s : Option Begun} (hs : IsState s) {u : List UInt8} {c : Char}
    (hc : c.toNat < 0x80) (hc₀ : c.toNat ≠ 0) (h : c ∈ decodeFrom s u) :
    ∃ b ∈ u, b.toNat = c.toNat := by
  induction u generalizing s with
  | nil =>
    cases s with
    | none => exact absurd h List.not_mem_nil
    | some p =>
      rw [List.mem_singleton.1 h] at hc
      exact absurd hc (by decide)
  | cons b u ih =>
    rw [decodeFrom_cons] at h
    rcases List.mem_append.1 h with h | h
    · exact ⟨b, List.mem_cons_self, eq_of_mem_step hs hc hc₀ h⟩
    · obtain ⟨b', hb', heq⟩ := ih (isState_step hs _) h
      exact ⟨b', List.mem_cons_of_mem b hb', heq⟩

theorem mem_of_mem_decode {u : List UInt8} {c : Char} (hc : c.toNat < 0x80) (hc₀ : c.toNat ≠ 0)
    (h : c ∈ decode u) : ∃ b ∈ u, b.toNat = c.toNat :=
  mem_of_mem_decodeFrom isState_none hc hc₀ h

/-! ### Bytes that add nothing -/

/-- A byte that begins nothing completes something. -/
theorem step_ne_nil {s : Option Begun} {b : Nat} (h : (step s b).2 = none) :
    (step s b).1 ≠ [] := by
  have hstart (h : (start b).2 = none) : (start b).1 ≠ [] := by
    unfold start at h ⊢
    split_ifs at h ⊢
    · exact List.cons_ne_nil _ _
    · split at h
      · cases h
      · exact List.cons_ne_nil _ _
  rcases s with - | p
  · exact hstart h
  · unfold step at h ⊢
    dsimp only at h ⊢
    split_ifs at h ⊢
    · exact List.cons_ne_nil _ _
    · exact List.cons_ne_nil _ _

/-- Bytes are never read as no text. -/
theorem decodeFrom_cons_ne_nil (s : Option Begun) (b : UInt8) (v : List UInt8) :
    decodeFrom s (b :: v) ≠ [] := by
  induction v generalizing s b with
  | nil =>
    rw [decodeFrom_cons]
    cases hnext : (step s b.toNat).2 with
    | none => exact List.append_ne_nil_of_left_ne_nil (step_ne_nil hnext) _
    | some p => exact List.append_ne_nil_of_right_ne_nil _ (List.cons_ne_nil _ _)
  | cons b' v ih =>
    rw [decodeFrom_cons]
    exact List.append_ne_nil_of_right_ne_nil _ (ih _ _)

/-- Bytes that add nothing to what a state gives add nothing in part. -/
theorem decodeFrom_take {s : Option Begun} {v : List UInt8}
    (h : decodeFrom s v = decodeFrom s []) (j : Nat) :
    decodeFrom s (v.take j) = decodeFrom s [] := by
  induction v generalizing s j with
  | nil => rw [List.take_nil]
  | cons b v ih =>
    cases j with
    | zero => rw [List.take_zero]
    | succ j =>
      rcases s with - | p
      · exact absurd h (decodeFrom_cons_ne_nil none b v)
      rw [List.take_succ_cons, decodeFrom_cons]
      rw [decodeFrom_cons] at h
      cases hnext : (step (some p) b.toNat).2 with
      -- The replacement character is all there is: either the byte completes it and is the last,
      -- or it completes nothing.
      | none =>
        rw [hnext] at h
        have hlength := congrArg List.length h
        have hpos := List.length_pos_iff.2 (step_ne_nil hnext)
        rw [List.length_append] at hlength
        have hlast : (decodeFrom none v).length = 0 := by
          have : (decodeFrom (some p) []).length = 1 := rfl
          omega
        cases v with
        | nil => rwa [List.take_nil]
        | cons b' v =>
          exact absurd (List.eq_nil_of_length_eq_zero hlast) (decodeFrom_cons_ne_nil _ _ _)
      | some q =>
        rw [hnext] at h
        have hlength := congrArg List.length h
        have hpos : 0 < (decodeFrom (some q) v).length := by
          cases v with
          | nil => exact Nat.one_pos
          | cons b' v => exact List.length_pos_iff.2 (decodeFrom_cons_ne_nil _ _ _)
        rw [List.length_append] at hlength
        have hnil : (step (some p) b.toNat).1 = [] := by
          have : (decodeFrom (some p) []).length = 1 := rfl
          exact List.eq_nil_of_length_eq_zero (by omega)
        rw [hnil, List.nil_append] at h ⊢
        exact ih h j

/-- Bytes that add nothing to a text add nothing in part. -/
theorem decode_append_take {u v : List UInt8} (h : decode (u ++ v) = decode u) (j : Nat) :
    decode (u ++ v.take j) = decode u := by
  rw [decode_eq_completed u, decode, decodeFrom_append] at h ⊢
  rw [decodeFrom_take (List.append_cancel_left h)]

/-! ### The bytes of a text -/

theorem toNat_ofNat_of_lt {b : Nat} (hb : b < 256) : (UInt8.ofNat b).toNat = b := by
  rw [UInt8.toNat_ofNat', Nat.mod_eq_of_lt hb]

/-- The first of several bytes begins a character. -/
theorem decode_lead {b : Nat} {p : Begun} (hb : b < 256) (hge : 0x80 ≤ b) (h : lead? b = some p)
    (bytes : List UInt8) : decode (UInt8.ofNat b :: bytes) = decodeFrom (some p) bytes := by
  have hstart : start b = ([], some p) := by
    rw [start, if_neg (Nat.not_lt.2 hge), h]
  rw [decode, decodeFrom_cons, toNat_ofNat_of_lt hb, step, hstart]
  rfl

/-- A byte that is not the last one adds to the character. -/
theorem decodeFrom_more {p : Begun} {b code : Nat} (hb : b < 256) (hlow : p.low ≤ b)
    (hhigh : b ≤ p.high) (howed : 1 < p.owed) (hcode : p.code * 64 + (b - 0x80) = code)
    (bytes : List UInt8) :
    decodeFrom (some p) (UInt8.ofNat b :: bytes) =
      decodeFrom (some ⟨p.owed - 1, 0x80, 0xBF, code⟩) bytes := by
  have hstep : step (some p) b = ([], some ⟨p.owed - 1, 0x80, 0xBF, code⟩) := by
    rw [step, if_pos ⟨hlow, hhigh⟩, hcode]
    exact if_neg (Nat.not_le.2 howed)
  rw [decodeFrom_cons, toNat_ofNat_of_lt hb, hstep]
  rfl

/-- The last byte completes the character. -/
theorem decodeFrom_last {b code n : Nat} (hb : b < 256) (hlow : 0x80 ≤ b) (hhigh : b ≤ 0xBF)
    (hcode : code * 64 + (b - 0x80) = n) (bytes : List UInt8) :
    decodeFrom (some ⟨1, 0x80, 0xBF, code⟩) (UInt8.ofNat b :: bytes) =
      Char.ofNat n :: decode bytes := by
  have hstep : step (some ⟨1, 0x80, 0xBF, code⟩) b = ([Char.ofNat n], none) := by
    rw [step, if_pos ⟨hlow, hhigh⟩]
    dsimp only
    rw [if_pos (Nat.le_refl 1), hcode]
  rw [decodeFrom_cons, toNat_ofNat_of_lt hb, hstep]
  rfl

/-- The first of three bytes, and what it asks of the second one. -/
theorem exists_lead?_three {n : Nat} (hlow : 0x7FF < n) (hhigh : n ≤ 0xFFFF)
    (hvalid : n < 0xD800 ∨ 0xDFFF < n) :
    ∃ low high, lead? (n / 4096 % 0x10 + 0xE0) = some ⟨2, low, high, n / 4096⟩ ∧
      low ≤ n / 64 % 0x40 + 0x80 ∧ n / 64 % 0x40 + 0x80 ≤ high := by
  have hlead : n / 4096 % 0x10 + 0xE0 - 0xE0 = n / 4096 := by omega
  rcases Nat.eq_zero_or_pos (n / 4096) with hzero | hpos
  · rw [hzero]
    exact ⟨0xA0, 0xBF, rfl, by omega, by omega⟩
  by_cases hd : n / 4096 = 0xD
  · rw [hd]
    exact ⟨0x80, 0x9F, rfl, by omega, by omega⟩
  · refine ⟨0x80, 0xBF, ?_, by omega, by omega⟩
    rw [lead?, if_neg (by omega), if_neg (by omega), if_neg (by omega), if_pos (by omega), hlead]

/-- The first of four bytes, and what it asks of the second one. -/
theorem exists_lead?_four {n : Nat} (hlow : 0xFFFF < n) (hhigh : n < 0x110000) :
    ∃ low high, lead? (n / 262144 % 0x08 + 0xF0) = some ⟨3, low, high, n / 262144⟩ ∧
      low ≤ n / 4096 % 0x40 + 0x80 ∧ n / 4096 % 0x40 + 0x80 ≤ high := by
  have hlead : n / 262144 % 0x08 + 0xF0 - 0xF0 = n / 262144 := by omega
  rcases Nat.eq_zero_or_pos (n / 262144) with hzero | hpos
  · rw [hzero]
    exact ⟨0x90, 0xBF, rfl, by omega, by omega⟩
  by_cases hfour : n / 262144 = 4
  · rw [hfour]
    exact ⟨0x80, 0x8F, rfl, by omega, by omega⟩
  · refine ⟨0x80, 0xBF, ?_, by omega, by omega⟩
    rw [lead?, if_neg (by omega), if_neg (by omega), if_neg (by omega), if_neg (by omega),
      if_neg (by omega), if_pos (by omega), hlead]

/-- The bytes of a character are read as it. -/
theorem decode_utf8EncodeChar_append (c : Char) (bytes : List UInt8) :
    decode (String.utf8EncodeChar c ++ bytes) = c :: decode bytes := by
  have hchar : Char.ofNat c.val.toNat = c := c.ofNat_toNat
  have hvalid : c.val.toNat < 0xD800 ∨ 0xDFFF < c.val.toNat ∧ c.val.toNat < 0x110000 := c.valid
  unfold String.utf8EncodeChar
  generalize c.val.toNat = n at hchar hvalid ⊢
  rw [← hchar]
  dsimp only
  split_ifs with hone htwo hthree
  · have hstart : start n = ([Char.ofNat n], none) := if_pos (Nat.lt_succ_of_le hone)
    rw [List.cons_append, decode, decodeFrom_cons, toNat_ofNat_of_lt (by omega), step, hstart]
    rfl
  · have hlead : lead? (n / 64 % 0x20 + 0xC0) = some ⟨1, 0x80, 0xBF, n / 64⟩ := by
      have hcode : n / 64 % 0x20 + 0xC0 - 0xC0 = n / 64 := by omega
      rw [lead?, if_pos (by omega), hcode]
    exact (decode_lead (by omega) (by omega) hlead _).trans
      (decodeFrom_last (by omega) (by omega) (by omega) (by omega) bytes)
  · obtain ⟨low, high, hlead, hlow, hhigh⟩ :=
      exists_lead?_three (Nat.lt_of_not_le htwo) hthree (hvalid.imp_right And.left)
    exact (decode_lead (by omega) (by omega) hlead _).trans
      ((decodeFrom_more (by omega) hlow hhigh (Nat.lt_succ_self 1) rfl _).trans
        (decodeFrom_last (by omega) (by omega) (by omega) (by dsimp only; omega) bytes))
  · obtain ⟨low, high, hlead, hlow, hhigh⟩ :=
      exists_lead?_four (Nat.lt_of_not_le hthree) (by omega)
    have hlow₂ : 0x80 ≤ n / 64 % 0x40 + 0x80 := Nat.le_add_left _ _
    have hhigh₂ : n / 64 % 0x40 + 0x80 ≤ 0xBF := by omega
    exact (decode_lead (by omega) (by omega) hlead _).trans
      ((decodeFrom_more (by omega) hlow hhigh (by dsimp only; omega) rfl _).trans
        ((decodeFrom_more (by omega) hlow₂ hhigh₂ (Nat.lt_succ_self 1) rfl _).trans
          (decodeFrom_last (by omega) (by omega) (by omega) (by dsimp only; omega) bytes)))

/-- The bytes of a text are read as it. -/
theorem decode_encode_append (s : List Char) (bytes : List UInt8) :
    decode (encode s ++ bytes) = s ++ decode bytes := by
  induction s with
  | nil => rfl
  | cons c s ih =>
    rw [encode, List.flatMap_cons, List.append_assoc, decode_utf8EncodeChar_append, ← encode, ih]
    rfl

theorem decode_encode (s : List Char) : decode (encode s) = s := by
  have h := decode_encode_append s []
  rwa [List.append_nil, show decode [] = [] from rfl, List.append_nil] at h

theorem encode_ne_nil {s : List Char} (h : s ≠ []) : encode s ≠ [] := fun hnil ↦ by
  have hs := decode_encode s
  rw [hnil] at hs
  exact h hs.symm

theorem encode_append (s t : List Char) : encode (s ++ t) = encode s ++ encode t :=
  List.flatMap_append

/-- An ASCII byte of a text is one of its characters. -/
theorem mem_of_mem_encode {s : List Char} {b : UInt8} (hb : b.toNat < 0x80) (h : b ∈ encode s) :
    Char.ofNat b.toNat ∈ s := by
  obtain ⟨u, v, huv⟩ := List.append_of_mem h
  rw [← decode_encode s, huv, decode_append_ascii u hb]
  exact List.mem_append_right _ List.mem_cons_self

/-- ASCII bytes side by side come from their characters. -/
theorem pair_isInfix_of_encode {s : List Char} {a b : UInt8} (ha : a.toNat < 0x80)
    (hb : b.toNat < 0x80) (h : [a, b] <:+: encode s) :
    [Char.ofNat a.toNat, Char.ofNat b.toNat] <:+: s := by
  obtain ⟨u, v, huv⟩ := h
  have hrest : decode (b :: v) = Char.ofNat b.toNat :: decode v := decode_append_ascii [] hb v
  have hs : s = decode u ++ Char.ofNat a.toNat :: Char.ofNat b.toNat :: decode v := by
    rw [← decode_encode s, ← huv, ← hrest, List.append_assoc]
    exact decode_append_ascii u ha (b :: v)
  exact ⟨decode u, decode v, hs ▸ List.append_assoc ..⟩

theorem not_mem_encode {s : List Char} {b : UInt8} (hb : b.toNat < 0x80)
    (h : ∀ c ∈ s, c ≠ Char.ofNat b.toNat) : b ∉ encode s :=
  fun hmem ↦ h _ (mem_of_mem_encode hb hmem) rfl

end ScriptHost.Text.Utf8
