import Mathlib.Tactic.Common
import ScriptHost.Proofs.Json.Grammar

/-!
# White space and string literals

The reader passes over exactly the white space at the front of a text, and it reads a string literal
exactly when the grammar has one there.

## Main results

* `Json.skipSpace_append`, `Json.exists_isBlank_append_skipSpace` : white space.
* `Json.readString_append` : a string literal is read to its closing quote.
* `Json.stringText_of_readString` : what is read as a string literal is one.
-/

namespace ScriptHost.Json

/-! ### White space -/

theorem isSpace_iff {c : Char} :
    isSpace c = true ↔ c = ' ' ∨ c = '\t' ∨ c = '\n' ∨ c = '\r' := by
  simp [isSpace, or_assoc]

theorem isBlank_nil : IsBlank [] := List.forall_mem_nil _

/-- White space in front of a text is skipped. -/
theorem skipSpace_append {w : List Char} (hw : IsBlank w) (s : List Char) :
    skipSpace (w ++ s) = skipSpace s :=
  List.dropWhile_append_of_pos fun c hc ↦ isSpace_iff.2 (hw c hc)

/-- What is skipped is white space. -/
theorem exists_isBlank_append_skipSpace (s : List Char) :
    ∃ w, IsBlank w ∧ s = w ++ skipSpace s := by
  refine ⟨s.takeWhile isSpace, fun c hc ↦ ?_, List.takeWhile_append_dropWhile.symm⟩
  exact isSpace_iff.1 (List.all_eq_true.1 List.all_takeWhile c hc)

/-! ### Strings -/

theorem value?_eq_some_iff {c : Char} {n : Nat} : Text.Hex.value? c = some n ↔ HexDigit c n := by
  unfold Text.Hex.value?
  constructor
  · intro h
    split_ifs at h with hd hl hu
    · cases h
      exact .decimal hd.1 hd.2
    · cases h
      exact .lower hl.1 hl.2
    · cases h
      exact .upper hu.1 hu.2
  · rintro (⟨hlow, hhigh⟩ | ⟨hlow, hhigh⟩ | ⟨hlow, hhigh⟩)
    · rw [if_pos ⟨hlow, hhigh⟩]
    · have hd : ¬ c ≤ '9' := fun h ↦ absurd (Char.le_trans hlow h) (by decide)
      rw [if_neg fun h ↦ hd h.2, if_pos ⟨hlow, hhigh⟩]
    · have hd : ¬ c ≤ '9' := fun h ↦ absurd (Char.le_trans hlow h) (by decide)
      have hl : ¬ 'a' ≤ c := fun h ↦ absurd (Char.le_trans h hhigh) (by decide)
      rw [if_neg fun h ↦ hd h.2, if_neg fun h ↦ hl h.1, if_pos ⟨hlow, hhigh⟩]

theorem HexDigit.lt {c : Char} {n : Nat} (h : HexDigit c n) : c.toNat < 0x80 := by
  cases h with
  | decimal hlow hhigh => exact Nat.lt_of_le_of_lt hhigh (by decide)
  | lower hlow hhigh => exact Nat.lt_of_le_of_lt hhigh (by decide)
  | upper hlow hhigh => exact Nat.lt_of_le_of_lt hhigh (by decide)

/-- A hexadecimal digit is neither a quote nor a backslash. -/
theorem HexDigit.ne {c : Char} {n : Nat} (h : HexDigit c n) : c ≠ '"' ∧ c ≠ '\\' := by
  constructor
  · rintro rfl
    cases h <;> rename_i hlow hhigh <;> exact absurd hlow (by decide)
  · rintro rfl
    cases h with
    | decimal hlow hhigh => exact absurd hhigh (by decide)
    | lower hlow hhigh => exact absurd hlow (by decide)
    | upper hlow hhigh => exact absurd hhigh (by decide)

/-- Four hexadecimal digits stand for a code point exactly when each of them is one. -/
theorem codePoint?_eq_some_iff {a b c d : Char} {n : Nat} :
    codePoint? a b c d = some n ↔
      ∃ n₃ n₂ n₁ n₀, HexDigit a n₃ ∧ HexDigit b n₂ ∧ HexDigit c n₁ ∧ HexDigit d n₀ ∧
        n = ((n₃ * 16 + n₂) * 16 + n₁) * 16 + n₀ := by
  simp only [codePoint?, Option.bind_eq_bind, Option.bind_eq_some_iff, value?_eq_some_iff,
    Option.some.injEq]
  constructor
  · rintro ⟨n₃, h₃, n₂, h₂, n₁, h₁, n₀, h₀, rfl⟩
    exact ⟨n₃, n₂, n₁, n₀, h₃, h₂, h₁, h₀, by omega⟩
  · rintro ⟨n₃, n₂, n₁, n₀, h₃, h₂, h₁, h₀, rfl⟩
    exact ⟨n₃, h₃, n₂, h₂, n₁, h₁, n₀, h₀, by omega⟩

theorem escape?_eq_some_iff {e c : Char} : escape? e = some c ↔ (e, c) ∈ shortEscapes := by
  unfold escape? shortEscapes
  simp only [List.mem_cons, Prod.mk.injEq, List.not_mem_nil, or_false]
  split_ifs <;> simp_all [eq_comm]

/-- A string literal is read to its closing quote. -/
theorem readString_append {opened k t : List Char} (h : StringText k t) (rest : List Char) :
    readString opened (k ++ '"' :: rest) = .ok (t, rest) := by
  induction h with
  | nil => rfl
  | plain hquote hbackslash h ih =>
    rw [List.cons_append, readString.eq_def]
    split <;> simp_all [prepend]
  | @short e c s t he h ih =>
    have hesc := escape?_eq_some_iff.2 he
    have hu : e ≠ 'u' := by
      rintro rfl
      simp [escape?] at hesc
    rw [List.cons_append, List.cons_append, readString.eq_def]
    split <;> grind [prepend]
  | ascii h₃ h₂ h₁ h₀ hn h ih =>
    have hcode := codePoint?_eq_some_iff.2 ⟨_, _, _, _, h₃, h₂, h₁, h₀, rfl⟩
    simp only [List.cons_append]
    rw [readString, hcode]
    simp only [ih, prepend, ofCodePoint, if_pos hn]
  | beyond h₃ h₂ h₁ h₀ hn h ih =>
    have hcode := codePoint?_eq_some_iff.2 ⟨_, _, _, _, h₃, h₂, h₁, h₀, rfl⟩
    simp only [List.cons_append]
    rw [readString, hcode]
    simp only [ih, prepend, ofCodePoint, if_neg (Nat.not_le.2 hn)]

theorem prepend_eq_ok_iff {c : Char} {r : Except Stop (List Char × List Char)}
    {t left : List Char} :
    prepend c r = .ok (t, left) ↔ ∃ t', t = c :: t' ∧ r = .ok (t', left) := by
  rcases r with stop | ⟨t', l⟩
  · simp [prepend]
  · simp only [prepend, Except.ok.injEq, Prod.mk.injEq]
    constructor
    · rintro ⟨rfl, rfl⟩
      exact ⟨t', rfl, rfl, rfl⟩
    · rintro ⟨_, rfl, rfl, rfl⟩
      exact ⟨rfl, rfl⟩

/-- What is read as a string literal is one. -/
theorem stringText_of_readString {opened s t left : List Char}
    (h : readString opened s = .ok (t, left)) :
    ∃ k, StringText k t ∧ s = k ++ '"' :: left := by
  fun_induction readString opened s generalizing t with
  | case1 => simp at h
  | case2 s =>
    cases h
    exact ⟨[], .nil, rfl⟩
  | case3 => simp at h
  | case4 a b c d s n hn ih =>
    obtain ⟨t', rfl, hr⟩ := prepend_eq_ok_iff.1 h
    obtain ⟨k, hk, rfl⟩ := ih hr
    obtain ⟨n₃, n₂, n₁, n₀, h₃, h₂, h₁, h₀, rfl⟩ := codePoint?_eq_some_iff.1 hn
    refine ⟨'\\' :: 'u' :: a :: b :: c :: d :: k, ?_, rfl⟩
    unfold ofCodePoint
    split_ifs with hle
    · exact .ascii h₃ h₂ h₁ h₀ hle hk
    · exact .beyond h₃ h₂ h₁ h₀ (Nat.lt_of_not_le hle) hk
  | case5 => simp at h
  | case6 => simp at h
  | case7 e s _ _ c hc ih =>
    obtain ⟨t', rfl, hr⟩ := prepend_eq_ok_iff.1 h
    obtain ⟨k, hk, rfl⟩ := ih hr
    exact ⟨'\\' :: e :: k, .short (escape?_eq_some_iff.1 hc) hk, rfl⟩
  | case8 => simp at h
  | case9 c s hquote hend _ _ hletter ih =>
    obtain ⟨t', rfl, hr⟩ := prepend_eq_ok_iff.1 h
    obtain ⟨k, hk, rfl⟩ := ih hr
    have hbackslash : c ≠ '\\' := fun hc ↦ by
      cases hs : k ++ '"' :: left with
      | nil => exact hend hc hs
      | cons e r => exact hletter e r hc hs
    exact ⟨c :: k, .plain hquote hbackslash hk, rfl⟩

end ScriptHost.Json
