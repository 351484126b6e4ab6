import Mathlib.Data.List.GetD
import Mathlib.Tactic.Common
import ScriptHost.Proofs.Builtin.Panics
import ScriptHost.Proofs.Text.Utf8

/-!
# Comparing secrets

Two byte strings are compared in as many rounds as the longer one has bytes.  A round adds the bits
in which the bytes at its position differ, and takes none away, so that what was found once is still
there at the end.  A string counts as followed by zeros, and the lengths are compared apart from the
rounds; so nothing is found exactly if the strings are equal.

## Main definitions

* `Builtin.gatherRounds` : the bits found after some rounds.

## Main results

* `Builtin.gatherDifferences_eq` : the comparison goes round by round.
* `Builtin.gatherRounds_or` : bits that were found are never lost.
* `Builtin.gatherRounds_eq_zero_iff` : when nothing is found.
* `Builtin.sameBytes_iff_and_sameSecret` : which byte strings and which secrets are equal.
-/

namespace ScriptHost

namespace Builtin

variable {d : UInt8} {a b : List UInt8}

/-- The bits found after some rounds, the first of which compares the first bytes.  A string counts
as followed by zeros. -/
def gatherRounds (d : UInt8) (a b : List UInt8) : Nat → UInt8
  | 0 => d
  | n + 1 => gatherRounds d a b n ||| (a.getD n 0 ^^^ b.getD n 0)

/-! ### Rounds -/

theorem gatherRounds_comm (d : UInt8) (a b : List UInt8) (n : Nat) :
    gatherRounds d a b n = gatherRounds d b a n := by
  induction n with
  | zero => rfl
  | succ n ih => rw [gatherRounds, gatherRounds, ih, UInt8.xor_comm]

/-- The first round, and those on what follows the first bytes. -/
theorem gatherRounds_succ (d : UInt8) (a b : List UInt8) (n : Nat) :
    gatherRounds d a b (n + 1) =
      gatherRounds (d ||| (a.getD 0 0 ^^^ b.getD 0 0)) a.tail b.tail n := by
  induction n with
  | zero => rfl
  | succ n ih =>
    have htail (s : List UInt8) : s.tail.getD n 0 = s.getD (n + 1) 0 := by cases s <;> rfl
    rw [gatherRounds, ih, gatherRounds, htail, htail]

/-- Bytes beyond the end of the other string differ from it in the bits that they have. -/
theorem foldl_or_eq_gatherRounds (d : UInt8) (a : List UInt8) :
    a.foldl (· ||| ·) d = gatherRounds d a [] a.length := by
  induction a generalizing d with
  | nil => rfl
  | cons x a ih =>
    rw [List.foldl_cons, ih, List.length_cons, gatherRounds_succ]
    simp

/-- The comparison makes one round for each byte of the longer string. -/
theorem gatherDifferences_eq (d : UInt8) (a b : List UInt8) :
    gatherDifferences d a b = gatherRounds d a b (max a.length b.length) := by
  fun_induction gatherDifferences d a b with
  | case1 d x a y b ih =>
    rw [ih, List.length_cons, List.length_cons, Nat.add_max_add_right, gatherRounds_succ]
    rfl
  | case2 d a => rw [foldl_or_eq_gatherRounds, List.length_nil, Nat.max_zero]
  | case3 d b =>
    rw [foldl_or_eq_gatherRounds, gatherRounds_comm, List.length_nil, Nat.zero_max]

/-- Bits that were found are never lost. -/
theorem gatherRounds_or (d : UInt8) (a b : List UInt8) (m n : Nat) :
    gatherRounds d a b m ||| gatherRounds d a b (m + n) = gatherRounds d a b (m + n) := by
  induction n with
  | zero => exact UInt8.or_self
  | succ n ih => rw [← Nat.add_assoc, gatherRounds, ← UInt8.or_assoc, ih]

/-- Nothing is found exactly if there was nothing before and the bytes compared are equal. -/
theorem gatherRounds_eq_zero_iff {n : Nat} :
    gatherRounds d a b n = 0 ↔ d = 0 ∧ ∀ i < n, a.getD i 0 = b.getD i 0 := by
  induction n with
  | zero => simp [gatherRounds]
  | succ n ih =>
    rw [gatherRounds, UInt8.or_eq_zero_iff, UInt8.xor_eq_zero_iff, ih, and_assoc,
      Nat.forall_lt_succ_right]

/-! ### Equal byte strings -/

theorem sameBytes_eq (a b : List UInt8) :
    sameBytes a b =
      (gatherRounds (if a.length = b.length then 0 else 1) a b (max a.length b.length) == 0) := by
  rw [sameBytes, gatherDifferences_eq]

theorem sameBytes_eq_true_iff : sameBytes a b = true ↔ a = b := by
  rw [sameBytes_eq, beq_iff_eq, gatherRounds_eq_zero_iff]
  constructor
  · rintro ⟨hflag, hbytes⟩
    -- zeros at the end of one string are not found by any round, but by the lengths
    have hlength : a.length = b.length := by
      by_contra hne
      rw [if_neg hne] at hflag
      exact absurd hflag (by decide)
    refine List.ext_getElem hlength fun i hi hi' ↦ ?_
    have hbyte := hbytes i (Nat.lt_of_lt_of_le hi (Nat.le_max_left ..))
    rwa [List.getD_eq_getElem a 0 hi, List.getD_eq_getElem b 0 hi'] at hbyte
  · rintro rfl
    exact ⟨if_pos rfl, fun _ _ ↦ rfl⟩

theorem sameBytes_eq_false (h : a ≠ b) : sameBytes a b = false :=
  Bool.eq_false_iff.2 (mt sameBytes_eq_true_iff.1 h)

/-- Zeros behind a string make another string. -/
theorem ne_append_replicate (a : List UInt8) (n : Nat) : a ≠ a ++ List.replicate (n + 1) 0 := by
  intro heq
  have hlength := congrArg List.length heq
  rw [List.length_append, List.length_replicate] at hlength
  omega

/-! ### Equal secrets -/

/-- Texts are equal if their bytes are. -/
theorem sameBytes_encode (s t : String) :
    sameBytes (Text.Utf8.encode s.toList) (Text.Utf8.encode t.toList) = decide (s = t) := by
  have hinjective : Function.Injective Text.Utf8.encode :=
    Function.LeftInverse.injective Text.Utf8.decode_encode
  rw [Bool.eq_iff_iff, sameBytes_eq_true_iff, decide_eq_true_iff, hinjective.eq_iff,
    String.toList_inj]

theorem get?_standard_sameSecret :
    Builtins.standard.get? "auth_const_time_eq" = some (ofAction sameSecret) := by
  rw [Builtins.get?_standard]
  rfl

theorem tryCall_sameSecret (s t : String) (more : List Value) (host : Host) :
    Builtins.standard.tryCall "auth_const_time_eq" (.string s :: .string t :: more) host =
      .ok (.boolean (decide (s = t))) host := by
  rw [Builtins.tryCall, get?_standard_sameSecret, ← sameBytes_encode]
  rfl

/-- Byte strings are found equal exactly if they are, and so a string is told from the one with
zeros behind it.  This is done in rounds that find nothing in the end exactly if the lengths are
equal and nothing is found, and no round takes back what another one has found.  Secrets are found
equal exactly if they are the same text. -/
theorem sameBytes_iff_and_sameSecret :
    (∀ a b, sameBytes a b = true ↔ a = b) ∧
    (∀ a n, sameBytes a (a ++ List.replicate (n + 1) 0) = false ∧
      sameBytes (a ++ List.replicate (n + 1) 0) a = false) ∧
    (∀ a b, sameBytes a b =
      (gatherRounds (if a.length = b.length then 0 else 1) a b (max a.length b.length) == 0)) ∧
    (∀ d a b m n,
      gatherRounds d a b m ||| gatherRounds d a b (m + n) = gatherRounds d a b (m + n)) ∧
    ∀ s t more host,
      Builtins.standard.tryCall "auth_const_time_eq" (.string s :: .string t :: more) host =
        .ok (.boolean (decide (s = t))) host := by
  refine ⟨fun _ _ ↦ sameBytes_eq_true_iff, fun a n ↦ ?_, sameBytes_eq, gatherRounds_or,
    tryCall_sameSecret⟩
  have hne := ne_append_replicate a n
  exact ⟨sameBytes_eq_false hne, sameBytes_eq_false hne.symm⟩

end Builtin

end ScriptHost
