import Mathlib.Tactic.Common
import ScriptHost.Http.Reading

/-!
# The end of the header block

The header block ends at the first place where four certain bytes stand.  That place does not move
when bytes are added behind it, so what reading waits for is known from the buffer alone, however
the buffer came together.

## Main definitions

* `Http.BlankLineAt` : the four bytes stand at a position.
* `Http.Phase.of` : what reading waits for, from the buffer alone.

## Main results

* `Http.headerEnd?_eq_some_iff`, `Http.headerEnd?_append` : the first such position.
* `Http.Phase.next_of` : one step of reading in these terms.
-/

namespace ScriptHost.Http

/-- A line end and a blank line stand at this position. -/
def BlankLineAt (bytes : List UInt8) (i : Nat) : Prop :=
  (bytes.drop i).take 4 = [carriageReturn, lineFeed, carriageReturn, lineFeed]

namespace BlankLineAt

variable {bytes more : List UInt8} {i n : Nat}

theorem add_four_le (h : BlankLineAt bytes i) : i + 4 ≤ bytes.length := by
  have hlength := congrArg List.length h
  rw [List.length_take, List.length_drop] at hlength
  change min 4 (bytes.length - i) = 4 at hlength
  omega

/-- Bytes behind the position do not matter. -/
theorem append_iff (hi : i + 4 ≤ bytes.length) :
    BlankLineAt (bytes ++ more) i ↔ BlankLineAt bytes i := by
  unfold BlankLineAt
  rw [List.drop_append_of_le_length (by omega), List.take_append_of_le_length]
  rw [List.length_drop]
  omega

theorem append (h : BlankLineAt bytes i) : BlankLineAt (bytes ++ more) i :=
  (append_iff h.add_four_le).2 h

theorem drop_iff : BlankLineAt (bytes.drop n) i ↔ BlankLineAt bytes (n + i) := by
  unfold BlankLineAt
  rw [List.drop_drop]

theorem take_iff (hi : i + 4 ≤ n) : BlankLineAt (bytes.take n) i ↔ BlankLineAt bytes i := by
  unfold BlankLineAt
  rw [List.drop_take, List.take_take, Nat.min_eq_left (by omega)]

theorem zero_iff :
    BlankLineAt bytes 0 ↔
      [carriageReturn, lineFeed, carriageReturn, lineFeed].isPrefixOf bytes = true := by
  rw [List.isPrefixOf_iff_prefix, List.prefix_iff_eq_take]
  exact eq_comm

end BlankLineAt

/-- The header block ends at the first blank line. -/
theorem headerEnd?_eq_some_iff {bytes : List UInt8} {e : Nat} :
    headerEnd? bytes = some e ↔ BlankLineAt bytes e ∧ ∀ i < e, ¬BlankLineAt bytes i := by
  induction bytes generalizing e with
  | nil =>
    constructor
    · intro h
      cases h
    · rintro ⟨hat, -⟩
      have hle := hat.add_four_le
      exact absurd hle (Nat.not_succ_le_zero _)
  | cons b bytes ih =>
    have hsucc (i : Nat) : BlankLineAt (b :: bytes) (i + 1) ↔ BlankLineAt bytes i := Iff.rfl
    rw [headerEnd?]
    split_ifs with hzero
    · rw [← BlankLineAt.zero_iff] at hzero
      constructor
      · intro h
        obtain rfl := Option.some.inj h
        exact ⟨hzero, fun i hi ↦ absurd hi (Nat.not_lt_zero i)⟩
      · rintro ⟨-, hfirst⟩
        cases e with
        | zero => rfl
        | succ e => exact absurd hzero (hfirst 0 (Nat.succ_pos e))
    · rw [← BlankLineAt.zero_iff] at hzero
      rw [Option.map_eq_some_iff]
      constructor
      · rintro ⟨e, he, rfl⟩
        obtain ⟨hat, hfirst⟩ := ih.1 he
        refine ⟨hat, fun i hi ↦ ?_⟩
        cases i with
        | zero => exact hzero
        | succ i => exact hfirst i (Nat.lt_of_succ_lt_succ hi)
      · rintro ⟨hat, hfirst⟩
        cases e with
        | zero => exact absurd hat hzero
        | succ e =>
          exact ⟨e, ih.2 ⟨hat, fun i hi ↦ hfirst (i + 1) (Nat.succ_lt_succ hi)⟩, rfl⟩

theorem headerEnd?_eq_none_iff {bytes : List UInt8} :
    headerEnd? bytes = none ↔ ∀ i, ¬BlankLineAt bytes i := by
  rw [Option.eq_none_iff_forall_ne_some]
  constructor
  · intro h i
    induction i using Nat.strongRecOn with
    | _ i ih => exact fun hat ↦ h i (headerEnd?_eq_some_iff.2 ⟨hat, ih⟩)
  · exact fun h e he ↦ h e (headerEnd?_eq_some_iff.1 he).1

theorem add_four_le_of_headerEnd? {bytes : List UInt8} {e : Nat} (h : headerEnd? bytes = some e) :
    e + 4 ≤ bytes.length :=
  (headerEnd?_eq_some_iff.1 h).1.add_four_le

/-- What stands behind the header block. -/
theorem drop_of_headerEnd? {bytes : List UInt8} {e : Nat} (h : headerEnd? bytes = some e) :
    bytes.drop e =
      carriageReturn :: lineFeed :: carriageReturn :: lineFeed :: bytes.drop (e + 4) := by
  have hat : (bytes.drop e).take 4 = _ := (headerEnd?_eq_some_iff.1 h).1
  have hsplit := List.take_append_drop 4 (bytes.drop e)
  rw [hat, List.drop_drop] at hsplit
  exact hsplit.symm

/-- Bytes behind the header block do not move its end. -/
theorem headerEnd?_append {bytes : List UInt8} {e : Nat} (h : headerEnd? bytes = some e)
    (more : List UInt8) : headerEnd? (bytes ++ more) = some e := by
  obtain ⟨hat, hfirst⟩ := headerEnd?_eq_some_iff.1 h
  refine headerEnd?_eq_some_iff.2 ⟨hat.append, fun i hi hi' ↦ hfirst i hi ?_⟩
  have hle := hat.add_four_le
  exact (BlankLineAt.append_iff (by omega)).1 hi'

/-- A piece that holds the end of the header block has it there. -/
theorem headerEnd?_take {bytes : List UInt8} {e n : Nat} (h : headerEnd? bytes = some e)
    (hn : e + 4 ≤ n) : headerEnd? (bytes.take n) = some e := by
  obtain ⟨hat, hfirst⟩ := headerEnd?_eq_some_iff.1 h
  refine headerEnd?_eq_some_iff.2 ⟨(BlankLineAt.take_iff hn).2 hat, fun i hi hi' ↦ hfirst i hi ?_⟩
  exact (BlankLineAt.take_iff (by omega)).1 hi'

/-- A piece that is too short for the header block has no end of it. -/
theorem headerEnd?_take_eq_none {bytes : List UInt8} {e n : Nat} (h : headerEnd? bytes = some e)
    (hn : n < e + 4) : headerEnd? (bytes.take n) = none := by
  obtain ⟨-, hfirst⟩ := headerEnd?_eq_some_iff.1 h
  refine headerEnd?_eq_none_iff.2 fun i hi ↦ ?_
  have hle := hi.add_four_le
  rw [List.length_take] at hle
  exact hfirst i (by omega) ((BlankLineAt.take_iff (by omega)).1 hi)

/-- A search may begin behind bytes at which no blank line begins. -/
theorem headerEnd?_drop {bytes : List UInt8} {n : Nat} (h : ∀ i < n, ¬BlankLineAt bytes i) :
    headerEnd? bytes = (headerEnd? (bytes.drop n)).map (n + ·) := by
  cases hdrop : headerEnd? (bytes.drop n) with
  | none =>
    rw [headerEnd?_eq_none_iff] at hdrop
    refine headerEnd?_eq_none_iff.2 fun i hi ↦ ?_
    rcases Nat.lt_or_ge i n with hlt | hge
    · exact h i hlt hi
    · obtain ⟨j, rfl⟩ := Nat.exists_eq_add_of_le hge
      exact hdrop j (BlankLineAt.drop_iff.2 hi)
  | some e =>
    obtain ⟨hat, hfirst⟩ := headerEnd?_eq_some_iff.1 hdrop
    refine headerEnd?_eq_some_iff.2 ⟨BlankLineAt.drop_iff.1 hat, fun i hi hi' ↦ ?_⟩
    change i < n + e at hi
    rcases Nat.lt_or_ge i n with hlt | hge
    · exact h i hlt hi'
    · obtain ⟨j, rfl⟩ := Nat.exists_eq_add_of_le hge
      exact hfirst j (by omega) (BlankLineAt.drop_iff.2 hi')

/-- A blank line that was not there before ends among the new bytes, so it begins at most three
bytes before them. -/
theorem headerEnd?_append_eq_map {bytes : List UInt8} (h : headerEnd? bytes = none)
    (more : List UInt8) :
    headerEnd? (bytes ++ more) =
      (headerEnd? ((bytes ++ more).drop (bytes.length - 3))).map (bytes.length - 3 + ·) :=
  headerEnd?_drop fun i hi hat ↦
    headerEnd?_eq_none_iff.1 h i ((BlankLineAt.append_iff (by omega)).1 hat)

namespace Phase

/-- What reading waits for, from the buffer alone. -/
def of (buffer : List UInt8) : Phase :=
  match headerEnd? buffer with
  | none => head buffer.length
  | some e => body (e + 4 + declaredLength (buffer.take e))

theorem of_eq_head {buffer : List UInt8} (h : headerEnd? buffer = none) :
    of buffer = head buffer.length := by
  rw [of, h]

theorem of_eq_body {buffer : List UInt8} {e : Nat} (h : headerEnd? buffer = some e) :
    of buffer = body (e + 4 + declaredLength (buffer.take e)) := by
  rw [of, h]

/-- One step of reading leads from what is known of one buffer to what is known of the next. -/
theorem next_of (buffer bytes : List UInt8) :
    (of buffer).next (buffer ++ bytes) = of (buffer ++ bytes) := by
  cases h : headerEnd? buffer with
  | some e =>
    have hle := add_four_le_of_headerEnd? h
    rw [of_eq_body h, of_eq_body (headerEnd?_append h bytes),
      List.take_append_of_le_length (by omega)]
    rfl
  | none =>
    have hdrop := headerEnd?_append_eq_map h bytes
    rw [of_eq_head h, next]
    cases hstop : headerEnd? ((buffer ++ bytes).drop (buffer.length - 3)) with
    | none =>
      rw [hstop] at hdrop
      rw [of_eq_head hdrop]
    | some stop =>
      rw [hstop] at hdrop
      rw [of_eq_body hdrop]

end Phase

end ScriptHost.Http
