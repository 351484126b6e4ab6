import Mathlib.Data.List.TakeWhile
import ScriptHost.Path.Offsets
import ScriptHost.Proofs.Json.Cursor.Places
import ScriptHost.Proofs.Path.Grammar

/-!
# Offsets in a path

Reading a path never takes a piece of it that is not there: a group is left only from a bracket on,
so that its closing bracket stands behind the opening one, and the indices that are computed are
those of brackets, between which no character is cut, however many bytes the others take.

## Main results

* `Path.Offsets.readGroups_eq`, `Path.Offsets.readSegment_eq` : the pieces of a segment are there.
* `Path.Offsets.parse_eq` : reading by offsets always gives an answer, that of `Path.parse`.
-/

namespace ScriptHost.Path.Offsets

open Json.Cursor (At at_zero slice?)
open Text.Utf8 (encode IsAsciiTest)

section

variable {text u s : List Char} {i : Nat} {c : Char}

theorem isAsciiTest_ne (hc : c.toNat < 0x80) : IsAsciiTest (· != c) := by
  have htrue {d : Char} (hd : 0x80 ≤ d.toNat) : (d != c) = true :=
    bne_iff_ne.2 (Text.Utf8.ne_of_beyond hd hc)
  exact fun d e hd he ↦ (htrue hd).trans (htrue he).symm

theorem bne_of_notMem (h : c ∉ u) : ∀ d ∈ u, (d != c) = true := fun _ hd ↦
  bne_iff_ne.2 fun heq ↦ h (heq ▸ hd)

/-- The first `c` is found behind the text that stands in front of it. -/
theorem find_eq_add (hc : c.toNat < 0x80) (h : At text i (u ++ c :: s)) (hu : c ∉ u) :
    find c (encode text) i = i + Text.byteCount u := by
  have htake : (u ++ c :: s).takeWhile (· != c) = u := by
    rw [List.takeWhile_append_of_pos (bne_of_notMem hu)]
    simp
  rw [find, h.skipWhile_eq (isAsciiTest_ne hc), htake]

/-- Where there is no `c`, the end is found. -/
theorem find_eq_length (hc : c.toNat < 0x80) (h : At text i s) (hs : c ∉ s) :
    find c (encode text) i = (encode text).length := by
  have htake : s.takeWhile (· != c) = s := List.takeWhile_eq_self_iff.2 (bne_of_notMem hs)
  rw [find, h.skipWhile_eq (isAsciiTest_ne hc), htake, h.length_eq]

/-- What is left at a place can be taken. -/
theorem slice?_left (h : At text i s) : slice? (encode text) i (encode text).length = some s := by
  rw [h.length_eq]
  exact At.slice?_eq (s := []) (by rwa [List.append_nil])

theorem lt_length (h : At text i (c :: s)) : i < (encode text).length := by
  have hpos : Text.byteCount (c :: s) ≠ 0 := mt Text.byteCount_eq_zero_iff.1 (List.cons_ne_nil c s)
  rw [h.length_eq]
  omega

end

/-! ### Groups -/

section Groups

variable {text inside after left : List Char} {i : Nat}

/-- A group and what follows it can be taken. -/
theorem readGroups_of_group (h : At text i ('[' :: (inside ++ ']' :: after)))
    (hinside : ']' ∉ inside) :
    readGroups (encode text) i =
      match Decimal.readNat indexBound inside with
      | none => some (.error .badIndex)
      | some n =>
        if after.isEmpty || after.head? == some '[' then
          (readGroups (encode text) (i + 1 + Text.byteCount inside + 1)).map (·.map (.index n :: ·))
        else some (.error (.unexpected (String.ofList after))) := by
  have hinner : At text (i + 1) (inside ++ ']' :: after) := h.next (by decide)
  have hclose : At text (i + 1 + Text.byteCount inside) (']' :: after) := hinner.append
  have hafter : At text (i + 1 + Text.byteCount inside + 1) after := hclose.next (by decide)
  have hfind : find ']' (encode text) i = i + 1 + Text.byteCount inside := by
    have hcount : Text.byteCount ('[' :: inside) = 1 + Text.byteCount inside := rfl
    rw [find_eq_add (u := '[' :: inside) (by decide) h (by simpa using hinside), hcount,
      Nat.add_assoc]
  rw [readGroups, if_pos (lt_length h)]
  simp only [hfind, if_pos (lt_length hclose), hinner.slice?_eq, slice?_left hafter,
    Option.bind_eq_bind, Option.bind_some]
  cases Decimal.readNat indexBound inside with
  | none => rfl
  | some n =>
    dsimp only
    split_ifs
    · cases readGroups (encode text) (i + 1 + Text.byteCount inside + 1) <;> rfl
    · rfl

/-- The groups from a bracket on, or from the end. -/
theorem readGroups_eq (h : At text i left) (hleft : left = [] ∨ left.head? = some '[') :
    readGroups (encode text) i = some (Path.readGroups left) := by
  induction hlength : left.length using Nat.strongRecOn generalizing left i with
  | _ n ih =>
    rcases hleft with rfl | hhead
    · have hend : (encode text).length = i := h.length_eq
      rw [readGroups, if_neg (Nat.not_lt.2 (Nat.le_of_eq hend)), Path.readGroups]
    · obtain ⟨s, rfl⟩ := List.head?_eq_some_iff.1 hhead
      by_cases hs : ']' ∈ s
      · obtain ⟨inside, after, rfl, hinside⟩ := List.eq_append_cons_of_mem hs
        have hlt : after.length < n := by
          rw [← hlength]
          simp
          omega
        have hafter : At text (i + 1 + Text.byteCount inside + 1) after :=
          ((h.next (by decide)).append).next (by decide)
        rw [readGroups_of_group h hinside, Path.readGroups_cons hinside]
        cases Decimal.readNat indexBound inside with
        | none => rfl
        | some index =>
          dsimp only
          split_ifs with hgroup
          · have hgroup : after = [] ∨ after.head? = some '[' := by simpa using hgroup
            rw [ih _ hlt hafter hgroup rfl]
            rfl
          · have hother : ¬(after = [] ∨ after.head? = some '[') := by simpa using hgroup
            rw [Path.readGroups_of_head? hother]
            rfl
      · have hnone : ']' ∉ '[' :: s := by simpa using hs
        rw [readGroups, if_pos (lt_length h)]
        simp only [find_eq_length (by decide) h hnone, Nat.lt_irrefl, if_false]
        rw [Path.readGroups_of_notMem hs]

end Groups

/-! ### Segments and paths -/

/-- The name in front of the first bracket and what follows it can be taken. -/
theorem spanName?_append {name rest : List Char} (hname : '[' ∉ name)
    (hrest : rest = [] ∨ rest.head? = some '[') : spanName? (name ++ rest) = some (name, rest) := by
  have h := at_zero (name ++ rest)
  unfold spanName?
  rcases hrest with rfl | hhead
  · rw [List.append_nil] at h ⊢
    simp only [find_eq_length (by decide) h hname, Nat.lt_irrefl, if_false]
  · obtain ⟨rest, rfl⟩ := List.head?_eq_some_iff.1 hhead
    have hstop : At (name ++ '[' :: rest) (0 + Text.byteCount name) ('[' :: rest) := h.append
    simp only [find_eq_add (by decide) h hname, if_pos (lt_length hstop), h.slice?_eq,
      slice?_left hstop, Option.bind_eq_bind, Option.bind_some]
    rfl

theorem readSegment_eq (segment : List Char) :
    readSegment segment = some (Path.readSegment segment) := by
  obtain ⟨name, rest, rfl, hname, hrest⟩ := exists_name_append segment
  obtain ⟨htake, hdrop⟩ := span_name hname hrest
  have hempty : (name ++ rest).isEmpty = (name.isEmpty && rest.isEmpty) := by cases name <;> rfl
  rw [readSegment, spanName?_append hname hrest, Path.readSegment, hempty]
  simp only [Option.bind_eq_bind, Option.bind_some, htake, hdrop,
    readGroups_eq (at_zero rest) hrest]
  split_ifs
  · rfl
  all_goals cases Path.readGroups rest <;> rfl

theorem readSegments_eq (segments : List (List Char)) :
    readSegments segments = some ((segments.mapM Path.readSegment).map List.flatten) := by
  induction segments with
  | nil => rfl
  | cons segment segments ih =>
    rw [readSegments, readSegment_eq, List.mapM_cons]
    simp only [Option.bind_eq_bind, Option.bind_some, ih]
    cases Path.readSegment segment with
    | error fault => rfl
    | ok steps => cases segments.mapM Path.readSegment <;> rfl

/-- Reading by offsets always gives an answer, that of reading the characters. -/
theorem parse_eq (path : String) : parse path = some (Path.parse path) := by
  by_cases hempty : path = ""
  · subst hempty
    rfl
  · rw [parse, if_neg (mt eq_of_beq hempty), Path.parse_of_ne_empty hempty]
    exact readSegments_eq _

end ScriptHost.Path.Offsets
