import Mathlib.Data.List.Nodup
import Mathlib.Tactic.Common
import ScriptHost.Members

/-!
# Names of positions

Members are dense when each is named after its position.  Since different positions have different
names, dense members have distinct names, and the name of the position behind the last one is free.

## Main results

* `indexKey_injective` : different positions have different names.
* `Members.isDense_iff` : which names dense members have.
-/

namespace ScriptHost

/-- Different positions have different names. -/
theorem indexKey_injective : Function.Injective indexKey := by
  intro i j h
  have hdigits : Nat.toDigits 10 i = Nat.toDigits 10 j := by
    rw [← Nat.toList_repr, ← Nat.toList_repr]
    exact congrArg String.toList h
  rw [← Nat.ofDigitChars_ten_toDigits (n := i), hdigits, Nat.ofDigitChars_ten_toDigits]

namespace Members

variable {α β : Type}

theorem length_keys (ms : List (String × α)) : (keys ms).length = ms.length :=
  List.length_map Prod.fst

/-- Members keep their names when their values are changed. -/
theorem keys_map (f : α → β) (ms : List (String × α)) :
    keys (ms.map fun m ↦ (m.1, f m.2)) = keys ms := by
  rw [keys, List.map_map]
  rfl

/-- A dense member is named after its position. -/
theorem fst_eq_of_isDense {ms : List (String × α)} {m : String × α} {i : Nat}
    (h : isDense ms = true) (hm : ms[i]? = some m) : m.1 = indexKey i :=
  beq_iff_eq.1 (List.all_eq_true.1 h (m, i) (List.mk_mem_zipIdx_iff_getElem?.2 hm))

/-- Dense members have the names of the positions in order. -/
theorem isDense_iff {ms : List (String × α)} :
    isDense ms = true ↔ keys ms = (List.range ms.length).map indexKey := by
  constructor
  · intro h
    refine List.ext_getElem (by simp [keys]) fun i hi hi' ↦ ?_
    have hlt : i < ms.length := length_keys ms ▸ hi
    simpa [keys] using fst_eq_of_isDense h (List.getElem?_eq_getElem hlt)
  · intro h
    rw [isDense, List.all_eq_true]
    rintro ⟨m, i⟩ hm
    have hget : ms[i]? = some m := List.mk_mem_zipIdx_iff_getElem?.1 hm
    have hi : i < ms.length := (List.getElem?_eq_some_iff.1 hget).1
    have hname : (keys ms)[i]? = some m.1 := by
      rw [keys, List.getElem?_map, hget]
      rfl
    rw [h, List.getElem?_map, List.getElem?_range hi] at hname
    exact beq_iff_eq.2 (Option.some.inj hname).symm

/-- Whether members are dense depends on their names alone. -/
theorem isDense_congr {ms : List (String × α)} {ns : List (String × β)} (h : keys ms = keys ns) :
    isDense ms = isDense ns := by
  have hlength : ms.length = ns.length := by rw [← length_keys, h, length_keys]
  rw [Bool.eq_iff_iff, isDense_iff, isDense_iff, h, hlength]

/-- The name of the position behind dense members is free. -/
theorem indexKey_length_notMem {ms : List (String × α)} (h : isDense ms = true) :
    indexKey ms.length ∉ keys ms := by
  rw [isDense_iff.1 h, List.mem_map]
  rintro ⟨i, hi, hname⟩
  rw [indexKey_injective hname] at hi
  exact List.not_mem_range_self hi

theorem nodup_keys_ofValues (values : List α) : (keys (ofValues values)).Nodup := by
  have hkeys : keys (ofValues values) = (values.zipIdx.map Prod.snd).map indexKey := by
    rw [keys, ofValues, List.map_map, List.map_map]
    rfl
  rw [hkeys, List.zipIdx_map_snd]
  exact (List.nodup_range' ..).map indexKey_injective

/-- Members that are named after their positions are their values under the names of their
positions. -/
theorem ofValues_of_isDense {ms : List (String × α)} (h : isDense ms = true) :
    ofValues (ms.map Prod.snd) = ms := by
  refine List.ext_getElem (by simp [ofValues]) fun i hi hi' ↦ ?_
  have hlt : i < (keys ms).length := (length_keys ms).symm ▸ hi'
  have hname : (keys ms)[i] = indexKey i := by
    simp only [isDense_iff.1 h, List.getElem_map, List.getElem_range]
  simp only [ofValues, List.getElem_map, List.getElem_zipIdx, Nat.zero_add]
  exact Prod.ext (hname.symm.trans (List.getElem_map Prod.fst)) rfl

end Members

end ScriptHost
