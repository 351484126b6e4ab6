import Mathlib.Data.List.TakeWhile
import Mathlib.Tactic.Common
import ScriptHost.Equality
import ScriptHost.Foreign.Header
import ScriptHost.Proofs.Foreign.Frame
import ScriptHost.Proofs.Text.Utf8
import ScriptHost.Proofs.Value.Equality

/-!
# Values passed to foreign code and back

A header that was made of a value is read as that value, save that a string ends before its first
zero character: foreign code is given strings without their lengths.  Memory that is handed out for
other headers leaves what was written before as it is.

## Main definitions

* `Value.cut` : a value as it can be passed.
* `Value.FitsMemory` : there is memory for the string in a value.
* `Memory.Extends` : memory in which nothing that was written has changed.

## Main results

* `Tracker.exists_dup` : a copy in tracked memory.
* `Foreign.Header.exists_ofValue`, `Foreign.Header.exists_mapM_ofValue` : headers that were made of
  values and what is read from them.
-/

namespace ScriptHost

/-! ### Values without zero characters -/

/-- A text up to its first zero character. -/
def Text.beforeZero (s : List Char) : List Char := s.takeWhile (· != '\x00')

namespace Value

/-- The value with a string ending before its first zero character. -/
def cut : Value → Value
  | string s => string (String.ofList (Text.beforeZero s.toList))
  | v => v

/-- The system gives memory for a copy of the string in a value and for the zero byte after it. -/
def FitsMemory (allocator : Memory.Allocator) : Value → Prop
  | string s => allocator.gives ((Text.Utf8.encode s.toList).length + 1) = true
  | _ => True

instance (allocator : Memory.Allocator) : DecidablePred (FitsMemory allocator)
  | string _ => inferInstanceAs (Decidable (_ = true))
  | nil | number _ | boolean _ | object _ => isTrue trivial

/-- No string with a zero character in it. -/
def HasNoZero (v : Value) : Prop := ∀ s, v = string s → '\x00' ∉ s.toList

theorem HasNoZero.cut_eq {v : Value} (h : v.HasNoZero) : v.cut = v := by
  cases v with
  | string s =>
    have hall : Text.beforeZero s.toList = s.toList :=
      List.takeWhile_eq_self_iff.2 fun c hc ↦ bne_iff_ne.2 fun heq ↦ h s rfl (heq ▸ hc)
    rw [cut, hall, String.ofList_toList]
  | _ => rfl

end Value

/-- The bytes of a text up to the first zero byte are those of the text up to its first zero
character, whatever follows them in memory. -/
theorem Text.Utf8.takeWhile_encode (s : List Char) :
    (encode s ++ [0]).takeWhile (· != 0) = encode (beforeZero s) := by
  have hbefore : ∀ b ∈ encode (beforeZero s), (b != 0) = true := by
    refine fun b hb ↦ bne_iff_ne.2 ?_
    rintro rfl
    have hzero := List.all_eq_true.1 List.all_takeWhile _ (mem_of_mem_encode (by decide) hb)
    exact absurd hzero (by decide)
  have hsplit : encode s = encode (beforeZero s) ++ encode (s.dropWhile (· != '\x00')) := by
    rw [← encode_append, beforeZero, List.takeWhile_append_dropWhile]
  rw [hsplit, List.append_assoc, List.takeWhile_append_of_pos hbefore]
  have hhead := List.head?_dropWhile_not (· != '\x00') s
  cases hrest : s.dropWhile (· != '\x00') with
  | nil => simp [encode]
  | cons c rest =>
    rw [hrest] at hhead
    obtain rfl : c = '\x00' := by simpa using hhead
    have hzero : encode ('\x00' :: rest) = 0 :: encode rest := rfl
    rw [hzero, List.cons_append, List.takeWhile_cons_of_neg (by simp), List.append_nil]

/-! ### Copies in tracked memory -/

namespace Memory

variable {m m' m'' : Memory} {a : Address} {bytes : List UInt8}

/-- Addresses are given out in order, and at those given out before nothing has changed. -/
structure Extends (m m' : Memory) : Prop where
  next_le : m.next ≤ m'.next
  contents_eq : ∀ a < m.next, m'.contents a = m.contents a

theorem Extends.refl (m : Memory) : m.Extends m := ⟨Nat.le_refl _, fun _ _ ↦ rfl⟩

theorem Extends.trans (h : m.Extends m') (h' : m'.Extends m'') : m.Extends m'' where
  next_le := Nat.le_trans h.next_le h'.next_le
  contents_eq a ha :=
    (h'.contents_eq a (Nat.lt_of_lt_of_le ha h.next_le)).trans (h.contents_eq a ha)

/-- The blocks after one of them was written to. -/
theorem block?_fill (m : Memory) (a x : Address) (bytes : List UInt8) :
    (m.fill a bytes).block? x = (m.block? x).map fun block ↦
      if x = a then { block with written := bytes ++ block.written.drop bytes.length }
      else block := by
  rcases m with ⟨next, blocks⟩
  simp only [fill, block?]
  induction blocks with
  | nil => rfl
  | cons b blocks ih =>
    obtain ⟨b, block⟩ := b
    rw [List.map_cons, List.lookup_cons, List.lookup_cons]
    by_cases hx : x = b
    · subst hx
      by_cases ha : x = a <;> simp [ha]
    · by_cases ha : b = a
      · simpa [ha, beq_eq_false_iff_ne.2 (ha ▸ hx)] using ih
      · simpa [ha, beq_eq_false_iff_ne.2 hx] using ih

theorem contents_fill_of_ne {x : Address} (hx : x ≠ a) :
    (m.fill a bytes).contents x = m.contents x := by
  simp [contents, block?_fill, hx]

theorem contents_occupy_of_ne {x : Address} {n : Nat} (hx : x ≠ a) :
    (m.occupy a n bytes).contents x = m.contents x := by
  simp [contents, block?, occupy, List.lookup_cons, beq_eq_false_iff_ne.2 hx]

theorem contents_fill_occupy (m : Memory) (a : Address) (n : Nat) (bytes : List UInt8) :
    ((m.occupy a n []).fill a bytes).contents a = bytes := by
  rw [contents, block?_fill]
  simp [block?, occupy]

end Memory

/-- A copy is at the next address, and what was written before stays as it is. -/
theorem Tracker.exists_dup (t : Tracker) {allocator : Memory.Allocator} {bytes : List UInt8}
    (h : allocator.gives (bytes.length + 1) = true) :
    ∃ t', t.dup allocator bytes = (some t.memory.next, t') ∧ t.memory.Extends t'.memory ∧
      t.memory.next < t'.memory.next ∧ t'.memory.contents t.memory.next = bytes ++ [0] := by
  obtain ⟨t', hdup, hmemory⟩ : ∃ t', t.dup allocator bytes = (some t.memory.next, t') ∧
      t'.memory = (t.memory.occupy t.memory.next (bytes.length + 1) []).fill t.memory.next
        (bytes ++ [0]) := by
    rw [dup, alloc, Memory.reserve, if_pos h]
    exact ⟨_, rfl, rfl⟩
  refine ⟨t', hdup, ?_⟩
  rw [hmemory]
  refine ⟨⟨Nat.le_max_left .., fun a ha ↦ ?_⟩, ?_, Memory.contents_fill_occupy ..⟩
  · have hne := Nat.ne_of_lt ha
    rw [Memory.contents_fill_of_ne hne, Memory.contents_occupy_of_ne hne]
  · exact Nat.lt_of_lt_of_le (Nat.lt_succ_self _) (Nat.le_max_right ..)

namespace Foreign

/-! ### Headers -/

/-- Tags are told apart by their numbers. -/
theorem Tag.same_code (s t : Tag) : s.code.same t.code = decide (s = t) := by
  cases s <;> cases t <;> decide +kernel

namespace Header

theorem toValue_nil (m : Memory) : toValue m nil = .nil := by
  simp [toValue, nil, Tag.same_code]

theorem toValue_number (m : Memory) (n : Double) :
    toValue m ⟨Tag.number.code, n, .null⟩ = .number n := by
  simp [toValue, Tag.same_code]

theorem toValue_ofBoolean (m : Memory) (b : Bool) : toValue m (ofBoolean b) = .boolean b := by
  cases b <;> simp [toValue, ofBoolean, Tag.same_code] <;> decide +kernel

theorem toValue_string (m : Memory) (a : Address) :
    toValue m ⟨Tag.string.code, 0, .string a⟩ = .string (textAt m a) := by
  simp [toValue, Tag.same_code]

theorem toValue_object (m : Memory) (h : Handle) :
    toValue m ⟨Tag.object.code, 0, .object h⟩ = .object h := by
  simp [toValue, Tag.same_code]

theorem ofValue_string {s : String} {w : World} {a : Address} {memory : Tracker}
    (h : w.memory.dup w.allocator (Text.Utf8.encode s.toList) = (some a, memory)) :
    ofValue (.string s) w = .ok ⟨Tag.string.code, 0, .string a⟩ (w.setMemory memory) := by
  have hget (f : World → Header × World) :
      (modifyGet f : Action Header) w = .ok (f w).1 (f w).2 := rfl
  rw [ofValue, hget, h, World.setMemory]

/-- A header that was made of a value is read as the value, also later on. -/
theorem exists_ofValue {v : Value} {w : World} (hv : v.FitsMemory w.allocator) :
    ∃ r memory, ofValue v w = .ok r (w.setMemory memory) ∧
      w.memory.memory.Extends memory.memory ∧
      ∀ m, memory.memory.Extends m → toValue m r = v.cut := by
  cases v with
  | nil => exact ⟨_, w.memory, rfl, .refl _, fun m _ ↦ toValue_nil m⟩
  | number n => exact ⟨_, w.memory, rfl, .refl _, fun m _ ↦ toValue_number m n⟩
  | boolean b => exact ⟨_, w.memory, rfl, .refl _, fun m _ ↦ toValue_ofBoolean m b⟩
  | object h => exact ⟨_, w.memory, rfl, .refl _, fun m _ ↦ toValue_object m h⟩
  | string s =>
    obtain ⟨memory, hdup, hextends, hlt, hcontents⟩ := w.memory.exists_dup hv
    refine ⟨_, memory, ofValue_string hdup, hextends, fun m hm ↦ ?_⟩
    rw [toValue_string, textAt, Memory.cString, hm.contents_eq _ hlt, hcontents,
      Text.Utf8.takeWhile_encode, Text.Utf8.decode_encode, Value.cut]

/-- Headers that were made of values are read as the values, each of them also after the others
were made. -/
theorem exists_mapM_ofValue {vs : List Value} {w : World}
    (hvs : ∀ v ∈ vs, v.FitsMemory w.allocator) :
    ∃ rs memory, vs.mapM ofValue w = .ok rs (w.setMemory memory) ∧
      w.memory.memory.Extends memory.memory ∧
      ∀ m, memory.memory.Extends m → rs.map (toValue m) = vs.map Value.cut := by
  induction vs generalizing w with
  | nil => exact ⟨[], w.memory, rfl, .refl _, fun _ _ ↦ rfl⟩
  | cons v vs ih =>
    obtain ⟨hv, hvs⟩ := List.forall_mem_cons.1 hvs
    obtain ⟨r, memory, hr, hextends, hread⟩ := exists_ofValue hv
    obtain ⟨rs, memory', hrs, hextends', hreads⟩ := ih (w := w.setMemory memory) hvs
    refine ⟨r :: rs, memory', ?_, hextends.trans hextends', fun m hm ↦ ?_⟩
    · rw [List.mapM_cons]
      exact (Action.bind_of_ok hr).trans ((Action.bind_of_ok hrs).trans rfl)
    · rw [List.map_cons, List.map_cons, hread m (hextends'.trans hm), hreads m hm]

/-- Reading changes nothing. -/
theorem readAll_map_some (rs : List Header) (w : World) :
    readAll (rs.map some) w = .ok (rs.map (toValue w.memory.memory)) w := by
  induction rs with
  | nil => rfl
  | cons r rs ih =>
    rw [readAll, List.map_cons, List.mapM_cons]
    exact (Action.bind_of_ok rfl).trans ((Action.bind_of_ok ih).trans rfl)

end Header

end Foreign

end ScriptHost
