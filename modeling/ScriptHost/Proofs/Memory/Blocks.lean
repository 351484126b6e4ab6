import Mathlib.Data.List.Basic
import Mathlib.Tactic.Common
import ScriptHost.Memory

/-!
# Which blocks are allocated

What can happen to blocks changes which addresses are allocated and nothing else about them.

## Main definitions

* `Memory.IsAllocated` : there is a block at an address.
* `Memory.IsBounded` : no block is at an address that is still to be given out.

## Main results

* `Memory.isAllocated_occupy`, `Memory.isAllocated_release`, `Memory.isAllocated_relocate`,
  `Memory.isAllocated_fill` : which addresses are allocated afterwards.
-/

namespace ScriptHost

namespace Memory

variable {m : Memory} {a b x : Address} {n : Nat}

/-- There is a block at an address. -/
def IsAllocated (m : Memory) (a : Address) : Prop := ∃ block, m.block? a = some block

instance (m : Memory) (a : Address) : Decidable (m.IsAllocated a) :=
  decidable_of_iff _ Option.isSome_iff_exists

theorem isAllocated_iff : m.IsAllocated a ↔ ∃ block, (a, block) ∈ m.blocks := by
  rw [IsAllocated, block?, ← Option.isSome_iff_exists, List.lookup_isSome_iff]
  simp

@[simp] theorem not_isAllocated_empty : ¬empty.IsAllocated a := by
  simp [isAllocated_iff, empty]

@[simp] theorem isAllocated_occupy {written : List UInt8} :
    (m.occupy a n written).IsAllocated x ↔ x = a ∨ m.IsAllocated x := by
  simp only [isAllocated_iff, occupy, List.mem_cons, Prod.mk.injEq]
  constructor
  · rintro ⟨block, ⟨rfl, -⟩ | h⟩
    · exact .inl rfl
    · exact .inr ⟨block, h⟩
  · rintro (rfl | ⟨block, h⟩)
    · exact ⟨_, .inl ⟨rfl, rfl⟩⟩
    · exact ⟨block, .inr h⟩

@[simp] theorem isAllocated_release : (m.release a).IsAllocated x ↔ m.IsAllocated x ∧ x ≠ a := by
  simp [isAllocated_iff, release, exists_and_right]

@[simp] theorem isAllocated_relocate :
    (m.relocate a b n).IsAllocated x ↔ x = b ∨ m.IsAllocated x ∧ x ≠ a := by
  rw [relocate, isAllocated_occupy, isAllocated_release]

/-- Writing to a block leaves all blocks where they are. -/
@[simp] theorem isAllocated_fill {bytes : List UInt8} :
    (m.fill a bytes).IsAllocated x ↔ m.IsAllocated x := by
  have hkeys : ((m.fill a bytes).blocks.map Prod.fst) = m.blocks.map Prod.fst := by
    rw [fill, List.map_map]
    exact List.map_congr_left fun b _ ↦ by dsimp only [Function.comp_apply]; split <;> rfl
  have hmem {m : Memory} : m.IsAllocated x ↔ x ∈ m.blocks.map Prod.fst := by
    simp [isAllocated_iff]
  rw [hmem, hmem, hkeys]

/-! ### Addresses that are still to be given out -/

/-- No block is at an address that is still to be given out. -/
def IsBounded (m : Memory) : Prop := ∀ a, m.IsAllocated a → a < m.next

theorem IsBounded.not_isAllocated_next (h : m.IsBounded) : ¬m.IsAllocated m.next :=
  fun hnext ↦ Nat.lt_irrefl _ (h _ hnext)

theorem isBounded_empty : empty.IsBounded := fun _ h ↦ absurd h not_isAllocated_empty

theorem IsBounded.occupy (h : m.IsBounded) (a : Address) (n : Nat) (written : List UInt8) :
    (m.occupy a n written).IsBounded := by
  intro x hx
  rcases isAllocated_occupy.1 hx with rfl | hx
  · exact Nat.lt_of_lt_of_le (Nat.lt_succ_self x) (Nat.le_max_right ..)
  · exact Nat.lt_of_lt_of_le (h x hx) (Nat.le_max_left ..)

theorem IsBounded.release (h : m.IsBounded) (a : Address) : (m.release a).IsBounded :=
  fun x hx ↦ h x (isAllocated_release.1 hx).1

theorem IsBounded.relocate (h : m.IsBounded) (a b : Address) (n : Nat) :
    (m.relocate a b n).IsBounded :=
  (h.release a).occupy b n _

theorem IsBounded.fill (h : m.IsBounded) (a : Address) (bytes : List UInt8) :
    (m.fill a bytes).IsBounded :=
  fun x hx ↦ h x (isAllocated_fill.1 hx)

end Memory

end ScriptHost
