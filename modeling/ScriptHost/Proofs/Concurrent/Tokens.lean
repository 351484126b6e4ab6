import Mathlib.Data.List.Nodup
import Mathlib.Logic.Function.Basic

/-!
# Tokens that threads take and hand out

A thread takes a token that nobody had before and holds it until it hands it out or drops it.  So no
two threads hold one token, and none is handed out twice.

## Main definitions

* `Tokens` : which tokens were taken, are held, and were handed out.

## Main results

* `Tokens.take`, `Tokens.drop`, `Tokens.issue`, `Tokens.takeIssue` : the steps keep the tokens
  apart.
-/

namespace ScriptHost

/-- The tokens that threads hold and those that were handed out are among those taken, and no token
is in two places. -/
structure Tokens {ι α : Type} (taken : α → Prop) (held : ι → Option α) (issued : List α) :
    Prop where
  taken_of_held {t : ι} {x : α} : held t = some x → taken x
  notMem_of_held {t : ι} {x : α} : held t = some x → x ∉ issued
  unique {t u : ι} {x : α} : held t = some x → held u = some x → t = u
  taken_of_mem {x : α} : x ∈ issued → taken x
  nodup : issued.Nodup

namespace Tokens

variable {ι α : Type} {taken taken' : α → Prop} {held : ι → Option α} {issued : List α} {t : ι}
  {x : α}

theorem mono (h : Tokens taken held issued) (htaken : ∀ x, taken x → taken' x) :
    Tokens taken' held issued :=
  { h with
    taken_of_held := fun hx ↦ htaken _ (h.taken_of_held hx)
    taken_of_mem := fun hx ↦ htaken _ (h.taken_of_mem hx) }

/-- A token that was not taken before is taken and handed out at once. -/
theorem takeIssue (h : Tokens taken held issued) (hx : ¬taken x)
    (htaken : ∀ y, taken' y ↔ taken y ∨ y = x) : Tokens taken' held (issued ++ [x]) where
  taken_of_held hu := (htaken _).2 (.inl (h.taken_of_held hu))
  notMem_of_held hu hmem := by
    rcases List.mem_append.1 hmem with hmem | hmem
    · exact h.notMem_of_held hu hmem
    · exact hx (List.mem_singleton.1 hmem ▸ h.taken_of_held hu)
  unique := h.unique
  taken_of_mem hmem := by
    rcases List.mem_append.1 hmem with hmem | hmem
    · exact (htaken _).2 (.inl (h.taken_of_mem hmem))
    · exact (htaken _).2 (.inr (List.mem_singleton.1 hmem))
  nodup := by
    refine List.nodup_append.2 ⟨h.nodup, List.nodup_singleton x, fun y hy z hz hyz ↦ ?_⟩
    exact hx (List.mem_singleton.1 hz ▸ hyz ▸ h.taken_of_mem hy)

variable [DecidableEq ι]

theorem update_eq_some_iff {x? : Option α} {u : ι} :
    Function.update held t x? u = some x ↔ u = t ∧ x? = some x ∨ u ≠ t ∧ held u = some x := by
  by_cases hu : u = t
  · simp [hu]
  · simp [hu]

/-- A thread drops what it holds. -/
theorem drop (h : Tokens taken held issued) (t : ι) :
    Tokens taken (Function.update held t none) issued := by
  have hheld {u : ι} {y : α} (hu : Function.update held t none u = some y) : held u = some y :=
    ((update_eq_some_iff.1 hu).resolve_left fun hnone ↦ nomatch hnone.2).2
  exact { h with
    taken_of_held := fun hu ↦ h.taken_of_held (hheld hu)
    notMem_of_held := fun hu ↦ h.notMem_of_held (hheld hu)
    unique := fun hu hv ↦ h.unique (hheld hu) (hheld hv) }

/-- A thread takes a token that was not taken before. -/
theorem take (h : Tokens taken held issued) (hx : ¬taken x) (t : ι)
    (htaken : ∀ y, taken' y ↔ taken y ∨ y = x) :
    Tokens taken' (Function.update held t (some x)) issued where
  taken_of_held hu := by
    rcases update_eq_some_iff.1 hu with ⟨-, hy⟩ | ⟨-, hu⟩
    · exact (htaken _).2 (.inr (Option.some.inj hy).symm)
    · exact (htaken _).2 (.inl (h.taken_of_held hu))
  notMem_of_held hu hmem := by
    rcases update_eq_some_iff.1 hu with ⟨-, hy⟩ | ⟨-, hu⟩
    · exact hx (Option.some.inj hy ▸ h.taken_of_mem hmem)
    · exact h.notMem_of_held hu hmem
  unique hu hv := by
    rcases update_eq_some_iff.1 hu with ⟨hut, hy⟩ | ⟨-, hu'⟩
    · rcases update_eq_some_iff.1 hv with ⟨hvt, -⟩ | ⟨-, hv'⟩
      · rw [hut, hvt]
      · exact absurd (Option.some.inj hy ▸ h.taken_of_held hv') hx
    · rcases update_eq_some_iff.1 hv with ⟨-, hy⟩ | ⟨-, hv'⟩
      · exact absurd (Option.some.inj hy ▸ h.taken_of_held hu') hx
      · exact h.unique hu' hv'
  taken_of_mem hy := (htaken _).2 (.inl (h.taken_of_mem hy))
  nodup := h.nodup

/-- A thread hands out what it holds. -/
theorem issue (h : Tokens taken held issued) (ht : held t = some x) :
    Tokens taken (Function.update held t none) (issued ++ [x]) where
  taken_of_held := (h.drop t).taken_of_held
  notMem_of_held {u y} hu hmem := by
    rcases List.mem_append.1 hmem with hmem | hmem
    · exact (h.drop t).notMem_of_held hu hmem
    · obtain rfl := List.mem_singleton.1 hmem
      obtain ⟨hut, hu⟩ := (update_eq_some_iff.1 hu).resolve_left fun hnone ↦ nomatch hnone.2
      exact hut (h.unique hu ht)
  unique := (h.drop t).unique
  taken_of_mem hmem := by
    rcases List.mem_append.1 hmem with hmem | hmem
    · exact h.taken_of_mem hmem
    · exact List.mem_singleton.1 hmem ▸ h.taken_of_held ht
  nodup := by
    refine List.nodup_append.2 ⟨h.nodup, List.nodup_singleton x, fun y hy z hz hyz ↦ ?_⟩
    exact h.notMem_of_held ht (List.mem_singleton.1 hz ▸ hyz ▸ hy)

end Tokens

end ScriptHost
