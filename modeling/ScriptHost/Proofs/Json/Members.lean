import Mathlib.Tactic.Common
import ScriptHost.Proofs.Json.Grammar
import ScriptHost.Proofs.Object.Histories

/-!
# Names written more than once

Writing the members of an object one after another leaves each name at its first place with its last
value.

## Main results

* `Json.lastWins_iff` : the members that remain are those of the map built from what was written.
-/

namespace ScriptHost

namespace Members

variable {α : Type}

/-- Members with distinct names are known from their names and from what is found under them. -/
theorem ext_of_keys_of_find? {ms ns : List (String × α)} (hnodup : (keys ms).Nodup)
    (hkeys : keys ms = keys ns) (hfind : ∀ name, find? name ms = find? name ns) : ms = ns := by
  have hms := Gathering.holds_ofMembers hnodup
  have hns : (Gathering.ofMembers ms).Holds ns :=
    ⟨hms.names_eq.trans hkeys, fun name ↦ (hms.values_eq name).trans (hfind name), hkeys ▸ hnodup⟩
  exact hms.members_eq.symm.trans hns.members_eq

/-- The values of an array are those that it was made of. -/
theorem map_snd_ofValues (values : List α) : (ofValues values).map Prod.snd = values := by
  rw [ofValues, List.map_map]
  exact List.zipIdx_map_fst 0 values

end Members

namespace Json

/-- The members that remain are those of the map built from what was written. -/
theorem lastWins_iff {written kept : List (String × Tree)} :
    LastWins written kept ↔ Tree.map written = .node .map kept := by
  rw [Tree.map_eq, Tree.node.injEq, and_iff_right rfl]
  have hnames := Members.keys_foldl_put written
  have hvalues := Members.find?_foldl_put written
  constructor
  · rintro ⟨hkeys, hlookup⟩
    refine Members.ext_of_keys_of_find? (Gathering.holds_empty.putAll written).nodup
      (hnames.trans hkeys.symm) fun name ↦ ?_
    rw [hvalues, Members.find?_eq_lookup, hlookup]
  · rintro rfl
    exact ⟨hnames, fun name ↦ (Members.find?_eq_lookup _ _).symm.trans (hvalues name)⟩

namespace LastWins

variable {written kept : List (String × Tree)}

/-- The members that remain have distinct names. -/
theorem nodup (h : LastWins written kept) : (Members.keys kept).Nodup := by
  have hmap := lastWins_iff.1 h
  rw [Tree.map_eq, Tree.node.injEq] at hmap
  exact hmap.2 ▸ (Gathering.holds_empty.putAll written).nodup

/-- The members that remain were written. -/
theorem subset (h : LastWins written kept) : kept ⊆ written := by
  intro m hm
  have hfind := Members.find?_of_mem h.nodup hm
  rw [Members.find?_eq_lookup, h.lookup_eq, List.lookup_eq_some_iff] at hfind
  obtain ⟨before, after, hwritten, -⟩ := hfind
  exact List.mem_reverse.1 (hwritten ▸ List.mem_append_right before List.mem_cons_self)

end LastWins

end Json

end ScriptHost
