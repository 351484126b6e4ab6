import ScriptHost.Json.Printer

/-!
# What a value leads to

A value leads to an object if the object is found in it, or in a member of an object to which it
leads.  Writing an object leaves the tree, and with it the text, of every value that does not lead
there.

## Main definitions

* `Heap.Reaches` : a value leads to an object.

## Main results

* `Heap.unfold_write`, `Heap.compact_write`, `Heap.display_write` : what stays when an object that
  a value does not lead to is written.
-/

namespace ScriptHost.Heap

/-- A value leads to an object. -/
inductive Reaches (heap : Heap) (target : Handle) : Value → Prop
  | self : Reaches heap target (.object target)
  | member {g : Handle} {m : String × Value} (hm : m ∈ (heap.get g).members)
      (h : Reaches heap target m.2) : Reaches heap target (.object g)

variable {heap : Heap} {target : Handle} {v : Value}

theorem size_write (heap : Heap) (target : Handle) (o : Object Value) :
    (heap.write target o).size = heap.size :=
  Array.size_setIfInBounds

/-- A written object is not seen from a value that does not lead to it. -/
theorem unfoldBelow_write (hv : ¬heap.Reaches target v) (o : Object Value) (room : Nat)
    (opened : List Handle) :
    (heap.write target o).unfoldBelow room opened v = heap.unfoldBelow room opened v := by
  induction room generalizing opened v with
  | zero => cases v <;> rfl
  | succ room ih =>
    cases v with
    | object g =>
      have hne : g ≠ target := fun heq ↦ hv (heq ▸ .self)
      have hmembers : (heap.get g).members.map (fun m ↦
            (m.1, (heap.write target o).unfoldBelow room (g :: opened) m.2)) =
          (heap.get g).members.map fun m ↦ (m.1, heap.unfoldBelow room (g :: opened) m.2) :=
        List.map_congr_left fun m hm ↦ congrArg (m.1, ·) (ih (fun h ↦ hv (.member hm h)) _)
      rw [unfoldBelow, unfoldBelow, get_write_of_ne hne]
      dsimp only
      rw [hmembers]
    | _ => rfl

theorem unfold_write (hv : ¬heap.Reaches target v) (o : Object Value) :
    (heap.write target o).unfold v = heap.unfold v := by
  rw [unfold, unfold, size_write, unfoldBelow_write hv]

theorem compact_write (hv : ¬heap.Reaches target v) (o : Object Value) :
    Json.compact (heap.write target o) v = Json.compact heap v := by
  rw [Json.compact, Json.compact, unfold_write hv]

theorem display_write (hv : ¬heap.Reaches target v) (o : Object Value) :
    (heap.write target o).display v = heap.display v := by
  cases v with
  | object g => exact compact_write hv o
  | _ => rfl

end ScriptHost.Heap
