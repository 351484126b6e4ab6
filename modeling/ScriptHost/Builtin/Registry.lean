import Std.Data.HashMap

/-!
# Tables of named operations

Operations under names, in the order of their first registration, with an index from names to
positions.

## Main definitions

* `Registry` : the table.
* `Registry.register`, `Registry.get?` : adding and finding an operation.
-/

namespace ScriptHost

/-- Operations in the order of their first registration, and the position of each name. -/
structure Registry (β : Type) where
  entries : Array (String × β)
  positions : Std.HashMap String Nat

namespace Registry

variable {β : Type}

/-- No operations. -/
def empty : Registry β := ⟨#[], {}⟩

instance : Inhabited (Registry β) := ⟨empty⟩

/-- Adds an operation; one of the same name gives way in its place. -/
def register (r : Registry β) (name : String) (f : β) : Registry β :=
  match r.positions[name]? with
  | some i => { r with entries := r.entries.modify i fun e ↦ (e.1, f) }
  | none => ⟨r.entries.push (name, f), r.positions.insert name r.entries.size⟩

/-- Adds operations in order. -/
def registerAll (r : Registry β) (fs : List (String × β)) : Registry β :=
  fs.foldl (fun r f ↦ r.register f.1 f.2) r

/-- The operation under a name. -/
def get? (r : Registry β) (name : String) : Option β :=
  r.positions[name]?.bind fun i ↦ r.entries[i]?.map Prod.snd

/-- Whether there is an operation under a name. -/
def contains (r : Registry β) (name : String) : Bool := r.positions.contains name

/-- How many operations there are. -/
def size (r : Registry β) : Nat := r.entries.size

/-- The names in the order of their first registration. -/
def names (r : Registry β) : List String := r.entries.toList.map Prod.fst

end Registry

end ScriptHost
