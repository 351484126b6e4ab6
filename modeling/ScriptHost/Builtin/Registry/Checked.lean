import ScriptHost.Builtin.Registry

/-!
# Tables of named operations with checked positions

The table of `ScriptHost.Registry` where an entry is taken at the position that the index gives for
its name.  A position behind the last entry is a panic, which stands as no answer here.

## Main definitions

* `Registry.Checked.register`, `Registry.Checked.registerAll` : adding operations.
* `Registry.Checked.get?` : finding an operation.
-/

namespace ScriptHost.Registry.Checked

variable {β : Type}

/-- Adds an operation; one of the same name gives way in its place. -/
def register (r : Registry β) (name : String) (f : β) : Option (Registry β) :=
  match r.positions[name]? with
  | some i =>
    if h : i < r.entries.size then
      some { r with entries := r.entries.set i (r.entries[i].1, f) h }
    else none
  | none => some ⟨r.entries.push (name, f), r.positions.insert name r.entries.size⟩

/-- Adds operations in order. -/
def registerAll (r : Registry β) (fs : List (String × β)) : Option (Registry β) :=
  fs.foldlM (fun r f ↦ register r f.1 f.2) r

/-- The operation under a name, if there is one. -/
def get? (r : Registry β) (name : String) : Option (Option β) :=
  match r.positions[name]? with
  | some i => if h : i < r.entries.size then some (some r.entries[i].2) else none
  | none => some none

end ScriptHost.Registry.Checked
