import ScriptHost.Host

/-!
# Running actions and late-bound calls

An action runs in a world and answers in another one.  A call by name runs the function that is
bound to the name if its convention is the one of the call, and otherwise runs nothing and logs why.

## Main results

* `Action.bind_of_ok`, `Native.bind_of_ok` : one action after another.
* `Callbacks.call_of_get?`, `Callbacks.exists_call_eq_nil` : what a call by name runs.
-/

namespace ScriptHost

namespace Action

variable {α β : Type} {x y : Action α} {f : α → Action β} {w w' : World}

theorem bind_of_ok {a : α} (h : x w = .ok a w') : (x >>= f) w = f a w' := by
  change EStateM.bind x f w = _
  rw [EStateM.bind, h]

theorem bind_congr (h : x w = y w) : (x >>= f) w = (y >>= f) w := by
  change EStateM.bind x f w = EStateM.bind y f w
  rw [EStateM.bind, EStateM.bind, h]

/-- Looking at the world first. -/
theorem get_bind (f : World → Action β) (w : World) : (get >>= f : Action β) w = f w w :=
  bind_of_ok rfl

end Action

namespace Native

variable {α β : Type} {x : Native α} {host host' : Host}

theorem bind_of_ok {f : α → Native β} {a : α} (h : x host = .ok a host') :
    (x >>= f) host = f a host' := by
  change EStateM.bind x f host = _
  rw [EStateM.bind, h]

theorem bind_of_error {f : α → Native β} {e : Abort} (h : x host = .error e host') :
    (x >>= f) host = .error e host' := by
  change EStateM.bind x f host = _
  rw [EStateM.bind, h]

/-- Looking at the host first. -/
theorem get_bind (f : Host → Native β) (host : Host) : (get >>= f : Native β) host = f host host :=
  bind_of_ok rfl

/-- An action on the world within one on the host. -/
theorem liftM_of_ok {a : Action α} {v : α} {world : World} (h : a host.world = .ok v world) :
    (liftM a : Native α) host = .ok v { host with world } := by
  change ofAction a host = _
  rw [ofAction, h]

theorem liftM_of_error {a : Action α} {e : Abort} {world : World}
    (h : a host.world = .error e world) :
    (liftM a : Native α) host = .error e { host with world } := by
  change ofAction a host = _
  rw [ofAction, h]

end Native

namespace Callbacks

variable {cs : Callbacks} {name : String} {cb : Callback} {kind : Callback.Kind}

theorem find_of_get? (hget : cs.get? name = some cb) (hkind : cb.kind = kind) (w : World) :
    cs.find name kind w = .ok (some cb) w := by
  rw [find, hget]
  dsimp only
  rw [if_pos hkind]
  rfl

/-- A function that is bound with the convention asked for is called. -/
theorem call_of_get? (cs : Callbacks) (hget : cs.get? name = some cb) (hkind : cb.kind = kind)
    (args : List Value) (w : World) : cs.call name kind args w = cb.run args w :=
  Action.bind_of_ok (find_of_get? hget hkind w)

/-- Without a function of the convention asked for nothing is found, and it is logged why. -/
theorem exists_find_eq_none (h : ∀ cb, cs.get? name = some cb → cb.kind ≠ kind) (w : World) :
    ∃ entry, cs.find name kind w = .ok none { w with log := w.log.push entry } := by
  rw [find]
  cases hget : cs.get? name with
  | none => exact ⟨_, rfl⟩
  | some cb =>
    dsimp only
    rw [if_neg (h cb hget)]
    exact ⟨_, rfl⟩

/-- Without a function of the convention asked for nothing is called. -/
theorem exists_call_eq_nil (h : ∀ cb, cs.get? name = some cb → cb.kind ≠ kind) (w : World) :
    ∃ entry, cs.find name kind w = .ok none { w with log := w.log.push entry } ∧
      ∀ args, cs.call name kind args w = .ok .nil { w with log := w.log.push entry } := by
  obtain ⟨entry, hfind⟩ := exists_find_eq_none h w
  exact ⟨entry, hfind, fun args ↦ Action.bind_of_ok hfind⟩

end Callbacks

end ScriptHost
