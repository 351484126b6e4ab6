import ScriptHost.Callbacks
import ScriptHost.Http.Settings
import ScriptHost.Threads

/-!
# The host

The host of a running program: the world around it, the callbacks and threads of the program, and
the settings of its server.

## Main definitions

* `Host` : the state of the host.
* `Native` : actions on the host; every action on the world is one.
* `Native.register`, `Native.unregister` : the callbacks of the program.
-/

namespace ScriptHost

/-- The state of the host. -/
structure Host where
  world : World
  callbacks : Callbacks
  threads : Threads ThreadOutcome
  settings : Http.Settings

/-- A host in a given world, with no callbacks and no threads. -/
def Host.inWorld (world : World) : Host := ⟨world, .empty, .empty, .standard⟩

/-- An action on the host. -/
abbrev Native := EStateM Abort Host

namespace Native

variable {α : Type}

/-- An action on the world as one on the host, whose tables it leaves alone. -/
def ofAction (a : Action α) : Native α := fun host ↦
  match a host.world with
  | .ok x world => .ok x { host with world }
  | .error e world => .error e { host with world }

instance : MonadLift Action Native := ⟨ofAction⟩

/-- Registers a callback of the program. -/
def register (name : String) (cb : Callback) : Native (Except Callbacks.Fault Unit) := do
  match (← get).callbacks.register name cb with
  | .ok callbacks =>
    Action.log .debug .callbacks
      ("registered " ++ Callbacks.symbol name ++ " (" ++ cb.kind.name ++ ")")
    modify fun host ↦ { host with callbacks }
    return .ok ()
  | .error fault => return .error fault

/-- Unregisters a callback of the program, and tells whether there was one. -/
def unregister (name : String) : Native Bool :=
  modifyGet fun host ↦
    let (found, callbacks) := host.callbacks.unregister name
    (found, { host with callbacks })

end Native

end ScriptHost
