import ScriptHost.Text.Blank
import ScriptHost.Text.Quoted
import ScriptHost.World

/-!
# Callbacks

Functions of the program that the host calls by name.  Each is registered under one of three calling
conventions and is found only by a call of the same convention.

## Main definitions

* `Callback`, `Callback.Kind` : a function and its calling convention.
* `Callbacks` : the functions by name, with `register`, `unregister` and `get?`.
* `Callbacks.find`, `Callbacks.call` : late binding, with its log records.
-/

namespace ScriptHost

/-- The calling conventions. -/
inductive Callback.Kind where
  /-- Entry points of threads and simple events. -/
  | single
  /-- Events with a context. -/
  | context
  /-- Web handlers: method, path, query, body, cookies. -/
  | web
deriving DecidableEq

/-- How many arguments a convention has. -/
def Callback.Kind.arity : Callback.Kind → Nat
  | single => 1
  | context => 2
  | web => 5

/-- The name of a convention. -/
def Callback.Kind.name (k : Callback.Kind) : String := Nat.repr k.arity ++ "-argument"

/-- A function of the program with its calling convention. -/
structure Callback where
  kind : Callback.Kind
  run : List Value → Action Value

/-- The functions by name, each name at most once. -/
structure Callbacks where
  entries : List (String × Callback)

namespace Callbacks

/-- No functions. -/
def empty : Callbacks := ⟨[]⟩

instance : Inhabited Callbacks := ⟨empty⟩

/-- The symbol that a name is bound to. -/
def symbol (name : String) : String := "f_" ++ name

/-- Why a function is not registered. -/
inductive Fault where
  | arityConflict (symbol : String) (registered requested : Callback.Kind)
  | invalidName (name : String)
deriving DecidableEq

/-- The wording of a fault. -/
def Fault.message : Fault → String
  | arityConflict symbol registered requested =>
    "callback " ++ symbol ++ " is registered as " ++ registered.name ++
      ", cannot register it as " ++ requested.name
  | invalidName name => "invalid callback name " ++ String.ofList (Text.quoted name.toList)

/-- Names are not empty and hold neither white space nor zero characters. -/
def isValidName (name : String) : Bool :=
  !name.isEmpty && name.toList.all fun c ↦ !Text.isBlank c && c != '\x00'

/-- The function bound to a name. -/
def get? (cs : Callbacks) (name : String) : Option Callback := cs.entries.lookup name

/-- The convention of the function bound to a name. -/
def kind? (cs : Callbacks) (name : String) : Option Callback.Kind := (cs.get? name).map (·.kind)

/-- Whether a function is bound to a name. -/
def contains (cs : Callbacks) (name : String) : Bool := (cs.kind? name).isSome

/-- Takes a name out. -/
def erase (cs : Callbacks) (name : String) : Callbacks := ⟨cs.entries.filter (·.1 != name)⟩

/-- Taking a name out unbinds it and no other. -/
theorem get?_erase {cs : Callbacks} {name k : String} :
    (cs.erase name).get? k = if k = name then none else cs.get? k := by
  rcases cs with ⟨entries⟩
  simp only [erase, get?]
  induction entries with
  | nil => simp
  | cons e entries ih =>
    rcases e with ⟨l, cb⟩
    by_cases hl : l = name
    · subst hl
      by_cases hk : k = l
      · subst hk; simpa using ih
      · simpa [hk, List.lookup_cons, beq_eq_false_iff_ne.2 hk] using ih
    · by_cases hk : k = l
      · subst hk; simp [hl]
      · simpa [hl, List.lookup_cons, beq_eq_false_iff_ne.2 hk] using ih

/-- Binds a name.  A function that is bound already gives way to one of its own convention only. -/
def register (cs : Callbacks) (name : String) (cb : Callback) : Except Fault Callbacks :=
  if isValidName name then
    match cs.get? name with
    | some bound =>
      if bound.kind = cb.kind then .ok ⟨(name, cb) :: (cs.erase name).entries⟩
      else .error (.arityConflict (symbol name) bound.kind cb.kind)
    | none => .ok ⟨(name, cb) :: cs.entries⟩
  else .error (.invalidName name)

/-- Unbinds a name, and tells whether it was bound. -/
def unregister (cs : Callbacks) (name : String) : Bool × Callbacks :=
  (cs.contains name, cs.erase name)

/-- The bound symbols in the order of their characters. -/
def symbols (cs : Callbacks) : List String :=
  (cs.entries.map fun e ↦ symbol e.1).mergeSort fun a b ↦ !decide (b < a)

/-- The function bound to a name, if its convention is the one asked for. -/
def find (cs : Callbacks) (name : String) (kind : Callback.Kind) : Action (Option Callback) := do
  match cs.get? name with
  | some cb =>
    if cb.kind = kind then return some cb
    else
      Action.log .warn .callbacks
        (symbol name ++ " is registered as " ++ cb.kind.name ++ ", called as " ++ kind.name)
      return none
  | none =>
    Action.log .debug .callbacks ("no callback registered for " ++ symbol name)
    return none

/-- Calls the function bound to a name; nil if there is none of this convention. -/
def call (cs : Callbacks) (name : String) (kind : Callback.Kind) (args : List Value) :
    Action Value := do
  match ← cs.find name kind with
  | some cb => cb.run args
  | none => return .nil

end Callbacks

end ScriptHost
