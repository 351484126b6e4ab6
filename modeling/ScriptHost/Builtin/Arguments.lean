import ScriptHost.Decimal.Shortest
import ScriptHost.World

/-!
# Arguments of builtins

A builtin takes any number of arguments of any type.  Most fail with a message when they are given
too few or the wrong ones; those that answer with a flag answer false instead.  Only an argument
that is known to be there may be taken without a default.

## Main definitions

* `Builtin.arg`, `Builtin.argument` : an argument by position, with and without a default.
* `Builtin.expect` : how many arguments there must be.
* `Builtin.toText`, `Builtin.toNumber`, `Builtin.toIndex` : what an argument must be.
* `Builtin.rejected` : the answer of a flag to bad arguments.
-/

namespace ScriptHost.Builtin

/-- The argument at a position, nil beyond the last one. -/
def arg (args : List Value) (i : Nat) : Value := (args[i]?).getD .nil

/-- The argument at a position; a panic beyond the last one. -/
def argument (args : List Value) (i : Nat) : Action Value :=
  match args[i]? with
  | some v => return v
  | none => Action.panic

/-- Fails unless there are `n` arguments. -/
def expect (name : String) (args : List Value) (n : Nat) : Action Unit :=
  if args.length < n then
    Action.fail
      (name ++ " expects " ++ Nat.repr n ++ " argument" ++ (if n = 1 then "" else "s"))
  else pure ()

/-- The string in a value. -/
def toText (v : Value) : Action String := do
  match v with
  | .string s => return s
  | _ => Action.fail ("Not a string, got " ++ (← get).heap.typeName v)

/-- The number in a value. -/
def toNumber (v : Value) : Action Double := do
  match v with
  | .number n => return n
  | _ => Action.fail ("Not a number, got " ++ (← get).heap.typeName v)

/-- The position that a number stands for; its fraction is dropped. -/
def toIndex (v : Value) : Action Nat := do
  let n ← toNumber v
  match n.floor? with
  | some i => return i
  | none => Action.fail ("invalid index " ++ String.ofList n.plainText)

/-- The position that a value stands for, if it does for one. -/
def index? : Value → Option Nat
  | .number n => n.floor?
  | _ => none

/-- The answer of a flag to bad arguments. -/
def rejected (name : String) : Action Value := do
  Action.log .debug .arguments (name ++ ": Bad arguments")
  return .boolean false

end ScriptHost.Builtin
