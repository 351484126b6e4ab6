import Mathlib.Data.List.Basic
import Mathlib.Tactic.Common

/-!
# Runs of several threads

Threads that share a state take their steps in any order.  A run is a sequence of such steps, each
with the event that tells what was done; a property that every step keeps is kept by every run.

## Main definitions

* `Run` : steps one after another, with their events.

## Main results

* `Run.preserves` : what every step keeps holds after every run.
* `Run.preserves_history` : the same of a property of the events so far and the state.
-/

namespace ScriptHost

/-- Steps one after another, with their events. -/
inductive Run {σ ε : Type*} (step : σ → ε → σ → Prop) : σ → List ε → σ → Prop
  | nil (s : σ) : Run step s [] s
  | cons {s s' s'' : σ} {e : ε} {es : List ε} (head : step s e s') (rest : Run step s' es s'') :
      Run step s (e :: es) s''

namespace Run

variable {σ ε : Type*} {step : σ → ε → σ → Prop} {s s' s'' : σ} {e : ε} {es es' : List ε}

theorem singleton (h : step s e s') : Run step s [e] s' := .cons h (.nil s')

theorem append (h : Run step s es s') (h' : Run step s' es' s'') :
    Run step s (es ++ es') s'' := by
  induction h with
  | nil => exact h'
  | cons head _ ih => exact .cons head (ih h')

/-- One step more. -/
theorem snoc (h : Run step s es s') (last : step s' e s'') : Run step s (es ++ [e]) s'' :=
  h.append (.singleton last)

/-- What every step keeps holds after every run. -/
theorem preserves {P : σ → Prop} (hstep : ∀ {s e s'}, P s → step s e s' → P s')
    (h : Run step s es s') (hs : P s) : P s' := by
  induction h with
  | nil => exact hs
  | cons head _ ih => exact ih (hstep hs head)

/-- What every step keeps of the events so far and the state holds after every run. -/
theorem preserves_history {P : List ε → σ → Prop}
    (hstep : ∀ {past s e s'}, P past s → step s e s' → P (past ++ [e]) s') {past : List ε}
    (h : Run step s es s') (hs : P past s) : P (past ++ es) s' := by
  induction h generalizing past with
  | nil => rwa [List.append_nil]
  | cons head _ ih =>
    rw [← List.singleton_append, ← List.append_assoc]
    exact ih (hstep hs head)

end Run

end ScriptHost
