/-
# NetFT.Library.Mealy — machines that answer every input.

A machine is a function `step` from a state and an input to an output and the next state.

* `after`, `trace` and `outputs`: the state after a list of inputs, and what was answered to them.
* `invariant`: what holds at the start, and after every input that comes next, holds after every list;
  it may speak of the inputs so far.
-/
import Mathlib.Data.List.Induction

namespace NetFT.Library.Mealy

set_option autoImplicit false

variable {σ α β : Type} (step : σ → α → β × σ)

/-- The state after a list of inputs. -/
def after (s : σ) (as : List α) : σ := as.foldl (fun s a => (step s a).2) s

/-- Every input with its answer. -/
def trace : σ → List α → List (α × β)
  | _, [] => []
  | s, a :: as => (a, (step s a).1) :: trace (step s a).2 as

/-- What the machine answers to a list of inputs. -/
def outputs (s : σ) (as : List α) : List β := (trace step s as).map (·.2)

variable {step}

@[simp] theorem after_nil (s : σ) : after step s [] = s := rfl

/-- The state after one more input. -/
@[simp] theorem after_concat (s : σ) (as : List α) (a : α) :
    after step s (as ++ [a]) = (step (after step s as) a).2 := by
  simp [after]

@[simp] theorem trace_nil (s : σ) : trace step s [] = [] := rfl

/-- The trace with one more input. -/
@[simp] theorem trace_concat (s : σ) (as : List α) (a : α) :
    trace step s (as ++ [a]) = trace step s as ++ [(a, (step (after step s as) a).1)] := by
  induction as generalizing s with
  | nil => rfl
  | cons b bs ih =>
    rw [List.cons_append, trace, ih]
    rfl

@[simp] theorem outputs_concat (s : σ) (as : List α) (a : α) :
    outputs step s (as ++ [a]) = outputs step s as ++ [(step (after step s as) a).1] := by
  rw [outputs, trace_concat, List.map_append]
  rfl

/-- **The invariant rule.** -/
theorem invariant {I : List α → σ → Prop} {s : σ} (init : I [] s)
    (concat : ∀ as a, I as (after step s as) → I (as ++ [a]) (step (after step s as) a).2)
    (as : List α) : I as (after step s as) := by
  induction as using List.reverseRecOn with
  | nil => exact init
  | append_singleton as a ih =>
    rw [after_concat]
    exact concat as a ih

end NetFT.Library.Mealy
