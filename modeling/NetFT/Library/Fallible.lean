/-
# NetFT.Library.Fallible — computations that may fail.

What a sequence of `Except` computations gives back: a value if every step gave one, else the error of the
first step that failed.
-/
import Mathlib.Tactic.SplitIfs

namespace NetFT.Library

set_option autoImplicit false

variable {ε α β : Type} {x : Except ε α} {f : α → Except ε β}

/-- A sequence succeeds exactly if both parts do. -/
theorem bind_eq_ok_iff {b : β} : (x >>= f) = .ok b ↔ ∃ a, x = .ok a ∧ f a = .ok b := by
  cases x with
  | error e => exact ⟨fun h => (by cases h), fun ⟨a, h, _⟩ => (by cases h)⟩
  | ok a => exact ⟨fun h => ⟨a, rfl, h⟩, fun ⟨a', h, h'⟩ => (by cases h; exact h')⟩

/-- `if (c) throw e;` -/
def throwIf (c : Prop) [Decidable c] (e : ε) : Except ε Unit := if c then .error e else .ok ()

/-- A check passes exactly where its condition fails. -/
theorem throwIf_eq_ok_iff {c : Prop} [Decidable c] {e : ε} {u : Unit} : throwIf c e = .ok u ↔ ¬ c := by
  unfold throwIf
  split_ifs with h
  · exact ⟨fun h => (by cases h), fun hc => absurd h hc⟩
  · exact ⟨fun _ => h, fun _ => rfl⟩

/-- A list of checks. -/
theorem forM_eq_ok_iff {l : List α} {f : α → Except ε Unit} {u : Unit} :
    l.forM f = .ok u ↔ ∀ a ∈ l, f a = .ok () := by
  induction l with
  | nil => exact ⟨fun _ a ha => absurd ha List.not_mem_nil, fun _ => rfl⟩
  | cons a l ih =>
    show (f a >>= fun _ => l.forM f) = .ok u ↔ _
    rw [bind_eq_ok_iff, List.forall_mem_cons, ← ih]
    exact ⟨fun ⟨_, hhead, htail⟩ => ⟨hhead, htail⟩, fun ⟨hhead, htail⟩ => ⟨(), hhead, htail⟩⟩

end NetFT.Library
