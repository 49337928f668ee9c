/-
# NetFT.Library.Backoff — delays that double up to a limit, and are reset.

A delay is awaited after each of a sequence of attempts.  It doubles up to a limit, and an attempt that
succeeded resets it before it is awaited.

* `delays`: the delays, given which attempts reset them.
* **`delays_getElem`**: the `i`-th of them, in terms of the latest reset.
-/
import Mathlib.Algebra.Order.Ring.Defs
import Mathlib.Tactic.Ring

namespace NetFT.Library.Backoff

set_option autoImplicit false

variable {α : Type*} [Semiring α] [LinearOrder α] [IsStrictOrderedRing α] (initial limit : α)

/-- The delays after the attempts, `current` being the next one without a reset. -/
def delays (current : α) : List Bool → List α
  | [] => []
  | reset :: resets =>
    let delay := if reset then initial else current
    delay :: delays (min (delay * 2) limit) resets

/-- The latest reset up to attempt `i`. -/
def LatestReset (resets : List Bool) (i j : ℕ) : Prop :=
  j ≤ i ∧ resets[j]? = some true ∧ ∀ k, j < k → k ≤ i → resets[k]? ≠ some true

variable {initial limit}

theorem LatestReset.succ {resets : List Bool} {reset : Bool} {i j : ℕ} (h : LatestReset resets i j) :
    LatestReset (reset :: resets) (i + 1) (j + 1) := by
  refine ⟨Nat.succ_le_succ h.1, h.2.1, fun k hjk hki => ?_⟩
  cases k with
  | zero => omega
  | succ k => exact h.2.2 k (by omega) (by omega)

/-- The limit cuts off once. -/
theorem min_doubled (hlimit : 0 ≤ limit) (delay : α) (i : ℕ) :
    min limit (min (delay * 2) limit * 2 ^ i) = min limit (delay * 2 ^ (i + 1)) := by
  have hpow : (1 : α) ≤ 2 ^ i := one_le_pow₀ one_le_two
  rw [min_mul_of_nonneg _ _ (zero_le_one.trans hpow), ← min_assoc, min_comm limit, min_assoc,
    min_eq_left (le_mul_of_one_le_right hlimit hpow), min_comm, mul_assoc, pow_succ' 2 i]

/-- **The closed form.** -/
theorem delays_getElem (hinitial : initial ≤ limit) (hlimit : 0 ≤ limit) {current : α}
    (hcurrent : current ≤ limit) {resets : List Bool} {i : ℕ} {delay : α}
    (h : (delays initial limit current resets)[i]? = some delay) :
    (∃ j, LatestReset resets i j ∧ delay = min limit (initial * 2 ^ (i - j))) ∨
      (∀ k ≤ i, resets[k]? ≠ some true) ∧ delay = min limit (current * 2 ^ i) := by
  induction resets generalizing current i with
  | nil => cases h
  | cons reset resets ih =>
    cases i with
    | zero =>
      cases h
      cases reset with
      | true =>
        refine .inl ⟨0, ⟨le_rfl, rfl, fun k hk hle => by omega⟩, ?_⟩
        rw [if_pos rfl, Nat.sub_self, pow_zero, mul_one, min_eq_right hinitial]
      | false =>
        refine .inr ⟨fun k hk => ?_, ?_⟩
        · obtain rfl : k = 0 := Nat.le_zero.mp hk
          simp
        · rw [if_neg (by simp), pow_zero, mul_one, min_eq_right hcurrent]
    | succ i =>
      rcases ih (min_le_right _ _) h with ⟨j, hlatest, heq⟩ | ⟨hnone, heq⟩
      · refine .inl ⟨j + 1, hlatest.succ, ?_⟩
        rw [heq, Nat.succ_sub_succ]
      · rw [min_doubled hlimit] at heq
        cases reset with
        | true =>
          refine .inl ⟨0, ⟨Nat.zero_le _, rfl, fun k hk hle => ?_⟩, heq⟩
          cases k with
          | zero => omega
          | succ k => exact hnone k (by omega)
        | false =>
          refine .inr ⟨fun k hk => ?_, heq⟩
          cases k with
          | zero => simp
          | succ k => exact hnone k (by omega)

end NetFT.Library.Backoff
