/-
# NetFT.Library.Serial — sequence numbers on a ring.

A sender counts with unbounded numbers and transmits them modulo `M`; a receiver sees only residues
and compares two of them by their *forward distance*, the difference taken modulo `M`.  The lemmas
say what the distance tells about the unbounded numbers:

* `distance_of_le`, `distance_of_lt`: the exact value, ahead and behind;
* `forward_iff`, `backward_iff`: within half a ring of each other, the distance decides the order of
  the two numbers;
* `Within`: a stream of numbers each of which is near the largest one before it.
-/
import Mathlib.Algebra.Order.Ring.Int
import Mathlib.Tactic.Linarith

namespace NetFT.Library.Serial

/-- The number of steps from residue `m` forward to residue `n` on the ring of `M` numbers. -/
def distance (M n m : ℕ) : ℕ := (((n : ℤ) - m) % M).toNat

variable {M H n m : ℕ}

/-- The distance to a number ahead. -/
theorem distance_of_le (h : m ≤ n) : distance M n m = (n - m) % M := by
  unfold distance
  rw [← Nat.cast_sub h, ← Int.natCast_mod, Int.toNat_natCast]

/-- The distance to a number behind goes almost once around the ring. -/
theorem distance_of_lt (h : n < m) (hring : m - n < M) : distance M n m = M - (m - n) := by
  have hshift : ((n : ℤ) - m) % M = M - (m - n) := by
    rw [← Int.add_emod_right, Int.emod_eq_of_lt] <;> omega
  unfold distance
  omega

/-! ## Half a ring decides the order -/

/-- Ahead by less than half a ring: the distance is the true difference. -/
theorem distance_ahead (h : m ≤ n) (hahead : n < m + M) : distance M n m = n - m := by
  rw [distance_of_le h, Nat.mod_eq_of_lt (by omega)]

/-- Numbers less than half the ring apart: the later one has a distance under a half. -/
theorem forward_iff (hahead : n < m + H) (hbehind : m < n + H) :
    (0 < distance (2 * H) n m ∧ distance (2 * H) n m < H) ↔ m < n := by
  rcases Nat.lt_or_ge n m with hlt | hle
  · rw [distance_of_lt hlt (by omega)]
    omega
  · rw [distance_ahead hle (by omega)]
    omega

/-- And the earlier one has a distance of at least a half. -/
theorem backward_iff (hahead : n < m + H) (hbehind : m < n + H) :
    H ≤ distance (2 * H) n m ↔ n < m := by
  rcases Nat.lt_or_ge n m with hlt | hle
  · rw [distance_of_lt hlt (by omega)]
    omega
  · rw [distance_ahead hle (by omega)]
    omega

/-! ## Streams -/

/-- Every number is at least `m - before` and below `m + ahead`, where `m` is the largest number before
it. -/
def Within (before ahead : ℕ) (ns : List ℕ) : Prop :=
  ∀ pre n m, pre ++ [n] <+: ns → pre.max? = some m → m ≤ n + before ∧ n < m + ahead

theorem Within.nil (before ahead : ℕ) : Within before ahead [] := by
  intro pre n m hpre
  simp at hpre

/-- A stream stays near its largest number when one comes that is. -/
theorem Within.snoc {before ahead n : ℕ} {ns : List ℕ} (h : Within before ahead ns)
    (hn : ∀ m, ns.max? = some m → m ≤ n + before ∧ n < m + ahead) : Within before ahead (ns ++ [n]) := by
  intro pre k m hpre hmax
  rcases List.prefix_concat_iff.mp hpre with heq | hle
  · obtain ⟨rfl, rfl⟩ := List.append_singleton_inj.mp heq
    exact hn m hmax
  · exact h pre k m hle hmax

theorem Within.of_prefix {before ahead : ℕ} {ns pre : List ℕ} (h : Within before ahead ns)
    (hpre : pre <+: ns) : Within before ahead pre :=
  fun pre' n m hpre' hmax => h pre' n m (hpre'.trans hpre) hmax

/-- The last number of a stream within its window is near the greatest one before it. -/
theorem Within.concat {before ahead n m : ℕ} {ns : List ℕ} (h : Within before ahead (ns ++ [n]))
    (hmax : ns.max? = some m) : m ≤ n + before ∧ n < m + ahead :=
  h ns n m List.prefix_rfl hmax

/-- Numbers below half a ring are near each other. -/
theorem Within.of_lt {before ahead : ℕ} {ns : List ℕ} (h : ∀ n ∈ ns, n ≤ before ∧ n < ahead) :
    Within before ahead ns := by
  intro pre n m hpre hmax
  have hn := h n (hpre.subset (by simp))
  have hm := h m (hpre.subset (List.mem_append_left _ (List.max?_eq_some_iff.mp hmax).1))
  omega

theorem max?_concat {ns : List ℕ} (hmax : ns.max? = some m) (n : ℕ) :
    (ns ++ [n]).max? = some (max m n) := by
  cases ns with
  | nil => cases hmax
  | cons k ks =>
    rw [List.max?_cons', Option.some.injEq] at hmax
    rw [List.cons_append, List.max?_cons', List.foldl_append, hmax]
    rfl

end NetFT.Library.Serial
