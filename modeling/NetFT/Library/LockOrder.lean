/-
# NetFT.Library.LockOrder — mutexes that are locked in one order are always released.

`Locks` are the mutexes that a thread may lock in its next move.  A program that locks upward in a rank
(`LockOrder`), and whose threads give their mutexes back after finitely many moves of their own
(`Releases`), never deadlocks on a mutex.

* `exists_owner_step`: while a mutex is owned, the owner of the highest one can move.
* **`drains`**: from every consistent state the owners alone, in a bounded number of moves, reach a
  state in which every mutex is free.
-/
import Mathlib.Algebra.BigOperators.Group.Finset.Basic
import Mathlib.Algebra.Order.BigOperators.Group.Finset
import Mathlib.Data.Finset.Max
import Mathlib.Data.Fintype.Basic
import Mathlib.Tactic.Ring
import Mathlib.Tactic.Linarith
import NetFT.Library.Threads

namespace NetFT.Library.Threads

set_option autoImplicit false
set_option linter.unusedSectionVars false

variable {σ π μ κ χ : Type}

namespace Program

variable (P : Program σ π μ κ χ)

/-! ## The order -/

/-- The mutexes that a move from the control point `p` may lock. -/
inductive Locks (p : π) : μ → Prop where
  | takes {takes : List μ} {f : Tid → χ → σ → Option (Effect σ π)} {m : μ} :
      P.instr p = .act takes f → m ∈ takes → Locks p m
  | act {takes : List μ} {f : Tid → χ → σ → Option (Effect σ π)} {t : Tid} {choice : χ} {s : σ}
      {e : Effect σ π} {m : μ} :
      P.instr p = .act takes f → f t choice s = some e → m ∈ P.holds e.next → Locks p m
  | notify {c : κ} {q : π} {m : μ} : P.instr p = .notify c q → m ∈ P.holds q → Locks p m
  | wait {c : κ} {ready : σ → Bool} {q : π} {timeout : Option π} {m : μ} :
      P.instr p = .wait c ready q timeout → m ∈ P.holds q → Locks p m
  | join {child : Tid} {f : Tid → σ → σ} {q : π} {m : μ} :
      P.instr p = .join child f q → m ∈ P.holds q → Locks p m

/-- What a thread locks is above everything it holds, and one section locks upward. -/
structure LockOrder (rank : μ → ℕ) : Prop where
  above : ∀ {p m m'}, P.Locks p m → m ∉ P.holds p → m' ∈ P.holds p → rank m' < rank m
  sorted : ∀ {p takes f}, P.instr p = .act takes f → takes.Pairwise fun m m' => rank m < rank m'

/-- A thread that holds a mutex can go on, whatever the shared state is, and has `budget` moves before
it holds nothing.  It joins no thread and starts none. -/
structure Releases (budget : π → ℕ) : Prop where
  act : ∀ {p takes f} (t : Tid) (s : σ), P.holds p ≠ [] → P.instr p = .act takes f →
    ∃ choice e, f t choice s = some e ∧ e.spawned = none ∧
      (P.holds e.next = [] ∨ budget e.next < budget p)
  notify : ∀ {p c q}, P.holds p ≠ [] → P.instr p = .notify c q →
    P.holds q = [] ∨ budget q < budget p
  wait : ∀ {p c ready q timeout}, P.holds p ≠ [] → P.instr p = .wait c ready q timeout →
    P.holds q = [] ∨ budget q < budget p
  join : ∀ {p child f q}, P.instr p = .join child f q → P.holds p = []

variable {P} [DecidableEq μ] [DecidableEq κ]

/-! ## The owners and what they have left -/

section

variable [Fintype μ]

/-- The threads that own a mutex. -/
def owners (s : Sys σ π μ) : Finset Tid := Finset.univ.biUnion fun m => (s.owner m).toFinset

theorem mem_owners {s : Sys σ π μ} {t : Tid} : t ∈ owners s ↔ ∃ m, s.owner m = some t := by
  simp [owners, Option.mem_toFinset]

theorem card_owners_le (s : Sys σ π μ) : (owners s).card ≤ Fintype.card μ := by
  have hone : ∀ m ∈ Finset.univ, (s.owner m).toFinset.card ≤ 1 := by
    intro m _
    cases s.owner m <;> simp
  have hcard := Finset.card_biUnion_le_card_mul Finset.univ _ 1 hone
  rwa [mul_one] at hcard

end

/-- The moves that a thread has left before it holds nothing; in front of a wait it has one more. -/
def left (budget : π → ℕ) (th : Thread π) : ℕ :=
  2 * budget th.pc + 1 + if th.mode = .running then 1 else 0

theorem left_running {budget : π → ℕ} {th : Thread π} (h : th.mode = .running) :
    left budget th = 2 * budget th.pc + 2 := by
  simp only [left, h, if_true]

/-! ## One move -/

/-- A move of thread `t` after which it holds nothing, or has fewer moves left; the other threads own
what they owned and stand where they stood. -/
structure Advances (P : Program σ π μ κ χ) (budget : π → ℕ) (s s' : Sys σ π μ) (t : Tid) : Prop where
  step : ∃ move, P.step s ⟨t, move⟩ s'
  owned : ∀ m u, u ≠ t → s'.owner m = some u → s.owner m = some u
  others : ∀ m u, u ≠ t → s'.owner m = some u → s'.threads u = s.threads u
  decreases : (∀ m, s'.owner m ≠ some t) ∨
    left budget (s'.threads t) < left budget (s.threads t)

section

variable {budget : π → ℕ} {s : Sys σ π μ} {t : Tid} {rank : μ → ℕ}

/-- After a move the other threads own what they owned before. -/
theorem owner_goto {q : π} {m : μ} {u : Tid} (hu : u ≠ t) (h : (P.goto s t q).owner m = some u) :
    s.owner m = some u := by
  simp only [goto, Sys.setThread, Sys.relock] at h
  split_ifs at h with hm hown
  · exact absurd (Option.some.inj h).symm hu
  · exact h

/-- A thread that stands where it holds nothing owns nothing. -/
theorem not_owner_goto {q : π} (hq : P.holds q = []) (m : μ) : (P.goto s t q).owner m ≠ some t := by
  intro h
  simp only [goto, Sys.setThread, Sys.relock, hq, List.not_mem_nil, if_false] at h
  split_ifs at h with hown
  exact hown h

/-- A move of a running thread to `q`, where it holds nothing or has fewer moves left. -/
theorem Advances.of_goto (q : π) (s₁ : Sys σ π μ) {s' : Sys σ π μ} {move : Move χ}
    (hrun : (s.threads t).mode = .running) (hstep : P.step s ⟨t, move⟩ s')
    (howner : s'.owner = (P.goto s₁ t q).owner) (hthreads : s'.threads = (P.goto s₁ t q).threads)
    (hbefore : s₁.owner = s.owner)
    (hsame : ∀ m u, s.owner m = some u → s₁.threads u = s.threads u)
    (hq : P.holds q = [] ∨ budget q < budget (s.threads t).pc) : P.Advances budget s s' t := by
  have hown : ∀ m u, u ≠ t → s'.owner m = some u → s.owner m = some u := by
    intro m u hu h
    rw [howner] at h
    exact hbefore ▸ owner_goto hu h
  refine ⟨⟨move, hstep⟩, hown, fun m u hu h => ?_, ?_⟩
  · rw [hthreads, ← hsame m u (hown m u hu h)]
    simp [goto, Sys.setThread, Sys.relock, Function.update_of_ne hu]
  · rcases hq with hnone | hless
    · left
      intro m
      rw [howner]
      exact not_owner_goto hnone m
    · right
      have hpc : s'.threads t = { pc := q } := by
        rw [hthreads]
        simp [goto, Sys.setThread]
      rw [left_running hrun, hpc, left_running rfl]
      show 2 * budget q + 2 < 2 * budget (s.threads t).pc + 2
      omega

/-- A thread that changes nothing but its mode. -/
theorem Advances.of_mode {s' : Sys σ π μ} {move : Move χ} {mode : Mode}
    (hstep : P.step s ⟨t, move⟩ s') (hthreads : s'.threads = (s.setMode t mode).threads)
    (howner : ∀ m u, u ≠ t → s'.owner m = some u → s.owner m = some u)
    (hless : (∀ m, s'.owner m ≠ some t) ∨ left budget (s'.threads t) < left budget (s.threads t)) :
    P.Advances budget s s' t := by
  refine ⟨⟨move, hstep⟩, howner, fun m u hu _ => ?_, hless⟩
  rw [hthreads]
  simp [Sys.setMode, Sys.setThread, Function.update_of_ne hu]

/-- **The owner of the highest mutex can move.** -/
theorem exists_owner_step [Inhabited χ] (horder : P.LockOrder rank) (hreleases : P.Releases budget)
    (hcons : P.Consistent s) {top : μ} (htop : s.owner top = some t)
    (hmax : ∀ m u, s.owner m = some u → rank m ≤ rank top) : ∃ s', P.Advances budget s s' t := by
  have hheld : top ∈ P.held (s.threads t) := (hcons.owned top t).mp htop
  cases hmode : (s.threads t).mode with
  | blocked | woken => simp [held, hmode] at hheld
  | window =>
    -- the thread goes to sleep and releases everything
    have hstep : P.step s ⟨t, .block⟩ ((s.relock t []).setMode t .blocked) := by
      simp only [step, stepOf, next, hmode]
    have howner : ∀ m u, ((s.relock t []).setMode t .blocked).owner m = some u →
        u ≠ t ∧ s.owner m = some u := by
      intro m u h
      simp only [Sys.setMode, Sys.setThread, Sys.relock, List.not_mem_nil, if_false] at h
      split_ifs at h with hown
      exact ⟨fun hu => hown (hu ▸ h), h⟩
    exact ⟨_, .of_mode hstep rfl (fun m u _ h => (howner m u h).2)
      (.inl fun m h => (howner m t h).1 rfl)⟩
  | running =>
    have htopheld : top ∈ P.holds (s.threads t).pc := by simpa [held, hmode] using hheld
    have hholds : P.holds (s.threads t).pc ≠ [] := List.ne_nil_of_mem htopheld
    -- a mutex that the move locks is above `top`, so nobody owns it
    have hfree : ∀ {m}, P.Locks (s.threads t).pc m → s.owner m = none ∨ s.owner m = some t := by
      intro m hlocks
      by_cases hm : m ∈ P.holds (s.threads t).pc
      · exact .inr ((hcons.owned m t).mpr (by simpa [held, hmode] using hm))
      · left
        by_contra hsome
        obtain ⟨u, hu⟩ := Option.ne_none_iff_exists'.mp hsome
        have habove := horder.above hlocks hm htopheld
        have hbelow := hmax m u hu
        omega
    cases hinstr : P.instr (s.threads t).pc with
    | act takes f =>
      obtain ⟨choice, e, hf, hspawned, hnext⟩ := hreleases.act t s.shared hholds hinstr
      have havailable : s.Available t takes ∧ s.Available t (P.holds e.next) :=
        ⟨fun m hm => hfree (.takes hinstr hm), fun m hm => hfree (.act hinstr hf hm)⟩
      have hstep : P.step s ⟨t, .go choice⟩ { P.goto s t e.next with shared := e.shared } := by
        simp only [step, stepOf, next, hmode, hinstr, hf, Option.bind_some, if_pos havailable,
          hspawned]
      exact ⟨_, .of_goto e.next s hmode hstep rfl rfl rfl (fun _ _ _ => rfl) hnext⟩
    | notify c q =>
      have havailable : s.Available t (P.holds q) := fun m hm => hfree (.notify hinstr hm)
      have hstep : P.step s ⟨t, .go default⟩ (P.goto (P.wakeAll s c) t q) := by
        simp only [step, stepOf, next, hmode, hinstr, if_pos havailable]
      refine ⟨_, .of_goto q (P.wakeAll s c) hmode hstep rfl rfl rfl (fun m u hu => ?_)
        (hreleases.notify hholds hinstr)⟩
      -- an owner is not asleep
      have howner : m ∈ P.held (s.threads u) := (hcons.owned m u).mp hu
      have hawake : (s.threads u).mode ≠ .blocked := by
        intro hblocked
        simp [held, hblocked] at howner
      simp [wakeAll, hawake]
    | wait c ready q timeout =>
      cases hready : ready s.shared with
      | true =>
        have havailable : s.Available t (P.holds q) := fun m hm => hfree (.wait hinstr hm)
        have hstep : P.step s ⟨t, .go default⟩ (P.goto s t q) := by
          simp only [step, stepOf, next, hmode, hinstr, hready, if_true, if_pos havailable]
        exact ⟨_, .of_goto q s hmode hstep rfl rfl rfl (fun _ _ _ => rfl)
          (hreleases.wait hholds hinstr)⟩
      | false =>
        have hstep : P.step s ⟨t, .go default⟩ (s.setMode t .window) := by
          simp only [step, stepOf, next, hmode, hinstr, hready, Bool.false_eq_true, if_false]
        refine ⟨_, .of_mode hstep rfl (fun m u _ h => h) (.inr ?_)⟩
        rw [left_running hmode]
        simp [left, Sys.setMode, Sys.setThread]
    | join child f q => exact absurd (hreleases.join hinstr) hholds

/-! ## Every mutex is released -/

variable [Fintype μ]

/-- What the owners have left before they hold nothing. -/
def work (budget : π → ℕ) (s : Sys σ π μ) : ℕ := ∑ t ∈ owners s, left budget (s.threads t)

theorem work_lt {s' : Sys σ π μ} (ht : t ∈ owners s) (h : P.Advances budget s s' t) :
    work budget s' < work budget s := by
  have hsub : (owners s').erase t ⊆ (owners s).erase t := by
    intro u hu
    obtain ⟨hne, hmem⟩ := Finset.mem_erase.mp hu
    obtain ⟨m, hm⟩ := mem_owners.mp hmem
    exact Finset.mem_erase.mpr ⟨hne, mem_owners.mpr ⟨m, h.owned m u hne hm⟩⟩
  have hsame : ∀ u ∈ (owners s').erase t, left budget (s'.threads u) = left budget (s.threads u) := by
    intro u hu
    obtain ⟨hne, hmem⟩ := Finset.mem_erase.mp hu
    obtain ⟨m, hm⟩ := mem_owners.mp hmem
    rw [h.others m u hne hm]
  have hrest : ∑ u ∈ (owners s').erase t, left budget (s'.threads u) ≤
      ∑ u ∈ (owners s).erase t, left budget (s.threads u) := by
    rw [Finset.sum_congr rfl hsame]
    exact Finset.sum_le_sum_of_subset hsub
  have hwhole : work budget s =
      left budget (s.threads t) + ∑ u ∈ (owners s).erase t, left budget (s.threads u) :=
    (Finset.add_sum_erase _ _ ht).symm
  rw [hwhole]
  by_cases ht' : t ∈ owners s'
  · have hless : left budget (s'.threads t) < left budget (s.threads t) := by
      apply h.decreases.resolve_left
      intro hnone
      obtain ⟨m, hm⟩ := mem_owners.mp ht'
      exact hnone m hm
    rw [work, ← Finset.add_sum_erase _ _ ht']
    omega
  · rw [Finset.erase_eq_of_notMem ht'] at hrest
    have hpos : 0 < left budget (s.threads t) := by
      simp only [left]
      omega
    show ∑ u ∈ owners s', left budget (s'.threads u) < _
    omega

theorem work_le {bound : ℕ} (hbound : ∀ p, budget p ≤ bound) (s : Sys σ π μ) :
    work budget s ≤ Fintype.card μ * (2 * bound + 2) := by
  have heach : ∀ t ∈ owners s, left budget (s.threads t) ≤ 2 * bound + 2 := by
    intro t _
    have := hbound (s.threads t).pc
    simp only [left]
    split_ifs <;> omega
  calc work budget s ≤ (owners s).card * (2 * bound + 2) := by
        simpa [work] using Finset.sum_le_card_nsmul (owners s) _ _ heach
    _ ≤ Fintype.card μ * (2 * bound + 2) := Nat.mul_le_mul_right _ (card_owners_le s)

/-- **The owners alone release every mutex.** -/
theorem drains [Inhabited χ] (horder : P.LockOrder rank) (hreleases : P.Releases budget)
    (hcons : P.Consistent s) :
    ∃ is s', Runs P.step s is s' ∧ (∀ m, s'.owner m = none) ∧
      (∀ i ∈ is, ∃ m, s.owner m = some i.tid) ∧ is.length ≤ work budget s := by
  -- by induction on what the owners have left
  generalize hwork : work budget s = n
  induction n using Nat.strong_induction_on generalizing s with
  | _ n ih =>
    subst hwork
    by_cases hfree : ∀ m, s.owner m = none
    · exact ⟨[], s, .nil s, hfree, by simp, Nat.zero_le _⟩
    · push Not at hfree
      obtain ⟨m₀, hm₀⟩ := hfree
      obtain ⟨top, htop, hmax⟩ := Finset.exists_max_image
        (Finset.univ.filter fun m => s.owner m ≠ none) rank ⟨m₀, by simp [hm₀]⟩
      obtain ⟨t, ht⟩ := Option.ne_none_iff_exists'.mp (Finset.mem_filter.mp htop).2
      obtain ⟨s₁, hadvances⟩ := exists_owner_step horder hreleases hcons ht fun m u hu =>
        hmax m (by simp [hu])
      obtain ⟨move, hstep⟩ := hadvances.step
      have hless := work_lt (mem_owners.mpr ⟨top, ht⟩) hadvances
      obtain ⟨is, s', hruns, hall, hby, hlength⟩ := ih _ hless (hcons.step hstep) rfl
      refine ⟨⟨t, move⟩ :: is, s', .cons hstep hruns, hall, fun i hi => ?_, ?_⟩
      · rcases List.mem_cons.mp hi with rfl | hi
        · exact ⟨top, ht⟩
        · obtain ⟨m, hm⟩ := hby i hi
          by_cases hit : i.tid = t
          · exact ⟨top, hit ▸ ht⟩
          · exact ⟨m, hadvances.owned m i.tid hit hm⟩
      · rw [List.length_cons]
        omega

end

end Program

end NetFT.Library.Threads
