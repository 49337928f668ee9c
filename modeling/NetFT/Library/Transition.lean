/-
# NetFT.Library.Transition — runs of a transition system.

A transition system is a relation `step s i s'`: in state `s` the input `i` (which component moves,
and how its choices fall) leads to `s'`.  `Runs` are its finite executions with the inputs they took.

* `Runs.append`, `Runs.split`, `Runs.mono`: how runs compose.
* `Runs.invariant`: what every step keeps, every run keeps.  A run whose steps all meet a condition is
  a run of the restricted relation `restrict step condition`.
* `Reachable.invariant`: the rule for invariants of reachable states, where the step may use what is
  already known of them.
* `tracked`: the system with a history variable; every run has a history (`Runs.exists_tracked`).
* `execute`: the runs of a system given by a function, evaluated on a list of inputs.
-/
import Mathlib.Tactic.Common

namespace NetFT.Library

variable {σ ι : Type}

/-- Finite runs and the inputs they took. -/
inductive Runs (step : σ → ι → σ → Prop) : σ → List ι → σ → Prop where
  | nil (s : σ) : Runs step s [] s
  | cons {s s₁ s' : σ} {i : ι} {is : List ι} :
      step s i s₁ → Runs step s₁ is s' → Runs step s (i :: is) s'

namespace Runs

variable {step step' : σ → ι → σ → Prop} {s s₁ s' : σ} {i : ι} {is js : List ι}

theorem single (h : step s i s') : Runs step s [i] s' := .cons h (.nil s')

theorem append (h : Runs step s is s₁) (h' : Runs step s₁ js s') : Runs step s (is ++ js) s' := by
  induction h with
  | nil _ => exact h'
  | cons hstep _ ih => exact .cons hstep (ih h')

/-- A run over a concatenation passes through a state in the middle. -/
theorem split (h : Runs step s (is ++ js) s') : ∃ s₁, Runs step s is s₁ ∧ Runs step s₁ js s' := by
  induction is generalizing s with
  | nil => exact ⟨s, .nil s, h⟩
  | cons i is ih =>
    cases h with
    | cons hstep hrest =>
      obtain ⟨s₁, hleft, hright⟩ := ih hrest
      exact ⟨s₁, .cons hstep hleft, hright⟩

theorem mono (himp : ∀ s i s', step s i s' → step' s i s') (h : Runs step s is s') :
    Runs step' s is s' := by
  induction h with
  | nil s => exact .nil s
  | cons hstep _ ih => exact .cons (himp _ _ _ hstep) ih

/-- What every step keeps, every run keeps. -/
theorem invariant {I : σ → Prop} (hstep : ∀ s i s', I s → step s i s' → I s')
    (h : Runs step s is s') (hinit : I s) : I s' := by
  induction h with
  | nil _ => exact hinit
  | cons hnext _ ih => exact ih (hstep _ _ _ hinit hnext)

/-- A run into a set of states enters it in some step. -/
theorem crossing {p : σ → Prop} (h : Runs step s is s') (hstart : ¬ p s) (hend : p s') :
    ∃ js i ks s₁ s₂, is = js ++ i :: ks ∧ Runs step s js s₁ ∧ ¬ p s₁ ∧ step s₁ i s₂ ∧ p s₂ ∧
      Runs step s₂ ks s' := by
  induction h with
  | nil s => exact absurd hend hstart
  | @cons s s₁ s' i is hstep hrest ih =>
    by_cases hp : p s₁
    · exact ⟨[], i, is, s, s₁, rfl, .nil s, hstart, hstep, hp, hrest⟩
    · obtain ⟨js, j, ks, s₂, s₃, rfl, hleft, hbefore, hnext, hafter, hright⟩ := ih hp hend
      exact ⟨i :: js, j, ks, s₂, s₃, rfl, .cons hstep hleft, hbefore, hnext, hafter, hright⟩

/-- Induction on a run from its end. -/
theorem snoc_induction {motive : List ι → σ → Prop} (nil : motive [] s)
    (snoc : ∀ js i s₁ s₂, Runs step s js s₁ → motive js s₁ → step s₁ i s₂ → motive (js ++ [i]) s₂)
    (h : Runs step s is s') : motive is s' := by
  suffices hall : ∀ js ks s₁ s₂, Runs step s js s₁ → motive js s₁ → Runs step s₁ ks s₂ →
      motive (js ++ ks) s₂ from hall [] is s s' (.nil s) nil h
  intro js ks s₁ s₂ hleft hinv hright
  induction hright generalizing js with
  | nil _ => rwa [List.append_nil]
  | @cons s₁ s₂ s₃ i ks hstep _ ih =>
    have hmore := ih (js ++ [i]) (hleft.append (.single hstep)) (snoc js i s₁ s₂ hleft hinv hstep)
    rwa [List.append_assoc] at hmore

/-- A system that cannot choose has one run for each list of inputs. -/
theorem unique (hstep : ∀ s i s₁ s₂, step s i s₁ → step s i s₂ → s₁ = s₂) (h : Runs step s is s₁)
    (h' : Runs step s is s') : s₁ = s' := by
  induction h with
  | nil s =>
    cases h'
    rfl
  | cons hnext _ ih =>
    cases h' with
    | cons hnext' hrest =>
      obtain rfl := hstep _ _ _ _ hnext hnext'
      exact ih hrest

/-- Along a run of such a system the next step can be taken. -/
theorem next_of_prefix (hstep : ∀ s i s₁ s₂, step s i s₁ → step s i s₂ → s₁ = s₂)
    (h : Runs step s is s') (hbegins : js ++ [i] <+: is) (hleft : Runs step s js s₁) :
    ∃ s₂, step s₁ i s₂ := by
  obtain ⟨ks, rfl⟩ := hbegins
  rw [List.append_assoc] at h
  obtain ⟨s₂, hjs, hrest⟩ := h.split
  obtain rfl := hjs.unique hstep hleft
  cases hrest with
  | cons hnext _ => exact ⟨_, hnext⟩

end Runs

/-- The steps that meet a condition on the state before and the input. -/
def restrict (step : σ → ι → σ → Prop) (condition : σ → ι → Prop) (s : σ) (i : ι) (s' : σ) : Prop :=
  condition s i ∧ step s i s'

theorem Runs.of_restrict {step : σ → ι → σ → Prop} {condition : σ → ι → Prop} {s s' : σ}
    {is : List ι} (h : Runs (restrict step condition) s is s') : Runs step s is s' :=
  h.mono fun _ _ _ h => h.2

/-- A run whose steps all meet the condition. -/
theorem Runs.restricted {step : σ → ι → σ → Prop} {condition : σ → ι → Prop} {s s' : σ} {is : List ι}
    (h : Runs step s is s')
    (hcondition : ∀ js i s₁, js ++ [i] <+: is → Runs step s js s₁ → condition s₁ i) :
    Runs (restrict step condition) s is s' := by
  induction h with
  | nil s => exact .nil s
  | @cons s s₁ s' i is hstep _ ih =>
    refine .cons ⟨hcondition [] i s (by simp) (.nil s), hstep⟩ (ih fun js j s₂ hprefix hjs => ?_)
    exact hcondition (i :: js) j s₂ (by simpa using hprefix) (.cons hstep hjs)

/-- A run of the restricted steps meets the condition before each of them. -/
theorem Runs.condition_of_prefix {step : σ → ι → σ → Prop} {condition : σ → ι → Prop} {s s₁ s' : σ}
    {js is : List ι} {i : ι} (hunique : ∀ s i s₁ s₂, step s i s₁ → step s i s₂ → s₁ = s₂)
    (h : Runs (restrict step condition) s is s') (hbegins : js ++ [i] <+: is) (hleft : Runs step s js s₁) :
    condition s₁ i := by
  obtain ⟨s₂, hstep⟩ : ∃ s₂, restrict step condition s₁ i s₂ := by
    obtain ⟨ks, rfl⟩ := hbegins
    obtain ⟨_, hbegin, -⟩ := h.split
    obtain ⟨s₀, hjs, hlast⟩ := hbegin.split
    cases hjs.of_restrict.unique hunique hleft
    cases hlast with
    | cons hstep _ => exact ⟨_, hstep⟩
  exact hstep.1

/-- What holds of every input of a restricted run restricts it further. -/
theorem Runs.restrict_inputs {step : σ → ι → σ → Prop} {condition : σ → ι → Prop} {admits : ι → Prop}
    {s s' : σ} {is : List ι} (h : Runs (restrict step condition) s is s') (hadmits : ∀ i ∈ is, admits i) :
    Runs (restrict step fun s i => admits i ∧ condition s i) s is s' := by
  induction h with
  | nil s => exact .nil s
  | cons hstep _ ih =>
    exact .cons ⟨⟨hadmits _ List.mem_cons_self, hstep.1⟩, hstep.2⟩
      (ih fun i hi => hadmits i (List.mem_cons_of_mem _ hi))

/-- The states that runs from `s₀` reach. -/
def Reachable (step : σ → ι → σ → Prop) (s₀ s : σ) : Prop := ∃ is, Runs step s₀ is s

namespace Reachable

variable {step : σ → ι → σ → Prop} {s₀ s s' : σ}

theorem init : Reachable step s₀ s₀ := ⟨[], .nil s₀⟩

theorem runs (h : Reachable step s₀ s) {is : List ι} (hruns : Runs step s is s') :
    Reachable step s₀ s' := by
  obtain ⟨js, hjs⟩ := h
  exact ⟨js ++ is, hjs.append hruns⟩

theorem snoc {i : ι} (h : Reachable step s₀ s) (hstep : step s i s') : Reachable step s₀ s' :=
  h.runs (.single hstep)

/-- **The invariant rule**: what holds at the start and is kept by every step from a reachable state
holds of every reachable state. -/
theorem invariant {I : σ → Prop} (hinit : I s₀)
    (hstep : ∀ s i s', Reachable step s₀ s → I s → step s i s' → I s')
    (h : Reachable step s₀ s) : I s := by
  obtain ⟨is, hruns⟩ := h
  have hboth : Reachable step s₀ s ∧ I s :=
    Runs.invariant (I := fun s => Reachable step s₀ s ∧ I s)
      (fun s i s' hs hnext => ⟨hs.1.snoc hnext, hstep s i s' hs.1 hs.2 hnext⟩) hruns ⟨.init, hinit⟩
  exact hboth.2

end Reachable

/-! ## History variables -/

/-- The system with a history variable, which no step reads. -/
def tracked {η : Type} (step : σ → ι → σ → Prop) (update : σ → ι → η → η) (x : σ × η) (i : ι)
    (x' : σ × η) : Prop :=
  step x.1 i x'.1 ∧ x'.2 = update x.1 i x.2

section

variable {η : Type} {step : σ → ι → σ → Prop} {update : σ → ι → η → η}

theorem Runs.of_tracked {x x' : σ × η} {is : List ι} (h : Runs (tracked step update) x is x') :
    Runs step x.1 is x'.1 := by
  induction h with
  | nil x => exact .nil x.1
  | cons hstep _ ih => exact .cons hstep.1 ih

theorem tracked_unique (hstep : ∀ s i s₁ s₂, step s i s₁ → step s i s₂ → s₁ = s₂)
    (x : σ × η) (i : ι) (x₁ x₂ : σ × η) (h₁ : tracked step update x i x₁)
    (h₂ : tracked step update x i x₂) : x₁ = x₂ :=
  Prod.ext (hstep _ _ _ _ h₁.1 h₂.1) (h₁.2.trans h₂.2.symm)

/-- Every run has a history. -/
theorem Runs.exists_tracked (update : σ → ι → η → η) {s s' : σ} {is : List ι} (h : Runs step s is s')
    (past : η) :
    ∃ past', Runs (tracked step update) (s, past) is (s', past') := by
  induction h generalizing past with
  | nil s => exact ⟨past, .nil _⟩
  | @cons s s₁ s' i is hstep _ ih =>
    obtain ⟨past', hrest⟩ := ih (update s i past)
    exact ⟨past', .cons ⟨hstep, rfl⟩ hrest⟩

theorem Reachable.of_tracked {x x' : σ × η} (h : Reachable (tracked step update) x x') :
    Reachable step x.1 x'.1 := by
  obtain ⟨is, hruns⟩ := h
  exact ⟨is, hruns.of_tracked⟩

end

/-! ## Systems given by a function -/

/-- The relation of a partial function: `none` is a step that is not enabled. -/
def stepOf (next : σ → ι → Option σ) (s : σ) (i : ι) (s' : σ) : Prop := next s i = some s'

theorem stepOf_unique {next : σ → ι → Option σ} (s : σ) (i : ι) (s₁ s₂ : σ)
    (h₁ : stepOf next s i s₁) (h₂ : stepOf next s i s₂) : s₁ = s₂ :=
  Option.some.inj (h₁.symm.trans h₂)

/-- The function with a history variable. -/
def trackedNext {η : Type} (next : σ → ι → Option σ) (update : σ → ι → η → η) (x : σ × η) (i : ι) :
    Option (σ × η) :=
  (next x.1 i).map fun s => (s, update x.1 i x.2)

theorem trackedNext_tracked {η : Type} {next : σ → ι → Option σ} {update : σ → ι → η → η}
    {x x' : σ × η} {i : ι} (h : stepOf (trackedNext next update) x i x') :
    tracked (stepOf next) update x i x' := by
  obtain ⟨s, hnext, rfl⟩ := Option.map_eq_some_iff.mp h
  exact ⟨hnext, rfl⟩

/-- Run a list of inputs. -/
def execute (next : σ → ι → Option σ) : σ → List ι → Option σ
  | s, [] => some s
  | s, i :: is => (next s i).bind fun s => execute next s is

theorem execute_runs {next : σ → ι → Option σ} {s s' : σ} {is : List ι}
    (h : execute next s is = some s') : Runs (stepOf next) s is s' := by
  induction is generalizing s with
  | nil =>
    simp only [execute, Option.some.injEq] at h
    exact h ▸ .nil s
  | cons i is ih =>
    simp only [execute, Option.bind_eq_some_iff] at h
    obtain ⟨s₁, hnext, hrest⟩ := h
    exact .cons hnext (ih hrest)

/-- A property that `execute` computes holds of a state that is reached. -/
theorem exists_runs_of_execute {next : σ → ι → Option σ} {s : σ} {is : List ι} {p : σ → Bool}
    (h : (execute next s is).map p = some true) : ∃ s', Runs (stepOf next) s is s' ∧ p s' = true := by
  obtain ⟨s', hexecute, hp⟩ := Option.map_eq_some_iff.mp h
  exact ⟨s', execute_runs hexecute, hp⟩

/-- The function, only where a condition holds. -/
def guarded (next : σ → ι → Option σ) (condition : σ → Bool) (s : σ) (i : ι) : Option σ :=
  if condition s then next s i else none

theorem Runs.of_guarded {next : σ → ι → Option σ} {condition : σ → Bool} {s s' : σ} {is : List ι}
    (h : Runs (stepOf (guarded next condition)) s is s') :
    Runs (restrict (stepOf next) fun s _ => condition s = true) s is s' := by
  refine h.mono fun s i s' hstep => ?_
  simp only [stepOf, guarded] at hstep
  split_ifs at hstep with hcondition
  exact ⟨hcondition, hstep⟩

/-- The function, only for the steps that meet a condition. -/
def restrictNext (next : σ → ι → Option σ) (condition : σ → ι → Prop)
    [∀ s i, Decidable (condition s i)] (s : σ) (i : ι) : Option σ :=
  if condition s i then next s i else none

theorem restrictNext_restrict {next : σ → ι → Option σ} {condition : σ → ι → Prop}
    [∀ s i, Decidable (condition s i)] {s s' : σ} {i : ι}
    (h : stepOf (restrictNext next condition) s i s') :
    restrict (stepOf next) condition s i s' := by
  simp only [stepOf, restrictNext] at h
  split_ifs at h with hcondition
  exact ⟨hcondition, h⟩

end NetFT.Library
