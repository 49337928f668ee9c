/-
# NetFT.Library.Threads — threads over mutexes and condition variables.

A `Program` gives every control point an instruction and the mutexes that are held there; a `Sys` is
a shared state, the owners of the mutexes and a thread for every thread id.  A step of a thread is

* an atomic action, which may lock mutexes for its own duration and may start another thread;
* a `notify_all`, which wakes only threads that are already blocked;
* a wait on a condition variable: the predicate is evaluated with the mutex held, and, if it is false,
  the thread stands in the *window* until a separate step releases the mutex and blocks;
* a join of a thread that has ended.

Whoever moves takes the mutexes of its new control point and releases the others, so that ownership
is an invariant of every program (`Consistent.step`, `Consistent.exclusive`).
-/
import Mathlib.Logic.Function.Basic
import NetFT.Library.Transition

namespace NetFT.Library.Threads

set_option autoImplicit false
set_option linter.unusedSectionVars false

/-! ## Programs -/

abbrev Tid := Nat

/-- Where a thread stands in its instruction; only a wait is left running: in the window between the
evaluation of the predicate and the block, blocked, or woken and about to lock the mutex again. -/
inductive Mode where
  | running | window | blocked | woken
  deriving DecidableEq, Repr

structure Thread (π : Type) where
  pc : π
  mode : Mode := .running

/-- What an action does: the new shared state, the next control point, and the thread it starts. -/
structure Effect (σ π : Type) where
  shared : σ
  next : π
  spawned : Option (Tid × π) := none

inductive Instr (σ π μ κ χ : Type) where
  | act (takes : List μ) (f : Tid → χ → σ → Option (Effect σ π))
  | notify (c : κ) (next : π)
  | wait (c : κ) (ready : σ → Bool) (next : π) (timeout : Option π)
  | join (child : Tid) (f : Tid → σ → σ) (next : π)

/-- A program; the ids of threads that may be started are those at a `fresh` control point. -/
structure Program (σ π μ κ χ : Type) where
  instr : π → Instr σ π μ κ χ
  holds : π → List μ
  fresh : π → Bool
  ended : π → Bool
  fresh_holds : ∀ p, fresh p = true → holds p = []

variable {σ π μ κ χ : Type}

structure Sys (σ π μ : Type) where
  shared : σ
  owner : μ → Option Tid
  threads : Tid → Thread π

/-! ## Steps -/

/-- How a thread moves; `wake` is a spurious wake-up. -/
inductive Move (χ : Type) where
  | go (choice : χ)
  | block
  | wake
  | expire
  | resume

structure Input (χ : Type) where
  tid : Tid
  move : Move χ

namespace Sys

/-- None of the mutexes `ms` is owned by another thread. -/
def Available (s : Sys σ π μ) (t : Tid) (ms : List μ) : Prop :=
  ∀ m ∈ ms, s.owner m = none ∨ s.owner m = some t

instance (s : Sys σ π μ) (t : Tid) (ms : List μ) : Decidable (s.Available t ms) :=
  inferInstanceAs (Decidable (∀ m ∈ ms, s.owner m = none ∨ s.owner m = some t))

def setThread (s : Sys σ π μ) (t : Tid) (th : Thread π) : Sys σ π μ :=
  { s with threads := Function.update s.threads t th }

def setMode (s : Sys σ π μ) (t : Tid) (mode : Mode) : Sys σ π μ :=
  s.setThread t { s.threads t with mode }

/-- Thread `t` owns `ms` and nothing else. -/
def relock [DecidableEq μ] (s : Sys σ π μ) (t : Tid) (ms : List μ) : Sys σ π μ :=
  { s with
    owner := fun m => if m ∈ ms then some t else if s.owner m = some t then none else s.owner m }

end Sys

namespace Program

variable (P : Program σ π μ κ χ)

/-- Thread `t` runs on at the control point `p`. -/
def goto [DecidableEq μ] (s : Sys σ π μ) (t : Tid) (p : π) : Sys σ π μ :=
  (s.relock t (P.holds p)).setThread t { pc := p }

def waitsOn [DecidableEq κ] (c : κ) (p : π) : Bool :=
  match P.instr p with
  | .wait c' _ _ _ => c' = c
  | _ => false

def waits (p : π) : Bool :=
  match P.instr p with
  | .wait _ _ _ _ => true
  | _ => false

/-- `notify_all`: the threads that are blocked on `c` have to lock their mutex again. -/
def wakeAll [DecidableEq κ] (s : Sys σ π μ) (c : κ) : Sys σ π μ :=
  { s with
    threads := fun u =>
      if (s.threads u).mode = .blocked ∧ P.waitsOn c (s.threads u).pc = true then
        { s.threads u with mode := .woken }
      else s.threads u }

variable [DecidableEq μ] [DecidableEq κ]

def next (s : Sys σ π μ) (i : Input χ) : Option (Sys σ π μ) :=
  let th := s.threads i.tid
  match i.move, th.mode with
  | .go choice, .running =>
    match P.instr th.pc with
    | .act takes f =>
      (f i.tid choice s.shared).bind fun e =>
        if s.Available i.tid takes ∧ s.Available i.tid (P.holds e.next) then
          let s' := { P.goto s i.tid e.next with shared := e.shared }
          match e.spawned with
          | none => some s'
          | some (child, entry) =>
            if child ≠ i.tid ∧ P.fresh (s.threads child).pc = true ∧ (P.holds entry).isEmpty = true then
              some (s'.setThread child { pc := entry })
            else none
        else none
    | .notify c q =>
      if s.Available i.tid (P.holds q) then some (P.goto (P.wakeAll s c) i.tid q) else none
    | .wait _ ready q _ =>
      if ready s.shared then
        if s.Available i.tid (P.holds q) then some (P.goto s i.tid q) else none
      else some (s.setMode i.tid .window)
    | .join child f q =>
      if P.ended (s.threads child).pc = true ∧ s.Available i.tid (P.holds q) then
        some { P.goto s i.tid q with shared := f i.tid s.shared }
      else none
  | .block, .window => some ((s.relock i.tid []).setMode i.tid .blocked)
  | .wake, .blocked => some (s.setMode i.tid .woken)
  | .expire, .blocked =>
    match P.instr th.pc with
    | .wait _ _ _ (some q) =>
      if s.Available i.tid (P.holds q) then some (P.goto s i.tid q) else none
    | _ => none
  | .resume, .woken =>
    if s.Available i.tid (P.holds th.pc) then some (P.goto s i.tid th.pc) else none
  | _, _ => none

abbrev step : Sys σ π μ → Input χ → Sys σ π μ → Prop := stepOf P.next

/-- What a step can be. -/
inductive Step (s : Sys σ π μ) (t : Tid) : Sys σ π μ → Prop where
  | act {takes : List μ} {f : Tid → χ → σ → Option (Effect σ π)} {choice : χ} {e : Effect σ π} :
      (s.threads t).mode = .running → P.instr (s.threads t).pc = .act takes f →
      f t choice s.shared = some e → s.Available t takes → s.Available t (P.holds e.next) →
      e.spawned = none → Step s t { P.goto s t e.next with shared := e.shared }
  | spawn {takes : List μ} {f : Tid → χ → σ → Option (Effect σ π)} {choice : χ} {e : Effect σ π}
      {child : Tid} {entry : π} :
      (s.threads t).mode = .running → P.instr (s.threads t).pc = .act takes f →
      f t choice s.shared = some e → s.Available t takes → s.Available t (P.holds e.next) →
      e.spawned = some (child, entry) → child ≠ t → P.fresh (s.threads child).pc = true →
      P.holds entry = [] →
      Step s t ({ P.goto s t e.next with shared := e.shared }.setThread child { pc := entry })
  | notify {c : κ} {q : π} :
      (s.threads t).mode = .running → P.instr (s.threads t).pc = .notify c q →
      s.Available t (P.holds q) → Step s t (P.goto (P.wakeAll s c) t q)
  | pass {c : κ} {ready : σ → Bool} {q : π} {timeout : Option π} :
      (s.threads t).mode = .running → P.instr (s.threads t).pc = .wait c ready q timeout →
      ready s.shared = true → s.Available t (P.holds q) → Step s t (P.goto s t q)
  | check {c : κ} {ready : σ → Bool} {q : π} {timeout : Option π} :
      (s.threads t).mode = .running → P.instr (s.threads t).pc = .wait c ready q timeout →
      ready s.shared = false → Step s t (s.setMode t .window)
  | join {child : Tid} {f : Tid → σ → σ} {q : π} :
      (s.threads t).mode = .running → P.instr (s.threads t).pc = .join child f q →
      P.ended (s.threads child).pc = true → s.Available t (P.holds q) →
      Step s t { P.goto s t q with shared := f t s.shared }
  | block : (s.threads t).mode = .window → Step s t ((s.relock t []).setMode t .blocked)
  | wake : (s.threads t).mode = .blocked → Step s t (s.setMode t .woken)
  | expire {c : κ} {ready : σ → Bool} {p q : π} :
      (s.threads t).mode = .blocked → P.instr (s.threads t).pc = .wait c ready p (some q) →
      s.Available t (P.holds q) → Step s t (P.goto s t q)
  | resume :
      (s.threads t).mode = .woken → s.Available t (P.holds (s.threads t).pc) →
      Step s t (P.goto s t (s.threads t).pc)

/-- Every step is one of these. -/
theorem step_cases {s s' : Sys σ π μ} {i : Input χ} (h : P.step s i s') : P.Step s i.tid s' := by
  obtain ⟨t, move⟩ := i
  simp only [step, stepOf, next] at h
  split at h
  · rename_i choice hmode
    split at h
    · rename_i takes f hinstr
      obtain ⟨e, he, h⟩ := Option.bind_eq_some_iff.mp h
      split_ifs at h with hfree
      split at h
      · rename_i hspawned
        cases h
        exact .act hmode hinstr he hfree.1 hfree.2 hspawned
      · rename_i child entry hspawned
        split_ifs at h with hchild
        cases h
        exact .spawn hmode hinstr he hfree.1 hfree.2 hspawned hchild.1 hchild.2.1
          (List.isEmpty_iff.mp hchild.2.2)
    · rename_i c q hinstr
      split_ifs at h with hfree
      cases h
      exact .notify hmode hinstr hfree
    · rename_i c ready q timeout hinstr
      split_ifs at h with hready hfree
      · cases h
        exact .pass hmode hinstr hready hfree
      · cases h
        exact .check hmode hinstr (Bool.not_eq_true _ ▸ hready)
    · rename_i child f q hinstr
      split_ifs at h with hjoin
      cases h
      exact .join hmode hinstr hjoin.1 hjoin.2
  · rename_i hmode
    cases h
    exact .block hmode
  · rename_i hmode
    cases h
    exact .wake hmode
  · rename_i hmode
    split at h
    · rename_i hinstr
      split_ifs at h with hfree
      cases h
      exact .expire hmode hinstr hfree
    · exact absurd h (by simp)
  · rename_i hmode
    split_ifs at h with hfree
    cases h
    exact .resume hmode hfree
  · exact absurd h (by simp)

/-- A running thread takes an action that starts no other thread. -/
theorem step_of_act {s : Sys σ π μ} {t : Tid} {takes : List μ} {f : Tid → χ → σ → Option (Effect σ π)}
    {choice : χ} {e : Effect σ π} (hmode : (s.threads t).mode = .running)
    (hinstr : P.instr (s.threads t).pc = .act takes f) (hf : f t choice s.shared = some e)
    (hspawned : e.spawned = none) (hfree : s.Available t takes ∧ s.Available t (P.holds e.next)) :
    P.step s ⟨t, .go choice⟩ { P.goto s t e.next with shared := e.shared } := by
  simp only [step, stepOf, next, hmode, hinstr, hf, Option.bind_some, if_pos hfree, hspawned]

/-! ## Ownership -/

/-- The mutexes a thread holds: those of its control point, unless it sleeps in a wait. -/
def held (th : Thread π) : List μ :=
  match th.mode with
  | .running | .window => P.holds th.pc
  | .blocked | .woken => []

/-- The owners are the threads that hold the mutexes, and only waits are left running. -/
structure Consistent (s : Sys σ π μ) : Prop where
  owned : ∀ m t, s.owner m = some t ↔ m ∈ P.held (s.threads t)
  parked : ∀ t, (s.threads t).mode ≠ .running → P.waits (s.threads t).pc = true

namespace Consistent

variable {P} {s s' : Sys σ π μ} {t u : Tid} {i : Input χ}

/-- Mutual exclusion. -/
theorem exclusive (h : P.Consistent s) {m : μ} (ht : m ∈ P.held (s.threads t))
    (hu : m ∈ P.held (s.threads u)) : t = u := by
  have hown := (h.owned m t).mpr ht
  rw [(h.owned m u).mpr hu, Option.some.injEq] at hown
  exact hown.symm

/-- A mutex that is available to `t` is not held by another thread. -/
theorem not_held_of_available (h : P.Consistent s) {ms : List μ} (hfree : s.Available t ms)
    (hne : u ≠ t) {m : μ} (hu : m ∈ P.held (s.threads u)) : m ∉ ms := by
  intro hm
  have hown := (h.owned m u).mpr hu
  rcases hfree m hm with hnone | hsome
  · simp [hnone] at hown
  · exact hne (by simpa [hsome] using hown.symm)

theorem goto (h : P.Consistent s) {p : π} (hfree : s.Available t (P.holds p)) :
    P.Consistent (P.goto s t p) := by
  refine ⟨fun m u => ?_, fun u hmode => ?_⟩
  · by_cases hu : u = t
    · subst hu
      simp only [Program.goto, Sys.setThread, Sys.relock, Function.update_self, held]
      split_ifs with hm hown
      · simp [hm]
      · simp [hm]
      · simp [hm, hown]
    · simp only [Program.goto, Sys.setThread, Sys.relock, Function.update_of_ne hu]
      rw [← h.owned m u]
      split_ifs with hm hown
      · rcases hfree m hm with hnone | hsome
        · simp [hnone, Ne.symm hu]
        · simp [hsome]
      · simp [hown, Ne.symm hu]
      · rfl
  · by_cases hu : u = t
    · subst hu
      simp [Program.goto, Sys.setThread, Sys.relock] at hmode
    · simp only [Program.goto, Sys.setThread, Sys.relock, Function.update_of_ne hu] at hmode ⊢
      exact h.parked u hmode

/-- A thread that changes its mode and holds what it held. -/
theorem setMode (h : P.Consistent s) {mode : Mode} (hwait : P.waits (s.threads t).pc = true)
    (hheld : P.held { s.threads t with mode } = P.held (s.threads t)) :
    P.Consistent (s.setMode t mode) := by
  refine ⟨fun m u => ?_, fun u hmode => ?_⟩
  · by_cases hu : u = t
    · subst hu
      simp only [Sys.setMode, Sys.setThread, Function.update_self, hheld]
      exact h.owned m u
    · simp only [Sys.setMode, Sys.setThread, Function.update_of_ne hu]
      exact h.owned m u
  · by_cases hu : u = t
    · subst hu
      simpa only [Sys.setMode, Sys.setThread, Function.update_self] using hwait
    · simp only [Sys.setMode, Sys.setThread, Function.update_of_ne hu] at hmode ⊢
      exact h.parked u hmode

theorem block (h : P.Consistent s) (hwait : P.waits (s.threads t).pc = true) :
    P.Consistent ((s.relock t []).setMode t .blocked) := by
  refine ⟨fun m u => ?_, fun u hmode => ?_⟩
  · have howned := h.owned m u
    by_cases hu : u = t
    · subst hu
      simp only [Sys.setMode, Sys.setThread, Sys.relock, Function.update_self, held,
        List.not_mem_nil, if_false, iff_false]
      split_ifs with hown
      · simp
      · exact hown
    · simp only [Sys.setMode, Sys.setThread, Sys.relock, Function.update_of_ne hu,
        List.not_mem_nil, if_false]
      rw [← howned]
      split_ifs with hown
      · simp [hown, Ne.symm hu]
      · rfl
  · by_cases hu : u = t
    · subst hu
      simpa only [Sys.setMode, Sys.setThread, Sys.relock, Function.update_self] using hwait
    · simp only [Sys.setMode, Sys.setThread, Sys.relock, Function.update_of_ne hu] at hmode ⊢
      exact h.parked u hmode

theorem wakeAll (h : P.Consistent s) (c : κ) : P.Consistent (P.wakeAll s c) := by
  refine ⟨fun m u => ?_, fun u hmode => ?_⟩
  · rw [show (P.wakeAll s c).owner = s.owner from rfl, h.owned m u]
    simp only [Program.wakeAll]
    split_ifs with hblocked
    · simp [held, hblocked.1]
    · rfl
  · simp only [Program.wakeAll] at hmode ⊢
    split_ifs at hmode ⊢ with hblocked
    · exact h.parked u (by simp [hblocked.1])
    · exact h.parked u hmode

/-- A fresh thread that is given a control point without mutexes. -/
theorem spawn (h : P.Consistent s) {child : Tid} {entry : π}
    (hfresh : P.fresh (s.threads child).pc = true) (hentry : P.holds entry = []) :
    P.Consistent (s.setThread child { pc := entry }) := by
  refine ⟨fun m u => ?_, fun u hmode => ?_⟩
  · rw [show (s.setThread child { pc := entry }).owner = s.owner from rfl, h.owned m u]
    by_cases hu : u = child
    · subst hu
      have hnone : P.held (s.threads u) = [] := by
        unfold held
        split <;> simp [P.fresh_holds _ hfresh]
      simp only [hnone, Sys.setThread, Function.update_self]
      simp [held, hentry]
    · simp [Sys.setThread, Function.update_of_ne hu]
  · by_cases hu : u = child
    · subst hu
      simp [Sys.setThread] at hmode
    · simp only [Sys.setThread, Function.update_of_ne hu] at hmode ⊢
      exact h.parked u hmode

theorem shared (h : P.Consistent s) (shared : σ) : P.Consistent { s with shared } :=
  ⟨h.owned, h.parked⟩

/-- **Every step keeps ownership consistent.** -/
theorem step (h : P.Consistent s) (hstep : P.step s i s') : P.Consistent s' := by
  have hwaits : ∀ {c ready q timeout}, P.instr (s.threads i.tid).pc = .wait c ready q timeout →
      P.waits (s.threads i.tid).pc = true := fun hinstr => by simp [Program.waits, hinstr]
  cases P.step_cases hstep with
  | act _ _ _ _ hfree _ => exact (h.goto hfree).shared _
  | @spawn _ _ _ e child entry _ _ _ _ hfree _ hne hfresh hentry =>
    refine ((h.goto hfree).shared e.shared).spawn ?_ hentry
    simpa [Program.goto, Sys.setThread, Sys.relock, Function.update_of_ne hne] using hfresh
  | notify _ _ hfree => exact (h.wakeAll _).goto hfree
  | pass _ _ _ hfree => exact h.goto hfree
  | check hmode hinstr _ => exact h.setMode (hwaits hinstr) (by simp [held, hmode])
  | join _ _ _ hfree => exact (h.goto hfree).shared _
  | block hmode => exact h.block (h.parked i.tid (by simp [hmode]))
  | wake hmode => exact h.setMode (h.parked i.tid (by simp [hmode])) (by simp [held, hmode])
  | expire _ _ hfree => exact h.goto hfree
  | resume _ hfree => exact h.goto hfree

/-- A system whose threads run and hold nothing. -/
theorem init (howner : ∀ m, s.owner m = none) (hrun : ∀ t, (s.threads t).mode = .running)
    (hholds : ∀ t, P.holds (s.threads t).pc = []) : P.Consistent s :=
  ⟨fun m t => by simp [howner, held, hrun, hholds], fun t ht => absurd (hrun t) ht⟩

end Consistent

variable {P} {s s' : Sys σ π μ}

theorem Consistent.reachable {s₀ : Sys σ π μ} (h : P.Consistent s₀)
    (hreach : Reachable P.step s₀ s) : P.Consistent s :=
  Reachable.invariant h (fun _ _ _ _ hinv hnext => hinv.step hnext) hreach

/-- What thread `u` holds at a control point that is no wait, the moving thread does not lock. -/
theorem Consistent.disjoint (h : P.Consistent s) {t u : Tid} {ms : List μ}
    (hfree : s.Available t ms) (hne : u ≠ t) (hwait : P.waits (s.threads u).pc = false) :
    ∀ m ∈ P.holds (s.threads u).pc, m ∉ ms := by
  intro m hm
  have hrun : (s.threads u).mode = .running := by
    by_contra hmode
    simp [h.parked u hmode] at hwait
  exact h.not_held_of_available hfree hne (by simpa [held, hrun] using hm)

/-- A running thread may lock what it holds. -/
theorem Consistent.available_holds (h : P.Consistent s) {t : Tid}
    (hrun : (s.threads t).mode = .running) : s.Available t (P.holds (s.threads t).pc) := fun m hm =>
  .inr ((h.owned m t).mpr (by simpa [held, hrun] using hm))

/-- The threads of a system in which one thread moved. -/
theorem goto_pc {t u : Tid} {p : π} :
    ((P.goto s t p).threads u).pc = if u = t then p else (s.threads u).pc := by
  by_cases hu : u = t
  · simp [goto, Sys.setThread, Sys.relock, hu]
  · simp [goto, Sys.setThread, Sys.relock, hu]

theorem setMode_pc {t u : Tid} {mode : Mode} :
    ((s.setMode t mode).threads u).pc = (s.threads u).pc := by
  by_cases hu : u = t
  · simp [Sys.setMode, Sys.setThread, hu]
  · simp [Sys.setMode, Sys.setThread, Function.update_of_ne hu]

theorem wakeAll_pc {c : κ} {u : Tid} :
    ((P.wakeAll s c).threads u).pc = (s.threads u).pc := by
  simp only [wakeAll]
  split_ifs <;> rfl

/-- Where a thread can act, its step is that action. -/
theorem Consistent.step_act (h : P.Consistent s) {i : Input χ} {takes : List μ}
    {f : Tid → χ → σ → Option (Effect σ π)} (hstep : P.step s i s')
    (hinstr : P.instr (s.threads i.tid).pc = .act takes f) :
    ∃ choice e, i.move = .go choice ∧ f i.tid choice s.shared = some e ∧ s'.shared = e.shared ∧
      (s'.threads i.tid).pc = e.next ∧
      ∀ u, u ≠ i.tid → (s'.threads u).pc = (s.threads u).pc ∨
        P.fresh (s.threads u).pc = true ∧ e.spawned = some (u, (s'.threads u).pc) := by
  obtain ⟨t, move⟩ := i
  have hrun : (s.threads t).mode = .running := by
    by_contra hmode
    have hwait := h.parked t hmode
    simp only [waits, hinstr] at hwait
    cases hwait
  simp only [stepOf, next] at hstep
  split at hstep
  · rename_i choice _
    simp only [hinstr, Option.bind_eq_some_iff] at hstep
    obtain ⟨e, he, hstep⟩ := hstep
    split_ifs at hstep with hfree
    refine ⟨choice, e, rfl, he, ?_⟩
    have hother : ∀ u, u ≠ t → ((P.goto s t e.next).threads u).pc = (s.threads u).pc := fun u hu => by
      rw [goto_pc, if_neg hu]
    have hself : ((P.goto s t e.next).threads t).pc = e.next := by rw [goto_pc, if_pos rfl]
    split at hstep
    · cases hstep
      exact ⟨rfl, hself, fun u hu => .inl (hother u hu)⟩
    · rename_i child entry hspawned
      split_ifs at hstep with hchild
      cases hstep
      refine ⟨rfl, ?_, fun u hu => ?_⟩
      · simpa only [Sys.setThread, Function.update_of_ne hchild.1.symm] using hself
      · by_cases huc : u = child
        · subst huc
          exact .inr ⟨hchild.2.1, by simp [Sys.setThread, hspawned]⟩
        · simpa only [Sys.setThread, Function.update_of_ne huc] using Or.inl (hother u hu)
  · rename_i hmode
    simp [hrun] at hmode
  · rename_i hmode
    simp [hrun] at hmode
  · rename_i hmode
    simp [hrun] at hmode
  · rename_i hmode
    simp [hrun] at hmode
  · exact absurd hstep (by simp)

/-- A thread that does not move stays where it is, unless it is started. -/
theorem step_pc_other {i : Input χ} (hstep : P.step s i s') {u : Tid} (hne : u ≠ i.tid)
    (hfresh : P.fresh (s.threads u).pc = false) : (s'.threads u).pc = (s.threads u).pc := by
  have hgoto : ∀ {q : π}, ((P.goto s i.tid q).threads u).pc = (s.threads u).pc := fun {q} => by
    rw [goto_pc, if_neg hne]
  cases P.step_cases hstep with
  | @spawn takes f choice e child entry _ _ _ _ _ _ _ hchild _ =>
    have huc : u ≠ child := fun heq => by simp [← heq, hfresh] at hchild
    simp only [Sys.setThread, Function.update_of_ne huc]
    exact hgoto
  | notify _ _ _ => rw [goto_pc, if_neg hne, wakeAll_pc]
  | check _ _ _ => exact setMode_pc
  | block _ => exact setMode_pc
  | wake _ => exact setMode_pc
  | _ => exact hgoto

/-- How a thread leaves a wait: its predicate is true, or its time is up. -/
theorem step_wait {i : Input χ} (hstep : P.step s i s') {c : κ} {ready : σ → Bool} {q : π}
    {timeout : Option π} (hinstr : P.instr (s.threads i.tid).pc = .wait c ready q timeout) :
    s'.shared = s.shared ∧
      ((s'.threads i.tid).pc = (s.threads i.tid).pc ∨
        ready s.shared = true ∧ (s'.threads i.tid).pc = q ∨
        i.move = .expire ∧ timeout = some (s'.threads i.tid).pc) := by
  obtain ⟨t, move⟩ := i
  have hself : ∀ {q : π}, ((P.goto s t q).threads t).pc = q := fun {q} => by
    rw [goto_pc, if_pos rfl]
  simp only [step, stepOf, next] at hstep
  split at hstep
  · simp only [hinstr] at hstep
    split_ifs at hstep with hready hfree
    · cases hstep
      exact ⟨rfl, .inr (.inl ⟨hready, hself⟩)⟩
    · cases hstep
      exact ⟨rfl, .inl setMode_pc⟩
  · cases hstep
    exact ⟨rfl, .inl setMode_pc⟩
  · cases hstep
    exact ⟨rfl, .inl setMode_pc⟩
  · simp only [hinstr] at hstep
    split at hstep
    · rename_i hwait
      cases hwait
      split_ifs at hstep with hfree
      cases hstep
      exact ⟨rfl, .inr (.inr ⟨rfl, by rw [hself]⟩)⟩
    · exact absurd hstep (by simp)
  · split_ifs at hstep with hfree
    cases hstep
    exact ⟨rfl, .inl hself⟩
  · exact absurd hstep (by simp)

/-- Beside a thread that holds the mutex `m` no action locks it. -/
theorem Consistent.step_beside (h : P.Consistent s) {i : Input χ} (hstep : P.step s i s') {u : Tid}
    {m : μ} (hne : u ≠ i.tid) (hwait : P.waits (s.threads u).pc = false)
    (hm : m ∈ P.holds (s.threads u).pc) :
    s'.shared = s.shared ∨
      (∃ takes f choice e, P.instr (s.threads i.tid).pc = .act takes f ∧
        f i.tid choice s.shared = some e ∧ s'.shared = e.shared ∧ m ∉ takes) ∨
      ∃ child f q, P.instr (s.threads i.tid).pc = .join child f q ∧
        s'.shared = f i.tid s.shared := by
  cases P.step_cases hstep with
  | act _ hinstr hf hfree _ _ =>
    exact .inr (.inl ⟨_, _, _, _, hinstr, hf, rfl, h.disjoint hfree hne hwait m hm⟩)
  | spawn _ hinstr hf hfree _ _ _ _ _ =>
    exact .inr (.inl ⟨_, _, _, _, hinstr, hf, rfl, h.disjoint hfree hne hwait m hm⟩)
  | join _ hinstr _ _ => exact .inr (.inr ⟨_, _, _, hinstr, rfl⟩)
  | _ => exact .inl rfl

/-! ## A thread that runs alone -/

/-- Thread `t` runs, and no other thread owns a mutex. -/
structure Solo (s : Sys σ π μ) (t : Tid) : Prop where
  running : (s.threads t).mode = .running
  free : ∀ m, s.owner m = none ∨ s.owner m = some t

/-- What a step of thread `t` leaves: the shared state, its control point, and the others where they
were. -/
structure SoloStep (s : Sys σ π μ) (t : Tid) (choice : χ) (shared : σ) (q : π) (s' : Sys σ π μ) :
    Prop where
  step : P.step s ⟨t, .go choice⟩ s'
  solo : Solo s' t
  shared : s'.shared = shared
  pc : (s'.threads t).pc = q
  others : ∀ u, u ≠ t → (s'.threads u).pc = (s.threads u).pc

namespace Solo

variable {t : Tid} {q : π}

theorem goto (h : Solo s t) (q : π) : Solo (P.goto s t q) t := by
  refine ⟨by simp [Program.goto, Sys.setThread], fun m => ?_⟩
  simp only [Program.goto, Sys.setThread, Sys.relock]
  split_ifs with hm hown
  · exact .inr rfl
  · exact .inl rfl
  · exact .inl ((h.free m).resolve_right hown)

theorem available (h : Solo s t) (ms : List μ) : s.Available t ms := fun m _ => h.free m

theorem act (h : Solo s t) {takes : List μ} {f : Tid → χ → σ → Option (Effect σ π)} {choice : χ}
    {e : Effect σ π} (hinstr : P.instr (s.threads t).pc = .act takes f)
    (hf : f t choice s.shared = some e) (hspawned : e.spawned = none) :
    ∃ s', P.SoloStep s t choice e.shared e.next s' := by
  have hfree := And.intro (h.available takes) (h.available (P.holds e.next))
  refine ⟨{ P.goto s t e.next with shared := e.shared }, ?_, ?_, rfl, ?_, fun u hu => ?_⟩
  · simp only [step, stepOf, next, h.running, hinstr, hf, Option.bind_some, if_pos hfree, hspawned]
  · exact ⟨(h.goto e.next).running, (h.goto e.next).free⟩
  · exact goto_pc.trans (if_pos rfl)
  · exact goto_pc.trans (if_neg hu)

theorem notify (h : Solo s t) {c : κ} (choice : χ) (hinstr : P.instr (s.threads t).pc = .notify c q) :
    ∃ s', P.SoloStep s t choice s.shared q s' := by
  have hwoken : Solo (P.wakeAll s c) t := by
    refine ⟨?_, h.free⟩
    simp [wakeAll, h.running]
  refine ⟨P.goto (P.wakeAll s c) t q, ?_, hwoken.goto q, rfl, ?_, fun u hu => ?_⟩
  · simp only [step, stepOf, next, h.running, hinstr, if_pos (h.available (P.holds q))]
  · exact goto_pc.trans (if_pos rfl)
  · rw [goto_pc, if_neg hu, wakeAll_pc]

theorem pass (h : Solo s t) {c : κ} {ready : σ → Bool} {timeout : Option π} (choice : χ)
    (hinstr : P.instr (s.threads t).pc = .wait c ready q timeout) (hready : ready s.shared = true) :
    ∃ s', P.SoloStep s t choice s.shared q s' := by
  refine ⟨P.goto s t q, ?_, h.goto q, rfl, ?_, fun u hu => ?_⟩
  · simp only [step, stepOf, next, h.running, hinstr, hready, if_true,
      if_pos (h.available (P.holds q))]
  · exact goto_pc.trans (if_pos rfl)
  · exact goto_pc.trans (if_neg hu)

theorem join (h : Solo s t) {child : Tid} {f : Tid → σ → σ} (choice : χ)
    (hinstr : P.instr (s.threads t).pc = .join child f q)
    (hended : P.ended (s.threads child).pc = true) :
    ∃ s', P.SoloStep s t choice (f t s.shared) q s' := by
  have hfree := And.intro hended (h.available (P.holds q))
  refine ⟨{ P.goto s t q with shared := f t s.shared }, ?_, ?_, rfl, ?_, fun u hu => ?_⟩
  · simp only [step, stepOf, next, h.running, hinstr, if_pos hfree]
  · exact ⟨(h.goto q).running, (h.goto q).free⟩
  · exact goto_pc.trans (if_pos rfl)
  · exact goto_pc.trans (if_neg hu)

/-- A wait with a timeout comes to an end: the thread goes to sleep, and its time is up. -/
theorem expire (h : Solo s t) {c : κ} {ready : σ → Bool} {p : π} (choice : χ)
    (hinstr : P.instr (s.threads t).pc = .wait c ready p (some q)) (hready : ready s.shared = false) :
    ∃ s', Runs P.step s [⟨t, .go choice⟩, ⟨t, .block⟩, ⟨t, .expire⟩] s' ∧ Solo s' t ∧
      s'.shared = s.shared ∧ (s'.threads t).pc = q := by
  let asleep := ((s.setMode t .window).relock t []).setMode t .blocked
  have hpc : (asleep.threads t).pc = (s.threads t).pc := setMode_pc.trans setMode_pc
  have hmode : (asleep.threads t).mode = .blocked := by simp [asleep, Sys.setMode, Sys.setThread]
  have hfree : ∀ m, asleep.owner m = none := by
    intro m
    show (if m ∈ [] then some t else if s.owner m = some t then none else s.owner m) = none
    rcases h.free m with hm | hm <;> simp [hm]
  have hcheck : P.step s ⟨t, .go choice⟩ (s.setMode t .window) := by
    simp only [step, stepOf, next, h.running, hinstr, hready, Bool.false_eq_true, if_false]
  have hblock : P.step (s.setMode t .window) ⟨t, .block⟩ asleep := by
    simp [step, stepOf, next, Sys.setMode, Sys.setThread, asleep]
  have hexpire : P.step asleep ⟨t, .expire⟩ (P.goto asleep t q) := by
    have havailable : asleep.Available t (P.holds q) := fun m _ => .inl (hfree m)
    rw [← hpc] at hinstr
    simp only [step, stepOf, next, hmode, hinstr, if_pos havailable]
  refine ⟨P.goto asleep t q, .cons hcheck (.cons hblock (.single hexpire)), ?_, rfl,
    goto_pc.trans (if_pos rfl)⟩
  refine ⟨by simp [Program.goto, Sys.setThread], fun m => ?_⟩
  simp only [Program.goto, Sys.setThread, Sys.relock]
  split_ifs with hm hown
  · exact .inr rfl
  · exact .inl rfl
  · exact .inl (hfree m)

end Solo

end Program

end NetFT.Library.Threads
