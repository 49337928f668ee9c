/-
# NetFT.Library.Outline — proof outlines for programs of threads.

An `Outline` has an assertion for every thread and control point, an invariant for every mutex, which
holds while nobody owns it, and one for the shared state alone.  `Justifies` lists what has to be
shown of it: an action may use the invariants of the mutexes that it locks and has to restore those
of the mutexes that it releases, and it need not be considered beside a control point that holds one
of its mutexes.  `Justifies.invariant` is the rule: a justified outline that holds at the start holds
in every reachable state.

Outlines are built one over another: `K` is an outline that is already known to hold.
-/
import NetFT.Library.Threads

namespace NetFT.Library.Threads

set_option autoImplicit false
set_option linter.unusedSectionVars false

variable {σ π μ κ χ : Type}

/-! ## Outlines -/

structure Outline (σ π μ : Type) where
  global : σ → Prop
  lock : μ → σ → Prop
  point : Tid → π → σ → Prop

namespace Outline

/-- Both outlines at once. -/
def meet (K O : Outline σ π μ) : Outline σ π μ where
  global s := K.global s ∧ O.global s
  lock m s := K.lock m s ∧ O.lock m s
  point t p s := K.point t p s ∧ O.point t p s

/-- The outline that says nothing. -/
def trivial : Outline σ π μ where
  global _ := True
  lock _ _ := True
  point _ _ _ := True

structure Holds (O : Outline σ π μ) (s : Sys σ π μ) : Prop where
  global : O.global s.shared
  lock : ∀ m, s.owner m = none → O.lock m s.shared
  point : ∀ t, O.point t (s.threads t).pc s.shared

theorem trivial_holds (s : Sys σ π μ) : (trivial : Outline σ π μ).Holds s :=
  ⟨⟨⟩, fun _ _ => ⟨⟩, fun _ => ⟨⟩⟩

theorem Holds.meet {K O : Outline σ π μ} {s : Sys σ π μ} (hK : K.Holds s) (hO : O.Holds s) :
    (K.meet O).Holds s :=
  ⟨⟨hK.global, hO.global⟩, fun m hm => ⟨hK.lock m hm, hO.lock m hm⟩,
    fun t => ⟨hK.point t, hO.point t⟩⟩

end Outline

/-! ## Moves of a thread, as an outline sees them -/

/-- Moves that leave the shared state as it is. -/
inductive Program.Passes (P : Program σ π μ κ χ) (p q : π) (s : σ) : Prop where
  | notify {c : κ} : P.instr p = .notify c q → Passes P p q s
  | wait {c : κ} {ready : σ → Bool} {timeout : Option π} :
      P.instr p = .wait c ready q timeout → ready s = true → Passes P p q s
  | expire {c : κ} {ready : σ → Bool} {next : π} :
      P.instr p = .wait c ready next (some q) → Passes P p q s

/-- Thread `t` acts at the control point `p`, with the effect `e`; `O` holds there and of the mutexes
that the action locks. -/
structure Program.Acts (P : Program σ π μ κ χ) (O : Outline σ π μ) (t : Tid) (p : π) (takes : List μ)
    (f : Tid → χ → σ → Option (Effect σ π)) (choice : χ) (s : σ) (e : Effect σ π) : Prop where
  instr : P.instr p = .act takes f
  effect : f t choice s = some e
  global : O.global s
  lock : ∀ m, m ∈ takes ∨ m ∈ P.holds e.next → m ∉ P.holds p → O.lock m s
  point : O.point t p s
  starts : ∀ child entry, e.spawned = some (child, entry) →
    child ≠ t ∧ ∃ q, P.fresh q = true ∧ O.point child q s

/-- Thread `t` joins `child`, which has ended at the control point `r`. -/
structure Program.Joins (P : Program σ π μ κ χ) (O : Outline σ π μ) (t : Tid) (p : π) (child : Tid)
    (f : Tid → σ → σ) (q r : π) (s : σ) : Prop where
  instr : P.instr p = .join child f q
  ended : P.ended r = true
  global : O.global s
  point : O.point t p s
  child : O.point child r s

/-- What has to be shown of an outline `O` where the outline `K` is known to hold. -/
structure Program.Justifies (P : Program σ π μ κ χ) (K O : Outline σ π μ) : Prop where
  act : ∀ {t p takes f choice s e}, P.Acts (K.meet O) t p takes f choice s e →
    O.global e.shared ∧ O.point t e.next e.shared
  spawn : ∀ {t p takes f choice s e child entry q}, P.Acts (K.meet O) t p takes f choice s e →
    e.spawned = some (child, entry) → child ≠ t → P.fresh q = true → (K.meet O).point child q s →
    O.point child entry e.shared
  frame : ∀ {t p takes f choice s e u q}, P.Acts (K.meet O) t p takes f choice s e → u ≠ t →
    (∀ child entry, e.spawned = some (child, entry) → u ≠ child) → (K.meet O).point u q s →
    (P.waits q = false → ∀ m ∈ P.holds q, m ∉ takes ∧ m ∉ P.holds p ∧ m ∉ P.holds e.next) →
    O.point u q e.shared
  release : ∀ {t p takes f choice s e m}, P.Acts (K.meet O) t p takes f choice s e →
    m ∉ P.holds e.next → (m ∉ P.holds p → (K.meet O).lock m s) → O.lock m e.shared
  pass : ∀ {t p q s}, P.Passes p q s → (K.meet O).global s → (K.meet O).point t p s →
    O.point t q s ∧ ∀ m ∈ P.holds p, m ∉ P.holds q → O.lock m s
  block : ∀ {t p s}, P.waits p = true → (K.meet O).global s → (K.meet O).point t p s →
    ∀ m ∈ P.holds p, O.lock m s
  join : ∀ {t p child f q r s}, P.Joins (K.meet O) t p child f q r s →
    O.global (f t s) ∧ O.point t q (f t s) ∧
      ∀ m, m ∉ P.holds q → (m ∉ P.holds p → (K.meet O).lock m s) → O.lock m (f t s)
  joinFrame : ∀ {t p child f q r s u v}, P.Joins (K.meet O) t p child f q r s → u ≠ t →
    (u = child → v = r) → (K.meet O).point u v s →
    (P.waits v = false → ∀ m ∈ P.holds v, m ∉ P.holds p ∧ m ∉ P.holds q) → O.point u v (f t s)

namespace Program

variable {P : Program σ π μ κ χ} [DecidableEq μ] [DecidableEq κ]
variable {K O : Outline σ π μ} {s s' : Sys σ π μ} {i : Input χ}

/-! ## What a step changes -/

/-- How the control point of a thread changes in a step: it acts, passes or joins itself, or it is
started. -/
theorem step_pc (h : P.step s i s') (u : Tid) :
    (s'.threads u).pc = (s.threads u).pc ∨
    (u = i.tid ∧ ∃ takes f choice e, P.instr (s.threads u).pc = .act takes f ∧
      f u choice s.shared = some e ∧ (s'.threads u).pc = e.next) ∨
    (u = i.tid ∧ P.Passes (s.threads u).pc (s'.threads u).pc s.shared) ∨
    (u = i.tid ∧ ∃ child f, P.instr (s.threads u).pc = .join child f (s'.threads u).pc) ∨
    (P.fresh (s.threads u).pc = true ∧ ∃ takes f choice e,
      P.instr (s.threads i.tid).pc = .act takes f ∧ f i.tid choice s.shared = some e ∧
      e.spawned = some (u, (s'.threads u).pc)) := by
  obtain ⟨t, move⟩ := i
  have hgoto : ∀ {q : π}, u ≠ t → ((P.goto s t q).threads u).pc = (s.threads u).pc := fun hu => by
    rw [goto_pc, if_neg hu]
  have hself : ∀ {s₁ : Sys σ π μ} {q : π}, ((P.goto s₁ t q).threads t).pc = q := by
    intro s₁ q
    rw [goto_pc, if_pos rfl]
  by_cases hu : u = t
  · subst hu
    cases P.step_cases h with
    | @act takes f choice e _ hinstr hf _ _ _ =>
      exact .inr (.inl ⟨rfl, takes, f, choice, e, hinstr, hf, hself⟩)
    | @spawn takes f choice e child entry _ hinstr hf _ _ _ hne _ _ =>
      refine .inr (.inl ⟨rfl, takes, f, choice, e, hinstr, hf, ?_⟩)
      simp only [Sys.setThread, Function.update_of_ne hne.symm]
      exact hself
    | notify _ hinstr _ =>
      rw [hself]
      exact .inr (.inr (.inl ⟨rfl, .notify hinstr⟩))
    | pass _ hinstr hready _ =>
      rw [hself]
      exact .inr (.inr (.inl ⟨rfl, .wait hinstr hready⟩))
    | @join child f q _ hinstr _ _ =>
      refine .inr (.inr (.inr (.inl ⟨rfl, child, f, ?_⟩)))
      rw [show (Program.goto P s u q).threads = (P.goto s u q).threads from rfl, hself]
      exact hinstr
    | expire _ hinstr _ =>
      rw [hself]
      exact .inr (.inr (.inl ⟨rfl, .expire hinstr⟩))
    | resume _ _ => exact .inl hself
    | _ => exact .inl setMode_pc
  · cases P.step_cases h with
    | @spawn takes f choice e child entry _ hinstr hf _ _ hspawned hne hfresh _ =>
      by_cases hchild : u = child
      · subst hchild
        refine .inr (.inr (.inr (.inr ⟨hfresh, takes, f, choice, e, hinstr, hf, ?_⟩)))
        simpa [Sys.setThread] using hspawned
      · simp only [Sys.setThread, Function.update_of_ne hchild]
        exact .inl (hgoto hu)
    | notify _ _ _ => exact .inl (by rw [goto_pc, if_neg hu, wakeAll_pc])
    | check _ _ _ => exact .inl setMode_pc
    | block _ => exact .inl setMode_pc
    | wake _ => exact .inl setMode_pc
    | _ => exact .inl (hgoto hu)

/-- How the shared state changes in a step. -/
theorem step_shared (h : P.step s i s') :
    s'.shared = s.shared ∨
    (∃ takes f choice e, P.instr (s.threads i.tid).pc = .act takes f ∧
      f i.tid choice s.shared = some e ∧ s'.shared = e.shared) ∨
    ∃ child f q, P.instr (s.threads i.tid).pc = .join child f q ∧ s'.shared = f i.tid s.shared := by
  cases P.step_cases h with
  | act _ hinstr hf _ _ _ => exact .inr (.inl ⟨_, _, _, _, hinstr, hf, rfl⟩)
  | spawn _ hinstr hf _ _ _ _ _ _ => exact .inr (.inl ⟨_, _, _, _, hinstr, hf, rfl⟩)
  | join _ hinstr _ _ => exact .inr (.inr ⟨_, _, _, hinstr, rfl⟩)
  | _ => exact .inl rfl

/-! ## The rule -/

/-- A mutex that nobody owns after a thread has moved was free before, or held by that thread. -/
theorem Consistent.of_goto_free (h : P.Consistent s) {t : Tid} {q : π} {m : μ}
    (hrun : (s.threads t).mode = .running) (hfree : (P.goto s t q).owner m = none) :
    m ∉ P.holds q ∧ (m ∉ P.holds (s.threads t).pc → s.owner m = none) := by
  simp only [Program.goto, Sys.setThread, Sys.relock] at hfree
  split_ifs at hfree with hmem hown
  · refine ⟨hmem, fun hnot => absurd ((h.owned m t).mp hown) ?_⟩
    simpa [held, hrun] using hnot
  · exact ⟨hmem, fun _ => hfree⟩

/-- The same for a thread that was asleep. -/
theorem Consistent.of_goto_free_asleep (h : P.Consistent s) {t : Tid} {q : π} {m : μ}
    (hasleep : P.held (s.threads t) = []) (hfree : (P.goto s t q).owner m = none) :
    s.owner m = none := by
  simp only [Program.goto, Sys.setThread, Sys.relock] at hfree
  split_ifs at hfree with hmem hown
  · exact absurd ((h.owned m t).mp hown) (by simp [hasleep])
  · exact hfree

namespace Justifies

/-- One step keeps a justified outline. -/
theorem step (h : P.Justifies K O) (hcons : P.Consistent s) (hK : K.Holds s) (hO : O.Holds s)
    (hstep : P.step s i s') : O.Holds s' := by
  obtain ⟨t, move⟩ := i
  have hboth := hK.meet hO
  -- a mutex that the moving thread locks satisfies its invariant
  have hlock : ∀ {ms : List μ}, (s.threads t).mode = .running → s.Available t ms →
      ∀ m ∈ ms, m ∉ P.holds (s.threads t).pc → (K.meet O).lock m s.shared := by
    intro ms hrun hfree m hm hnot
    refine hboth.lock m ((hfree m hm).resolve_right fun hown => ?_)
    exact hnot (by simpa [held, hrun] using (hcons.owned m t).mp hown)
  have hdisjoint : ∀ {u : Tid} {takes : List μ} {q : π}, (s.threads t).mode = .running →
      s.Available t takes → s.Available t (P.holds q) → u ≠ t → P.waits (s.threads u).pc = false →
      ∀ m ∈ P.holds (s.threads u).pc,
        m ∉ takes ∧ m ∉ P.holds (s.threads t).pc ∧ m ∉ P.holds q :=
    fun hrun htakes hnext hu hwait m hm =>
      ⟨hcons.disjoint htakes hu hwait m hm,
        hcons.disjoint (hcons.available_holds hrun) hu hwait m hm, hcons.disjoint hnext hu hwait m hm⟩
  have hwaits : ∀ {c ready q timeout}, P.instr (s.threads t).pc = .wait c ready q timeout →
      P.waits (s.threads t).pc = true := fun hinstr => by simp [Program.waits, hinstr]
  -- a step that changes no shared state and no control point
  have hsame : ∀ {s₁ : Sys σ π μ}, s₁.shared = s.shared →
      (∀ m, s₁.owner m = none → O.lock m s.shared) →
      (∀ u, (s₁.threads u).pc = (s.threads u).pc) → O.Holds s₁ := fun hshared hfree hpc =>
    ⟨hshared ▸ hO.global, fun m hm => hshared ▸ hfree m hm,
      fun u => by rw [hpc u, hshared]; exact hO.point u⟩
  -- a move of thread `t` to `q` that changes no shared state
  have hmove : ∀ {s₁ : Sys σ π μ} {q : π}, s₁.shared = s.shared →
      (∀ u, (s₁.threads u).pc = if u = t then q else (s.threads u).pc) →
      (∀ m, s₁.owner m = none → O.lock m s.shared) → O.point t q s.shared → O.Holds s₁ := by
    intro s₁ q hshared hpc hfree hq
    refine ⟨hshared ▸ hO.global, fun m hm => hshared ▸ hfree m hm, fun u => ?_⟩
    rw [hpc u, hshared]
    split_ifs with hu
    · exact hu ▸ hq
    · exact hO.point u
  have hpassed : ∀ {q : π} {s₁ : Sys σ π μ}, (s.threads t).mode = .running →
      s₁.owner = (P.goto s t q).owner → P.Passes (s.threads t).pc q s.shared →
      ∀ m, s₁.owner m = none → O.lock m s.shared := by
    intro q s₁ hrun howner hpass m hm
    obtain ⟨hnot, hbefore⟩ := hcons.of_goto_free hrun (howner ▸ hm)
    by_cases hheld : m ∈ P.holds (s.threads t).pc
    · exact (h.pass hpass hboth.global (hboth.point t)).2 m hheld hnot
    · exact hO.lock m (hbefore hheld)
  cases P.step_cases hstep with
  | @act takes f choice e hrun hinstr hf htakes hnext hspawned =>
    have hacts : P.Acts (K.meet O) t (s.threads t).pc takes f choice s.shared e :=
      ⟨hinstr, hf, hboth.global, fun m hm =>
        hm.elim (hlock hrun htakes m) (hlock hrun hnext m), hboth.point t,
        fun child entry h => by simp [hspawned] at h⟩
    obtain ⟨hkeep, hown⟩ := h.act hacts
    refine ⟨hkeep, fun m hm => ?_, fun u => ?_⟩
    · obtain ⟨hnot, hbefore⟩ := hcons.of_goto_free hrun hm
      exact h.release hacts hnot fun hheld => hboth.lock m (hbefore hheld)
    · rw [show (Program.goto P s t e.next).threads = (P.goto s t e.next).threads from rfl, goto_pc]
      split_ifs with hu
      · exact hu ▸ hown
      · exact h.frame hacts hu (fun child entry h => by simp [hspawned] at h) (hboth.point u)
          (hdisjoint hrun htakes hnext hu)
  | @spawn takes f choice e child entry hrun hinstr hf htakes hnext hspawned hne hfresh _ =>
    have honly : ∀ child' entry', e.spawned = some (child', entry') → child = child' := by
      intro child' entry' h
      simp only [hspawned, Option.some.injEq, Prod.mk.injEq] at h
      exact h.1
    have hacts : P.Acts (K.meet O) t (s.threads t).pc takes f choice s.shared e :=
      ⟨hinstr, hf, hboth.global, fun m hm =>
        hm.elim (hlock hrun htakes m) (hlock hrun hnext m), hboth.point t,
        fun child' entry' h => honly child' entry' h ▸ ⟨hne, _, hfresh, hboth.point child⟩⟩
    obtain ⟨hkeep, hown⟩ := h.act hacts
    refine ⟨hkeep, fun m hm => ?_, fun u => ?_⟩
    · obtain ⟨hnot, hbefore⟩ := hcons.of_goto_free hrun hm
      exact h.release hacts hnot fun hheld => hboth.lock m (hbefore hheld)
    · by_cases hchild : u = child
      · subst hchild
        simp only [Sys.setThread, Function.update_self]
        exact h.spawn hacts hspawned hne hfresh (hboth.point u)
      · simp only [Sys.setThread, Function.update_of_ne hchild]
        rw [goto_pc]
        split_ifs with hu
        · exact hu ▸ hown
        · exact h.frame hacts hu (fun child' entry' h => honly child' entry' h ▸ hchild)
            (hboth.point u) (hdisjoint hrun htakes hnext hu)
  | @notify c q hrun hinstr _ =>
    refine hmove rfl (fun u => ?_) (hpassed hrun rfl (.notify hinstr))
      (h.pass (.notify hinstr) hboth.global (hboth.point t)).1
    rw [goto_pc, wakeAll_pc]
  | pass hrun hinstr hready _ =>
    exact hmove rfl (fun u => goto_pc) (hpassed hrun rfl (.wait hinstr hready))
      (h.pass (.wait hinstr hready) hboth.global (hboth.point t)).1
  | check _ _ _ => exact hsame rfl hO.lock fun u => setMode_pc
  | @join child f q hrun hinstr hended hnext =>
    have hjoins : P.Joins (K.meet O) t (s.threads t).pc child f q (s.threads child).pc s.shared :=
      ⟨hinstr, hended, hboth.global, hboth.point t, hboth.point child⟩
    obtain ⟨hkeep, hown, hrelease⟩ := h.join hjoins
    refine ⟨hkeep, fun m hm => ?_, fun u => ?_⟩
    · obtain ⟨hnot, hbefore⟩ := hcons.of_goto_free hrun hm
      exact hrelease m hnot fun hheld => hboth.lock m (hbefore hheld)
    · rw [show (Program.goto P s t q).threads = (P.goto s t q).threads from rfl, goto_pc]
      split_ifs with hu
      · exact hu ▸ hown
      · exact h.joinFrame hjoins hu (fun heq => heq ▸ rfl) (hboth.point u) fun hwait m hm =>
          (hdisjoint hrun hnext hnext hu hwait m hm).2
  | block hmode =>
    refine hsame rfl (fun m hm => ?_) fun u => setMode_pc
    have hwait := hcons.parked t (by simp [hmode])
    by_cases hheld : m ∈ P.holds (s.threads t).pc
    · exact h.block hwait hboth.global (hboth.point t) m hheld
    · refine hO.lock m ?_
      simp only [Sys.setMode, Sys.setThread, Sys.relock, List.not_mem_nil, if_false] at hm
      split_ifs at hm with hown
      · exact absurd ((hcons.owned m t).mp hown) (by simpa [held, hmode] using hheld)
      · exact hm
  | wake _ => exact hsame rfl hO.lock fun u => setMode_pc
  | expire hmode hinstr _ =>
    exact hmove rfl (fun u => goto_pc)
      (fun m hm => hO.lock m (hcons.of_goto_free_asleep (by simp [held, hmode]) hm))
      (h.pass (.expire hinstr) hboth.global (hboth.point t)).1
  | resume hmode _ =>
    exact hmove rfl (fun u => goto_pc)
      (fun m hm => hO.lock m (hcons.of_goto_free_asleep (by simp [held, hmode]) hm)) (hO.point t)

/-- **The outline rule**: a justified outline that holds at the start holds in every reachable state. -/
theorem invariant {s₀ : Sys σ π μ} (h : P.Justifies K O) (hcons : P.Consistent s₀)
    (hK : ∀ s, Reachable P.step s₀ s → K.Holds s) (hinit : O.Holds s₀)
    (hreach : Reachable P.step s₀ s) : O.Holds s := by
  have hboth : P.Consistent s ∧ O.Holds s :=
    Reachable.invariant (I := fun s => P.Consistent s ∧ O.Holds s) ⟨hcons, hinit⟩
      (fun s i s' hs hinv hnext =>
        ⟨hinv.1.step hnext, h.step hinv.1 (hK s hs) hinv.2 hnext⟩) hreach
  exact hboth.2

end Justifies

end Program

end NetFT.Library.Threads
