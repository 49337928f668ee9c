/-
# NetFT.Library.Wakeup — lost wake-ups.

A thread is `Stranded` when it is blocked in a wait whose predicate is true and no running thread has
a notify of that condition variable `Ahead` of it.  When whoever makes a wait predicate true has the
notify ahead (`Announces`), the only way to strand a thread is a notify, the last one ahead, that finds
it in the window between the evaluation of its predicate and the block: `Timely` excludes this step,
and `Announces.not_stranded` says that runs without it strand nobody.
-/
import NetFT.Library.Threads

namespace NetFT.Library.Threads

set_option autoImplicit false
set_option linter.unusedSectionVars false

variable {σ π μ κ χ : Type}

namespace Program

variable (P : Program σ π μ κ χ)

/-! ## Notifications that are due -/

/-- Whatever it meets, a thread at `p` notifies `c` before it waits, joins or ends; its actions on the
way are always enabled, up to the mutexes. -/
inductive Ahead (c : κ) : π → Prop where
  | here {p q : π} : P.instr p = .notify c q → Ahead c p
  | notify {p q : π} {c' : κ} : P.instr p = .notify c' q → Ahead c q → Ahead c p
  | act {p : π} {takes : List μ} {f : Tid → χ → σ → Option (Effect σ π)} :
      P.instr p = .act takes f → (∀ t s, ∃ choice, (f t choice s).isSome = true) →
      (∀ t choice s e, f t choice s = some e → Ahead c e.next) → Ahead c p

/-- Thread `u` stands in a wait on `c` whose predicate is true. -/
def ReadyWait (s : Sys σ π μ) (c : κ) (u : Tid) : Prop :=
  ∃ ready q timeout, P.instr (s.threads u).pc = .wait c ready q timeout ∧ ready s.shared = true

/-- A running thread has a notify of `c` ahead of it. -/
def Announced (s : Sys σ π μ) (c : κ) : Prop :=
  ∃ v, (s.threads v).mode = .running ∧ P.Ahead c (s.threads v).pc

/-- The wake-up of thread `u` is lost. -/
def Stranded (s : Sys σ π μ) (u : Tid) : Prop :=
  (s.threads u).mode = .blocked ∧ ∃ c, P.ReadyWait s c u ∧ ¬ P.Announced s c

/-- The step is no notify that comes too early: when a thread stands in the window of a wait on `c`
whose predicate is true by now, a notify of `c` is not the last one ahead. -/
def Timely (s : Sys σ π μ) (i : Input χ) : Prop :=
  ∀ c q, (s.threads i.tid).mode = .running → P.instr (s.threads i.tid).pc = .notify c q →
    ∀ u, (s.threads u).mode = .window → P.ReadyWait s c u →
      P.Ahead c q ∨ ∃ v ≠ i.tid, (s.threads v).mode = .running ∧ P.Ahead c (s.threads v).pc

/-- Whoever makes a wait predicate true has a notify of the condition variable ahead of it. -/
structure Announces : Prop where
  act : ∀ {p takes f t choice s e p' c ready q timeout}, P.instr p = .act takes f →
    f t choice s = some e → P.instr p' = .wait c ready q timeout → ready s = false →
    ready e.shared = true → P.Ahead c e.next
  join : ∀ {p child f q t s p' c ready q' timeout}, P.instr p = .join child f q →
    P.instr p' = .wait c ready q' timeout → ready (f t s) = true → ready s = true
  fresh : ∀ {p c}, P.fresh p = true → ¬ P.Ahead c p

variable {P} {c : κ} {p : π}

theorem Ahead.not_wait (h : P.Ahead c p) {c' : κ} {ready : σ → Bool} {q : π} {timeout : Option π}
    (hinstr : P.instr p = .wait c' ready q timeout) : False := by
  cases h with
  | here h => simp [hinstr] at h
  | notify h _ => simp [hinstr] at h
  | act h _ _ => simp [hinstr] at h

theorem Ahead.not_join (h : P.Ahead c p) {child : Tid} {f : Tid → σ → σ} {q : π}
    (hinstr : P.instr p = .join child f q) : False := by
  cases h with
  | here h => simp [hinstr] at h
  | notify h _ => simp [hinstr] at h
  | act h _ _ => simp [hinstr] at h

theorem Ahead.after_act (h : P.Ahead c p) {takes : List μ} {f : Tid → χ → σ → Option (Effect σ π)}
    (hinstr : P.instr p = .act takes f) {t : Tid} {choice : χ} {s : σ} {e : Effect σ π}
    (hf : f t choice s = some e) : P.Ahead c e.next := by
  cases h with
  | here h => simp [hinstr] at h
  | notify h _ => simp [hinstr] at h
  | act h _ hnext =>
    obtain ⟨-, rfl⟩ := Instr.act.inj (hinstr.symm.trans h)
    exact hnext t choice s e hf

theorem Ahead.after_notify (h : P.Ahead c p) {c' : κ} {q : π} (hinstr : P.instr p = .notify c' q)
    (hne : c ≠ c') : P.Ahead c q := by
  cases h with
  | here h => exact absurd (Instr.notify.inj (hinstr.symm.trans h)).1.symm hne
  | notify h hq => exact (Instr.notify.inj (hinstr.symm.trans h)).2 ▸ hq
  | act h _ _ => simp [hinstr] at h

/-! ## Runs without an early notify -/

/-- Every thread in the window or the block of a wait whose predicate is true is announced. -/
def Covered (P : Program σ π μ κ χ) (s : Sys σ π μ) : Prop :=
  ∀ u c, (s.threads u).mode = .window ∨ (s.threads u).mode = .blocked → P.ReadyWait s c u →
    P.Announced s c

variable [DecidableEq μ] [DecidableEq κ] {s s' : Sys σ π μ} {i : Input χ}

theorem goto_threads_of_ne {t u : Tid} {q : π} (hne : u ≠ t) :
    (P.goto s t q).threads u = s.threads u := by
  simp [goto, Sys.setThread, Sys.relock, Function.update_of_ne hne]

theorem goto_threads_self {t : Tid} {q : π} : (P.goto s t q).threads t = { pc := q } := by
  simp [goto, Sys.setThread, Sys.relock]

/-- Announcers other than the thread that moves stay. -/
theorem Announced.of_ne {c : κ} {v : Tid} (hrun : (s.threads v).mode = .running)
    (hahead : P.Ahead c (s.threads v).pc) (hsame : s'.threads v = s.threads v) : P.Announced s' c :=
  ⟨v, hsame ▸ hrun, hsame ▸ hahead⟩

namespace Announces

theorem covered_step (h : P.Announces) (hinv : P.Covered s) (htimely : P.Timely s i)
    (hstep : P.step s i s') : P.Covered s' := by
  obtain ⟨t, move⟩ := i
  -- a thread that moves without notifying, from a point that announces nothing
  have hquiet : ∀ {s₁ : Sys σ π μ}, s₁.shared = s.shared →
      (∀ u ≠ t, s₁.threads u = s.threads u) →
      (∀ c, (s.threads t).mode = .running → ¬ P.Ahead c (s.threads t).pc) →
      (∀ c, (s₁.threads t).mode = .window ∨ (s₁.threads t).mode = .blocked → P.ReadyWait s₁ c t →
        P.Announced s c) → P.Covered s₁ := by
    intro s₁ hshared hothers hnone hself u c hmode hready
    have hold : P.Announced s c := by
      by_cases hu : u = t
      · subst hu
        exact hself c hmode hready
      · rw [hothers u hu] at hmode
        refine hinv u c hmode ?_
        obtain ⟨ready, q, timeout, hinstr, htrue⟩ := hready
        exact ⟨ready, q, timeout, hothers u hu ▸ hinstr, hshared ▸ htrue⟩
    obtain ⟨v, hrun, hahead⟩ := hold
    have hne : v ≠ t := by
      rintro rfl
      exact hnone c hrun hahead
    exact .of_ne hrun hahead (hothers v hne)
  -- an action: the mover announces what it has made true, and goes on announcing what it announced
  have hact : ∀ {takes f choice e} {s₁ : Sys σ π μ}, P.instr (s.threads t).pc = .act takes f →
      f t choice s.shared = some e → s₁.shared = e.shared → s₁.threads t = { pc := e.next } →
      (∀ u ≠ t, s₁.threads u = s.threads u ∨
        (s₁.threads u).mode = .running ∧ P.fresh (s.threads u).pc = true) → P.Covered s₁ := by
    intro takes f choice e s₁ hinstr hf hshared hmover hothers u c hmode hready
    have hu : u ≠ t := by
      rintro rfl
      simp [hmover] at hmode
    have hsame : s₁.threads u = s.threads u := by
      rcases hothers u hu with hsame | ⟨hrun, -⟩
      · exact hsame
      · simp [hrun] at hmode
    obtain ⟨ready, q, timeout, hwait, htrue⟩ := hready
    rw [hsame] at hmode hwait
    rw [hshared] at htrue
    cases hbefore : ready s.shared with
    | false =>
      exact ⟨t, by rw [hmover], by rw [hmover]; exact h.act hinstr hf hwait hbefore htrue⟩
    | true =>
      obtain ⟨v, hrun, hahead⟩ := hinv u c hmode ⟨ready, q, timeout, hwait, hbefore⟩
      by_cases hv : v = t
      · subst hv
        exact ⟨v, by rw [hmover], by rw [hmover]; exact hahead.after_act hinstr hf⟩
      · rcases hothers v hv with hsame | ⟨-, hfresh⟩
        · exact .of_ne hrun hahead hsame
        · exact absurd hahead (h.fresh hfresh)
  cases P.step_cases hstep with
  | @act takes f choice e _ hinstr hf _ _ _ =>
    exact hact hinstr hf rfl goto_threads_self fun u hu => .inl (goto_threads_of_ne hu)
  | @spawn takes f choice e child entry _ hinstr hf _ _ _ hne hfresh _ =>
    refine hact hinstr hf rfl ?_ fun u hu => ?_
    · simp only [Sys.setThread, Function.update_of_ne (Ne.symm hne)]
      exact goto_threads_self
    · by_cases hchild : u = child
      · subst hchild
        exact .inr ⟨by simp [Sys.setThread], hfresh⟩
      · simp only [Sys.setThread, Function.update_of_ne hchild]
        exact .inl (goto_threads_of_ne hu)
  | @notify c' q hrun hinstr _ =>
    intro u c hmode hready
    have hu : u ≠ t := by
      rintro rfl
      simp [goto_threads_self] at hmode
    obtain ⟨ready, q', timeout, hwait, htrue⟩ := hready
    rw [goto_threads_of_ne hu] at hmode hwait
    rw [wakeAll_pc] at hwait
    have hready : P.ReadyWait s c u := ⟨ready, q', timeout, hwait, htrue⟩
    have hkeep : ∀ v ≠ t, (s.threads v).mode = .running →
        (P.goto (P.wakeAll s c') t q).threads v = s.threads v := fun v hv hrun => by
      rw [goto_threads_of_ne hv]
      simp [wakeAll, hrun]
    by_cases hc : c = c'
    · -- the waiters on `c` that were blocked are woken; one in the window is not, and then the
      -- notify is timely
      subst hc
      have hwindow : (s.threads u).mode = .window := by
        simp only [wakeAll] at hmode
        split_ifs at hmode with hwoken
        · simp at hmode
        · rcases hmode with hwindow | hblocked
          · exact hwindow
          · exact absurd ⟨hblocked, by simp [waitsOn, hwait]⟩ hwoken
      rcases htimely c q hrun hinstr u hwindow hready with hahead | ⟨v, hv, hvrun, hahead⟩
      · exact ⟨t, by rw [goto_threads_self], by rw [goto_threads_self]; exact hahead⟩
      · exact .of_ne hvrun hahead (hkeep v hv hvrun)
    · have hmode' : (s.threads u).mode = .window ∨ (s.threads u).mode = .blocked := by
        simp only [wakeAll] at hmode
        split_ifs at hmode
        · simp at hmode
        · exact hmode
      obtain ⟨v, hvrun, hahead⟩ := hinv u c hmode' hready
      by_cases hv : v = t
      · subst hv
        exact ⟨v, by rw [goto_threads_self], by rw [goto_threads_self]; exact hahead.after_notify hinstr hc⟩
      · exact .of_ne hvrun hahead (hkeep v hv hvrun)
  | @pass c' ready q timeout _ hinstr _ _ =>
    refine hquiet rfl (fun u hu => goto_threads_of_ne hu) (fun c _ h => h.not_wait hinstr) ?_
    intro c hmode
    simp [goto_threads_self] at hmode
  | @check c' ready q timeout _ hinstr hfalse =>
    refine hquiet rfl (fun u hu => ?_) (fun c _ h => h.not_wait hinstr) ?_
    · simp [Sys.setMode, Sys.setThread, Function.update_of_ne hu]
    · rintro c - ⟨ready', q', timeout', hwait, htrue⟩
      rw [setMode_pc, hinstr] at hwait
      obtain ⟨-, rfl, -⟩ := Instr.wait.inj hwait
      exact absurd htrue (by simp [Sys.setMode, Sys.setThread, hfalse])
  | @join child f q _ hinstr _ _ =>
    intro u c hmode hready
    have hu : u ≠ t := by
      rintro rfl
      simp [goto_threads_self] at hmode
    obtain ⟨ready, q', timeout, hwait, htrue⟩ := hready
    have hsame : (P.goto s t q).threads u = s.threads u := goto_threads_of_ne hu
    rw [hsame] at hmode hwait
    obtain ⟨v, hrun, hahead⟩ :=
      hinv u c hmode ⟨ready, q', timeout, hwait, h.join hinstr hwait htrue⟩
    have hv : v ≠ t := by
      rintro rfl
      exact hahead.not_join hinstr
    exact .of_ne hrun hahead (goto_threads_of_ne hv)
  | block hmode =>
    refine hquiet rfl (fun u hu => ?_) (fun c hrun => by simp [hmode] at hrun) ?_
    · simp [Sys.setMode, Sys.setThread, Sys.relock, Function.update_of_ne hu]
    · rintro c - ⟨ready, q, timeout, hwait, htrue⟩
      rw [setMode_pc] at hwait
      exact hinv t c (.inl hmode) ⟨ready, q, timeout, hwait, htrue⟩
  | wake hmode =>
    refine hquiet rfl (fun u hu => ?_) (fun c hrun => by simp [hmode] at hrun) ?_
    · simp [Sys.setMode, Sys.setThread, Function.update_of_ne hu]
    · intro c hwoken
      simp [Sys.setMode, Sys.setThread] at hwoken
  | @expire c' ready p q hmode hinstr _ =>
    refine hquiet rfl (fun u hu => goto_threads_of_ne hu) (fun c hrun => by simp [hmode] at hrun) ?_
    intro c hrunning
    simp [goto_threads_self] at hrunning
  | resume hmode _ =>
    refine hquiet rfl (fun u hu => goto_threads_of_ne hu) (fun c hrun => by simp [hmode] at hrun) ?_
    intro c hrunning
    simp [goto_threads_self] at hrunning

/-- **In a run without an early notify nobody is stranded.** -/
theorem not_stranded (h : P.Announces) {s₀ : Sys σ π μ} {is : List (Input χ)}
    (hrun : ∀ t, (s₀.threads t).mode = .running)
    (hruns : Runs (restrict P.step P.Timely) s₀ is s) (u : Tid) : ¬ P.Stranded s u := by
  have hinit : P.Covered s₀ := fun u c hmode => by simp [hrun u] at hmode
  have hinv : P.Covered s :=
    hruns.invariant (fun s i s' hinv hstep => h.covered_step hinv hstep.1 hstep.2) hinit
  rintro ⟨hblocked, c, hready, hnone⟩
  exact hnone (hinv u c (.inr hblocked) hready)

end Announces

/-- **The condition is exact**: after a notify that is not timely, some thread is stranded as soon as
it blocks. -/
theorem strands_of_not_timely {t : Tid} {choice : χ} (hstep : P.step s ⟨t, .go choice⟩ s')
    (hlate : ¬ P.Timely s (⟨t, .go choice⟩ : Input χ)) :
    ∃ u s'', P.step s' (⟨u, .block⟩ : Input χ) s'' ∧ P.Stranded s'' u := by
  simp only [Timely, not_forall, not_or, not_exists, not_and] at hlate
  obtain ⟨c, q, hrun, hinstr, u, hwindow, ⟨ready, q', timeout, hwait, htrue⟩, hq, hothers⟩ := hlate
  have hu : u ≠ t := by
    rintro rfl
    simp [hwindow] at hrun
  have hs' : s' = P.goto (P.wakeAll s c) t q := by
    simp only [step, stepOf, next, hrun, hinstr] at hstep
    split_ifs at hstep
    exact (Option.some.inj hstep).symm
  have hthread : s'.threads u = s.threads u := by
    rw [hs', goto_threads_of_ne hu]
    simp [wakeAll, hwindow]
  refine ⟨u, (s'.relock u []).setMode u .blocked, ?_, ?_, c, ?_, ?_⟩
  · simp [step, stepOf, next, hthread, hwindow]
  · simp [Sys.setMode, Sys.setThread]
  · refine ⟨ready, q', timeout, ?_, ?_⟩
    · rw [setMode_pc]
      simpa [Sys.relock, hthread] using hwait
    · simpa [Sys.setMode, Sys.setThread, Sys.relock, hs', goto, wakeAll] using htrue
  · rintro ⟨v, hvrun, hahead⟩
    have hv : v ≠ u := by
      rintro rfl
      simp [Sys.setMode, Sys.setThread] at hvrun
    simp only [Sys.setMode, Sys.setThread, Sys.relock, Function.update_of_ne hv] at hvrun hahead
    by_cases hvt : v = t
    · subst hvt
      rw [hs', goto_threads_self] at hahead
      exact hq hahead
    · rw [hs', goto_threads_of_ne hvt] at hvrun hahead
      rw [wakeAll_pc] at hahead
      refine hothers v hvt ?_ hahead
      simp only [wakeAll] at hvrun
      split_ifs at hvrun
      exact hvrun

end Program

end NetFT.Library.Threads
