/-
# NetFT.Plugin.Invalidate — what an ERROR leaves in the state interfaces.

With the legacy API the interfaces are the plugin's own array.  With the modern one every value goes
through `set_state` of a handle, which may fail; `write_axes` stops at the first failure, and
`invalidate_interfaces` skips what it has no handle for and ignores failures.

* `exposure` follows which axes were last written with a sample, or still have the finite value that
  the framework gave them; `exposed_eq_finite` says that these are the finite ones.
* **`clean_iff_covers`**: an ERROR leaves no finite value exactly when its invalidation
  reaches every exposed axis.
-/
import NetFT.Plugin.Read

namespace NetFT.Plugin

set_option autoImplicit false

open Library

/-! ## Exposed axes -/

/-- The call invalidates the interfaces next. -/
def Call.invalidates : Call → Bool
  | .configureInvalidate | .activateInvalidate | .activateFailed | .quiesceInvalidate _ | .readFailed =>
    true
  | _ => false

/-- The call invalidates the interfaces next and then returns ERROR from `read()`, or returns from
`on_deactivate` or `on_error`. -/
def Call.failing : Call → Bool
  | .readFailed | .quiesceInvalidate .deactivate | .quiesceInvalidate .error => true
  | _ => false

/-- `read()` has returned ERROR, or `on_deactivate` or `on_error` has returned. -/
def Call.failed : Call → Bool
  | .returned .readError | .returned (.quiesce .deactivate) | .returned (.quiesce .error) => true
  | _ => false

/-- Only `on_cleanup` and `on_shutdown` go on after the invalidation. -/
def Call.quiescing : Call → Bool
  | .quiesceStopAuxiliary .deactivate | .quiesceStopAuxiliary .error
  | .quiesceResetClient .deactivate | .quiesceResetClient .error => false
  | _ => true

theorem Call.invalidates_of_failing {call : Call} (h : call.failing = true) :
    call.invalidates = true := by
  cases call <;> first | rfl | cases h

namespace State

/-- The axes that `write_axes` sets. -/
def writes (s : State) (accepted : Fin 6 → Bool) (axis : Fin 6) : Bool :=
  match s.api with
  | .Legacy => true
  | .Modern => decide (∀ j ≤ axis, accepted j = true)

/-- The axes that `invalidate_interfaces` sets. -/
def clears (s : State) (accepted : Fin 6 → Bool) (axis : Fin 6) : Bool :=
  match s.api with
  | .Legacy => true
  | .Modern => s.handles axis && accepted axis

/-- The axes exposed after a step: `write_axes` exposes those it sets, `invalidate_interfaces` covers
those it sets. -/
def exposure (s : State) (i : Input) (exposed : Fin 6 → Bool) : Fin 6 → Bool :=
  match i with
  | .framework choice =>
    match s.call with
    | .readWrite _ => fun axis => exposed axis || s.writes choice.accepted axis
    | call => fun axis => exposed axis && !(call.invalidates && s.clears choice.accepted axis)
  | _ => exposed

/-- The axes that are finite. -/
def finiteAxes (s : State) (axis : Fin 6) : Bool := (s.interfaces axis).isFinite

/-! ## What the steps do to the interfaces -/

variable {s s' : State} {choice : Choice}

theorem invalidateInterfaces_eq (s : State) (accepted : Fin 6 → Bool) :
    (s.invalidateInterfaces accepted).interfaces =
      fun axis => if s.clears accepted axis then .nan else s.interfaces axis := by
  unfold invalidateInterfaces clears
  cases s.api <;> simp

theorem writeAxes_eq (s : State) (sample : SiSample) (accepted : Fin 6 → Bool) :
    (s.writeAxes sample accepted).1.interfaces =
      fun axis => if s.writes accepted axis then axes sample axis else s.interfaces axis := by
  unfold writeAxes writes
  cases s.api <;> simp

/-- Only `write_axes` and `invalidate_interfaces` touch the interfaces. -/
theorem framework_interfaces (h : s.next (.framework choice) = some s') :
    s'.interfaces =
      match s.call with
      | .readWrite checked => (s.writeAxes checked.sample choice.accepted).1.interfaces
      | call =>
        if call.invalidates then (s.invalidateInterfaces choice.accepted).interfaces
        else s.interfaces := by
  have hstop : ∀ call s₁, (s.stopClient).map (·.goto call) = some s₁ → s₁.interfaces = s.interfaces := by
    intro call s₁ h
    obtain ⟨s₂, hstop, rfl⟩ := Option.map_eq_some_iff.mp h
    unfold stopClient at hstop
    grind [goto]
  have haux : ∀ call s₁, (s.stopAuxiliary).map (·.goto call) = some s₁ →
      s₁.interfaces = s.interfaces := by
    intro call s₁ h
    obtain ⟨s₂, haux, rfl⟩ := Option.map_eq_some_iff.mp h
    unfold stopAuxiliary at haux
    grind [goto]
  rcases next_framework h with h | h | h | h
  · unfold nextConfigure at h
    split at h <;> rename_i hcall <;> simp only [hcall, Call.invalidates, Bool.false_eq_true, if_false]
    · exact haux _ _ h
    · exact hstop _ _ h
    all_goals grind [goto, invalidateInterfaces]
  · unfold nextActivate at h
    split at h <;> rename_i hcall <;>
      simp only [hcall, Call.invalidates, Bool.false_eq_true, if_false] <;>
      first
      | exact hstop _ _ h
      | grind [goto, invalidateInterfaces, mapClient]
  · unfold nextQuiesce at h
    split at h <;> rename_i hcall <;>
      simp only [hcall, Call.invalidates, Bool.false_eq_true, if_false] <;>
      first
      | exact hstop _ _ h
      | exact haux _ _ h
      | grind [goto, invalidateInterfaces]
  · unfold nextRead at h
    split at h <;> rename_i hcall <;>
      simp only [hcall, Call.invalidates, Bool.false_eq_true, if_false] <;>
      grind [goto, invalidateInterfaces, readError, latchFatalFault]

/-! ## Exposed axes are the finite ones -/

/-- A step with the history of exposed axes. -/
abbrev ExposureStep : State × (Fin 6 → Bool) → Input → State × (Fin 6 → Bool) → Prop :=
  tracked Step exposure

/-- The plugin after `on_init`; the axes that the framework left finite are exposed. -/
def exposureInit (api : Api) (config : Config) (interfaces : Fin 6 → Double) :
    State × (Fin 6 → Bool) :=
  (init api config interfaces, (init api config interfaces).finiteAxes)

theorem exposure_step {i : Input} (hread : s.ReadInv) (h : s.next i = some s') :
    s'.finiteAxes = exposure s i s.finiteAxes := by
  rcases input_cases i with ⟨callback, rfl⟩ | ⟨choice, rfl⟩ | hexternal
  · simp only [next] at h
    split at h <;> cases h <;> rfl
  · have hinterfaces := framework_interfaces h
    funext axis
    by_cases hwrite : ∃ checked, s.call = .readWrite checked
    · obtain ⟨checked, hcall⟩ := hwrite
      simp only [ReadInv, hcall] at hread
      simp only [hcall, writeAxes_eq] at hinterfaces
      simp only [exposure, hcall, finiteAxes, hinterfaces]
      cases hwrites : s.writes choice.accepted axis with
      | false => simp
      | true => simp [axes_isFinite hread.finite axis]
    · have hother : s'.interfaces =
          if s.call.invalidates then (s.invalidateInterfaces choice.accepted).interfaces
          else s.interfaces := by
        rw [hinterfaces]
        split
        · exact absurd ⟨_, ‹_›⟩ hwrite
        · rfl
      have hexposure : exposure s (.framework choice) s.finiteAxes = fun axis =>
          s.finiteAxes axis && !(s.call.invalidates && s.clears choice.accepted axis) := by
        rw [exposure]
        split
        · exact absurd ⟨_, ‹_›⟩ hwrite
        · rfl
      rw [hexposure, finiteAxes, hother]
      cases hinvalidates : s.call.invalidates with
      | false => simp [finiteAxes]
      | true =>
        rw [if_pos rfl, invalidateInterfaces_eq]
        cases hclears : s.clears choice.accepted axis <;> simp [hclears, finiteAxes, Double.isFinite]
  · have hsame := (next_environment h hexternal).interfaces
    have hexposure : exposure s i s.finiteAxes = s.finiteAxes := by
      cases i <;> first | rfl | cases hexternal
    rw [hexposure]
    funext axis
    rw [finiteAxes, finiteAxes, hsame]

/-- **The exposed axes are the finite ones**, in every reachable state. -/
theorem exposed_eq_finite {api : Api} {config : Config} {interfaces : Fin 6 → Double}
    {x : State × (Fin 6 → Bool)} (h : Reachable ExposureStep (exposureInit api config interfaces) x) :
    x.2 = x.1.finiteAxes := by
  refine h.invariant (I := fun x : State × (Fin 6 → Bool) => x.2 = x.1.finiteAxes) rfl ?_
  intro x i x' hreachable hexposed hstep
  rw [hstep.2, hexposed, exposure_step (readInv_reachable hreachable.of_tracked) hstep.1]

/-! ## What an ERROR leaves -/

/-- Every exposed axis is set by the invalidation that an ERROR returns with. -/
def Covers (x : State × (Fin 6 → Bool)) (i : Input) : Prop :=
  match i with
  | .framework choice =>
    x.1.call.failing = true → ∀ axis, x.2 axis = true → x.1.clears choice.accepted axis = true
  | _ => True

instance (x : State × (Fin 6 → Bool)) (i : Input) : Decidable (Covers x i) :=
  match i with
  | .framework choice =>
    inferInstanceAs (Decidable (x.1.call.failing = true → ∀ axis, x.2 axis = true →
      x.1.clears choice.accepted axis = true))
  | .call _ | .sample _ | .receiver | .clientFault _ | .auxiliaryFailure | .diagnostics | .tick _ =>
    isTrue trivial

/-- **An ERROR leaves no finite value.** -/
def Clean (s : State) : Prop := s.call.failed = true → ∀ axis, (s.interfaces axis).isFinite = false

/-- `read()` returns ERROR, and `on_deactivate` and `on_error` return, right after the invalidation. -/
theorem framework_failed (h : s.next (.framework choice) = some s')
    (hquiescing : s.call.quiescing = true) :
    s'.call.failed = s.call.failing ∧ s'.call.quiescing = true := by
  have hstop : ∀ call s₁, (s.stopClient).map (·.goto call) = some s₁ → s₁.call = call := by
    intro call s₁ h
    obtain ⟨s₂, -, rfl⟩ := Option.map_eq_some_iff.mp h
    rfl
  have haux : ∀ call s₁, (s.stopAuxiliary).map (·.goto call) = some s₁ → s₁.call = call := by
    intro call s₁ h
    obtain ⟨s₂, -, rfl⟩ := Option.map_eq_some_iff.mp h
    rfl
  rcases next_framework h with h | h | h | h
  · unfold nextConfigure at h
    split at h <;> rename_i hcall <;>
      first
      | rw [hcall, haux _ _ h]; exact ⟨rfl, rfl⟩
      | rw [hcall, hstop _ _ h]; exact ⟨rfl, rfl⟩
      | grind [goto, Call.failed, Call.failing, Call.quiescing]
  · unfold nextActivate at h
    split at h <;> rename_i hcall <;>
      first
      | rw [hcall, hstop _ _ h]; exact ⟨rfl, rfl⟩
      | grind [goto, Call.failed, Call.failing, Call.quiescing, mapClient]
  · unfold nextQuiesce at h
    split at h
    · rename_i k hcall
      rw [hcall, hstop _ _ h]
      exact ⟨rfl, rfl⟩
    · rename_i k hcall
      cases h
      rw [hcall]
      exact ⟨rfl, rfl⟩
    · rename_i k hcall
      rw [hcall]
      cases k <;> cases h <;> exact ⟨rfl, rfl⟩
    · rename_i k hcall
      rw [hcall] at hquiescing ⊢
      rw [haux _ _ h]
      cases k <;> first | exact ⟨rfl, rfl⟩ | cases hquiescing
    · rename_i k hcall
      rw [hcall] at hquiescing ⊢
      cases h
      cases k <;> first | exact ⟨rfl, rfl⟩ | cases hquiescing
    · cases h
  · unfold nextRead at h
    split at h <;> rename_i hcall <;> grind [goto, Call.failed, Call.failing, Call.quiescing, readError]

theorem quiescing_reachable {api : Api} {config : Config} {interfaces : Fin 6 → Double}
    (h : Reachable Step (init api config interfaces) s) : s.call.quiescing = true := by
  refine h.invariant (I := fun s => s.call.quiescing = true) rfl fun s i s' _ hinv hstep => ?_
  rcases input_cases i with ⟨callback, rfl⟩ | ⟨choice, rfl⟩ | hexternal
  · simp only [Step, stepOf, next] at hstep
    split at hstep <;> cases hstep <;> cases callback <;> rfl
  · exact (framework_failed hstep hinv).2
  · rw [(next_environment hstep hexternal).call]
    exact hinv

/-- The invalidation of an ERROR. -/
theorem failing_interfaces (h : s.next (.framework choice) = some s') (hfailing : s.call.failing = true) :
    s'.interfaces = fun axis => if s.clears choice.accepted axis then .nan else s.interfaces axis := by
  rw [framework_interfaces h, ← invalidateInterfaces_eq]
  split
  · rename_i checked hcall
    rw [hcall] at hfailing
    cases hfailing
  · rw [if_pos (Call.invalidates_of_failing hfailing)]

/-- A step whose invalidation covers every exposed axis keeps ERRORs clean. -/
theorem Clean.step {exposed : Fin 6 → Bool} {i : Input} (hclean : s.Clean) (h : s.next i = some s')
    (hquiescing : s.call.quiescing = true) (hexposed : exposed = s.finiteAxes)
    (hcovers : Covers (s, exposed) i) : s'.Clean := by
  rcases input_cases i with ⟨callback, rfl⟩ | ⟨choice, rfl⟩ | hexternal
  · simp only [next] at h
    split at h <;> cases h <;> intro hfailed <;> cases callback <;> cases hfailed
  · intro hfailed axis
    rw [(framework_failed h hquiescing).1] at hfailed
    have hcover := hcovers hfailed axis
    rw [failing_interfaces h hfailed]
    subst hexposed
    cases hclears : s.clears choice.accepted axis with
    | true => simp [hclears, Double.isFinite]
    | false =>
      have hfinite : ¬ s.finiteAxes axis = true := fun hfinite => by
        rw [hcover hfinite] at hclears
        cases hclears
      simpa [hclears, finiteAxes] using hfinite
  · have henv := next_environment h hexternal
    intro hfailed axis
    rw [henv.interfaces]
    exact hclean (henv.call ▸ hfailed) axis

/-- **ERRORs leave no finite value behind exactly when every invalidation that they return with
reaches all exposed axes**: those that `write_axes` set since their last successful invalidation, or
that the framework left finite. -/
theorem clean_iff_covers {api : Api} {config : Config} {interfaces : Fin 6 → Double} {is : List Input}
    {x : State × (Fin 6 → Bool)} (h : Runs ExposureStep (exposureInit api config interfaces) is x) :
    (∀ js y, js <+: is → Runs ExposureStep (exposureInit api config interfaces) js y → y.1.Clean) ↔
      ∀ js i y, js ++ [i] <+: is → Runs ExposureStep (exposureInit api config interfaces) js y →
        Covers y i := by
  have hunique : ∀ x i x₁ x₂, ExposureStep x i x₁ → ExposureStep x i x₂ → x₁ = x₂ :=
    tracked_unique stepOf_unique
  constructor
  · intro hclean js i y hprefix hjs
    obtain ⟨y', hstep⟩ := h.next_of_prefix hunique hprefix hjs
    have hclean' := hclean (js ++ [i]) y' hprefix (hjs.append (.single hstep))
    have hexposed := exposed_eq_finite ⟨js, hjs⟩
    cases i with
    | framework choice =>
      intro hfailing axis haxis
      have hquiescing := quiescing_reachable (Reachable.of_tracked ⟨js, hjs⟩)
      have hnan := hclean' ((framework_failed hstep.1 hquiescing).1.trans hfailing) axis
      rw [failing_interfaces hstep.1 hfailing] at hnan
      rw [hexposed, finiteAxes] at haxis
      by_contra hclears
      simp [hclears, haxis] at hnan
    | _ => trivial
  · intro hcovers js y hprefix hjs
    have hrestricted := hjs.restricted fun ks i z hks hz => hcovers ks i z (hks.trans hprefix) hz
    have hinv : Reachable ExposureStep (exposureInit api config interfaces) y ∧ y.1.Clean :=
      hrestricted.invariant
        (I := fun y => Reachable ExposureStep (exposureInit api config interfaces) y ∧ y.1.Clean)
        (fun z i z' hz hstep => ⟨hz.1.snoc hstep.2,
          hz.2.step hstep.2.1 (quiescing_reachable hz.1.of_tracked) (exposed_eq_finite hz.1) hstep.1⟩)
        ⟨.init, fun hfailed => by cases hfailed⟩
    exact hinv.2

/-! ## An ERROR that leaves a sample behind, and one that does not -/

/-- An activated plugin reads a sample: `set_state` fails at the fourth axis of the write, and as given
in the invalidation. -/
def tornReadInputs (invalidated : Fin 6 → Bool) : List Input :=
  configureInputs ++ activateInputs ++ [.tick 2000] ++ readInputs zeroSiSample 5 ++
    [.framework { accepted := fun axis => axis != 3 }, .framework {},
      .framework { accepted := invalidated }]

/-- The invalidation reaches all axes but the first. -/
def allButFirst (axis : Fin 6) : Bool := axis != 0

theorem tornRead_runs : ∃ s, Runs Step (init .Modern {} fun _ => .nan) (tornReadInputs allButFirst) s ∧
    s.call = .returned .readError ∧ s.interfaces 0 = .finite 0 ∧ s.interfaces 1 = .nan := by
  have hrun : ((execute next (init .Modern {} fun _ => .nan) (tornReadInputs allButFirst)).map fun s =>
      decide (s.call = .returned .readError ∧ s.interfaces 0 = .finite 0 ∧ s.interfaces 1 = .nan)) =
      some true := by
    decide +kernel
  obtain ⟨s, hruns, hs⟩ := exists_runs_of_execute hrun
  exact ⟨s, hruns, of_decide_eq_true hs⟩

/-- The torn read returns ERROR with the first axis of its sample exported. -/
theorem tornRead_not_clean : ∃ s, Reachable Step (init .Modern {} fun _ => .nan) s ∧ ¬ s.Clean := by
  obtain ⟨s, hruns, hcall, hfinite, -⟩ := tornRead_runs
  refine ⟨s, ⟨_, hruns⟩, fun hclean => ?_⟩
  have hnan := hclean (by rw [hcall]; rfl) 0
  rw [hfinite] at hnan
  cases hnan

/-- The same read, whose invalidation reaches every axis. -/
theorem coveredRead_runs : ∃ x,
    Runs (restrict ExposureStep Covers) (exposureInit .Modern {} fun _ => .nan)
      (tornReadInputs fun _ => true) x ∧
      x.1.call = .returned .readError := by
  have hrun : ((execute (restrictNext (trackedNext next exposure) Covers)
      (exposureInit .Modern {} fun _ => .nan) (tornReadInputs fun _ => true)).map fun x =>
        decide (x.1.call = .returned .readError)) = some true := by
    decide +kernel
  obtain ⟨x, hruns, hx⟩ := exists_runs_of_execute hrun
  refine ⟨x, hruns.mono fun _ _ _ h => ?_, of_decide_eq_true hx⟩
  have hrestrict := restrictNext_restrict h
  exact ⟨hrestrict.1, trackedNext_tracked hrestrict.2⟩

/-- The read that is covered leaves no finite value, and neither does anything before it; the other one
has an invalidation that misses an exposed axis. -/
theorem clean_iff_covers_tornRead :
    (∃ x : State × (Fin 6 → Bool),
      Runs ExposureStep (exposureInit .Modern {} fun _ => .nan) (tornReadInputs fun _ => true) x ∧
        x.1.call = .returned .readError ∧
        ∀ js y, js <+: tornReadInputs (fun _ => true) →
          Runs ExposureStep (exposureInit .Modern {} fun _ => .nan) js y → y.1.Clean) ∧
      ∃ js i y, js ++ [i] <+: tornReadInputs allButFirst ∧
        Runs ExposureStep (exposureInit .Modern {} fun _ => .nan) js y ∧ ¬ Covers y i := by
  constructor
  · obtain ⟨x, hcovered, hcall⟩ := coveredRead_runs
    refine ⟨x, hcovered.of_restrict, hcall, (clean_iff_covers hcovered.of_restrict).mpr ?_⟩
    exact fun js i y hprefix hjs => hcovered.condition_of_prefix (tracked_unique stepOf_unique) hprefix hjs
  · obtain ⟨s, hruns, hcall, hfinite, -⟩ := tornRead_runs
    obtain ⟨exposed, htracked⟩ := hruns.exists_tracked exposure
      (exposureInit .Modern {} fun _ => .nan).2
    by_contra hnone
    push Not at hnone
    have hclean := (clean_iff_covers htracked).mpr
      (fun js i y hprefix hjs => hnone js i y hprefix hjs) _ _ (List.prefix_refl _) htracked
    have hnan := hclean (by rw [hcall]; rfl) 0
    rw [hfinite] at hnan
    cases hnan

end State

end NetFT.Plugin
