/-
# NetFT.Client.Revision — the configuration revision identifies the calibration.

A session's configuration is compared with the one of the session before it only.  Its revision is
kept when the calibration is the same and incremented when it is not, so along all sessions of a client
the revisions never decrease, and an equal revision means that the calibration never changed in between.

* `shown` is what the health snapshot has to say after sessions with given configurations; no function of
  the client computes it.
* `Revised` is the invariant of the ledger: the data agrees with `shown`.
* **`calibration_identified`**: in every reachable state the snapshot has the configuration that the
  latest session was given, revised by the count of changes, and two samples with equal revisions were
  scaled with equal calibrations.
-/
import NetFT.Client.Ledger

namespace NetFT.Client

set_option autoImplicit false

open Library (Runs)
open Library.Threads (Tid Effect)

/-! ## The revisions of a client -/

/-- How many sessions were given another calibration than the session before them; newest first. -/
def calibrationChanges : List SensorConfiguration → Nat
  | new :: previous :: rest =>
    calibrationChanges (previous :: rest) + if new.calibration = previous.calibration then 0 else 1
  | _ => 0

/-- What the health snapshot shows after sessions with these configurations, newest first. -/
def shown (given : List SensorConfiguration) : Option SensorConfiguration :=
  given.head?.map ({ · with revision := 1 + calibrationChanges given })

/-- The revisions do not decrease, and an equal one means an equal calibration. -/
def RevisionOrdered (later earlier : SensorConfiguration) : Prop :=
  earlier.revision ≤ later.revision ∧
    (later.revision = earlier.revision → later.calibration = earlier.calibration)

/-- From one session to the next the revision grows by one if the calibration differs, and stays if it
does not. -/
theorem shown_cons (configuration : SensorConfiguration) {given : List SensorConfiguration}
    {previous : SensorConfiguration} (h : shown given = some previous) :
    shown (configuration :: given) = some
      { configuration with
        revision :=
          if configuration.calibration = previous.calibration then previous.revision
          else previous.revision + 1 } := by
  cases given with
  | nil => cases h
  | cons last rest =>
    cases h
    simp only [shown, calibrationChanges, List.head?_cons, Option.map_some]
    split_ifs <;> rfl

/-- Of the sessions of one client, the later ones have the higher revisions. -/
theorem shown_ordered {earlier later : List SensorConfiguration} (h : earlier <:+ later)
    {c c' : SensorConfiguration} (hc : shown earlier = some c) (hc' : shown later = some c') :
    RevisionOrdered c' c := by
  induction later generalizing c' with
  | nil => cases hc'
  | cons configuration given ih =>
    rcases List.suffix_cons_iff.mp h with rfl | h
    · obtain rfl : c = c' := Option.some.inj (hc.symm.trans hc')
      exact ⟨le_rfl, fun _ => rfl⟩
    · -- the revision grew from the one of the session before
      obtain ⟨previous, hprevious⟩ : ∃ previous, shown given = some previous := by
        cases given with
        | nil => cases List.suffix_nil.mp h; cases hc
        | cons last rest => exact ⟨_, rfl⟩
      obtain ⟨hle, hsame⟩ := ih h hprevious
      rw [shown_cons configuration hprevious] at hc'
      cases hc'
      simp only [RevisionOrdered]
      split_ifs with hkept
      · exact ⟨hle, fun heq => hkept.trans (hsame heq)⟩
      · exact ⟨by omega, fun heq => by omega⟩

/-- Whichever of two sessions was the later one. -/
theorem shown_identifies {given left right : List SensorConfiguration} (hleft : left <:+ given)
    (hright : right <:+ given) {c c' : SensorConfiguration} (hc : shown left = some c)
    (hc' : shown right = some c') (heq : c.revision = c'.revision) : c.calibration = c'.calibration := by
  rcases List.suffix_or_suffix_of_suffix hleft hright with h | h
  · exact ((shown_ordered h hc hc').2 heq.symm).symm
  · exact (shown_ordered h hc' hc).2 heq

/-- The data has what the sessions were given. -/
structure Revised (L : Ledger) : Prop where
  current : L.data.counts.configuration = shown L.history.given
  changes : L.data.counts.calibrationChange = calibrationChanges L.history.given
  used : ∀ r ∈ L.history.records, ∃ given, given <:+ L.history.given ∧ shown given = some r.configuration

namespace Revised

variable {config : Config} {L L' : Ledger}

/-- The newest record keeps its configuration. -/
theorem update (h : Revised L) (f : Handled → Handled)
    (hf : ∀ r, (f r).configuration = r.configuration) :
    ∀ r ∈ (L.history.update f).records,
      ∃ given, given <:+ L.history.given ∧ shown given = some r.configuration := by
  have hused := h.used
  simp only [History.update]
  cases hrecords : L.history.records with
  | nil => exact fun r hr => by cases hr
  | cons r rest =>
    rw [hrecords] at hused
    rintro r' (_ | ⟨_, hr'⟩)
    · rw [hf]
      exact hused r List.mem_cons_self
    · exact hused r' (List.mem_cons_of_mem _ hr')

/-- A session begins with another calibration, or with the same one. -/
theorem configure (h : Revised L) (configuration : SensorConfiguration) :
    Revised
      { L with
        data := { L.data with counts := L.data.counts.configure configuration }
        history := { L.history with given := configuration :: L.history.given } } := by
  obtain ⟨hcurrent, hchanges, hused⟩ := h
  refine ⟨?_, ?_, fun r hr => ?_⟩
  · show some (L.data.counts.stored configuration) = shown (configuration :: L.history.given)
    cases hgiven : shown L.history.given with
    | none =>
      have hnil : L.history.given = [] := by simpa [shown] using hgiven
      simp [Counts.stored, hcurrent, hnil, shown, calibrationChanges]
    | some previous =>
      rw [shown_cons configuration hgiven]
      simp only [Counts.stored, hcurrent, hgiven, eq_comm]
  · cases hgiven : L.history.given with
    | nil => simp [Counts.configure, hcurrent, hchanges, hgiven, shown, calibrationChanges]
    | cons previous rest =>
      simp [Counts.configure, hcurrent, hchanges, hgiven, shown, calibrationChanges, eq_comm]
  · obtain ⟨given, hsuffix, hshown⟩ := hused r hr
    exact ⟨given, hsuffix.trans (List.suffix_cons _ _), hshown⟩

theorem move (h : Revised L) (hsound : L.Sound) (hmove : L.Move config L') : Revised L' := by
  cases hmove with
  | stay => exact h
  | «begin» | create | skip => exact ⟨h.current, h.changes, h.used⟩
  | restore hsaved =>
    have hdata := (hsound.saved _ hsaved).1
    exact ⟨by rw [← h.current, hdata]; rfl, by rw [← h.changes, hdata]; rfl, h.used⟩
  | configure configuration => exact h.configure configuration
  | handle r _ _ _ _ _ hconfiguration =>
    refine ⟨h.current, h.changes, ?_⟩
    rintro r' (_ | ⟨_, hr'⟩)
    · exact ⟨_, List.suffix_rfl, h.current.symm.trans hconfiguration⟩
    · exact h.used r' hr'
  | call | «return» | throw | fail | deliver =>
    exact ⟨h.current, h.changes, h.update _ fun _ => rfl⟩

theorem init : Revised {} := ⟨rfl, rfl, by simp⟩

end Revised

/-! ## Where a configuration comes from -/

/-- `configuration_for_session` made the configuration: it is the override, or a discovery among the
inputs found it. -/
def Sourced (config : Config) (is : List Input) (configuration : SensorConfiguration) : Prop :=
  match config.calibrationOverride with
  | some calibration => configuration = { productName := "", calibration, source := .Override, revision := 1 }
  | none => ∃ t, ⟨t, .go (.configuration configuration)⟩ ∈ is

theorem Sourced.mono {config : Config} {is js : List Input} {configuration : SensorConfiguration}
    (h : Sourced config is configuration) (hsub : is ⊆ js) : Sourced config js configuration := by
  unfold Sourced at h ⊢
  split at h
  · exact h
  · obtain ⟨t, ht⟩ := h
    exact ⟨t, hsub ht⟩

theorem RunPc.afterRecord_ne_apply (l : Loop) (outcome : Option SessionResult) (b : Seconds)
    (configuration : SensorConfiguration) : afterRecord l outcome ≠ .apply b configuration := by
  cases outcome <;> simp [afterRecord]

/-- Only `configuration_for_session` leads to `apply_configuration`. -/
theorem action_apply {p : Pc} {t : Tid} {choice : Choice} {s : Shared} {e : Effect Shared Pc} {b : Seconds}
    {configuration : SensorConfiguration} (h : p.action t choice s = some e)
    (hnext : e.next = .run (.apply b configuration)) :
    Sourced s.impl.config [⟨t, .go choice⟩] configuration := by
  by_cases hrun : ∃ pc, p = .run pc
  · obtain ⟨pc, rfl⟩ := hrun
    rcases runStep_cases h with ⟨k, call, rfl, hcall⟩ | ⟨impl, sessions, next, hstep, rfl⟩
    · have hcalls := (beginCall_ctx hcall).2
      rw [hnext] at hcalls
      cases hcalls
    · cases hnext
      cases pc with
      | discover b' =>
        simp only [RunPc.step, RunPc.stepOpen, RunPc.stepLoop, RunPc.stepClose,
          configurationForSession] at hstep
        unfold Sourced
        cases hoverride : s.impl.config.calibrationOverride with
        | some calibration =>
          cases choice <;> simp [hoverride] at hstep <;> exact hstep.2.2.2.symm
        | none =>
          cases choice with
          | configuration found =>
            simp [hoverride] at hstep
            exact ⟨t, by simp [hstep.2.2.2]⟩
          | _ => simp [hoverride] at hstep
      | _ =>
        simp only [RunPc.step, RunPc.stepOpen, RunPc.stepLoop, RunPc.stepClose] at hstep
        grind [RunPc.endSession, RunPc.afterRecord_ne_apply]
  · have hcalls := (action_ctx h fun pc heq => hrun ⟨pc, heq⟩).2
    rw [hnext] at hcalls
    cases hcalls

theorem passes_not_apply {q : Pc} {s : Shared} {b : Seconds} {configuration : SensorConfiguration}
    {p : Pc} (h : program.Passes p q s) : q ≠ .run (.apply b configuration) := by
  cases goesOn_of_passes h with
  | deliveredLifecycle k =>
    exact fun heq => RunPc.afterRecord_ne_apply _ _ _ _ (Pc.run.inj heq)
  | _ => simp

/-- A step adds at most one configuration, the one that a worker is about to apply. -/
theorem given_step {x x' : System × History} {i : Input} (h : RecordStep x i x') :
    x'.2.given = x.2.given ∨ ∃ b configuration,
      (x.1.threads i.tid).pc = .run (.apply b configuration) ∧
        x'.2.given = configuration :: x.2.given := by
  rw [h.2]
  unfold recordHistory
  split
  · unfold Pc.record
    split
    · rename_i hpc
      exact .inr ⟨_, _, hpc, rfl⟩
    · split <;> exact .inl rfl
    · split_ifs <;> exact .inl rfl
    · split <;> exact .inl rfl
    all_goals exact .inl rfl
  · exact .inl rfl

/-- **What a session is given**, `configuration_for_session` made. -/
theorem given_sourced {config : Config} {is : List Input} {x : System × History}
    (h : Runs RecordStep (System.init config, {}) is x) :
    ∀ configuration ∈ x.2.given, Sourced config is configuration := by
  suffices hall : (∀ t b configuration, (x.1.threads t).pc = .run (.apply b configuration) →
      Sourced config is configuration) ∧
      ∀ configuration ∈ x.2.given, Sourced config is configuration from hall.2
  refine Runs.snoc_induction (s := (System.init config, ({} : History)))
    (motive := fun is x => (∀ t b configuration, (x.1.threads t).pc = .run (.apply b configuration) →
      Sourced config is configuration) ∧
      ∀ configuration ∈ x.2.given, Sourced config is configuration) ⟨?_, by simp⟩ ?_ h
  · intro t b configuration hpc
    simp only [System.init] at hpc
    split_ifs at hpc
  · rintro js i x x' hruns ⟨hwaiting, hgiven⟩ hstep
    have hsub : js ⊆ js ++ [i] := List.subset_append_left _ _
    have hreach : x.1.Reachable config := Recorded.reachable ⟨js, hruns⟩
    refine ⟨fun u b configuration hpc => ?_, fun configuration hmem => ?_⟩
    · by_cases hact : ∃ takes f, (x.1.threads i.tid).pc.instr = .act takes f
      · obtain ⟨takes, f, hinstr⟩ := hact
        obtain ⟨choice, e, hmove, hf, -, hnext, hothers⟩ := hreach.consistent.step_act hstep.1 hinstr
        obtain ⟨-, rfl⟩ := Pc.instr_act hinstr
        by_cases hu : u = i.tid
        · rw [hu, hnext] at hpc
          have hsourced := action_apply hf hpc
          rw [hreach.config] at hsourced
          refine hsourced.mono ?_
          have hi : i = ⟨i.tid, .go choice⟩ := by rw [← hmove]
          rw [hi]
          exact List.subset_append_right _ _
        · rcases hothers u hu with hsame | ⟨-, hspawned⟩
          · exact (hwaiting u b configuration (hsame ▸ hpc)).mono hsub
          · rw [spawned_run hf hspawned] at hpc
            cases hpc
      · have hkept := point_of_not_act
          (P := fun p => ∀ b configuration, p = .run (.apply b configuration) →
            Sourced config js configuration) hstep.1 hact
          (fun p q hpass _ b configuration heq => absurd heq (passes_not_apply hpass))
          (by rintro _ _ _ _ _ _ ⟨⟩) (by rintro _ _ _ _ _ _ ⟨⟩) (hwaiting u)
        exact (hkept b configuration hpc).mono hsub
    · rcases given_step hstep with hsame | ⟨b, added, hpc, hadded⟩
      · exact (hgiven configuration (hsame ▸ hmem)).mono hsub
      · rw [hadded] at hmem
        rcases List.mem_cons.mp hmem with rfl | hmem
        · exact (hwaiting i.tid b configuration hpc).mono hsub
        · exact (hgiven configuration hmem).mono hsub

/-! ## The revision identifies the calibration -/

/-- What the revisions of a client say, in a state with its history. -/
structure CalibrationIdentified (x : System × History) : Prop where
  /-- The health snapshot has the configuration that the latest session was given, with a revision of
  one more than the changes of the calibration. -/
  current : x.1.shared.impl.health.sensorConfiguration = shown x.2.given
  changes : x.1.shared.impl.health.calibrationChangeCount = calibrationChanges x.2.given
  revision : ∀ configuration, x.1.shared.impl.health.sensorConfiguration = some configuration →
    configuration.revision = 1 + x.1.shared.impl.health.calibrationChangeCount
  /-- The callback is only given samples that were scaled with a session's configuration. -/
  passed : ∀ t k, (x.1.threads t).pc = .run (.inCallback k) →
    ∃ r ∈ x.2.records, r.worker = t ∧ r.passed = true ∧ r.sample = k.sample
  used : ∀ r ∈ x.2.records, ∃ given, given <:+ x.2.given ∧ shown given = some r.configuration
  identified : ∀ r ∈ x.2.records, ∀ r' ∈ x.2.records, r.passed = true → r'.passed = true →
    r.sample.configurationRevision = r'.sample.configurationRevision →
    r.configuration.calibration = r'.configuration.calibration

theorem Recorded.identified {config : Config} {x : System × History} (h : Recorded config x) :
    CalibrationIdentified x := by
  obtain ⟨L, hof, hsound, hrevised⟩ := h.invariant Revised.init fun L L' hsound h => h.move hsound
  have hcurrent : x.1.shared.impl.health.sensorConfiguration = shown x.2.given := by
    rw [hof.history, ← hrevised.current, ← hof.data]
    rfl
  have hchanges : x.1.shared.impl.health.calibrationChangeCount = calibrationChanges x.2.given := by
    rw [hof.history, ← hrevised.changes, ← hof.data]
    rfl
  have hused := hrevised.used
  rw [← hof.history] at hused
  refine ⟨hcurrent, hchanges, fun configuration hset => ?_, fun t k hpc => ?_, hused,
    fun r hr r' hr' _ _ heq => ?_⟩
  · rw [hcurrent] at hset
    rw [hchanges]
    obtain ⟨last, -, rfl⟩ := Option.map_eq_some_iff.mp hset
    rfl
  · obtain ⟨r, rest, hrecords, hhand, -⟩ := hsound.pending t .called k.sample
      ((hof.pending t .called k.sample).mpr (by rw [hpc]; rfl))
    rw [hof.history, hrecords]
    exact ⟨r, List.mem_cons_self, hhand.worker, hhand.stage.1, hhand.sample⟩
  · obtain ⟨given, hgiven, hshown⟩ := hused r hr
    obtain ⟨given', hgiven', hshown'⟩ := hused r' hr'
    exact shown_identifies hgiven hgiven' hshown hshown' heq

/-- The revision after a step, from the one before it. -/
theorem Recorded.revised {config : Config} {x x' : System × History} {i : Input} (h : Recorded config x)
    (hstep : RecordStep x i x') {previous : SensorConfiguration}
    (hbefore : x.1.shared.impl.health.sensorConfiguration = some previous) :
    x'.2.given = x.2.given ∧ x'.1.shared.impl.health.sensorConfiguration = some previous ∨
      ∃ b configuration, (x.1.threads i.tid).pc = .run (.apply b configuration) ∧
        x'.2.given = configuration :: x.2.given ∧
        x'.1.shared.impl.health.sensorConfiguration = some
          { configuration with
            revision :=
              if configuration.calibration = previous.calibration then previous.revision
              else previous.revision + 1 } := by
  have hafter := (Recorded.identified (x := x') (h.snoc hstep)).current
  rw [h.identified.current] at hbefore
  rcases given_step hstep with hsame | ⟨b, configuration, hpc, hadded⟩
  · exact .inl ⟨hsame, by rw [hafter, hsame, hbefore]⟩
  · exact .inr ⟨b, configuration, hpc, hadded, by rw [hafter, hadded, shown_cons configuration hbefore]⟩

/-- **The configuration revision identifies the calibration**, in every reachable state.  What a session
is given is the override, or what its discovery found; a step changes the configuration only by applying
what the session was given, and no run decreases the revision. -/
theorem calibration_identified (config : Config) :
    (∀ x, Recorded config x → CalibrationIdentified x) ∧
      (∀ is x, Runs RecordStep (System.init config, {}) is x →
        ∀ configuration ∈ x.2.given, Sourced config is configuration) ∧
      (∀ x i x' previous, Recorded config x → RecordStep x i x' →
        x.1.shared.impl.health.sensorConfiguration = some previous →
        x'.2.given = x.2.given ∧ x'.1.shared.impl.health.sensorConfiguration = some previous ∨
          ∃ b configuration, (x.1.threads i.tid).pc = .run (.apply b configuration) ∧
            x'.2.given = configuration :: x.2.given ∧
            x'.1.shared.impl.health.sensorConfiguration = some
              { configuration with
                revision :=
                  if configuration.calibration = previous.calibration then previous.revision
                  else previous.revision + 1 }) ∧
      ∀ x x' is configuration, Recorded config x → Runs RecordStep x is x' →
        x.1.shared.impl.health.sensorConfiguration = some configuration →
        ∃ configuration', x'.1.shared.impl.health.sensorConfiguration = some configuration' ∧
          configuration.revision ≤ configuration'.revision := by
  refine ⟨fun x h => h.identified, fun is x hruns => given_sourced hruns,
    fun x i x' previous h hstep hbefore => h.revised hstep hbefore,
    fun x x' is configuration h hruns hbefore => ?_⟩
  have hsuffix : x.2.given <:+ x'.2.given := by
    refine hruns.invariant (I := fun y => x.2.given <:+ y.2.given) (fun y i y' hy hstep => ?_)
      List.suffix_rfl
    rcases given_step hstep with hsame | ⟨_, added, -, hadded⟩
    · rw [hsame]
      exact hy
    · rw [hadded]
      exact hy.trans (List.suffix_cons _ _)
  rw [h.identified.current] at hbefore
  rw [(Recorded.identified (x := x') (h.runs hruns)).current]
  cases hgiven : x'.2.given with
  | nil =>
    rw [hgiven] at hsuffix
    rw [List.suffix_nil.mp hsuffix] at hbefore
    cases hbefore
  | cons last rest =>
    refine ⟨_, rfl, ?_⟩
    exact (shown_ordered (hgiven ▸ hsuffix) hbefore rfl).1

end NetFT.Client
