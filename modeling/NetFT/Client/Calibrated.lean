/-
# NetFT.Client.Calibrated — a record in hand is scaled by a validated calibration.

`validate` checks the override, and discovery validates what it returns (`Discovered`).  A session
applies one of the two before its loop, and nobody else touches the calibration while it is open.

* `Pc.Calibrated`: what the worker may rely on between the two.
* **`Served.calibrated`**: it may, in every state that a client reaches.
-/
import NetFT.Client.Ledger

namespace NetFT.Client

set_option autoImplicit false

open Library (restrict)
open Library.Threads (Tid Effect Program)

/-! ## What the worker relies on -/

/-- Discovery has validated the calibration that it returns. -/
def Discovered (i : Input) : Prop :=
  ∀ configuration, i.move = .go (.configuration configuration) → configuration.calibration.Valid

/-- The states that a client reaches whose configuration the constructor has validated. -/
structure Served (config : Config) (s : System) : Prop where
  override : ∀ calibration, config.calibrationOverride = some calibration → calibration.Valid
  runs : Library.Reachable (restrict Step fun _ i => Discovered i) (System.init config) s

theorem Served.reachable {config : Config} {s : System} (h : Served config s) : s.Reachable config := by
  obtain ⟨is, hruns⟩ := h.runs
  exact ⟨is, hruns.of_restrict⟩

/-- The session has a validated calibration. -/
def Impl.Configured (c : Impl) : Prop :=
  ∃ configuration, c.health.sensorConfiguration = some configuration ∧ configuration.calibration.Valid

/-- From the discovery on the worker has a valid calibration. -/
def RunPc.Calibrated (c : Impl) : RunPc → Prop
  | .apply _ configuration => configuration.calibration.Valid
  | .stopping2 _ | .connect _ | .command _ | .send _ | .reset _ | .deadline _ | .check _ | .clock _
  | .receive _ | .received _ _ | .malformed _ | .invoke _ | .inCallback _ | .callbackThrew _ _
  | .deliver _ | .deliveredFirst _ | .deliveredLifecycle _ => c.Configured
  | .wellFormed _ record | .observe _ record _ => c.Configured ∧ record.InRange
  | _ => True

/-- So has a callback. -/
def Pc.Calibrated (c : Impl) : Pc → Prop
  | .run pc => pc.Calibrated c
  | p => p.ctx.isCallback = true → c.Configured

section

variable {c c' : Impl} {p : Pc} {t : Tid} {choice : Choice} {s : Shared} {e : Effect Shared Pc}

theorem Impl.Configured.congr (h : c.Configured)
    (hsame : c'.health.sensorConfiguration = c.health.sensorConfiguration) : c'.Configured := by
  obtain ⟨configuration, hsome, hvalid⟩ := h
  exact ⟨configuration, hsame.trans hsome, hvalid⟩

/-- The calibration is part of the data. -/
theorem Impl.Configured.of_data (h : c.Configured) (hdata : c'.data = c.data) : c'.Configured :=
  h.congr (congrArg (·.counts.configuration) hdata)

theorem RunPc.Calibrated.congr {pc : RunPc} (h : pc.Calibrated c) (hdata : c.Configured → c'.Configured) :
    pc.Calibrated c' := by
  cases pc with
  | wellFormed | observe => exact ⟨hdata h.1, h.2⟩
  | apply => exact h
  | stopping2 | connect | command | send | reset | deadline | check | clock | receive | received
  | malformed | invoke | inCallback | callbackThrew | deliver | deliveredFirst | deliveredLifecycle =>
    exact hdata h
  | _ => exact trivial

theorem Pc.Calibrated.congr (h : p.Calibrated c) (hdata : c.Configured → c'.Configured) :
    p.Calibrated c' := by
  cases p with
  | run pc => exact RunPc.Calibrated.congr h hdata
  | _ => exact fun hctx => hdata (h hctx)

/-- A thread in a call relies on it only in the callback. -/
theorem Pc.calibrated_of_call (hcall : p.isCall = true) (h : p.ctx.isCallback = true → c.Configured) :
    p.Calibrated c := by
  cases p with
  | run pc =>
    cases pc with
    | inCallback k => exact h rfl
    | _ => cases hcall
  | _ => exact h

theorem RunPc.afterRecord_calibrated (l : Loop) (outcome : Option SessionResult) (h : c.Configured) :
    (afterRecord l outcome).Calibrated c := by
  cases outcome
  · exact h
  · exact trivial

/-- Where only the calibration is read. -/
theorem Impl.Configured.of_stored (configuration : SensorConfiguration)
    (h : configuration.calibration.Valid) : (c.applyConfiguration configuration).Configured := by
  refine ⟨_, c.applyConfiguration_stored configuration, ?_⟩
  unfold Counts.stored
  split <;> exact h

/-- A record leaves the configuration. -/
theorem Impl.Configured.prepareRecord (h : c.Configured) (record : RawRecord) (receivedAt : TimePoint) :
    (c.prepareRecord record receivedAt).1.Configured := by
  obtain ⟨configuration, hsome, hvalid⟩ := h
  refine ⟨configuration, ?_, hvalid⟩
  rw [c.prepareRecord_fst, (c.observeRecord_sameSession record receivedAt).sensorConfiguration, hsome]

/-! ## Steps -/

/-- **The worker keeps what it relies on.** -/
theorem RunPc.step_calibrated {pc pc' : RunPc} {wire wire' : Wire}
    (h : pc.step choice c wire = some (c', wire', pc')) (hpc : pc.Calibrated c)
    (hdiscovered : ∀ configuration, choice = .configuration configuration →
      configuration.calibration.Valid)
    (hoverride : ∀ calibration, c.config.calibrationOverride = some calibration → calibration.Valid) :
    pc'.Calibrated c' := by
  cases pc with
  | loop b =>
    cases h
    split_ifs <;> trivial
  | connecting b | discoverFailed b what | sendFailed b what | receiveFailed l what | close b outcome
  | enterBackoff b message | backoffDone b | publish code message | finishClose | finishExited
  | finishState | timeout l =>
    cases h
    trivial
  | stopping1 b | raised what | finishFaulted =>
    cases h
    split_ifs <;> trivial
  | settle b outcome =>
    cases h
    split_ifs <;> trivial
  | discover b =>
    have hvalid : ∀ discovery configuration,
        (∀ configuration, discovery = .ok configuration → configuration.calibration.Valid) →
        configurationForSession c.config discovery = .ok configuration →
        configuration.calibration.Valid := by
      intro discovery configuration hdiscovery hsession
      unfold configurationForSession at hsession
      split at hsession
      · rename_i calibration hsome
        cases hsession
        exact hoverride calibration hsome
      · exact hdiscovery configuration hsession
    cases choice with
    | configuration configuration =>
      simp only [step, stepOpen, Option.map_some, Option.some_or, Option.some.injEq] at h
      split at h <;> cases h
      · rename_i hsession
        refine hvalid _ _ (fun found heq => ?_) hsession
        cases heq
        exact hdiscovered _ rfl
      · trivial
    | fail what =>
      simp only [step, stepOpen, Option.map_some, Option.some_or, Option.some.injEq] at h
      split at h <;> cases h
      · rename_i hsession
        exact hvalid _ _ (by rintro found ⟨⟩) hsession
      · trivial
    | _ => cases h
  | apply b configuration =>
    cases h
    exact .of_stored configuration hpc
  | stopping2 b | command b | check l =>
    cases h
    split_ifs
    · trivial
    · exact hpc
  | connect b =>
    cases choice with
    | proceed =>
      cases h
      exact Impl.Configured.congr hpc rfl
    | fail what =>
      cases h
      trivial
    | _ => cases h
  | send b =>
    simp only [step, stepOpen] at h
    split at h <;> cases h
    · exact Impl.Configured.congr hpc rfl
    · trivial
  | reset b =>
    cases h
    exact Impl.Configured.congr hpc rfl
  | deadline b =>
    cases choice with
    | reading now =>
      simp only [step, stepOpen] at h
      split at h <;> cases h
      · exact hpc
      · trivial
    | _ => cases h
  | clock l =>
    cases choice with
    | reading now =>
      cases h
      split_ifs
      · trivial
      · split
        · exact hpc
        · trivial
    | _ => cases h
  | receive l =>
    cases choice with
    | received data =>
      cases h
      exact hpc
    | fail what =>
      cases h
      trivial
    | _ => cases h
  | received l data =>
    cases h
    split_ifs
    · trivial
    · trivial
    · split
      · exact hpc
      · rename_i record hdecode
        exact ⟨hpc, decodeRecord_inRange hdecode⟩
  | malformed l =>
    cases h
    split_ifs
    · trivial
    · exact Impl.Configured.congr hpc rfl
  | wellFormed l record =>
    cases choice with
    | reading now =>
      simp only [step, stepOpen, stepLoop, Option.none_or] at h
      split at h <;> cases h
      · exact ⟨hpc.1.congr rfl, hpc.2⟩
      · trivial
    | _ => cases h
  | observe l record receivedAt =>
    have hnext := hpc.1.prepareRecord record receivedAt
    simp only [step, stepOpen, stepLoop] at h
    cases hprepared : c.prepareRecord record receivedAt with
    | mk c₁ prepared =>
      rw [hprepared] at h hnext
      cases prepared with
      | raised what =>
        cases h
        trivial
      | done outcome =>
        cases h
        exact afterRecord_calibrated l outcome hnext
      | invoke sample outcome =>
        cases h
        exact hnext
  | invoke k =>
    cases h
    split_ifs <;> exact hpc
  | inCallback k =>
    cases choice with
    | returned | threw what =>
      cases h
      exact hpc
    | _ => cases h
  | callbackThrew k what =>
    cases h
    exact afterRecord_calibrated _ _ (Impl.Configured.congr hpc rfl)
  | deliver k =>
    cases h
    exact Impl.Configured.congr hpc rfl
  | backoffLock b =>
    simp only [step, stepOpen, stepLoop, stepClose] at h
    cases choice with
    | reading now =>
      simp only [Option.map_none, Option.none_or] at h
      split at h <;> cases h <;> trivial
    | _ => cases h
  | _ => cases h

/-- Who is not the worker relies on nothing. -/
theorem Pc.calibrated_of_stranger (h : p.isWorker = false) : p.Calibrated c := by
  cases p with
  | run pc =>
    obtain rfl : pc = .ended := by simpa [Pc.isWorker] using h
    trivial
  | start ctx _ _ | stop ctx _ _ | bias ctx _ | waitForFirstSample ctx _ | query ctx _ | destroy ctx _ =>
    exact fun hctx => absurd (h.symm.trans hctx) (by simp)
  | _ => rintro ⟨⟩

/-- The calls that touch the data do so without a worker. -/
theorem Pc.unoccupied_of_entering (h : p.entering = true) (hrun : ∀ pc, p ≠ .run pc) :
    p.knows.unoccupied = true := by
  cases p with
  | start ctx callback pc =>
    cases pc with
    | data | create | rollbackData => rfl
    | _ => cases h
  | run pc => exact absurd rfl (hrun pc)
  | _ => cases h

theorem Pc.isWorker_of_ctx (h : p.ctx.isCallback = true) (hrun : ∀ pc, p ≠ .run pc) :
    p.isWorker = true := by
  cases p with
  | run pc => exact absurd rfl (hrun pc)
  | outside | deferred => cases h
  | _ => exact h

/-- **An action hands valid calibrations on.** -/
theorem action_calibrated (h : p.action t choice s = some e) (hp : p.Calibrated s.impl)
    (hworker : p.knows.unoccupied = true → p.isWorker = false)
    (hdiscovered : ∀ configuration, choice = .configuration configuration →
      configuration.calibration.Valid)
    (hoverride : ∀ calibration, s.impl.config.calibrationOverride = some calibration →
      calibration.Valid) : e.next.Calibrated e.shared.impl := by
  by_cases hrun : ∃ pc, p = .run pc
  · obtain ⟨pc, rfl⟩ := hrun
    rcases runStep_cases h with ⟨k, call, rfl, hcall⟩ | ⟨impl, sessions, next, hstep, rfl⟩
    · obtain ⟨-, hcalls⟩ := beginCall_ctx hcall
      rw [beginCall_impl hcall]
      exact Pc.calibrated_of_call hcalls fun _ => hp
    · exact RunPc.step_calibrated hstep hp hdiscovered hoverride
  · have hnot : ∀ pc, p ≠ .run pc := fun pc heq => hrun ⟨pc, heq⟩
    obtain ⟨hctx, hcalls⟩ := action_ctx h hnot
    refine Pc.calibrated_of_call hcalls fun hcallback => ?_
    rw [hctx] at hcallback
    have hworks := Pc.isWorker_of_ctx hcallback hnot
    have hquiet : p.entering = false := by
      by_contra hentering
      have hnone := hworker (Pc.unoccupied_of_entering (by simpa using hentering) hnot)
      exact absurd (hnone.symm.trans hworks) (by simp)
    have hconfigured : s.impl.Configured := by
      cases p with
      | run pc => exact absurd rfl (hnot pc)
      | _ => exact hp hcallback
    exact hconfigured.of_data (action_quiet h hquiet).data

theorem passes_calibrated {q : Pc} (h : program.Passes p q s) (hp : p.Calibrated c) :
    q.Calibrated c := by
  cases goesOn_of_passes h with
  | deliveredLifecycle k => exact RunPc.afterRecord_calibrated _ _ hp
  | _ => exact hp

end

/-! ## Reachable states -/

/-- **A record in hand is scaled by a validated calibration.** -/
theorem Served.calibrated {config : Config} {s : System} (h : Served config s) (t : Tid) :
    (s.threads t).pc.Calibrated s.shared.impl := by
  have hoverride := h.override
  suffices hall : ∀ t, (s.threads t).pc.Calibrated s.shared.impl from hall t
  refine Library.Reachable.invariant
    (I := fun s : System => ∀ t, (s.threads t).pc.Calibrated s.shared.impl) ?_ ?_ h.runs
  · intro t
    simp only [System.init]
    split_ifs <;> rintro ⟨⟩
  · rintro s i s' hruns hpoint ⟨hdiscovered, hstep⟩ u
    have hreach : s.Reachable config := Served.reachable ⟨hoverride, hruns⟩
    by_cases hact : ∃ takes f, (s.threads i.tid).pc.instr = .act takes f
    · obtain ⟨takes, f, hinstr⟩ := hact
      obtain ⟨choice, e, hmove, hf, hshared, hpc, hothers⟩ := hreach.consistent.step_act hstep hinstr
      obtain ⟨-, rfl⟩ := Pc.instr_act hinstr
      rw [hshared]
      by_cases hu : u = i.tid
      · rw [hu, hpc]
        refine action_calibrated hf (hpoint i.tid) (fun hunoccupied =>
          Bool.not_eq_true _ ▸ hreach.noWorker_of_unoccupied hunoccupied i.tid) ?_ ?_
        · rintro configuration rfl
          exact hdiscovered configuration hmove
        · rw [hreach.config]
          exact hoverride
      rcases hothers u hu with hsame | ⟨-, hspawned⟩
      · rw [hsame]
        by_cases hentering : (s.threads i.tid).pc.entering = true
        · refine Pc.calibrated_of_stranger ?_
          by_contra hworks
          have hworks' : (s.threads u).pc.isWorker = true := by simpa using hworks
          exact hu (hreach.owner_unique (by rw [Pc.owning, hworks', Bool.true_or])
            (Pc.owning_of_entering hentering))
        · have hquiet := action_quiet hf (by simpa using hentering)
          exact (hpoint u).congr fun hconfigured => hconfigured.of_data hquiet.data
      · rw [spawned_run hf hspawned]
        trivial
    · rw [(shared_of_not_act hstep hact).1]
      exact point_of_not_act (P := Pc.Calibrated s.shared.impl) hstep hact
        (fun p q hpass => passes_calibrated hpass) (fun _ _ _ h => h) (fun _ _ _ h => h) (hpoint u)

end NetFT.Client
