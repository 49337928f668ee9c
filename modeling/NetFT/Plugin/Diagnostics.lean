/-
# NetFT.Plugin.Diagnostics — which fault the diagnostics show.

`publish_diagnostics` reports the client's fault if there is one and the plugin's otherwise, so what
it shows can change when the second of the two latches is set, or the first one is cleared.

* `Causes` is the history since `on_configure`: the codes handed to the evaluator, and which latch was
  set first, with what.
* `Moves` is what a step can do to the two latches, the pending report and the reports
  (`moves_of_step`); `CauseInv` is the invariant that follows from it.
* `Restores` is what a `start()` that fails owes: between its clearing of the client's latch and the
  rollback, `fatal_fault_` alone shows the cause.
* **`firstCauseShown`**: while no step sets the latches apart (`KeepsCause`), the diagnostics show the
  first fatal cause and nothing else.  `overflow_changes_report` is a run where they do not.
-/
import NetFT.Plugin.Activation

namespace NetFT.Plugin

set_option autoImplicit false

open Library

/-! ## The history -/

/-- Which of the two latches was set. -/
inductive Origin where
  | client | plugin
  deriving DecidableEq, Repr

/-- Since `on_configure`: the fault codes of the snapshots handed to the evaluator, newest first, and
the fault that was latched first. -/
structure Causes where
  reports : List FaultCode := []
  first : Option (Origin × FaultCode) := none
  deriving DecidableEq, Repr

namespace State

/-- The code in the client's latch. -/
def clientCode (s : State) : FaultCode :=
  match s.client with
  | none => .None
  | some client => client.fault

/-- The codes that were reported between two states. -/
def reported (s s' : State) : List FaultCode := s'.reports.take (s'.reports.length - s.reports.length)

end State

open State

def Causes.observe (h : Causes) (s s' : State) : Causes where
  reports := reported s s' ++ h.reports
  first :=
    if h.first.isSome then h.first
    else if s.fatalFault ≠ s'.fatalFault then some (.plugin, s'.fatalFault)
    else if s.clientCode ≠ s'.clientCode then some (.client, s'.clientCode)
    else none

/-- The history after a step; it begins anew when `on_configure` clears the plugin's latch. -/
def causes (s : State) (i : Input) (h : Causes) : Causes :=
  match s.next i with
  | none => h
  | some s' => if s.call = .configureFatalFault ∧ i.external = false then {} else h.observe s s'

abbrev CausesStep : State × Causes → Input → State × Causes → Prop := tracked Step causes

/-- **The first fatal cause is shown**: once a fault is reported, every later report is of the same
fault, and that is the plugin's if the plugin latched one first. -/
structure Causes.Shown (h : Causes) : Prop where
  stays : h.reports.Pairwise fun later earlier => earlier ≠ .None → later = earlier
  plugin : ∀ code, h.first = some (.plugin, code) → ∀ c ∈ h.reports, c ≠ .None → c = code

/-- The step does not set the latches apart while the diagnostics run: no latch is set to another code
than the other one shows, and none is cleared that alone shows the cause. -/
def KeepsCause (s : State) (i : Input) : Prop :=
  s.auxiliary ≠ .none →
    match i with
    | .clientFault code => s.fatalFault = .None ∨ s.fatalFault = code
    | .receiver =>
      s.receiver = .overflowed → s.clientCode = .None →
        s.fatalFault = .None ∨ s.fatalFault = .Callback
    | .framework _ =>
      match s.call with
      | .activateStart => s.clientCode = .None ∨ s.clientCode = s.fatalFault
      | .readFinite sample _ _ _ =>
        -- the client latched after this read and the pending report had loaded its code
        sampleIsFinite sample = false → s.auxiliary = .publishing .None → s.fatalFault = .None →
          s.clientCode = .None ∨ s.clientCode = .SensorConfiguration
      | .readStale sample _ _ _ =>
        sampleIsStale s.config sample s.clock = true → s.auxiliary = .publishing .None →
          s.fatalFault = .None → s.clientCode = .None ∨ s.clientCode = .Timeout
      | _ => True
    | _ => True

/-- Between the clearing of `fatal_fault_` and the start of the auxiliary thread. -/
def Call.starting : Call → Bool
  | .configureStartAuxiliary => true
  | call => call.latchesCleared

/-- The auxiliary thread has been joined. -/
def Call.auxiliaryStopped : Call → Bool
  | .configureStartAuxiliary | .quiesceResetClient _ => true
  | call => call.auxiliaryJoined

instance (s : State) (i : Input) : Decidable (KeepsCause s i) := by
  unfold KeepsCause
  cases i with
  | framework choice => cases s.call <;> infer_instance
  | _ => infer_instance

namespace State

variable {s s' : State} {choice : Choice}

/-! ## What the framework does to the latches -/

/-- What a step of the framework does to what the diagnostics read. -/
def FrameworkEffect (s s' : State) : Prop :=
  match s.call with
  | .configureFatalFault =>
    s'.fatalFault = .None ∧ s'.clientCode = s.clientCode ∧ s'.auxiliary = s.auxiliary
  | .configureStartAuxiliary =>
    s'.fatalFault = s.fatalFault ∧
      (s'.clientCode = s.clientCode ∧ s'.auxiliary = .spinning ∨
        s'.clientCode = .None ∧ s'.auxiliary = s.auxiliary)
  | .configureCreateClient | .configureResetClient | .quiesceResetClient _ | .activateStart =>
    s'.fatalFault = s.fatalFault ∧ s'.auxiliary = s.auxiliary ∧
      (s'.clientCode = s.clientCode ∨ s'.clientCode = .None)
  | .configureStopAuxiliary | .quiesceStopAuxiliary _ =>
    s'.fatalFault = s.fatalFault ∧ s'.clientCode = s.clientCode ∧ s'.auxiliary = .none
  | .activateRollback previous =>
    s'.fatalFault = s.fatalFault ∧ s'.auxiliary = s.auxiliary ∧
      (s.client ≠ none → s'.clientCode = previous.fault)
  | .readLatch _ code =>
    s'.fatalFault = (s.latchFatalFault code).fatalFault ∧ s'.clientCode = s.clientCode ∧
      s'.auxiliary = s.auxiliary
  | .readFinite sample _ _ _ =>
    s'.fatalFault =
        (if sampleIsFinite sample then s.fatalFault
        else (s.latchFatalFault .SensorConfiguration).fatalFault) ∧
      s'.clientCode = s.clientCode ∧ s'.auxiliary = s.auxiliary
  | .readStale sample _ _ _ =>
    s'.fatalFault =
        (if sampleIsStale s.config sample s.clock then (s.latchFatalFault .Timeout).fatalFault
        else s.fatalFault) ∧
      s'.clientCode = s.clientCode ∧ s'.auxiliary = s.auxiliary
  | _ => s'.fatalFault = s.fatalFault ∧ s'.clientCode = s.clientCode ∧ s'.auxiliary = s.auxiliary

theorem invalidateInterfaces_view (s : State) (accepted : Fin 6 → Bool) :
    (s.invalidateInterfaces accepted).fatalFault = s.fatalFault ∧
      (s.invalidateInterfaces accepted).client = s.client ∧
      (s.invalidateInterfaces accepted).auxiliary = s.auxiliary ∧
      (s.invalidateInterfaces accepted).reports = s.reports := by
  unfold invalidateInterfaces
  cases s.api <;> exact ⟨rfl, rfl, rfl, rfl⟩

theorem writeAxes_view (s : State) (sample : SiSample) (accepted : Fin 6 → Bool) :
    (s.writeAxes sample accepted).1.fatalFault = s.fatalFault ∧
      (s.writeAxes sample accepted).1.client = s.client ∧
      (s.writeAxes sample accepted).1.auxiliary = s.auxiliary ∧
      (s.writeAxes sample accepted).1.reports = s.reports := by
  unfold writeAxes
  cases s.api <;> exact ⟨rfl, rfl, rfl, rfl⟩

theorem stopClient_view (h : s.stopClient = some s') :
    s'.fatalFault = s.fatalFault ∧ s'.clientCode = s.clientCode ∧ s'.auxiliary = s.auxiliary ∧
      s'.reports = s.reports := by
  unfold stopClient at h
  grind [clientCode]

theorem stopAuxiliary_view (h : s.stopAuxiliary = some s') :
    s'.fatalFault = s.fatalFault ∧ s'.clientCode = s.clientCode ∧ s'.auxiliary = .none ∧
      s'.reports = s.reports := by
  unfold stopAuxiliary at h
  split at h
  · exact absurd h (by simp)
  · cases h
    exact ⟨rfl, rfl, rfl, rfl⟩

theorem framework_latches (h : s.next (.framework choice) = some s') :
    FrameworkEffect s s' ∧ s'.reports = s.reports := by
  have hinvalidate := invalidateInterfaces_view
  have hwrite := writeAxes_view
  rcases next_framework h with h | h | h | h
  · unfold nextConfigure at h
    split at h <;> rename_i hcall <;> simp only [FrameworkEffect, hcall]
    · -- configureStopAuxiliary
      obtain ⟨s₁, haux, rfl⟩ := Option.map_eq_some_iff.mp h
      obtain ⟨hfatal, hcode, hnone, hreports⟩ := stopAuxiliary_view haux
      exact ⟨⟨hfatal, hcode, hnone⟩, hreports⟩
    · -- configureStopClient
      obtain ⟨s₁, hstop, rfl⟩ := Option.map_eq_some_iff.mp h
      obtain ⟨hfatal, hcode, haux, hreports⟩ := stopClient_view hstop
      exact ⟨⟨hfatal, hcode, haux⟩, hreports⟩
    all_goals grind [goto, clientCode]
  · unfold nextActivate at h
    split at h <;> rename_i hcall <;> simp only [FrameworkEffect, hcall]
    case h_5 =>
      -- activateRollback
      cases h
      refine ⟨⟨rfl, rfl, fun hclient => ?_⟩, rfl⟩
      obtain ⟨client, hclient⟩ := Option.ne_none_iff_exists'.mp hclient
      simp [goto, mapClient, clientCode, hclient]
    case h_9 =>
      -- activateStop
      obtain ⟨s₁, hstop, rfl⟩ := Option.map_eq_some_iff.mp h
      obtain ⟨hfatal, hcode, haux, hreports⟩ := stopClient_view hstop
      exact ⟨⟨hfatal, hcode, haux⟩, hreports⟩
    all_goals grind [goto, clientCode, mapClient]
  · unfold nextQuiesce at h
    split at h <;> rename_i hcall <;> simp only [FrameworkEffect, hcall]
    · -- quiesceStopClient
      obtain ⟨s₁, hstop, rfl⟩ := Option.map_eq_some_iff.mp h
      obtain ⟨hfatal, hcode, haux, hreports⟩ := stopClient_view hstop
      exact ⟨⟨hfatal, hcode, haux⟩, hreports⟩
    · grind [goto, clientCode]
    · -- quiesceInvalidate
      rename_i k
      obtain ⟨hfatal, hclient, haux, hreports⟩ := hinvalidate s choice.accepted
      have hcode : (s.invalidateInterfaces choice.accepted).clientCode = s.clientCode := by
        simp only [clientCode, hclient]
      cases k <;> cases h <;> exact ⟨⟨hfatal, hcode, haux⟩, hreports⟩
    · -- quiesceStopAuxiliary
      obtain ⟨s₁, haux, rfl⟩ := Option.map_eq_some_iff.mp h
      obtain ⟨hfatal, hcode, hnone, hreports⟩ := stopAuxiliary_view haux
      exact ⟨⟨hfatal, hcode, hnone⟩, hreports⟩
    all_goals grind [goto, clientCode]
  · unfold nextRead at h
    split at h <;> rename_i hcall <;> simp only [FrameworkEffect, hcall] <;>
      grind [goto, clientCode, readError, latchFatalFault]

/-- The diagnostics run, or are about to be started with clear latches. -/
def Showing (s : State) : Prop := s.auxiliary ≠ .none ∨ s.call.starting = true

/-- What is known where the diagnostics are stopped or started, where `read()` latches, and where a
`start()` that failed has yet to restore the client. -/
structure StageInv (s : State) : Prop where
  stopped : s.call.auxiliaryStopped = true → s.auxiliary = .none
  starting : s.call.starting = true →
    s.fatalFault = .None ∧ s.client.any (·.running) = false
  latching : ∀ sample code, s.call = .readLatch sample code → code ≠ .None → s.clientCode = code
  restoring : ∀ previous, s.call = .activateRollback previous →
    s.client = some {} ∧ s.receiver = .idle

/-- What a step of another thread does to what the diagnostics read. -/
structure EnvironmentEffect (s s' : State) : Prop where
  stopped : s.auxiliary = .none → s'.auxiliary = .none
  latched : s.clientCode ≠ .None → s'.clientCode = s.clientCode
  running : s.client.any (·.running) = false →
    s'.client.any (·.running) = false ∧ s'.fatalFault = s.fatalFault ∨ s.auxiliary ≠ .none

theorem next_effect {i : Input} (h : s.next i = some s') (hi : i.external = true) :
    EnvironmentEffect s s' := by
  cases i with
  | call callback => exact absurd hi (by simp [Input.external])
  | framework choice => exact absurd hi (by simp [Input.external])
  | sample sample =>
    simp only [next] at h
    split at h
    · exact absurd h (by simp)
    rename_i client hclient
    split at h
    swap
    · exact absurd h (by simp)
    rename_i hrunning
    have hany : s.client.any (·.running) = true := by simp [hclient, hrunning.1]
    split at h <;> cases h <;>
      exact ⟨id, fun _ => rfl, fun hstopped => by simp [hany] at hstopped⟩
  | receiver =>
    simp only [next] at h
    split at h <;> cases h
    · exact ⟨id, fun _ => rfl, fun hstopped => .inl ⟨hstopped, rfl⟩⟩
    · refine ⟨id, ?_, fun hstopped => .inl ⟨?_, rfl⟩⟩
      · cases hclient : s.client <;> simp [mapClient, clientCode, hclient]
      · cases hclient : s.client <;> simp_all [mapClient]
    · refine ⟨id, ?_, fun hstopped => .inl ⟨?_, rfl⟩⟩
      · cases hclient : s.client <;> simp +contextual [mapClient, clientCode, hclient]
      · cases hclient : s.client <;> simp_all [mapClient]
  | clientFault code =>
    simp only [next] at h
    split at h
    · exact absurd h (by simp)
    rename_i client hclient
    split at h <;> cases h
    rename_i hready
    exact ⟨id, by simp [clientCode, hclient, hready.2.1], by simp [hclient, hready.1]⟩
  | auxiliaryFailure =>
    simp only [next] at h
    split at h <;> cases h
    rename_i hspinning
    exact ⟨fun _ => rfl, fun _ => rfl, fun _ => .inr (by simp [hspinning])⟩
  | diagnostics =>
    simp only [next] at h
    split at h <;> cases h
    · rename_i hauxiliary hclient
      exact ⟨fun hnone => by simp [hauxiliary] at hnone, fun _ => rfl,
        fun hstopped => .inl ⟨hstopped, rfl⟩⟩
    · rename_i hauxiliary
      exact ⟨fun hnone => by simp [hauxiliary] at hnone, fun _ => rfl,
        fun hstopped => .inl ⟨hstopped, rfl⟩⟩
  | tick ticks =>
    cases h
    exact ⟨id, fun _ => rfl, fun hstopped => .inl ⟨hstopped, rfl⟩⟩

/-- A client without a worker does not move by itself. -/
theorem stopped_kept {i : Input} (h : s.next i = some s') (hi : i.external = true)
    (hclient : s.client = some {}) (hreceiver : s.receiver = .idle) :
    s'.client = some {} ∧ s'.receiver = .idle := by
  cases i with
  | call callback => exact absurd hi (by simp [Input.external])
  | framework choice => exact absurd hi (by simp [Input.external])
  | sample sample => simp [next, hclient] at h
  | receiver => simp [next, hreceiver] at h
  | clientFault code => simp [next, hclient] at h
  | auxiliaryFailure =>
    simp only [next] at h
    split at h <;> cases h
    exact ⟨hclient, hreceiver⟩
  | diagnostics =>
    simp only [next] at h
    split at h <;> cases h <;> exact ⟨hclient, hreceiver⟩
  | tick ticks =>
    cases h
    exact ⟨hclient, hreceiver⟩

theorem StageInv.environment {i : Input} (hinv : s.StageInv) (h : s.next i = some s')
    (hi : i.external = true) : s'.StageInv := by
  have hcall := (next_environment h hi).call
  have heffect := next_effect h hi
  have hstops : s.call.starting = true → s.call.auxiliaryStopped = true := by
    cases s.call <;>
      simp [Call.starting, Call.auxiliaryStopped, Call.latchesCleared, Call.auxiliaryJoined]
  refine ⟨fun hstopped => heffect.stopped (hinv.stopped (hcall ▸ hstopped)), fun hstarting => ?_,
    fun sample code hlatch hcode => ?_, fun previous hprevious => ?_⟩
  · rw [hcall] at hstarting
    obtain ⟨hfatal, hidle⟩ := hinv.starting hstarting
    rcases heffect.running hidle with ⟨hidle', hfatal'⟩ | haux
    · exact ⟨hfatal'.trans hfatal, hidle'⟩
    · exact absurd (hinv.stopped (hstops hstarting)) haux
  · have hsame := hinv.latching sample code (hcall ▸ hlatch) hcode
    rw [heffect.latched (by rwa [hsame]), hsame]
  · obtain ⟨hclient, hreceiver⟩ := hinv.restoring previous (hcall ▸ hprevious)
    exact stopped_kept h hi hclient hreceiver

/-- In `on_configure` no `read()` latches, and no `start()` has failed. -/
theorem StageInv.of_configuring (call : Call) (hcall : s'.call = call)
    (hconfiguring : call.configuring = true ∨ ∃ ok, call = .returned (.configure ok))
    (hstopped : call.auxiliaryStopped = true → s'.auxiliary = .none)
    (hstarting : call.starting = true → s'.fatalFault = .None ∧ s'.client.any (·.running) = false) :
    s'.StageInv := by
  refine ⟨hcall ▸ hstopped, hcall ▸ hstarting, fun sample code hlatch => ?_, fun previous hrestore => ?_⟩
  · rw [hcall] at hlatch
    rcases hconfiguring with hconf | ⟨ok, hconf⟩ <;> simp [hlatch, Call.configuring] at hconf
  · rw [hcall] at hrestore
    rcases hconfiguring with hconf | ⟨ok, hconf⟩ <;> simp [hrestore, Call.configuring] at hconf

theorem StageInv.configure (hinv : s.StageInv) (hlatch : s.LatchInv)
    (h : s.nextConfigure choice = some s') : s'.StageInv := by
  unfold nextConfigure at h
  split at h <;> rename_i hcall
  · -- configureStopAuxiliary
    obtain ⟨s₁, haux, rfl⟩ := Option.map_eq_some_iff.mp h
    have hnone := stopAuxiliary_none haux
    exact .of_configuring .configureStopClient rfl (.inl rfl) (fun _ => hnone)
      fun hstarting => absurd hstarting (by decide)
  · -- configureStopClient
    obtain ⟨s₁, hstop, rfl⟩ := Option.map_eq_some_iff.mp h
    exact .of_configuring .configureResetClient rfl (.inl rfl)
      (fun _ => (stopClient_auxiliary hstop).trans (hinv.stopped (by rw [hcall]; rfl)))
      fun hstarting => absurd hstarting (by decide)
  · -- configureResetClient
    cases h
    exact .of_configuring .configureGeneration rfl (.inl rfl) (fun _ => hinv.stopped (by rw [hcall]; rfl))
      fun hstarting => absurd hstarting (by decide)
  · -- configureGeneration
    cases h
    exact .of_configuring .configureWriteFault rfl (.inl rfl) (fun _ => hinv.stopped (by rw [hcall]; rfl))
      fun hstarting => absurd hstarting (by decide)
  · -- configureWriteFault
    cases h
    exact .of_configuring .configureFatalFault rfl (.inl rfl) (fun _ => hinv.stopped (by rw [hcall]; rfl))
      fun hstarting => absurd hstarting (by decide)
  · -- configureFatalFault, where the old client is gone
    cases h
    refine .of_configuring .configureInitBuffer rfl (.inl rfl) (fun _ => hinv.stopped (by rw [hcall]; rfl))
      fun _ => ⟨rfl, ?_⟩
    have hclient : s.client = none := hlatch.client (by rw [hcall]; rfl)
    simp [goto, hclient]
  · -- configureInitBuffer
    cases h
    exact .of_configuring .configureInvalidate rfl (.inl rfl) (fun _ => hinv.stopped (by rw [hcall]; rfl))
      fun _ => hinv.starting (by rw [hcall]; rfl)
  · -- configureInvalidate
    cases h
    obtain ⟨hfatal, hclient, haux, -⟩ := invalidateInterfaces_view s choice.accepted
    refine .of_configuring .configureCreateClient rfl (.inl rfl)
      (fun _ => haux.trans (hinv.stopped (by rw [hcall]; rfl))) fun _ => ?_
    obtain ⟨hnone, hidle⟩ := hinv.starting (by rw [hcall]; rfl)
    exact ⟨hfatal.trans hnone, by rw [goto, hclient]; exact hidle⟩
  · -- configureCreateClient
    split_ifs at h <;> cases h
    · exact .of_configuring .configureStartAuxiliary rfl (.inl rfl)
        (fun _ => hinv.stopped (by rw [hcall]; rfl)) fun _ => ⟨(hinv.starting (by rw [hcall]; rfl)).1, rfl⟩
    · exact .of_configuring (.returned (.configure false)) rfl (.inr ⟨_, rfl⟩)
        (fun hstopped => absurd hstopped (by decide)) fun hstarting => absurd hstarting (by decide)
  · -- configureStartAuxiliary
    split_ifs at h <;> cases h <;>
      exact .of_configuring (.returned (.configure _)) rfl (.inr ⟨_, rfl⟩)
        (fun hstopped => absurd hstopped (by simp [Call.auxiliaryStopped, Call.auxiliaryJoined]))
        fun hstarting => absurd hstarting (by simp [Call.starting, Call.latchesCleared])
  · exact absurd h (by simp)

/-- Where a `start()` that fails leaves the client, and what it will restore. -/
structure Restoring (s s' : State) (previous : Client) : Prop where
  call : s.call = .activateStart
  client : s'.client = some {}
  receiver : s'.receiver = .idle
  fault : previous.fault = s.clientCode
  fatalFault : s'.fatalFault = s.fatalFault
  auxiliary : s'.auxiliary = s.auxiliary

theorem activate_restoring {previous : Client} (h : s.nextActivate choice = some s')
    (hcall : s'.call = .activateRollback previous) : Restoring s s' previous := by
  unfold nextActivate at h
  split at h <;> rename_i hat
  case h_4 =>
    -- activateStart
    split at h
    · exact absurd h (by simp)
    rename_i client hclient
    split_ifs at h with hrunning hok hidle <;> cases h
    · cases hcall
    · cases hcall
    · cases hcall
      exact ⟨hat, rfl, hidle, by simp [clientCode, hclient], rfl, rfl⟩
  all_goals grind [goto, Option.map_eq_some_iff]

/-- In the other calls only `quiesceResetClient`, `readLatch` and `activateRollback` have something to
keep. -/
theorem StageInv.unstaged (hcall : s'.call.auxiliaryStopped = false)
    (hlatch : ∀ sample code, s'.call ≠ .readLatch sample code)
    (hrestore : ∀ previous, s'.call = .activateRollback previous →
      s'.client = some {} ∧ s'.receiver = .idle) : s'.StageInv := by
  refine ⟨fun hstopped => by simp [hcall] at hstopped, fun hstarting => ?_,
    fun sample code hread => absurd hread (hlatch sample code), hrestore⟩
  revert hcall hstarting
  cases s'.call <;>
    simp [Call.starting, Call.auxiliaryStopped, Call.latchesCleared, Call.auxiliaryJoined]

theorem stageInv_reachable {api : Api} {config : Config} {interfaces : Fin 6 → Double}
    (h : Reachable Step (init api config interfaces) s) : s.StageInv := by
  refine h.invariant (.unstaged rfl (by simp [init]) (by simp [init])) fun s i s' hreach hinv hstep => ?_
  rcases input_cases i with ⟨callback, rfl⟩ | ⟨choice, rfl⟩ | hexternal
  · simp only [Step, stepOf, next] at hstep
    split at hstep <;> cases hstep <;> cases callback <;>
      exact .unstaged rfl (by simp [goto, entry]) (by simp [goto, entry])
  · rcases next_framework hstep with hconf | hact | hqui | hread
    · exact hinv.configure (latchInv_reachable hreach) hconf
    · have hrestoring : ∀ previous, s'.call = .activateRollback previous →
          s'.client = some {} ∧ s'.receiver = .idle := fun previous hcall =>
        have hrestore := activate_restoring hact hcall
        ⟨hrestore.client, hrestore.receiver⟩
      unfold nextActivate at hact
      split at hact <;>
        refine .unstaged ?_ ?_ hrestoring <;>
        grind [goto, Call.auxiliaryStopped, Call.auxiliaryJoined, Option.map_eq_some_iff]
    · have haux : ∀ s₁, s.stopAuxiliary = some s₁ → s₁.auxiliary = .none := fun _ => stopAuxiliary_none
      unfold nextQuiesce at hqui
      split at hqui <;> constructor <;>
        grind [goto, Call.auxiliaryStopped, Call.starting, Call.auxiliaryJoined, Call.latchesCleared,
          Option.map_eq_some_iff]
    · unfold nextRead at hread
      split at hread <;> constructor <;>
        grind [goto, Call.auxiliaryStopped, Call.starting, Call.auxiliaryJoined, Call.latchesCleared,
          clientCode, readError]
  · exact hinv.environment hstep hexternal

/-! ## The moves of the latches -/

/-- The step clears `fatal_fault_`, and with it begins another history. -/
def Resets (s : State) (i : Input) : Prop := s.call = .configureFatalFault ∧ i.external = false

/-- What a step does to the latches, the pending report and the reports, where it keeps the latches
together. -/
inductive Moves (s s' : State) : Prop where
  | kept (fatal : s'.fatalFault = s.fatalFault) (client : s'.clientCode = s.clientCode)
      (auxiliary : s'.auxiliary = s.auxiliary ∨ s'.auxiliary = .none ∨ s'.auxiliary = .spinning)
      (reports : s'.reports = s.reports)
  | latched (code : FaultCode) (some : code ≠ .None) (free : s.fatalFault = .None)
      (fatal : s'.fatalFault = code) (client : s'.clientCode = s.clientCode)
      (auxiliary : s'.auxiliary = s.auxiliary ∨ s'.auxiliary = .none)
      (reports : s'.reports = s.reports)
      (together : s'.auxiliary = .publishing .None → s.clientCode = .None ∨ s.clientCode = code)
  | faulted (code : FaultCode) (some : code ≠ .None) (free : s.clientCode = .None)
      (client : s'.clientCode = code) (fatal : s'.fatalFault = s.fatalFault)
      (auxiliary : s'.auxiliary = s.auxiliary) (reports : s'.reports = s.reports)
      (together : s.Showing → s.fatalFault = .None ∨ s.fatalFault = code)
  | cleared (some : s.clientCode ≠ .None) (client : s'.clientCode = .None)
      (fatal : s'.fatalFault = s.fatalFault) (auxiliary : s'.auxiliary = s.auxiliary)
      (reports : s'.reports = s.reports) (together : s'.Showing → s.clientCode = s.fatalFault)
  | loaded (fatal : s'.fatalFault = s.fatalFault) (client : s'.clientCode = s.clientCode)
      (auxiliary : s'.auxiliary = .publishing s.clientCode) (reports : s'.reports = s.reports)
  | reported (clientFault : FaultCode) (fatal : s'.fatalFault = s.fatalFault)
      (client : s'.clientCode = s.clientCode) (pending : s.auxiliary = .publishing clientFault)
      (auxiliary : s'.auxiliary = .spinning)
      (reports :
        s'.reports = (if clientFault = .None then s.fatalFault else clientFault) :: s.reports)

/-- `latch_fatal_fault` sets the latch, or changes nothing. -/
theorem moves_of_latch {code : FaultCode}
    (hfatal : s'.fatalFault = (s.latchFatalFault code).fatalFault)
    (hclient : s'.clientCode = s.clientCode)
    (hauxiliary : s'.auxiliary = s.auxiliary ∨ s'.auxiliary = .none)
    (hreports : s'.reports = s.reports)
    (htogether : code ≠ .None → s.fatalFault = .None → s'.auxiliary = .publishing .None →
      s.clientCode = .None ∨ s.clientCode = code) : Moves s s' := by
  simp only [latchFatalFault] at hfatal
  by_cases hfree : s.fatalFault = .None
  · rw [if_pos hfree] at hfatal
    by_cases hcode : code = .None
    · exact .kept (by rw [hfatal, hcode, hfree]) hclient (hauxiliary.imp_right .inl) hreports
    · exact .latched code hcode hfree hfatal hclient hauxiliary hreports (htogether hcode hfree)
  · rw [if_neg hfree] at hfatal
    exact .kept hfatal hclient (hauxiliary.imp_right .inl) hreports

theorem moves_environment {i : Input} (hstage : s.StageInv) (hkeeps : KeepsCause s i)
    (h : s.next i = some s') (hi : i.external = true) : Moves s s' := by
  cases i with
  | call callback => exact absurd hi (by simp [Input.external])
  | framework choice => exact absurd hi (by simp [Input.external])
  | sample sample =>
    simp only [next] at h
    split at h
    · exact absurd h (by simp)
    rename_i client hclient
    split at h
    swap
    · exact absurd h (by simp)
    rename_i hready
    split at h <;> cases h
    · exact .kept rfl rfl (.inl rfl) rfl
    · -- the callback runs while the client shows no fault
      exact moves_of_latch rfl rfl (.inl rfl) rfl
        fun _ _ _ => .inl (by simp [clientCode, hclient, hready.2.1])
  | receiver =>
    simp only [next] at h
    split at h <;> cases h
    · exact .kept rfl rfl (.inl rfl) rfl
    · refine .kept rfl ?_ (.inl rfl) rfl
      cases hclient : s.client <;> simp [mapClient, clientCode, hclient]
    · rename_i hreceiver
      by_cases hfree : s.clientCode = .None
      · cases hclient : s.client with
        | none => exact .kept rfl (by simp [mapClient, clientCode, hclient]) (.inl rfl) rfl
        | some client =>
          have hnone : client.fault = .None := by simpa [clientCode, hclient] using hfree
          refine .faulted .Callback (by decide) hfree (by simp [mapClient, clientCode, hclient, hnone])
            rfl rfl rfl fun hshowing => ?_
          rcases hshowing with haux | hstarting
          · exact hkeeps haux hreceiver hfree
          · exact .inl (hstage.starting hstarting).1
      · refine .kept rfl ?_ (.inl rfl) rfl
        cases hclient : s.client with
        | none => simp [mapClient, clientCode, hclient]
        | some client =>
          have hsome : client.fault ≠ .None := by simpa [clientCode, hclient] using hfree
          simp [mapClient, clientCode, hclient, hsome]
  | clientFault code =>
    simp only [next] at h
    split at h
    · exact absurd h (by simp)
    rename_i client hclient
    split at h <;> cases h
    rename_i hready
    refine .faulted code hready.2.2.2 (by simp [clientCode, hclient, hready.2.1])
      (by simp [clientCode]) rfl rfl rfl fun hshowing => ?_
    rcases hshowing with haux | hstarting
    · exact hkeeps haux
    · exact .inl (hstage.starting hstarting).1
  | auxiliaryFailure =>
    simp only [next] at h
    split at h <;> cases h
    exact moves_of_latch rfl rfl (.inr rfl) rfl fun _ _ hpending => by simp at hpending
  | diagnostics =>
    simp only [next] at h
    split at h <;> cases h
    · rename_i client hauxiliary hclient
      exact .loaded rfl rfl (by simp [clientCode, hclient]) rfl
    · rename_i clientFault hauxiliary
      exact .reported clientFault rfl rfl hauxiliary rfl rfl
  | tick ticks =>
    cases h
    exact .kept rfl rfl (.inl rfl) rfl

/-- A cleared client latch, or one that was not set. -/
theorem moves_of_clear (hfatal : s'.fatalFault = s.fatalFault)
    (hclient : s'.clientCode = s.clientCode ∨ s'.clientCode = .None)
    (hauxiliary : s'.auxiliary = s.auxiliary) (hreports : s'.reports = s.reports)
    (htogether : s.clientCode ≠ .None → s'.clientCode = .None → s'.Showing →
      s.clientCode = s.fatalFault) : Moves s s' := by
  by_cases hsome : s.clientCode = .None
  · have hsame : s'.clientCode = s.clientCode := hclient.elim id fun hnone => hnone.trans hsome.symm
    exact .kept hfatal hsame (.inl hauxiliary) hreports
  · rcases hclient with hsame | hnone
    · exact .kept hfatal hsame (.inl hauxiliary) hreports
    · exact .cleared hsome hnone hfatal hauxiliary hreports (htogether hsome hnone)

/-- The diagnostics are about to be started only after `fatal_fault_` was cleared. -/
theorem framework_starting (h : s.next (.framework choice) = some s')
    (hstarting : s'.call.starting = true) :
    s.call = .configureFatalFault ∨ s.call.latchesCleared = true := by
  rcases next_framework h with hconf | hact | hqui | hread
  · unfold nextConfigure at hconf
    split at hconf <;>
      grind [goto, Call.starting, Call.latchesCleared, Option.map_eq_some_iff]
  · have hresting := nextActivate_resting hact
    revert hresting hstarting
    cases s'.call <;> simp [Call.resting, Call.starting, Call.latchesCleared]
  · have hresting := nextQuiesce_resting hqui
    revert hresting hstarting
    cases s'.call <;> simp [Call.resting, Call.starting, Call.latchesCleared]
  · unfold nextRead at hread
    split at hread <;> grind [goto, readError, Call.starting, Call.latchesCleared]

/-- Outside that stage, the diagnostics show only if their thread runs. -/
theorem showing_of_framework (h : s.next (.framework choice) = some s')
    (hreset : s.call ≠ .configureFatalFault) (hcleared : s.call.latchesCleared = false)
    (hshowing : s'.Showing) : s'.auxiliary ≠ .none := by
  rcases hshowing with haux | hstarting
  · exact haux
  · rcases framework_starting h hstarting with hfatal | hlatches
    · exact absurd hfatal hreset
    · simp [hcleared] at hlatches

/-- The fault that a failed `start()` restores is one that `fatal_fault_` shows too, while the
diagnostics run. -/
def Restores (s : State) : Prop :=
  ∀ previous, s.call = .activateRollback previous → previous.fault ≠ .None →
    s.auxiliary ≠ .none → s.fatalFault = previous.fault

theorem Restores.step {i : Input} (hrestores : s.Restores) (hkeeps : KeepsCause s i)
    (h : s.next i = some s') : s'.Restores := by
  intro previous hcall hfault hrunning
  rcases input_cases i with ⟨callback, rfl⟩ | ⟨choice, rfl⟩ | hexternal
  · simp only [next] at h
    split at h <;> cases h <;> cases callback <;> cases hcall
  · rcases next_framework h with hconf | hact | hqui | hread
    · unfold nextConfigure at hconf
      split at hconf <;> grind [goto, Option.map_eq_some_iff]
    · -- `start` has just cleared the fault, which KeepsCause lets it do only under `fatal_fault_`
      have hrestoring := activate_restoring hact hcall
      have hkeeps' := hkeeps (hrestoring.auxiliary ▸ hrunning)
      simp only [hrestoring.call, ← hrestoring.fault] at hkeeps'
      rw [hrestoring.fatalFault]
      exact (hkeeps'.resolve_left hfault).symm
    · unfold nextQuiesce at hqui
      split at hqui <;> grind [goto, Option.map_eq_some_iff]
    · unfold nextRead at hread
      split at hread <;> grind [goto, readError]
  · have henv := next_environment h hexternal
    have hbefore := hrestores previous (henv.call ▸ hcall) hfault fun hnone =>
      hrunning ((next_effect h hexternal).stopped hnone)
    rw [henv.latches.fatalFault (hbefore ▸ hfault), hbefore]

theorem moves_framework (hstage : s.StageInv) (hlatch : s.LatchInv) (hrestores : s.Restores)
    (hkeeps : KeepsCause s (.framework choice)) (h : s.next (.framework choice) = some s')
    (hreset : s.call ≠ .configureFatalFault) : Moves s s' := by
  obtain ⟨heffect, hreports⟩ := framework_latches h
  have hshows := showing_of_framework h hreset
  unfold FrameworkEffect at heffect
  split at heffect
  · rename_i hcall
    exact absurd hcall hreset
  · -- configureStartAuxiliary
    rename_i hcall
    obtain ⟨hfatal, ⟨hcode, haux⟩ | ⟨hcode, haux⟩⟩ := heffect
    · exact .kept hfatal hcode (.inr (.inr haux)) hreports
    · refine moves_of_clear hfatal (.inr hcode) haux hreports fun _ _ hshowing => ?_
      have hnone := hstage.stopped (by rw [hcall]; rfl)
      exact absurd (haux.trans hnone) (hshows (by rw [hcall]; rfl) hshowing)
  · -- configureCreateClient
    rename_i hcall
    obtain ⟨hfatal, haux, hcode⟩ := heffect
    have hnone : s.clientCode = .None := by
      simp only [clientCode, hlatch.client (by rw [hcall]; rfl)]
    exact moves_of_clear hfatal hcode haux hreports fun hsome _ _ => absurd hnone hsome
  · -- configureResetClient
    rename_i hcall
    obtain ⟨hfatal, haux, hcode⟩ := heffect
    refine moves_of_clear hfatal hcode haux hreports fun _ _ hshowing => ?_
    have hnone := hstage.stopped (by rw [hcall]; rfl)
    exact absurd (haux.trans hnone) (hshows (by rw [hcall]; rfl) hshowing)
  · -- quiesceResetClient
    rename_i hcall
    obtain ⟨hfatal, haux, hcode⟩ := heffect
    refine moves_of_clear hfatal hcode haux hreports fun _ _ hshowing => ?_
    have hnone := hstage.stopped (by rw [hcall]; rfl)
    exact absurd (haux.trans hnone) (hshows (by rw [hcall]; rfl) hshowing)
  · -- activateStart
    rename_i hcall
    obtain ⟨hfatal, haux, hcode⟩ := heffect
    refine moves_of_clear hfatal hcode haux hreports fun hsome _ hshowing => ?_
    have hrunning := hshows (by rw [hcall]; rfl) hshowing
    have hkeeps' := hkeeps (by rwa [haux] at hrunning)
    simp only [hcall] at hkeeps'
    exact hkeeps'.resolve_left hsome
  · -- configureStopAuxiliary
    obtain ⟨hfatal, hcode, haux⟩ := heffect
    exact .kept hfatal hcode (.inr (.inl haux)) hreports
  · -- quiesceStopAuxiliary
    obtain ⟨hfatal, hcode, haux⟩ := heffect
    exact .kept hfatal hcode (.inr (.inl haux)) hreports
  · -- activateRollback
    rename_i previous hcall
    obtain ⟨hfatal, haux, hcode⟩ := heffect
    have hclient := (hstage.restoring previous hcall).1
    have hnone : s.clientCode = .None := by simp [clientCode, hclient]
    have hcode' := hcode (by simp [hclient])
    by_cases hfree : previous.fault = .None
    · exact .kept hfatal (by rw [hcode', hfree, hnone]) (.inl haux) hreports
    · refine .faulted _ hfree hnone hcode' hfatal haux hreports fun hshowing => ?_
      rcases hshowing with hrunning | hstarting
      · exact .inr (hrestores previous hcall hfree hrunning)
      · simp [hcall, Call.starting, Call.latchesCleared] at hstarting
  · -- readLatch
    rename_i sample code hcall
    obtain ⟨hfatal, hcode, haux⟩ := heffect
    exact moves_of_latch hfatal hcode (.inl haux) hreports
      fun hsome _ _ => .inr (hstage.latching sample code hcall hsome)
  · -- readFinite
    rename_i sample _ _ _ hcall
    obtain ⟨hfatal, hcode, haux⟩ := heffect
    cases hfinite : sampleIsFinite sample with
    | true => exact .kept (by simpa [hfinite] using hfatal) hcode (.inl haux) hreports
    | false =>
      refine moves_of_latch (by simpa [hfinite] using hfatal) hcode (.inl haux) hreports
        fun _ hfree hpending => ?_
      rw [haux] at hpending
      have hkeeps' := hkeeps (by rw [hpending]; simp)
      simp only [hcall] at hkeeps'
      exact hkeeps' hfinite hpending hfree
  · -- readStale
    rename_i sample _ _ _ hcall
    obtain ⟨hfatal, hcode, haux⟩ := heffect
    cases hstale : sampleIsStale s.config sample s.clock with
    | false => exact .kept (by simpa [hstale] using hfatal) hcode (.inl haux) hreports
    | true =>
      refine moves_of_latch (by simpa [hstale] using hfatal) hcode (.inl haux) hreports
        fun _ hfree hpending => ?_
      rw [haux] at hpending
      have hkeeps' := hkeeps (by rw [hpending]; simp)
      simp only [hcall] at hkeeps'
      exact hkeeps' hstale hpending hfree
  · obtain ⟨hfatal, hcode, haux⟩ := heffect
    exact .kept hfatal hcode (.inl haux) hreports

theorem moves_of_step {i : Input} (hstage : s.StageInv) (hlatch : s.LatchInv)
    (hrestores : s.Restores) (hkeeps : KeepsCause s i) (h : s.next i = some s') (hreset : ¬ Resets s i) : Moves s s' := by
  rcases input_cases i with ⟨callback, rfl⟩ | ⟨choice, rfl⟩ | hexternal
  · simp only [next] at h
    split at h <;> cases h <;> exact .kept rfl rfl (.inl rfl) rfl
  · exact moves_framework hstage hlatch hrestores hkeeps h fun hcall => hreset ⟨hcall, rfl⟩
  · exact moves_environment hstage hkeeps h hexternal

/-- The diagnostics begin to show only from `on_configure`. -/
theorem showing_before {i : Input} (h : s.next i = some s') (hreset : ¬ Resets s i)
    (hshowing : s'.Showing) : s.Showing := by
  rcases input_cases i with ⟨callback, rfl⟩ | ⟨choice, rfl⟩ | hexternal
  · simp only [next] at h
    rcases hshowing with haux | hstarting
    · split at h <;> cases h <;> exact .inl haux
    · split at h <;> cases h <;> cases callback <;> cases hstarting
  · have hcall : s.call ≠ .configureFatalFault := fun hcall => hreset ⟨hcall, rfl⟩
    rcases hshowing with haux | hstarting
    · obtain ⟨heffect, -⟩ := framework_latches h
      unfold FrameworkEffect at heffect
      split at heffect <;> rename_i hat <;>
        first
          | exact absurd hat hcall
          | exact .inr (by rw [hat]; rfl)
          | (left; grind)
    · rcases framework_starting h hstarting with hfatal | hcleared
      · exact absurd hfatal hcall
      · refine .inr ?_
        revert hcleared
        cases s.call <;> simp [Call.starting, Call.latchesCleared]
  · rcases hshowing with haux | hstarting
    · exact .inl fun hnone => haux ((next_effect h hexternal).stopped hnone)
    · exact .inr ((next_environment h hexternal).call ▸ hstarting)

/-! ## The first cause -/

/-- While the diagnostics show: the client shows the first cause or nothing, one of the latches has
it, and a pending report will show it, unless nothing was reported yet. -/
structure Tied (s : State) (reports : List FaultCode) (cause : FaultCode) : Prop where
  client : s.clientCode = .None ∨ s.clientCode = cause
  latch : s.clientCode = cause ∨ s.fatalFault = cause
  pending : ∀ clientFault, s.auxiliary = .publishing clientFault →
    clientFault = cause ∨ clientFault = .None ∧
      (s.fatalFault = cause ∨ s.fatalFault = .None ∧ ∀ c ∈ reports, c = .None)

/-- Before the first cause nothing shows a fault; after it every report shows that cause or none. -/
structure CauseInv (s : State) (h : Causes) : Prop where
  before : h.first = none → s.clientCode = .None ∧ s.fatalFault = .None ∧
    (∀ c ∈ h.reports, c = .None) ∧ ∀ clientFault, s.auxiliary = .publishing clientFault →
      clientFault = .None
  after : ∀ origin cause, h.first = some (origin, cause) →
    cause ≠ .None ∧ ∀ c ∈ h.reports, c = .None ∨ c = cause
  stays : h.reports.Pairwise fun later earlier => earlier ≠ .None → later = earlier
  tied : s.Showing → ∀ origin cause, h.first = some (origin, cause) → Tied s h.reports cause

theorem reported_of_eq (h : s'.reports = s.reports) : reported s s' = [] := by
  simp [reported, h]

theorem reported_of_cons {code : FaultCode} (h : s'.reports = code :: s.reports) :
    reported s s' = [code] := by
  simp [reported, h]

theorem causes_of_reset {h : Causes} {i : Input} (hnext : s.next i = some s')
    (hreset : Resets s i) : causes s i h = {} := by
  simp only [causes, hnext]
  exact if_pos hreset

theorem causes_of_step {h : Causes} {i : Input} (hnext : s.next i = some s')
    (hreset : ¬ Resets s i) : causes s i h = h.observe s s' := by
  simp only [causes, hnext]
  exact if_neg hreset

theorem observe_kept {h : Causes} (hfatal : s'.fatalFault = s.fatalFault)
    (hclient : s'.clientCode = s.clientCode) (hreports : s'.reports = s.reports) :
    h.observe s s' = h := by
  obtain ⟨reports, first⟩ := h
  cases first <;> simp [Causes.observe, reported_of_eq hreports, hfatal, hclient]

theorem observe_some {h : Causes} {origin : Origin} {cause : FaultCode}
    (hfirst : h.first = some (origin, cause)) :
    h.observe s s' = { h with reports := reported s s' ++ h.reports } := by
  simp [Causes.observe, hfirst]

theorem CauseInv.kept {h : Causes} (hinv : CauseInv s h) (hfatal : s'.fatalFault = s.fatalFault)
    (hclient : s'.clientCode = s.clientCode)
    (hauxiliary : ∀ f, s'.auxiliary = .publishing f → s.auxiliary = .publishing f)
    (hreports : s'.reports = s.reports) (hshowing : s'.Showing → s.Showing) :
    CauseInv s' (h.observe s s') := by
  rw [observe_kept hfatal hclient hreports]
  refine ⟨fun hnone => ?_, hinv.after, hinv.stays, fun hshows origin cause hfirst => ?_⟩
  · obtain ⟨hcode, hfree, hall, hpending⟩ := hinv.before hnone
    exact ⟨hclient.trans hcode, hfatal.trans hfree, hall, fun f hf => hpending f (hauxiliary f hf)⟩
  · obtain ⟨htied, hlatch, hpending⟩ := hinv.tied (hshowing hshows) origin cause hfirst
    refine ⟨by rwa [hclient], by rwa [hclient, hfatal], fun f hf => ?_⟩
    rw [hfatal]
    exact hpending f (hauxiliary f hf)

theorem CauseInv.step {h : Causes} (hinv : CauseInv s h) (hmoves : Moves s s')
    (hshowing : s'.Showing → s.Showing) : CauseInv s' (h.observe s s') := by
  cases hmoves with
  | kept hfatal hclient hauxiliary hreports =>
    refine hinv.kept hfatal hclient (fun f hf => ?_) hreports hshowing
    rcases hauxiliary with hsame | hnone | hspinning
    · rwa [← hsame]
    · simp [hnone] at hf
    · simp [hspinning] at hf
  | latched code hcode hfree hfatal hclient hauxiliary hreports htogether =>
    have hpending : ∀ f, s'.auxiliary = .publishing f → s.auxiliary = .publishing f := by
      intro f hf
      rcases hauxiliary with hsame | hnone
      · rwa [← hsame]
      · simp [hnone] at hf
    cases hfirst : h.first with
    | none =>
      -- the plugin latches the first cause
      obtain ⟨hnone, -, hall, hload⟩ := hinv.before hfirst
      have hobserve : h.observe s s' = { h with first := some (.plugin, code) } := by
        simp [Causes.observe, reported_of_eq hreports, hfirst, hfree, hfatal, Ne.symm hcode]
      rw [hobserve]
      refine ⟨by simp, ?_, hinv.stays, ?_⟩
      · rintro origin cause ⟨⟩
        exact ⟨hcode, fun c hc => .inl (hall c hc)⟩
      · rintro - origin cause ⟨⟩
        exact ⟨.inl (hclient.trans hnone), .inr hfatal,
          fun f hf => .inr ⟨hload f (hpending f hf), .inl hfatal⟩⟩
    | some first =>
      obtain ⟨origin, cause⟩ := first
      have hobserve : h.observe s s' = h := by
        rw [observe_some hfirst, reported_of_eq hreports, List.nil_append]
      rw [hobserve]
      refine ⟨fun hnone => by simp [hfirst] at hnone, hinv.after, hinv.stays, fun hshows _ _ hfirst => ?_⟩
      have htied := hinv.tied (hshowing hshows) _ _ hfirst
      obtain ⟨hsome, -⟩ := hinv.after _ _ hfirst
      have hshown := htied.latch.resolve_right fun hsame => hsome (hsame.symm.trans hfree)
      refine ⟨.inr (hclient.trans hshown), .inl (hclient.trans hshown), fun f hf => ?_⟩
      rcases htied.pending f (hpending f hf) with hsame | ⟨rfl, -⟩
      · exact .inl hsame
      · have hcause := (htogether hf).resolve_left fun hnone => hsome (hshown.symm.trans hnone)
        exact .inr ⟨rfl, .inl (by rw [hfatal, ← hcause, hshown])⟩
  | faulted code hcode hfree hclient hfatal hauxiliary hreports htogether =>
    cases hfirst : h.first with
    | none =>
      -- the client latches the first cause
      obtain ⟨-, hnone, hall, hload⟩ := hinv.before hfirst
      have hobserve : h.observe s s' = { h with first := some (.client, code) } := by
        simp [Causes.observe, reported_of_eq hreports, hfirst, hfree, hfatal, hclient, Ne.symm hcode]
      rw [hobserve]
      refine ⟨by simp, ?_, hinv.stays, ?_⟩
      · rintro origin cause ⟨⟩
        exact ⟨hcode, fun c hc => .inl (hall c hc)⟩
      · rintro - origin cause ⟨⟩
        exact ⟨.inr hclient, .inl hclient, fun f hf =>
          .inr ⟨hload f (hauxiliary ▸ hf), .inr ⟨hfatal.trans hnone, hall⟩⟩⟩
    | some first =>
      obtain ⟨origin, cause⟩ := first
      have hobserve : h.observe s s' = h := by
        rw [observe_some hfirst, reported_of_eq hreports, List.nil_append]
      rw [hobserve]
      refine ⟨fun hnone => by simp [hfirst] at hnone, hinv.after, hinv.stays, fun hshows _ _ hfirst => ?_⟩
      have htied := hinv.tied (hshowing hshows) _ _ hfirst
      obtain ⟨hsome, -⟩ := hinv.after _ _ hfirst
      have hshown := htied.latch.resolve_left fun hsame => hsome (hsame.symm.trans hfree)
      have hcause := (htogether (hshowing hshows)).resolve_left
        fun hnone => hsome (hshown.symm.trans hnone)
      have hsame : code = _ := hcause.symm.trans hshown
      refine ⟨.inr (hclient.trans hsame), .inl (hclient.trans hsame), fun f hf => ?_⟩
      rw [hfatal]
      exact htied.pending f (hauxiliary ▸ hf)
  | cleared hsome hclient hfatal hauxiliary hreports htogether =>
    cases hfirst : h.first with
    | none => exact absurd (hinv.before hfirst).1 hsome
    | some first =>
      obtain ⟨origin, cause⟩ := first
      have hobserve : h.observe s s' = h := by
        rw [observe_some hfirst, reported_of_eq hreports, List.nil_append]
      rw [hobserve]
      refine ⟨fun hnone => by simp [hfirst] at hnone, hinv.after, hinv.stays, fun hshows _ _ hfirst => ?_⟩
      have htied := hinv.tied (hshowing hshows) _ _ hfirst
      have hcause := htied.client.resolve_left hsome
      have hboth := (htogether hshows).symm.trans hcause
      refine ⟨.inl hclient, .inr (hfatal.trans hboth), fun f hf => ?_⟩
      rw [hfatal]
      exact htied.pending f (hauxiliary ▸ hf)
  | loaded hfatal hclient hauxiliary hreports =>
    rw [observe_kept hfatal hclient hreports]
    refine ⟨fun hnone => ?_, hinv.after, hinv.stays, fun hshows origin cause hfirst => ?_⟩
    · obtain ⟨hcode, hfree, hall, -⟩ := hinv.before hnone
      refine ⟨hclient.trans hcode, hfatal.trans hfree, hall, fun f hf => ?_⟩
      rw [hauxiliary] at hf
      cases hf
      exact hcode
    · obtain ⟨htied, hlatch, -⟩ := hinv.tied (hshowing hshows) origin cause hfirst
      refine ⟨by rwa [hclient], by rwa [hclient, hfatal], fun f hf => ?_⟩
      rw [hauxiliary] at hf
      cases hf
      rcases htied with hnone | hcause
      · rcases hlatch with hcause | hlatched
        · exact .inl hcause
        · exact .inr ⟨hnone, .inl (hfatal.trans hlatched)⟩
      · exact .inl hcause
  | reported f hfatal hclient hpending hauxiliary hreports =>
    have hobserve : h.observe s s' =
        { h with reports := (if f = .None then s.fatalFault else f) :: h.reports } := by
      obtain ⟨reports, first⟩ := h
      cases first <;> simp [Causes.observe, reported_of_cons hreports, hfatal, hclient]
    rw [hobserve]
    cases hfirst : h.first with
    | none =>
      -- neither the pending report nor a latch shows a fault
      obtain ⟨hnone, hfree, hall, hload⟩ := hinv.before hfirst
      have hreport : (if f = .None then s.fatalFault else f) = .None := by
        rw [if_pos (hload f hpending), hfree]
      rw [hreport]
      refine ⟨fun _ => ⟨hclient.trans hnone, hfatal.trans hfree, ?_, by simp [hauxiliary]⟩, ?_, ?_, ?_⟩
      · rintro c (_ | ⟨_, hc⟩)
        · rfl
        · exact hall c hc
      · rintro origin cause hsome
        simp at hsome
      · exact List.pairwise_cons.mpr
          ⟨fun c hc hsome => absurd (hall c hc) hsome, hinv.stays⟩
      · rintro - origin cause hsome
        simp at hsome
    | some first =>
      obtain ⟨origin, cause⟩ := first
      obtain ⟨hsome, hall⟩ := hinv.after _ _ hfirst
      have hshows : s.Showing := .inl (by simp [hpending])
      have htied := hinv.tied hshows _ _ hfirst
      have hreport : (if f = .None then s.fatalFault else f) = cause ∨
          (if f = .None then s.fatalFault else f) = .None ∧ ∀ c ∈ h.reports, c = .None := by
        rcases htied.pending f hpending with rfl | ⟨rfl, hlatched | ⟨hfree, hnone⟩⟩
        · exact .inl (if_neg hsome)
        · exact .inl (by rw [if_pos rfl, hlatched])
        · exact .inr ⟨by rw [if_pos rfl, hfree], hnone⟩
      refine ⟨fun hnone => by simp at hnone, ?_, ?_, ?_⟩
      · rintro origin' cause' hfirst'
        obtain ⟨rfl, rfl⟩ : origin = origin' ∧ cause = cause' := by
          simpa [hfirst] using hfirst'
        refine ⟨hsome, ?_⟩
        rintro c (_ | ⟨_, hc⟩)
        · exact hreport.symm.imp_left And.left
        · exact hall c hc
      · refine List.pairwise_cons.mpr ⟨fun c hc hfault => ?_, hinv.stays⟩
        rcases hreport with hcause | ⟨-, hnone⟩
        · exact hcause.trans ((hall c hc).resolve_left hfault).symm
        · exact absurd (hnone c hc) hfault
      · rintro - origin' cause' hfirst'
        obtain ⟨rfl, rfl⟩ : origin = origin' ∧ cause = cause' := by
          simpa [hfirst] using hfirst'
        exact ⟨by rw [hclient]; exact htied.client, by rw [hclient, hfatal]; exact htied.latch,
          by simp [hauxiliary]⟩

theorem CauseInv.shown {h : Causes} (hinv : CauseInv s h) : h.Shown where
  stays := hinv.stays
  plugin _ hfirst c hc hsome := ((hinv.after _ _ hfirst).2 c hc).resolve_left hsome

/-- At `configureFatalFault` there is no client, and no auxiliary thread. -/
theorem causeInv_reset {i : Input} (hlatch : s.LatchInv) (h : s.next i = some s')
    (hreset : Resets s i) : CauseInv s' {} := by
  obtain ⟨hcall, hinput⟩ := hreset
  have hclient : s.client = none := hlatch.client (by rw [hcall]; rfl)
  have hauxiliary : s.auxiliary = .none := hlatch.auxiliary (by rw [hcall]; rfl)
  rcases input_cases i with ⟨callback, rfl⟩ | ⟨choice, rfl⟩ | hexternal
  · simp [next, hcall] at h
  · obtain ⟨heffect, -⟩ := framework_latches h
    simp only [FrameworkEffect, hcall] at heffect
    obtain ⟨hfatal, hcode, haux⟩ := heffect
    have hnone : s'.clientCode = .None := by
      rw [hcode]
      simp only [clientCode, hclient]
    exact ⟨fun _ => ⟨hnone, hfatal, by simp, by simp [haux, hauxiliary]⟩, by simp, by simp, by simp⟩
  · simp [hexternal] at hinput

/-- **While no step sets the latches apart, the diagnostics keep showing the first fatal cause**: in
every run since `on_init`, of the framework, the client, the sample callback, the auxiliary thread
and its timer. -/
theorem firstCauseShown {api : Api} {config : Config} {interfaces : Fin 6 → Double}
    {x : State × Causes}
    (h : Reachable (restrict CausesStep fun x i => KeepsCause x.1 i)
      (init api config interfaces, {}) x) : x.2.Shown := by
  have hboth : Reachable Step (init api config interfaces) x.1 ∧ x.1.Restores ∧
      CauseInv x.1 x.2 := by
    refine h.invariant (I := fun x => Reachable Step (init api config interfaces) x.1 ∧
      x.1.Restores ∧ CauseInv x.1 x.2) ⟨.init, by simp [Restores, init],
      ⟨fun _ => ⟨rfl, rfl, by simp, by simp [init]⟩, by simp, by simp, by simp⟩⟩
      fun x i x' _ hinv hstep => ?_
    obtain ⟨hkeeps, hnext, hcauses⟩ := hstep
    obtain ⟨hreach, hrestores, hinv⟩ := hinv
    refine ⟨hreach.snoc hnext, hrestores.step hkeeps hnext, ?_⟩
    have hlatch := latchInv_reachable hreach
    by_cases hreset : Resets x.1 i
    · rw [hcauses, causes_of_reset hnext hreset]
      exact causeInv_reset hlatch hnext hreset
    · rw [hcauses, causes_of_step hnext hreset]
      exact hinv.step (moves_of_step (stageInv_reachable hreach) hlatch hrestores hkeeps hnext hreset)
        (showing_before hnext hreset)
  exact hboth.2.2.shown

/-- Activated, the client loses the sensor; the timer fires before and after `read()` has copied the
fault. -/
def faultedReadInputs : List Input :=
  configureInputs ++ activateInputs ++
    [.diagnostics, .diagnostics, .clientFault .Timeout, .diagnostics, .diagnostics] ++
      readInputs zeroSiSample 5 ++ [.diagnostics, .diagnostics]

theorem faultedRead_shown : ∃ x : State × Causes,
    x.2.reports = [.Timeout, .Timeout, .None] ∧ x.1.fatalFault = .Timeout ∧ x.2.Shown := by
  have hrun : ((execute (restrictNext (trackedNext next causes) fun x i => KeepsCause x.1 i)
      (init .Modern {} fun _ => .nan, {}) faultedReadInputs).map fun x =>
        decide (x.2.reports = [.Timeout, .Timeout, .None] ∧ x.1.fatalFault = .Timeout)) =
      some true := by
    decide +kernel
  obtain ⟨x, hruns, hx⟩ := exists_runs_of_execute hrun
  obtain ⟨hreports, hfatal⟩ := of_decide_eq_true hx
  refine ⟨x, hreports, hfatal, firstCauseShown ⟨faultedReadInputs, hruns.mono fun y i y' h => ?_⟩⟩
  obtain ⟨hkeeps, hstep⟩ := restrictNext_restrict h
  exact ⟨hkeeps, trackedNext_tracked hstep⟩

/-! ## An overflow that provokes the client's fault -/

/-- A force that kilonewtons can express in binary64, and newtons cannot: a raw value of 10^8 at 1e-298
counts per force. -/
def overflowSample : Sample :=
  { zeroSample with
    rawWrench := (⟨10 ^ 8, 0, 0⟩, ⟨0, 0, 0⟩)
    force := ⟨.ofRat (10 ^ 8 / Double.nearest (1 / 10 ^ 298)), .finite 0, .finite 0⟩
    forceUnit := .KiloNewton }

/-- The timer fires between the plugin's latch and the client's, and after. -/
def overflowInputs : List Input :=
  configureInputs ++ activateInputs ++
    [.sample overflowSample, .diagnostics, .diagnostics, .receiver, .diagnostics, .diagnostics]

/-- The report goes from the plugin's SensorConfiguration to the client's Callback. -/
theorem overflow_changes_report : ∃ x : State × Causes,
    Reachable CausesStep (init .Modern {} fun _ => .nan, {}) x ∧
      x.2 = { reports := [.Callback, .SensorConfiguration],
              first := some (.plugin, .SensorConfiguration) } ∧ ¬ x.2.Shown := by
  have hrun : ((execute (trackedNext next causes) (init .Modern {} fun _ => .nan, {})
      overflowInputs).map fun x => decide (x.2 =
        { reports := [.Callback, .SensorConfiguration],
          first := some (.plugin, .SensorConfiguration) })) = some true := by
    decide +kernel
  obtain ⟨x, hruns, hx⟩ := exists_runs_of_execute hrun
  have hcauses := of_decide_eq_true hx
  refine ⟨x, ⟨overflowInputs, hruns.mono fun _ _ _ h => trackedNext_tracked h⟩, hcauses, ?_⟩
  intro hshown
  have hplugin := hshown.plugin .SensorConfiguration (by rw [hcauses]) .Callback
    (by rw [hcauses]; exact List.mem_cons_self)
  exact absurd (hplugin (by decide)) (by decide)

end State

end NetFT.Plugin
