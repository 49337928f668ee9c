/-
# NetFT.Plugin.Read — `read()` is fail-safe over every lifecycle history.

Three latches make `read()` fail: a missing client, `fatal_fault_` and `interface_write_fault_`; a
fault of the client is copied into `fatal_fault_` before it is looked at.  Outside `on_configure` a
step never clears one of them (`latches_kept`), and every branch of `read()` that returns ERROR leaves
one of them set (`ReadInv`).  Hence:

* a `read()` that returns OK has seen every latch clear, and exports one stored sample, finite and not
  stale;
* **`read_failSafe`**: and after an ERROR no `read()` returns OK, and the code in `fatal_fault_` does
  not change, before the next `on_configure`.

Stale means older than `receive_timeout` in the nanoseconds that a product of doubles gives, so a sample can
be older than the timeout itself by the rounding: `old_read_exported`.
-/
import NetFT.Plugin.Machine
import NetFT.Validate
import Mathlib.Tactic.FinCases

namespace NetFT.Plugin

set_option autoImplicit false

open Library

/-! ## Steps outside `on_configure` -/

/-- The framework is inside `on_configure`. -/
def Call.configuring : Call → Bool
  | .configureStopAuxiliary | .configureStopClient | .configureResetClient | .configureGeneration
  | .configureWriteFault | .configureFatalFault | .configureInitBuffer | .configureInvalidate
  | .configureCreateClient | .configureStartAuxiliary => true
  | _ => false

/-- A step of another thread, or of the clock. -/
def Input.external : Input → Bool
  | .call _ | .framework _ => false
  | .sample _ | .receiver | .clientFault _ | .auxiliaryFailure | .diagnostics | .tick _ => true

/-- The framework is in neither `read()` nor `on_configure`. -/
def Call.resting : Call → Bool
  | .idle | .returned (.configure _) | .returned (.activate _) | .returned (.quiesce _) => true
  | .activateHandles | .activateGeneration | .activateInvalidate | .activateStart
  | .activateRollback _ | .activateWait | .activateFaulted | .activateSampled | .activateStop
  | .activateFailed => true
  | .quiesceStopClient _ | .quiesceGeneration _ | .quiesceInvalidate _ | .quiesceStopAuxiliary _
  | .quiesceResetClient _ => true
  | _ => false

theorem Call.resting_configuring {call : Call} (h : call.resting = true) :
    call.configuring = false := by
  cases call <;> first
    | rfl
    | exact absurd h (by simp [Call.resting])

namespace State

variable {s s' : State} {choice : Choice}

/-- The latches that are set stay set, and a code that is latched stays. -/
structure LatchesKept (s s' : State) : Prop where
  client : s.client = none → s'.client = none
  fatalFault : s.fatalFault ≠ .None → s'.fatalFault = s.fatalFault
  interfaceWriteFault : s.interfaceWriteFault = true → s'.interfaceWriteFault = true

theorem LatchesKept.refl (s : State) : LatchesKept s s := ⟨id, fun _ => rfl, id⟩

theorem LatchesKept.goto (h : LatchesKept s s') (call : Call) : LatchesKept s (s'.goto call) :=
  ⟨h.client, h.fatalFault, h.interfaceWriteFault⟩

/-- No latch moves. -/
structure SameLatches (s s' : State) : Prop where
  client : s.client = none → s'.client = none
  fatalFault : s'.fatalFault = s.fatalFault
  interfaceWriteFault : s'.interfaceWriteFault = s.interfaceWriteFault
  disturbed : s'.disturbed = s.disturbed

theorem SameLatches.refl (s : State) : SameLatches s s := ⟨id, rfl, rfl, rfl⟩

theorem SameLatches.goto (h : SameLatches s s') (call : Call) : SameLatches s (s'.goto call) :=
  ⟨h.client, h.fatalFault, h.interfaceWriteFault, h.disturbed⟩

/-- Latches that stay the same are kept. -/
theorem SameLatches.kept (h : SameLatches s s') : LatchesKept s s' :=
  ⟨h.client, fun _ => h.fatalFault, fun hwrite => h.interfaceWriteFault.trans hwrite⟩

/-- Latching a fault keeps the one latched before. -/
theorem latchFatalFault_kept (s : State) (fault : FaultCode) :
    LatchesKept s (s.latchFatalFault fault) :=
  ⟨id, fun h => by simp [latchFatalFault, h], id⟩

/-- Invalidating touches no latch. -/
theorem invalidateInterfaces_same (s : State) (accepted : Fin 6 → Bool) :
    SameLatches s (s.invalidateInterfaces accepted) := by
  unfold invalidateInterfaces
  cases s.api <;> exact ⟨id, rfl, rfl, rfl⟩

/-- Neither does stopping the client. -/
theorem stopClient_same (h : s.stopClient = some s') : SameLatches s s' := by
  unfold stopClient at h
  cases hclient : s.client with
  | none =>
    simp only [hclient, Option.some.injEq] at h
    exact h ▸ .refl s
  | some client =>
    simp only [hclient] at h
    split_ifs at h
    simp only [Option.some.injEq] at h
    subst h
    exact ⟨by simp [hclient], rfl, rfl, rfl⟩

/-- Nor stopping the auxiliary thread. -/
theorem stopAuxiliary_same (h : s.stopAuxiliary = some s') : SameLatches s s' := by
  unfold stopAuxiliary at h
  split at h
  · exact absurd h (by simp)
  · simp only [Option.some.injEq] at h
    subst h
    exact ⟨id, rfl, rfl, rfl⟩

/-- `on_activate` touches no latch of the plugin. -/
theorem nextActivate_same (h : s.nextActivate choice = some s') : SameLatches s s' := by
  unfold nextActivate at h
  split at h
  · -- activateHandles
    split at h
    · cases h
      exact (SameLatches.refl s).goto _
    · split at h <;> cases h <;> exact ⟨id, rfl, rfl, rfl⟩
  · cases h
    exact ⟨id, rfl, rfl, rfl⟩
  · cases h
    exact (invalidateInterfaces_same s choice.accepted).goto _
  · -- activateStart: `start` resets the client's latch, not the plugin's
    split at h
    · exact absurd h (by simp)
    rename_i client hclient
    split_ifs at h <;> cases h
    · exact (SameLatches.refl s).goto _
    · exact ⟨by simp [hclient], rfl, rfl, rfl⟩
    · exact ⟨by simp [hclient], rfl, rfl, rfl⟩
  · -- activateRollback
    cases h
    exact ⟨fun hclient => by simp [goto, mapClient, hclient], rfl, rfl, rfl⟩
  · split_ifs at h <;> cases h <;> exact (SameLatches.refl s).goto _
  · cases h
    exact (SameLatches.refl s).goto _
  · cases h
    exact (SameLatches.refl s).goto _
  · obtain ⟨s₁, hstop, rfl⟩ := Option.map_eq_some_iff.mp h
    exact (stopClient_same hstop).goto _
  · cases h
    exact (invalidateInterfaces_same s choice.accepted).goto _
  · exact absurd h (by simp)

/-- Neither do `on_deactivate` and the callbacks like it. -/
theorem nextQuiesce_same (h : s.nextQuiesce choice = some s') : SameLatches s s' := by
  unfold nextQuiesce at h
  split at h
  · obtain ⟨s₁, hstop, rfl⟩ := Option.map_eq_some_iff.mp h
    exact (stopClient_same hstop).goto _
  · cases h
    exact ⟨id, rfl, rfl, rfl⟩
  · rename_i k _
    have hsame := invalidateInterfaces_same s choice.accepted
    cases k <;> cases h <;> exact hsame.goto _
  · obtain ⟨s₁, hstop, rfl⟩ := Option.map_eq_some_iff.mp h
    exact (stopAuxiliary_same hstop).goto _
  · cases h
    exact ⟨fun _ => rfl, rfl, rfl, rfl⟩
  · exact absurd h (by simp)

theorem writeAxes_kept (s : State) (sample : SiSample) (accepted : Fin 6 → Bool) :
    LatchesKept s (s.writeAxes sample accepted).1 := by
  unfold writeAxes
  cases s.api <;> exact ⟨id, fun _ => rfl, id⟩

/-- `read()` keeps the latches, and may set them. -/
theorem nextRead_kept (h : s.nextRead choice = some s') : LatchesKept s s' := by
  unfold nextRead at h
  split at h
  · split_ifs at h
    cases h
    exact (LatchesKept.refl s).goto _
  · split at h <;> cases h <;> exact (LatchesKept.refl s).goto _
  · split at h <;> cases h
    exact (LatchesKept.refl s).goto _
  · split at h <;> cases h
    exact (LatchesKept.refl s).goto _
  · cases h
    exact (latchFatalFault_kept s _).goto _
  · split_ifs at h <;> cases h <;> exact (LatchesKept.refl s).goto _
  · split_ifs at h <;> cases h <;> exact (LatchesKept.refl s).goto _
  · split_ifs at h <;> cases h
    · exact (LatchesKept.refl s).goto _
    · exact (latchFatalFault_kept s _).goto _
  · split_ifs at h <;> cases h
    · exact (latchFatalFault_kept s _).goto _
    · exact (LatchesKept.refl s).goto _
  · rename_i checked _
    have hkept := writeAxes_kept s checked.sample choice.accepted
    split at h <;> rename_i hwrite <;> rw [hwrite] at hkept <;> cases h <;> exact hkept.goto _
  · cases h
    exact ⟨id, fun _ => rfl, fun _ => rfl⟩
  · cases h
    have hkept := ((invalidateInterfaces_same s choice.accepted).goto (.returned .readError)).kept
    exact ⟨hkept.client, hkept.fatalFault, hkept.interfaceWriteFault⟩
  · exact absurd h (by simp)

theorem nextConfigure_configuring (h : s.nextConfigure choice = some s') :
    s.call.configuring = true := by
  unfold nextConfigure at h
  split at h <;> simp_all [Call.configuring]

/-- A step of the framework belongs to one of the four kinds of call. -/
theorem next_framework (h : s.next (.framework choice) = some s') :
    s.nextConfigure choice = some s' ∨ s.nextActivate choice = some s' ∨
      s.nextQuiesce choice = some s' ∨ s.nextRead choice = some s' := by
  simp only [next, Option.or_eq_some_iff] at h
  tauto

/-- The framework calls, moves on in a call, or another thread moves. -/
theorem input_cases (i : Input) :
    (∃ callback, i = .call callback) ∨ (∃ choice, i = .framework choice) ∨ i.external = true := by
  cases i with
  | call callback => exact .inl ⟨callback, rfl⟩
  | framework choice => exact .inr (.inl ⟨choice, rfl⟩)
  | _ => exact .inr (.inr rfl)

/-- The steps of the other threads leave the framework's call and the interfaces alone, keep the
latches, and only add to what is stored. -/
structure Environment (s s' : State) : Prop where
  api : s'.api = s.api
  config : s'.config = s.config
  call : s'.call = s.call
  handles : s'.handles = s.handles
  interfaces : s'.interfaces = s.interfaces
  client : s'.client = none ↔ s.client = none
  latches : LatchesKept s s'
  stored : s.stored ⊆ s'.stored

/-- What the client and the clock do leaves the plugin's call alone. -/
theorem next_environment {i : Input} (h : s.next i = some s') (hi : i.external = true) :
    Environment s s' := by
  cases i with
  | call callback => exact absurd hi (by simp [Input.external])
  | framework choice => exact absurd hi (by simp [Input.external])
  | sample sample =>
    simp only [next] at h
    split at h
    · exact absurd h (by simp)
    rename_i client hclient
    split at h
    swap
    · exact absurd h (by simp)
    split at h <;> cases h
    · exact ⟨rfl, rfl, rfl, rfl, rfl, Iff.rfl, ⟨id, fun _ => rfl, id⟩, List.subset_cons_self _ _⟩
    · have hkept := latchFatalFault_kept s .SensorConfiguration
      exact ⟨rfl, rfl, rfl, rfl, rfl, Iff.rfl, ⟨hkept.client, hkept.fatalFault,
        hkept.interfaceWriteFault⟩, List.Subset.refl _⟩
  | receiver =>
    simp only [next] at h
    split at h <;> cases h
    · exact ⟨rfl, rfl, rfl, rfl, rfl, Iff.rfl, ⟨id, fun _ => rfl, id⟩, List.Subset.refl _⟩
    · exact ⟨rfl, rfl, rfl, rfl, rfl, by simp [mapClient],
        ⟨fun hclient => by simp [mapClient, hclient], fun _ => rfl, id⟩, List.Subset.refl _⟩
    · exact ⟨rfl, rfl, rfl, rfl, rfl, by simp [mapClient],
        ⟨fun hclient => by simp [mapClient, hclient], fun _ => rfl, id⟩, List.Subset.refl _⟩
  | clientFault code =>
    simp only [next] at h
    split at h
    · exact absurd h (by simp)
    rename_i client hclient
    split at h <;> cases h
    exact ⟨rfl, rfl, rfl, rfl, rfl, by simp [hclient],
      ⟨fun hnone => by simp [hclient] at hnone, fun _ => rfl, id⟩, List.Subset.refl _⟩
  | auxiliaryFailure =>
    simp only [next] at h
    split at h <;> cases h
    have hkept := latchFatalFault_kept s .Callback
    exact ⟨rfl, rfl, rfl, rfl, rfl, Iff.rfl, ⟨hkept.client, hkept.fatalFault,
      hkept.interfaceWriteFault⟩, List.Subset.refl _⟩
  | diagnostics =>
    simp only [next] at h
    split at h <;> cases h <;>
      exact ⟨rfl, rfl, rfl, rfl, rfl, Iff.rfl, ⟨id, fun _ => rfl, id⟩, List.Subset.refl _⟩
  | tick ticks =>
    cases h
    exact ⟨rfl, rfl, rfl, rfl, rfl, Iff.rfl, ⟨id, fun _ => rfl, id⟩, List.Subset.refl _⟩

/-- **Outside `on_configure` a step clears no latch.** -/
theorem latches_kept {i : Input} (h : s.next i = some s') (hcall : s.call.configuring = false) :
    LatchesKept s s' := by
  rcases input_cases i with ⟨callback, rfl⟩ | ⟨choice, rfl⟩ | hexternal
  · simp only [next] at h
    split at h <;> cases h <;> exact (LatchesKept.refl s).goto _
  · rcases next_framework h with hconf | hact | hqui | hread
    · simp [nextConfigure_configuring hconf] at hcall
    · exact (nextActivate_same hact).kept
    · exact (nextQuiesce_same hqui).kept
    · exact nextRead_kept hread
  · exact (next_environment h hexternal).latches

/-! ## What a `read()` in progress knows -/

/-- Some latch makes the next check fail. -/
def Latched (s : State) : Prop :=
  s.client = none ∨ s.fatalFault ≠ .None ∨ s.interfaceWriteFault = true

/-- A plugin stays latched. -/
theorem Latched.kept (h : s.Latched) (hkept : LatchesKept s s') : s'.Latched := by
  rcases h with hclient | hfatal | hwrite
  · exact .inl (hkept.client hclient)
  · exact .inr (.inl (by rwa [hkept.fatalFault hfatal]))
  · exact .inr (.inr (hkept.interfaceWriteFault hwrite))

/-- After a latch there is a fault. -/
theorem latched_latchFatalFault (s : State) {fault : FaultCode} (h : fault ≠ .None) :
    (s.latchFatalFault fault).fatalFault ≠ .None := by
  simp only [latchFatalFault]
  split_ifs with hnone
  · exact h
  · exact hnone

/-- A sample that passed every check of a `read()` whose latches were clear. -/
structure Passed (s : State) (checked : Checked) : Prop where
  clientFault : checked.clientFault = .None
  fatalFault : checked.fatalFault = .None
  interfaceWriteFault : checked.interfaceWriteFault = false
  stored : checked.sample ∈ {} :: s.stored
  finite : sampleIsFinite checked.sample = true
  fresh : sampleIsStale s.config checked.sample checked.now = false

/-- The framework is between the buffer and the return of a `read()`. -/
def ReadInv (s : State) : Prop :=
  match s.call with
  | .readFaulted sample | .readFaultCode sample | .readLatchedCode sample | .readLatch sample _ =>
    sample ∈ {} :: s.stored
  | .readFatalFault sample clientFault =>
    sample ∈ {} :: s.stored ∧ (clientFault ≠ .None → s.fatalFault ≠ .None)
  | .readWriteFault sample clientFault fatalFault =>
    sample ∈ {} :: s.stored ∧ clientFault = .None ∧ fatalFault = .None
  | .readFinite sample clientFault fatalFault writeFault =>
    sample ∈ {} :: s.stored ∧ clientFault = .None ∧ fatalFault = .None ∧ writeFault = false
  | .readStale sample clientFault fatalFault writeFault =>
    (sample ∈ {} :: s.stored ∧ sampleIsFinite sample = true) ∧
      clientFault = .None ∧ fatalFault = .None ∧ writeFault = false
  | .readWrite checked => Passed s checked
  | .returned (.readOk checked) => Passed s checked ∧ s.interfaces = axes checked.sample
  | .readFailed | .returned .readError => s.Latched
  | _ => True

theorem readInv_of_notReading (h : s.call.configuring = true ∨ s.call.resting = true) :
    s.ReadInv := by
  unfold ReadInv
  split <;> rename_i hcall <;> first
    | trivial
    | simp [hcall, Call.resting, Call.configuring] at h

theorem nextConfigure_call (h : s.nextConfigure choice = some s') :
    s'.call.configuring = true ∨ s'.call.resting = true := by
  unfold nextConfigure at h
  split at h
  · obtain ⟨_, _, rfl⟩ := Option.map_eq_some_iff.mp h
    exact .inl rfl
  · obtain ⟨_, _, rfl⟩ := Option.map_eq_some_iff.mp h
    exact .inl rfl
  all_goals first
    | (split at h <;> cases h <;> first | exact .inl rfl | exact .inr rfl)
    | (cases h; exact .inl rfl)
    | exact absurd h (by simp)

theorem nextActivate_resting (h : s.nextActivate choice = some s') :
    s'.call.resting = true := by
  unfold nextActivate at h
  split at h
  · split at h
    · cases h
      rfl
    · split at h <;> cases h
      · rfl
      · simp only [goto]
        split <;> rfl
  · cases h
    rfl
  · cases h
    rfl
  · split at h
    · exact absurd h (by simp)
    · split_ifs at h <;> cases h <;> rfl
  · cases h
    rfl
  · split_ifs at h <;> cases h <;> rfl
  · cases h
    simp only [goto]
    split <;> rfl
  · cases h
    simp only [goto]
    split <;> rfl
  · obtain ⟨_, _, rfl⟩ := Option.map_eq_some_iff.mp h
    rfl
  · cases h
    rfl
  · exact absurd h (by simp)

theorem nextQuiesce_resting (h : s.nextQuiesce choice = some s') :
    s'.call.resting = true := by
  unfold nextQuiesce at h
  split at h
  · obtain ⟨_, _, rfl⟩ := Option.map_eq_some_iff.mp h
    rfl
  · cases h
    rfl
  · rename_i k _
    cases k <;> cases h <;> rfl
  · obtain ⟨_, _, rfl⟩ := Option.map_eq_some_iff.mp h
    rfl
  · cases h
    rfl
  · exact absurd h (by simp)

theorem Passed.environment {checked : Checked} (h : Passed s checked) (henv : Environment s s') :
    Passed s' checked where
  clientFault := h.clientFault
  fatalFault := h.fatalFault
  interfaceWriteFault := h.interfaceWriteFault
  stored := List.cons_subset_cons _ henv.stored h.stored
  finite := h.finite
  fresh := henv.config ▸ h.fresh

/-- What a `read()` in progress knows stays true while the other threads move. -/
theorem ReadInv.environment (h : s.ReadInv) (henv : Environment s s') : s'.ReadInv := by
  have hstored := List.cons_subset_cons ({} : SiSample) henv.stored
  unfold ReadInv at h ⊢
  rw [henv.call]
  split at h
  · exact hstored h
  · exact hstored h
  · exact hstored h
  · exact hstored h
  · refine ⟨hstored h.1, fun hcode => ?_⟩
    have hfatal := h.2 hcode
    rwa [henv.latches.fatalFault hfatal]
  · exact ⟨hstored h.1, h.2⟩
  · exact ⟨hstored h.1, h.2⟩
  · exact ⟨⟨hstored h.1.1, h.1.2⟩, h.2⟩
  · exact h.environment henv
  · exact ⟨h.1.environment henv, henv.interfaces ▸ h.2⟩
  · exact h.kept henv.latches
  · exact h.kept henv.latches
  · trivial

/-- Every branch of `read()` keeps what the next one relies on; the branches that fail leave a latch
set. -/
theorem ReadInv.nextRead (hinv : s.ReadInv) (h : s.nextRead choice = some s') : s'.ReadInv := by
  have hkept := nextRead_kept h
  unfold State.nextRead at h
  unfold ReadInv at hinv
  split at h <;> (try (rename_i hcall; simp only [hcall] at hinv))
  · -- readBuffer
    split_ifs at h with hmem
    cases h
    exact hmem
  · -- readFaulted
    split at h <;> cases h
    · rename_i hclient
      exact .inl hclient
    · simp only [goto, ReadInv]
      split_ifs with hnone
      · exact ⟨hinv, fun hcode => absurd rfl hcode⟩
      · exact hinv
  · -- readFaultCode
    split at h <;> cases h
    simp only [goto, ReadInv]
    split_ifs with hnone
    · exact ⟨hinv, fun hcode => absurd rfl hcode⟩
    · exact hinv
  · -- readLatchedCode
    split at h <;> cases h
    exact hinv
  · -- readLatch
    cases h
    exact ⟨hinv, fun hcode => latched_latchFatalFault s hcode⟩
  · -- readFatalFault
    split_ifs at h with hnone <;> cases h
    · refine ⟨hinv.1, ?_, hnone⟩
      by_contra hcode
      exact hinv.2 hcode hnone
    · exact .inr (.inl hnone)
  · -- readWriteFault
    split_ifs at h with hwrite <;> cases h
    · exact .inr (.inr hwrite)
    · exact ⟨hinv.1, hinv.2.1, hinv.2.2, by simpa using hwrite⟩
  · -- readFinite
    split_ifs at h with hfinite <;> cases h
    · exact ⟨⟨hinv.1, hfinite⟩, hinv.2⟩
    · exact .inr (.inl (latched_latchFatalFault s (by decide)))
  · -- readStale
    split_ifs at h with hstale <;> cases h
    · exact .inr (.inl (latched_latchFatalFault s (by decide)))
    · obtain ⟨⟨hstored, hfinite⟩, hclient, hfatal, hwrite⟩ := hinv
      exact ⟨hclient, hfatal, hwrite, hstored, hfinite, by simpa [goto] using hstale⟩
  · -- readWrite
    rename_i checked
    unfold writeAxes at h
    split at h <;> rename_i hwrite <;> cases h <;> cases hapi : s.api <;>
      simp only [hapi, Prod.mk.injEq, decide_eq_true_eq] at hwrite
    · obtain ⟨rfl, -⟩ := hwrite
      exact ⟨⟨hinv.clientFault, hinv.fatalFault, hinv.interfaceWriteFault, hinv.stored, hinv.finite,
        hinv.fresh⟩, rfl⟩
    · obtain ⟨rfl, haccepted⟩ := hwrite
      refine ⟨⟨hinv.clientFault, hinv.fatalFault, hinv.interfaceWriteFault, hinv.stored,
        hinv.finite, hinv.fresh⟩, ?_⟩
      funext j
      exact if_pos fun i _ => haccepted i
    · exact absurd hwrite.2 (by simp)
    · trivial
  · -- readLatchWriteFault
    cases h
    exact .inr (.inr rfl)
  · -- readFailed
    cases h
    exact hinv.kept hkept
  · exact absurd h (by simp)

/-- **The checks that a `read()` has passed hold of its sample**, in every reachable state. -/
theorem readInv_reachable {api : Api} {config : Config} {interfaces : Fin 6 → Library.Double}
    (h : Reachable Step (init api config interfaces) s) : s.ReadInv := by
  refine h.invariant (readInv_of_notReading (.inr rfl)) fun s i s' _ hinv hstep => ?_
  rcases input_cases i with ⟨callback, rfl⟩ | ⟨choice, rfl⟩ | hexternal
  · simp only [Step, stepOf, next] at hstep
    split at hstep <;> cases hstep <;> cases callback <;> exact trivial
  · rcases next_framework hstep with hconf | hact | hqui | hread
    · exact readInv_of_notReading (nextConfigure_call hconf)
    · exact readInv_of_notReading (.inr (nextActivate_resting hact))
    · exact readInv_of_notReading (.inr (nextQuiesce_resting hqui))
    · exact hinv.nextRead hread
  · exact hinv.environment (next_environment hstep hexternal)

/-! ## After an ERROR -/

/-- No `read()` can return OK: some latch is set, and a `read()` in progress has yet to look at it. -/
def Failing (s : State) : Prop :=
  match s.call with
  | .readFaultCode _ | .readLatchedCode _ | .readLatch _ _ | .readFatalFault _ _ =>
    s.fatalFault ≠ .None ∨ s.interfaceWriteFault = true
  | .readWriteFault _ _ _ => s.interfaceWriteFault = true
  | .readFinite _ _ _ _ | .readStale _ _ _ _ | .readWrite _ | .readLatchWriteFault
  | .returned (.readOk _) => False
  | call => call.configuring = false ∧ s.Latched

/-- Between calls a latched plugin is failing. -/
theorem failing_of_resting (hcall : s.call.resting = true) (hlatched : s.Latched) : s.Failing := by
  have hconfiguring := Call.resting_configuring hcall
  unfold Failing
  split <;> rename_i hs <;> first
    | exact ⟨hconfiguring, hlatched⟩
    | simp [hs, Call.resting] at hcall

theorem Failing.latched (h : s.Failing) : s.call.configuring = false ∧ s.Latched := by
  unfold Failing at h
  split at h
  · exact ⟨by simp_all [Call.configuring], .inr h⟩
  · exact ⟨by simp_all [Call.configuring], .inr h⟩
  · exact ⟨by simp_all [Call.configuring], .inr h⟩
  · exact ⟨by simp_all [Call.configuring], .inr h⟩
  · exact ⟨by simp_all [Call.configuring], .inr (.inr h)⟩
  all_goals first | exact h.elim | exact h

/-- A step of a failing `read()` keeps it failing. -/
theorem Failing.nextRead (hfailing : s.Failing) (h : s.nextRead choice = some s') : s'.Failing := by
  have hkept := nextRead_kept h
  have hlatched' := hfailing.latched.2.kept hkept
  unfold State.nextRead at h
  unfold Failing at hfailing
  split at h <;> (try (rename_i hcall; simp only [hcall] at hfailing))
  · -- readBuffer
    split_ifs at h
    cases h
    exact ⟨rfl, hlatched'⟩
  · -- readFaulted: with a client, the latch is one of the two that are yet to be loaded
    split at h <;> cases h
    · exact ⟨rfl, hlatched'⟩
    · rename_i client hclient
      have hboth : s.fatalFault ≠ .None ∨ s.interfaceWriteFault = true :=
        hfailing.2.resolve_left (by simp [hclient])
      simp only [goto, Failing]
      split_ifs <;> exact hboth
  · -- readFaultCode
    split at h <;> cases h
    simp only [goto, Failing]
    split_ifs <;> exact hfailing
  · split at h <;> cases h
    exact hfailing
  · -- readLatch
    cases h
    exact hfailing.imp (fun hfatal => by rwa [hkept.fatalFault hfatal]) hkept.interfaceWriteFault
  · -- readFatalFault
    split_ifs at h with hnone <;> cases h
    · exact hfailing.resolve_left (not_not.mpr hnone)
    · exact ⟨rfl, hlatched'⟩
  · -- readWriteFault
    split_ifs at h
    cases h
    exact ⟨rfl, hlatched'⟩
  · -- readFailed
    cases h
    exact ⟨rfl, hlatched'⟩
  · exact absurd h (by simp)

/-- While `on_configure` is not called, no `read()` gets past the latches. -/
theorem Failing.step {i : Input} (hfailing : s.Failing) (hcall : i ≠ .call .configure)
    (h : s.next i = some s') : s'.Failing := by
  obtain ⟨hconfiguring, hlatched⟩ := hfailing.latched
  have hlatched' := hlatched.kept (latches_kept h hconfiguring)
  rcases input_cases i with ⟨callback, rfl⟩ | ⟨choice, rfl⟩ | hexternal
  · simp only [next] at h
    split at h <;> cases h <;> cases callback <;> first
      | exact absurd rfl hcall
      | exact ⟨rfl, hlatched'⟩
  · rcases next_framework h with hconf | hact | hqui | hread
    · rw [nextConfigure_configuring hconf] at hconfiguring
      cases hconfiguring
    · exact failing_of_resting (nextActivate_resting hact) hlatched'
    · exact failing_of_resting (nextQuiesce_resting hqui) hlatched'
    · exact hfailing.nextRead hread
  · have henv := next_environment h hexternal
    unfold Failing at hfailing ⊢
    rw [henv.call]
    have hboth : s.fatalFault ≠ .None ∨ s.interfaceWriteFault = true →
        s'.fatalFault ≠ .None ∨ s'.interfaceWriteFault = true :=
      Or.imp (fun hfatal => by rwa [henv.latches.fatalFault hfatal]) henv.latches.interfaceWriteFault
    split at hfailing
    · exact hboth hfailing
    · exact hboth hfailing
    · exact hboth hfailing
    · exact hboth hfailing
    · exact henv.latches.interfaceWriteFault hfailing
    all_goals first
      | exact hfailing.elim
      | exact ⟨hfailing.1, hlatched'⟩

/-! ## `read()` is fail-safe -/

/-- The interfaces hold one sample that the sample callback stored: no latch was set when this `read()`
looked, every axis is finite, and the sample is at most `receive_timeout` old, in nanoseconds as the source
computes them: not more than the 2⁻⁵³ of a rounding above. -/
structure Exported (s : State) (checked : Checked) : Prop where
  clientFault : checked.clientFault = .None
  fatalFault : checked.fatalFault = .None
  interfaceWriteFault : checked.interfaceWriteFault = false
  stored : checked.sample ∈ s.stored
  interfaces : s.interfaces = axes checked.sample
  finite : ∀ i, (s.interfaces i).isFinite = true
  age : checked.now - checked.sample.receivedAt ≤ timeoutNanoseconds s.config
  fresh : 0 ≤ s.config.receiveTimeout → ((checked.now - checked.sample.receivedAt : Ticks) : ℚ) ≤
    s.config.receiveTimeout * ticksPerSecond * (1 + 1 / 2 ^ 53)

/-- The six axes of a finite sample are finite. -/
theorem axes_isFinite {sample : SiSample} (h : sampleIsFinite sample = true) (i : Fin 6) :
    (axes sample i).isFinite = true := by
  simp only [sampleIsFinite, Triple.all, Bool.and_eq_true] at h
  obtain ⟨⟨⟨hfx, hfy⟩, hfz⟩, ⟨htx, hty⟩, htz⟩ := h
  fin_cases i
  · exact hfx
  · exact hfy
  · exact hfz
  · exact htx
  · exact hty
  · exact htz

/-- The sample of a buffer that no callback has written is stale. -/
theorem Passed.exported {checked : Checked} (h : Passed s checked)
    (hinterfaces : s.interfaces = axes checked.sample) : Exported s checked := by
  have hfresh := h.fresh
  simp only [sampleIsStale, Bool.or_eq_false_iff, decide_eq_false_iff_not, not_le, not_lt] at hfresh
  refine ⟨h.clientFault, h.fatalFault, h.interfaceWriteFault, ?_, hinterfaces, fun i => ?_, hfresh.2,
    fun htimeout => ?_⟩
  · rcases List.mem_cons.mp h.stored with hinitial | hstored
    · rw [hinitial] at hfresh
      exact absurd hfresh.1 (lt_irrefl 0)
    · exact hstored
  · rw [hinterfaces]
    exact axes_isFinite h.finite i
  · have hticks : (0 : ℚ) ≤ ticksPerSecond := by norm_num [ticksPerSecond]
    calc ((checked.now - checked.sample.receivedAt : Ticks) : ℚ)
        ≤ timeoutNanoseconds s.config := by exact_mod_cast hfresh.2
      _ ≤ s.config.receiveTimeout * ticksPerSecond * (1 + 1 / 2 ^ 53) :=
        Double.floor_nearest_le (mul_nonneg htimeout hticks)

/-- A failing plugin stays so until it is configured again. -/
theorem Failing.runs {is : List Input} (hfailing : s.Failing)
    (hruns : Runs Step s is s') (hcall : ∀ i ∈ is, i ≠ .call .configure) : s'.Failing := by
  induction hruns with
  | nil _ => exact hfailing
  | cons hstep _ ih =>
    exact ih (hfailing.step (hcall _ List.mem_cons_self) hstep)
      fun i hi => hcall i (List.mem_cons_of_mem _ hi)

/-- And with the same fault. -/
theorem Failing.runs_fatalFault {is : List Input} (hfailing : s.Failing) (hruns : Runs Step s is s')
    (hcall : ∀ i ∈ is, i ≠ .call .configure) (hfatal : s.fatalFault ≠ .None) :
    s'.fatalFault = s.fatalFault := by
  induction hruns with
  | nil _ => rfl
  | cons hstep _ ih =>
    have hkept := (latches_kept hstep hfailing.latched.1).fatalFault hfatal
    rw [← hkept]
    exact ih (hfailing.step (hcall _ List.mem_cons_self) hstep)
      (fun i hi => hcall i (List.mem_cons_of_mem _ hi)) (by rwa [hkept])

/-- **`read()` is fail-safe.**  In every state that lifecycle callbacks, `read()` calls and the other
threads reach, for either API family: a `read()` that returns OK exports one stored sample, unlatched,
finite and fresh; and once a `read()` has returned ERROR, every later one does, and a code in
`fatal_fault_` stays, until `on_configure` is called. -/
theorem read_failSafe {api : Api} {config : Config} {interfaces : Fin 6 → Library.Double} {s : State}
    (h : Reachable Step (init api config interfaces) s) :
    (∀ checked, s.call = .returned (.readOk checked) → Exported s checked) ∧
    (s.call = .returned .readError → ∀ is s₁, Runs Step s is s₁ → (∀ i ∈ is, i ≠ .call .configure) →
      (∀ checked, s₁.call ≠ .returned (.readOk checked)) ∧
      ∀ js s₂, Runs Step s₁ js s₂ → (∀ j ∈ js, j ≠ .call .configure) →
        s₁.fatalFault ≠ .None → s₂.fatalFault = s₁.fatalFault) := by
  have hinv := readInv_reachable h
  constructor
  · intro checked hcall
    simp only [ReadInv, hcall] at hinv
    exact hinv.1.exported hinv.2
  · intro hcall is s₁ hruns hno
    have hfailing : s.Failing := by
      simp only [ReadInv, hcall] at hinv
      simp only [Failing, hcall]
      exact ⟨rfl, hinv⟩
    have hfailing₁ := hfailing.runs hruns hno
    refine ⟨fun checked hok => ?_, fun js s₂ hruns₂ hno₂ hfatal => ?_⟩
    · simp [Failing, hok] at hfailing₁
    · exact hfailing₁.runs_fatalFault hruns₂ hno₂ hfatal

/-! ## A read that returns OK -/

/-- A zero wrench in SI units, received 1 µs after the epoch. -/
def zeroSample : Sample :=
  { rdtSequence := 1, ftSequence := 1, status := 0, rawWrench := (⟨0, 0, 0⟩, ⟨0, 0, 0⟩)
    force := ⟨.finite 0, .finite 0, .finite 0⟩
    torque := ⟨.finite 0, .finite 0, .finite 0⟩
    forceUnit := .Newton
    torqueUnit := .NewtonMeter
    receivedAt := 1000 }

/-- A sample of zeros. -/
def zeroSiSample : SiSample := { rdtSequence := 1, ftSequence := 1, receivedAt := 1000 }

/-- `on_configure`, and every step of it. -/
def configureInputs : List Input := .call .configure :: List.replicate 10 (.framework {})

/-- `on_activate`, with one sample delivered while it waits. -/
def activateInputs : List Input :=
  .call .activate :: List.replicate 4 (.framework {}) ++ [.sample zeroSample, .receiver, .receiver] ++
    List.replicate 3 (.framework {})

/-- `read()` of a buffered sample. -/
def readInputs (sample : SiSample) (steps : Nat) : List Input :=
  [.call .read, .framework { sample }] ++ List.replicate steps (.framework {})

theorem fresh_read_exported : ∃ s checked,
    Reachable Step (init .Modern {} fun _ => .nan) s ∧ s.call = .returned (.readOk checked) ∧
      checked.sample = zeroSiSample ∧ Exported s checked := by
  have hrun : ((execute next (init .Modern {} fun _ => .nan)
      (configureInputs ++ activateInputs ++ [.tick 2000] ++ readInputs zeroSiSample 6)).map fun s =>
        match s.call with
        | .returned (.readOk checked) => checked.sample = zeroSiSample
        | _ => false) = some true := by
    decide +kernel
  obtain ⟨s, hruns, hcall⟩ := exists_runs_of_execute hrun
  split at hcall
  · rename_i checked hreturned
    exact ⟨s, checked, ⟨_, hruns⟩, hreturned, by simpa using hcall,
      (read_failSafe ⟨_, hruns⟩).1 checked hreturned⟩
  · exact absurd hcall (by simp)

/-! ## The age in exact time -/

/-- How old the sample was when `read()` looked at the clock, if it has returned OK. -/
def readAge (s : State) : Option Ticks :=
  match s.call with
  | .returned (.readOk checked) => some (checked.now - checked.sample.receivedAt)
  | _ => none

/-- In a valid configuration, a `read()` returns OK with a sample that is more than `receive_timeout` and
`excess` nanoseconds old. -/
def ReadsOlder (config : Config) (excess : ℚ) : Prop :=
  config.validate 0 = .ok () ∧
  ∃ s checked, Reachable Step (init .Modern config fun _ => .nan) s ∧ s.call = .returned (.readOk checked) ∧
    config.receiveTimeout * ticksPerSecond + excess < (checked.now - checked.sample.receivedAt : Ticks)

/-- A run whose `read()` is OK at that age. -/
theorem readsOlder_of_execute {config : Config} {excess : ℚ} (is : List Input) (age : Ticks)
    (hvalid : config.validate 0 = .ok ())
    (hrun : ((execute next (init .Modern config fun _ => .nan) is).map fun s =>
      decide (s.readAge = some age)) = some true)
    (hage : config.receiveTimeout * ticksPerSecond + excess < age) : ReadsOlder config excess := by
  obtain ⟨s, hruns, hs⟩ := exists_runs_of_execute hrun
  have hread := of_decide_eq_true hs
  simp only [readAge] at hread
  split at hread
  · rename_i checked hcall
    refine ⟨hvalid, s, checked, ⟨_, hruns⟩, hcall, ?_⟩
    rwa [Option.some.inj hread]
  · exact absurd hread (by simp)

/-- One sample, and a `read()` of it when it is `age` nanoseconds old. -/
def agedReadInputs (age : ℕ) : List Input :=
  configureInputs ++ activateInputs ++ [.tick (1000 + age)] ++ readInputs zeroSiSample 6

/-- The double nearest to 0.3 is less than that, and its product with 10^9 rounds to 300000000; for a timeout
of some 10^9 s, the product rounds to a multiple of 128 ns. -/
theorem old_read_exported :
    ReadsOlder { receiveTimeout := 5404319552844595 / 18014398509481984 } 0 ∧
      ReadsOlder { receiveTimeout := 10 ^ 9 + 1 / 2 ^ 23 } 8 := by
  constructor
  · -- 0.3 s as a double are 299999999.99999998… ns
    refine readsOlder_of_execute (agedReadInputs 300000000) 300000000 (by decide +kernel)
      (by decide +kernel) ?_
    norm_num [ticksPerSecond]
  · refine readsOlder_of_execute (agedReadInputs (10 ^ 18 + 128)) (10 ^ 18 + 128) (by decide +kernel)
      (by decide +kernel) ?_
    norm_num [ticksPerSecond]

end State

end NetFT.Plugin
