/-
# NetFT.Plugin.Activation — what a successful `on_activate` says about the plugin's latches.

`on_activate` looks at the client's latch (which its own `start()` has just reset) and at the sample
generation, but not at `fatal_fault_` or `interface_write_fault_`.  Those are cleared by
`on_configure` only, and `read()` may be called in between, in the inactive state: there the buffer
still holds its initial sample, which is stale.

* **`activated_iff_undisturbed`**: `on_activate` succeeds with clear latches exactly when, since
  `on_configure` cleared them, no `read()` returned ERROR, no sample overflowed and the auxiliary
  executor did not fail.
* `inactive_read_activates_faulted`: a history that ends in a successful `on_activate` with Timeout
  latched.
-/
import NetFT.Plugin.Read

namespace NetFT.Plugin

set_option autoImplicit false

open Library

/-! ## Stages of `on_configure` and `read` -/

/-- Between the join of the auxiliary thread and the end of `on_configure`. -/
def Call.auxiliaryJoined : Call → Bool
  | .configureStopClient | .configureResetClient => true
  | .configureGeneration | .configureWriteFault | .configureFatalFault | .configureInitBuffer
  | .configureInvalidate | .configureCreateClient => true
  | _ => false

/-- Between the reset of the old client and the creation of the new one. -/
def Call.clientReset : Call → Bool
  | .configureGeneration | .configureWriteFault | .configureFatalFault | .configureInitBuffer
  | .configureInvalidate | .configureCreateClient => true
  | _ => false

/-- Between the clearing of `fatal_fault_` and the creation of the new client. -/
def Call.latchesCleared : Call → Bool
  | .configureInitBuffer | .configureInvalidate | .configureCreateClient => true
  | _ => false

/-- A `read()` may have latched a fault that it has not reported yet. -/
def Call.latching : Call → Bool
  | .readFatalFault _ _ | .readFailed => true
  | _ => false

namespace State

variable {s s' : State} {choice : Choice}

/-! ## The invariant -/

/-- The latches are those that the history accounts for. -/
structure LatchInv (s : State) : Prop where
  auxiliary : s.call.auxiliaryJoined = true → s.auxiliary = .none
  client : s.call.clientReset = true → s.client = none
  writeCleared : s.call = .configureFatalFault → s.interfaceWriteFault = false
  cleared : s.call.latchesCleared = true → s.disturbed = false
  latched : s.disturbed = true → s.client ≠ none →
    s.fatalFault ≠ .None ∨ s.interfaceWriteFault = true
  clearWrite : s.disturbed = false → s.call ≠ .readFailed → s.interfaceWriteFault = false
  clearFatal : s.disturbed = false → s.call.latching = false → s.fatalFault = .None

/-! ## The other threads -/

/-- A step of another thread latches nothing, or latches a fault and leaves its mark. -/
theorem environment_latches {i : Input} (h : s.next i = some s') (hi : i.external = true) :
    (s.auxiliary = .none → s'.auxiliary = .none) ∧
      s'.interfaceWriteFault = s.interfaceWriteFault ∧
      ((s'.fatalFault = s.fatalFault ∧ s'.disturbed = s.disturbed) ∨
        (s'.fatalFault ≠ .None ∧ s'.disturbed = true ∧ (s.client ≠ none ∨ s.auxiliary ≠ .none))) := by
  cases i with
  | call callback => exact absurd hi (by simp [Input.external])
  | framework choice => exact absurd hi (by simp [Input.external])
  | sample sample =>
    simp only [next] at h
    split at h
    · exact absurd h (by simp)
    rename_i client hclient
    split at h
    swap
    · exact absurd h (by simp)
    split at h <;> cases h
    · exact ⟨id, rfl, .inl ⟨rfl, rfl⟩⟩
    · exact ⟨id, rfl, .inr ⟨latched_latchFatalFault s (by decide), rfl, .inl (by simp [hclient])⟩⟩
  | receiver =>
    simp only [next] at h
    split at h <;> cases h <;> exact ⟨id, rfl, .inl ⟨rfl, rfl⟩⟩
  | clientFault code =>
    simp only [next] at h
    split at h
    · exact absurd h (by simp)
    split at h <;> cases h
    exact ⟨id, rfl, .inl ⟨rfl, rfl⟩⟩
  | auxiliaryFailure =>
    simp only [next] at h
    split at h <;> cases h
    rename_i hspinning
    exact ⟨fun _ => rfl, rfl,
      .inr ⟨latched_latchFatalFault s (by decide), rfl, .inr (by simp [hspinning])⟩⟩
  | diagnostics =>
    simp only [next] at h
    split at h <;> cases h
    · rename_i client hauxiliary hclient
      exact ⟨fun hnone => by simp [hauxiliary] at hnone, rfl, .inl ⟨rfl, rfl⟩⟩
    · rename_i hauxiliary
      exact ⟨fun hnone => by simp [hauxiliary] at hnone, rfl, .inl ⟨rfl, rfl⟩⟩
  | tick ticks =>
    cases h
    exact ⟨id, rfl, .inl ⟨rfl, rfl⟩⟩

theorem LatchInv.environment {i : Input} (hinv : s.LatchInv) (h : s.next i = some s')
    (hi : i.external = true) : s'.LatchInv := by
  have henv := next_environment h hi
  obtain ⟨hauxiliary, hwrite, hlatch⟩ := environment_latches h hi
  rcases hlatch with ⟨hfatal, hdisturbed⟩ | ⟨hfatal, hdisturbed, hthreads⟩
  · refine ⟨fun hc => hauxiliary (hinv.auxiliary (henv.call ▸ hc)),
      fun hc => henv.client.mpr (hinv.client (henv.call ▸ hc)),
      fun hc => hwrite.trans (hinv.writeCleared (henv.call ▸ hc)),
      fun hc => hdisturbed.trans (hinv.cleared (henv.call ▸ hc)), ?_, ?_, ?_⟩
    · rw [hdisturbed, hfatal, hwrite]
      exact fun hd hclient => hinv.latched hd fun hnone => hclient (henv.client.mpr hnone)
    · rw [hdisturbed, hwrite, henv.call]
      exact hinv.clearWrite
    · rw [hdisturbed, hfatal, henv.call]
      exact hinv.clearFatal
  · refine ⟨fun hc => hauxiliary (hinv.auxiliary (henv.call ▸ hc)),
      fun hc => henv.client.mpr (hinv.client (henv.call ▸ hc)),
      fun hc => hwrite.trans (hinv.writeCleared (henv.call ▸ hc)), fun hc => ?_,
      fun _ _ => .inl hfatal, fun hd => ?_, fun hd => ?_⟩
    · -- neither thread is there while the latches are being cleared
      rw [henv.call] at hc
      have hboth : s.call.auxiliaryJoined = true ∧ s.call.clientReset = true := by
        revert hc
        cases s.call <;> simp [Call.latchesCleared, Call.auxiliaryJoined, Call.clientReset]
      rcases hthreads with hclient | haux
      · exact absurd (hinv.client hboth.2) hclient
      · exact absurd (hinv.auxiliary hboth.1) haux
    · simp [hdisturbed] at hd
    · simp [hdisturbed] at hd

/-! ## The framework -/

/-- A step that moves no latch. -/
theorem LatchInv.of_same (hinv : s.LatchInv) (hsame : SameLatches s s') (hfrom : s.call.latching = false)
    (hauxiliary : s'.call.auxiliaryJoined = true → s'.auxiliary = .none)
    (hclient : s'.call.clientReset = true → s'.client = none)
    (hwrite : s'.call = .configureFatalFault → s'.interfaceWriteFault = false)
    (hcleared : s'.call.latchesCleared = true → s'.disturbed = false) : s'.LatchInv := by
  refine ⟨hauxiliary, hclient, hwrite, hcleared, fun hd hsome => ?_, fun hd _ => ?_, fun hd _ => ?_⟩
  · rw [hsame.fatalFault, hsame.interfaceWriteFault]
    exact hinv.latched (hsame.disturbed ▸ hd) fun hnone => hsome (hsame.client hnone)
  · rw [hsame.interfaceWriteFault]
    refine hinv.clearWrite (hsame.disturbed ▸ hd) fun hfailed => ?_
    simp [hfailed, Call.latching] at hfrom
  · rw [hsame.fatalFault]
    exact hinv.clearFatal (hsame.disturbed ▸ hd) hfrom

/-- In a call that neither clears nor sets a latch, the invariant is about the latches alone. -/
theorem LatchInv.resting (hinv : s.LatchInv) (hcall : s'.call.resting = true)
    (hsame : SameLatches s s') (hfrom : s.call.latching = false) : s'.LatchInv := by
  have hnot : ∀ p : Call → Bool, (∀ call : Call, call.resting = true → p call = false) →
      p s'.call = true → False := fun p hp ht => by simp [hp s'.call hcall] at ht
  refine hinv.of_same hsame hfrom (fun hc => ?_) (fun hc => ?_) (fun hc => ?_) fun hc => ?_
  · exact (hnot Call.auxiliaryJoined
      (by rintro (_ | _) <;> simp [Call.resting, Call.auxiliaryJoined]) hc).elim
  · exact (hnot Call.clientReset (by rintro (_ | _) <;> simp [Call.resting, Call.clientReset]) hc).elim
  · rw [hc] at hcall
    exact absurd hcall (by simp [Call.resting])
  · exact (hnot Call.latchesCleared (by rintro (_ | _) <;> simp [Call.resting, Call.latchesCleared]) hc).elim

/-- A step of `read()` that may latch a fault, on the way to the report. -/
theorem LatchInv.latch (hinv : s.LatchInv) (hkept : LatchesKept s s')
    (hdisturbed : s'.disturbed = s.disturbed)
    (hcall : (∃ sample code, s'.call = .readFatalFault sample code ∧
      s'.interfaceWriteFault = s.interfaceWriteFault) ∨ s'.call = .readFailed)
    (hfrom : s.call ≠ .readFailed) : s'.LatchInv := by
  have hlatching : s'.call.latching = true := by
    rcases hcall with ⟨sample, code, hcall, -⟩ | hcall <;> rw [hcall] <;> rfl
  refine ⟨fun hc => ?_, fun hc => ?_, fun hc => ?_, fun hc => ?_, fun hd hsome => ?_,
    fun hd hnot => ?_, fun hd hc => ?_⟩
  · rcases hcall with ⟨sample, code, hcall, -⟩ | hcall <;> rw [hcall] at hc <;> cases hc
  · rcases hcall with ⟨sample, code, hcall, -⟩ | hcall <;> rw [hcall] at hc <;> cases hc
  · rcases hcall with ⟨sample, code, hcall, -⟩ | hcall <;> rw [hcall] at hc <;> cases hc
  · rcases hcall with ⟨sample, code, hcall, -⟩ | hcall <;> rw [hcall] at hc <;> cases hc
  · rcases hinv.latched (hdisturbed ▸ hd) fun hnone => hsome (hkept.client hnone) with hfatal | hwrite
    · exact .inl (by rwa [hkept.fatalFault hfatal])
    · exact .inr (hkept.interfaceWriteFault hwrite)
  · rcases hcall with ⟨sample, code, -, hwrite⟩ | hcall
    · rw [hwrite]
      exact hinv.clearWrite (hdisturbed ▸ hd) hfrom
    · exact absurd hcall hnot
  · rw [hlatching] at hc
    cases hc

theorem invalidateInterfaces_auxiliary (s : State) (accepted : Fin 6 → Bool) :
    (s.invalidateInterfaces accepted).auxiliary = s.auxiliary ∧
      (s.invalidateInterfaces accepted).client = s.client := by
  unfold invalidateInterfaces
  cases s.api <;> exact ⟨rfl, rfl⟩

theorem stopAuxiliary_none (h : s.stopAuxiliary = some s') : s'.auxiliary = .none := by
  unfold stopAuxiliary at h
  split at h <;> cases h
  rfl

theorem stopClient_auxiliary (h : s.stopClient = some s') : s'.auxiliary = s.auxiliary := by
  unfold stopClient at h
  split at h
  · cases h
    rfl
  · split at h <;> cases h
    rfl

/-- `on_configure` joins the auxiliary thread and drops the client before it clears the latches, so
nothing can set one before the new client exists. -/
theorem LatchInv.configure (hinv : s.LatchInv) (h : s.nextConfigure choice = some s') :
    s'.LatchInv := by
  have hauxiliary := hinv.auxiliary
  have hclient := hinv.client
  unfold nextConfigure at h
  split at h <;> (try rename_i hcall; rw [hcall] at hauxiliary hclient)
  · -- configureStopAuxiliary
    obtain ⟨s₁, hstop, rfl⟩ := Option.map_eq_some_iff.mp h
    have hnone := stopAuxiliary_none hstop
    exact hinv.of_same ((stopAuxiliary_same hstop).goto _) (by rw [hcall]; rfl) (fun _ => hnone)
      (by rintro ⟨⟩) (by rintro ⟨⟩) (by rintro ⟨⟩)
  · -- configureStopClient
    obtain ⟨s₁, hstop, rfl⟩ := Option.map_eq_some_iff.mp h
    exact hinv.of_same ((stopClient_same hstop).goto _) (by rw [hcall]; rfl)
      (fun _ => (stopClient_auxiliary hstop).trans (hauxiliary rfl)) (by rintro ⟨⟩) (by rintro ⟨⟩)
      (by rintro ⟨⟩)
  · -- configureResetClient
    cases h
    exact hinv.of_same ⟨fun _ => rfl, rfl, rfl, rfl⟩ (by rw [hcall]; rfl) (fun _ => hauxiliary rfl)
      (fun _ => rfl) (by rintro ⟨⟩) (by rintro ⟨⟩)
  · -- configureGeneration
    cases h
    exact hinv.of_same ⟨id, rfl, rfl, rfl⟩ (by rw [hcall]; rfl) (fun _ => hauxiliary rfl)
      (fun _ => hclient rfl) (by rintro ⟨⟩) (by rintro ⟨⟩)
  · -- configureWriteFault: there is no client
    cases h
    exact ⟨fun _ => hauxiliary rfl, fun _ => hclient rfl, fun _ => rfl, by rintro ⟨⟩,
      fun _ hsome => absurd (hclient rfl) hsome, fun _ _ => rfl,
      fun hd _ => hinv.clearFatal hd (by rw [hcall]; rfl)⟩
  · -- configureFatalFault
    cases h
    exact ⟨fun _ => hauxiliary rfl, fun _ => hclient rfl, by rintro ⟨⟩, fun _ => rfl, by rintro ⟨⟩,
      fun _ _ => hinv.writeCleared hcall, fun _ _ => rfl⟩
  · -- configureInitBuffer
    cases h
    exact hinv.of_same ((SameLatches.refl s).goto _) (by rw [hcall]; rfl) (fun _ => hauxiliary rfl)
      (fun _ => hclient rfl) (by rintro ⟨⟩) (fun _ => hinv.cleared (by rw [hcall]; rfl))
  · -- configureInvalidate
    cases h
    have hsame := invalidateInterfaces_same s choice.accepted
    obtain ⟨hkeepAuxiliary, hkeepClient⟩ := invalidateInterfaces_auxiliary s choice.accepted
    exact hinv.of_same (hsame.goto _) (by rw [hcall]; rfl)
      (fun _ => hkeepAuxiliary.trans (hauxiliary rfl)) (fun _ => hkeepClient.trans (hclient rfl))
      (by rintro ⟨⟩) (fun _ => hsame.disturbed.trans (hinv.cleared (by rw [hcall]; rfl)))
  · -- configureCreateClient: the latches are clear when the client appears
    have hundisturbed : s.disturbed = false := hinv.cleared (by rw [hcall]; rfl)
    split at h <;> cases h
    · refine ⟨by rintro ⟨⟩, by rintro ⟨⟩, by rintro ⟨⟩, by rintro ⟨⟩, fun hd => ?_, fun _ _ => ?_,
        fun _ _ => ?_⟩
      · exact absurd (hundisturbed.symm.trans hd) (by decide)
      · exact hinv.clearWrite hundisturbed (by rw [hcall]; rintro ⟨⟩)
      · exact hinv.clearFatal hundisturbed (by rw [hcall]; rfl)
    · exact hinv.resting rfl ((SameLatches.refl s).goto _) (by rw [hcall]; rfl)
  · -- configureStartAuxiliary
    split at h <;> cases h
    · exact hinv.resting rfl ⟨id, rfl, rfl, rfl⟩ (by rw [hcall]; rfl)
    · exact hinv.resting rfl ⟨fun _ => rfl, rfl, rfl, rfl⟩ (by rw [hcall]; rfl)
  · exact absurd h (by simp)

/-- A `read()` that latches a fault goes on to report it. -/
theorem LatchInv.read (hinv : s.LatchInv) (hread : s.ReadInv) (h : s.nextRead choice = some s') :
    s'.LatchInv := by
  -- a step that only goes on
  have hgo : ∀ {call : Call}, s.call.latching = false → call.auxiliaryJoined = false →
      call.clientReset = false → call.latchesCleared = false → call ≠ .configureFatalFault →
      (s.goto call).LatchInv := by
    intro call hfrom h₁ h₂ h₃ h₄
    have hnot : ∀ {b : Bool}, b = false → b = true → False := fun hf ht => by simp [hf] at ht
    exact hinv.of_same ((SameLatches.refl s).goto call) hfrom (fun hc => (hnot h₁ hc).elim)
      (fun hc => (hnot h₂ hc).elim) (fun hc => absurd hc h₄) fun hc => (hnot h₃ hc).elim
  unfold nextRead at h
  split at h <;> (try rename_i hcall)
  · -- readBuffer
    split at h <;> cases h
    exact hgo (by rw [hcall]; rfl) rfl rfl rfl (by rintro ⟨⟩)
  · -- readFaulted
    split at h <;> cases h
    · exact hgo (by rw [hcall]; rfl) rfl rfl rfl (by rintro ⟨⟩)
    · split_ifs <;> exact hgo (by rw [hcall]; rfl) rfl rfl rfl (by rintro ⟨⟩)
  · -- readFaultCode
    split at h <;> cases h
    split_ifs <;> exact hgo (by rw [hcall]; rfl) rfl rfl rfl (by rintro ⟨⟩)
  · -- readLatchedCode
    split at h <;> cases h
    exact hgo (by rw [hcall]; rfl) rfl rfl rfl (by rintro ⟨⟩)
  · -- readLatch
    cases h
    exact hinv.latch ((latchFatalFault_kept s _).goto _) rfl (.inl ⟨_, _, rfl, rfl⟩)
      (by rw [hcall]; rintro ⟨⟩)
  · -- readFatalFault
    split at h <;> cases h
    · rename_i hnone
      refine ⟨by rintro ⟨⟩, by rintro ⟨⟩, by rintro ⟨⟩, by rintro ⟨⟩, hinv.latched, fun hd _ => ?_,
        fun _ _ => hnone⟩
      exact hinv.clearWrite hd (by rw [hcall]; rintro ⟨⟩)
    · exact hinv.latch ((LatchesKept.refl s).goto _) rfl (.inr rfl) (by rw [hcall]; rintro ⟨⟩)
  · -- readWriteFault
    split at h <;> cases h <;> exact hgo (by rw [hcall]; rfl) rfl rfl rfl (by rintro ⟨⟩)
  · -- readFinite
    split at h <;> cases h
    · exact hgo (by rw [hcall]; rfl) rfl rfl rfl (by rintro ⟨⟩)
    · exact hinv.latch ((latchFatalFault_kept s _).goto _) rfl (.inr rfl) (by rw [hcall]; rintro ⟨⟩)
  · -- readStale
    split at h <;> cases h
    · exact hinv.latch ((latchFatalFault_kept s _).goto _) rfl (.inr rfl) (by rw [hcall]; rintro ⟨⟩)
    · exact hgo (by rw [hcall]; rfl) rfl rfl rfl (by rintro ⟨⟩)
  · -- readWrite
    rename_i checked
    have hsame : ∀ s₁ b, s.writeAxes checked.sample choice.accepted = (s₁, b) → SameLatches s s₁ := by
      intro s₁ b hwrite
      unfold writeAxes at hwrite
      cases hapi : s.api <;> simp only [hapi, Prod.mk.injEq] at hwrite <;> obtain ⟨rfl, -⟩ := hwrite <;>
        exact ⟨id, rfl, rfl, rfl⟩
    split at h <;> cases h <;> rename_i hwrite <;>
      exact hinv.of_same ((hsame _ _ hwrite).goto _) (by rw [hcall]; rfl) (by rintro ⟨⟩) (by rintro ⟨⟩)
        (by rintro ⟨⟩) (by rintro ⟨⟩)
  · -- readLatchWriteFault
    cases h
    exact hinv.latch ⟨id, fun _ => rfl, fun _ => rfl⟩ rfl (.inr rfl) (by rw [hcall]; rintro ⟨⟩)
  · -- readFailed: the branch that failed left a latch set, or there is no client
    cases h
    have hsame := invalidateInterfaces_same s choice.accepted
    have hlatched : s.Latched := by
      simpa only [ReadInv, hcall] using hread
    refine ⟨by rintro ⟨⟩, by rintro ⟨⟩, by rintro ⟨⟩, by rintro ⟨⟩, fun _ hsome => ?_, by rintro ⟨⟩,
      by rintro ⟨⟩⟩
    exact (hlatched.kept hsame.kept).resolve_left hsome
  · exact absurd h (by simp)

theorem nextActivate_from (h : s.nextActivate choice = some s') : s.call.latching = false := by
  unfold nextActivate at h
  split at h <;> first
    | (rename_i hcall; rw [hcall]; rfl)
    | exact absurd h (by simp)

theorem nextQuiesce_from (h : s.nextQuiesce choice = some s') : s.call.latching = false := by
  unfold nextQuiesce at h
  split at h <;> first
    | (rename_i hcall; rw [hcall]; rfl)
    | exact absurd h (by simp)

theorem latchInv_init (api : Api) (config : Config) (interfaces : Fin 6 → Library.Double) :
    (init api config interfaces).LatchInv := by
  constructor <;> simp [init, Call.auxiliaryJoined, Call.clientReset, Call.latchesCleared]

theorem latchInv_reachable {api : Api} {config : Config} {interfaces : Fin 6 → Library.Double}
    (h : Reachable Step (init api config interfaces) s) : s.LatchInv := by
  refine h.invariant (latchInv_init api config interfaces) fun s i s' hreach hinv hstep => ?_
  rcases input_cases i with ⟨callback, rfl⟩ | ⟨choice, rfl⟩ | hexternal
  · obtain ⟨-, -, -, -, hlatched, hclearWrite, hclearFatal⟩ := hinv
    simp only [Step, stepOf, next] at hstep
    split at hstep <;> cases hstep <;> cases callback <;> constructor <;>
      grind [goto, entry, Call.auxiliaryJoined, Call.clientReset, Call.latchesCleared,
        Call.latching]
  · rcases next_framework hstep with hconf | hact | hqui | hread
    · exact hinv.configure hconf
    · exact hinv.resting (nextActivate_resting hact) (nextActivate_same hact)
        (nextActivate_from hact)
    · exact hinv.resting (nextQuiesce_resting hqui) (nextQuiesce_same hqui)
        (nextQuiesce_from hqui)
    · exact hinv.read (readInv_reachable hreach) hread
  · exact hinv.environment hstep hexternal

/-! ## Activation -/

/-- No plugin fault is latched. -/
def LatchesClear (s : State) : Prop := s.fatalFault = .None ∧ s.interfaceWriteFault = false

/-- `on_activate` succeeds only with a client. -/
def ActivateInv (s : State) : Prop :=
  match s.call with
  | .activateGeneration | .activateInvalidate | .activateStart | .activateWait | .activateFaulted
  | .activateSampled | .returned (.activate true) => s.client ≠ none
  | _ => True

theorem mapClient_client_eq_none (s : State) (f : Client → Client) :
    (s.mapClient f).client = none ↔ s.client = none := by
  simp [mapClient]

theorem activateInv_reachable {api : Api} {config : Config} {interfaces : Fin 6 → Library.Double}
    (h : Reachable Step (init api config interfaces) s) : s.ActivateInv := by
  refine h.invariant (show (init api config interfaces).ActivateInv from trivial)
    fun s i s' _ hinv hstep => ?_
  rcases input_cases i with ⟨callback, rfl⟩ | ⟨choice, rfl⟩ | hexternal
  · simp only [Step, stepOf, next] at hstep
    split at hstep <;> cases hstep <;> cases callback <;> exact trivial
  · rcases next_framework hstep with hconf | hact | hqui | hread
    · unfold nextConfigure at hconf
      split at hconf <;> grind [goto, ActivateInv, Option.map_eq_some_iff]
    · have hkeep := fun s => invalidateInterfaces_auxiliary s choice.accepted
      unfold nextActivate at hact
      split at hact <;>
        grind [goto, ActivateInv, Option.map_eq_some_iff, mapClient_client_eq_none, stopClient]
    · unfold nextQuiesce at hqui
      split at hqui <;> grind [goto, ActivateInv, Option.map_eq_some_iff]
    · unfold nextRead at hread
      split at hread <;> grind [goto, ActivateInv, readError]
  · have henv := next_environment hstep hexternal
    unfold ActivateInv at hinv ⊢
    rw [henv.call]
    split at hinv <;> first
      | exact fun hnone => hinv (henv.client.mp hnone)
      | trivial

/-- An undisturbed `read()` of a buffered sample that is finite and fresh returns OK, if the interfaces
accept it. -/
def ReadsOk (s : State) : Prop :=
  ∀ sample, sample ∈ s.stored → sampleIsFinite sample = true →
    sampleIsStale s.config sample s.clock = false →
    (∀ client, s.client = some client → client.fault = .None) →
    ∃ s' checked, execute next s ([.call .read, .framework { sample }] ++
      List.replicate 6 (.framework {})) = some s' ∧ s'.call = .returned (.readOk checked)

/-- With clear latches, nothing in `read()` stands in the way of a good sample. -/
theorem readsOk_of_latchesClear (hcall : s.call = .returned (.activate true))
    (hclient : s.client ≠ none) (hclear : s.LatchesClear) : s.ReadsOk := by
  intro sample hstored hfinite hfresh hfault
  obtain ⟨client, hsome⟩ := Option.ne_none_iff_exists'.mp hclient
  obtain ⟨hfatal, hwrite⟩ := hclear
  have hnone := hfault client hsome
  have haxes : ∀ s₁ : State, s₁.writeAxes sample (fun _ => true) =
      ((s₁.writeAxes sample fun _ => true).1, true) := fun s₁ => by
    unfold writeAxes
    cases s₁.api <;> simp
  simp only [List.replicate, List.cons_append, List.nil_append, execute, next, hcall, goto, entry,
    Option.bind_some, nextConfigure, nextActivate, nextQuiesce, nextRead, Option.none_or,
    List.mem_cons, hstored, or_true, if_true, hsome, hnone, hfatal, hwrite, hfinite, hfresh,
    Bool.false_eq_true, if_false]
  rw [haxes]
  exact ⟨_, _, rfl, rfl⟩

/-- **`on_activate` succeeds with clear latches exactly when nothing disturbed the plugin since
`on_configure`**, and then a good sample can be read. -/
theorem activated_iff_undisturbed {api : Api} {config : Config} {interfaces : Fin 6 → Library.Double}
    (h : Reachable Step (init api config interfaces) s)
    (hactivated : s.call = .returned (.activate true)) :
    (s.LatchesClear ↔ s.disturbed = false) ∧ (s.LatchesClear → s.ReadsOk) := by
  have hinv := latchInv_reachable h
  have hclient : s.client ≠ none := by
    have hactivate := activateInv_reachable h
    simpa only [ActivateInv, hactivated] using hactivate
  refine ⟨⟨fun hclear => ?_, fun hd => ⟨?_, ?_⟩⟩, readsOk_of_latchesClear hactivated hclient⟩
  · by_contra hd
    rcases hinv.latched (by simpa using hd) hclient with hfatal | hwrite
    · exact hfatal hclear.1
    · simp [hclear.2] at hwrite
  · exact hinv.clearFatal hd (by rw [hactivated]; rfl)
  · exact hinv.clearWrite hd (by simp [hactivated])

/-- A `read()` in the inactive state: the buffer's initial sample is stale, and Timeout is latched. -/
def inactiveReadInputs : List Input := readInputs {} 6

/-- `on_configure`, an inactive `read()`, then `on_activate` with a live sensor: it succeeds with
Timeout latched. -/
theorem inactive_read_activates_faulted : ∃ s,
    Reachable Step (init .Modern {} fun _ => .nan) s ∧ s.call = .returned (.activate true) ∧
      ¬ s.LatchesClear := by
  have hrun : ((execute next (init .Modern {} fun _ => .nan)
      (configureInputs ++ inactiveReadInputs ++ activateInputs)).map fun s =>
        decide (s.call = .returned (.activate true)) && decide (s.fatalFault = .Timeout)) =
      some true := by
    decide +kernel
  obtain ⟨s, hruns, hs⟩ := exists_runs_of_execute hrun
  simp only [Bool.and_eq_true, decide_eq_true_eq] at hs
  refine ⟨s, ⟨_, hruns⟩, hs.1, fun hclear => ?_⟩
  rw [hclear.1] at hs
  exact absurd hs.2 (by decide)

/-- Without the `read()` in between, the same activation leaves the latches clear. -/
theorem undisturbed_activation_clear : ∃ s,
    Reachable Step (init .Modern {} fun _ => .nan) s ∧ s.call = .returned (.activate true) ∧
      s.LatchesClear ∧ s.ReadsOk := by
  have hrun : ((execute next (init .Modern {} fun _ => .nan)
      (configureInputs ++ activateInputs)).map fun s =>
        decide (s.call = .returned (.activate true)) && !s.disturbed) = some true := by
    decide +kernel
  obtain ⟨s, hruns, hs⟩ := exists_runs_of_execute hrun
  simp only [Bool.and_eq_true, decide_eq_true_eq, Bool.not_eq_true'] at hs
  have hlaw := activated_iff_undisturbed ⟨_, hruns⟩ hs.1
  exact ⟨s, ⟨_, hruns⟩, hs.1, hlaw.1.mpr hs.2, hlaw.2 (hlaw.1.mpr hs.2)⟩

end State

end NetFT.Plugin
