/-
# NetFT.Plugin.Teardown — who owns the client and the two threads, and that every callback returns.

The auxiliary thread (diagnostics and the bias service) and the sample callback use `client_` and the
fields of the plugin without a lock.  That is sound because of the order in which the lifecycle callbacks
stop and reset: the framework touches the handle only while neither thread is there.

* `Owned` says at every point of every callback which of the three exist; `Owned.step` keeps it.
* **`teardown_safe`**: the auxiliary thread always finds a client; the client is created and dropped only
  while neither thread is there; what a finished callback has torn down stays so until the callback that
  builds it again; and every callback returns, within a bounded number of moves of its own threads.
-/
import NetFT.Plugin.Activation
import NetFT.Plugin.Invalidate

namespace NetFT.Plugin

set_option autoImplicit false

open Library (Runs Reachable stepOf Double)

/-! ## Stages of the callbacks -/

/-- The auxiliary thread has been joined, and not been started again. -/
def Call.joined : Call → Bool
  | .configureStopClient | .configureResetClient | .configureGeneration | .configureWriteFault
  | .configureFatalFault | .configureInitBuffer | .configureInvalidate | .configureCreateClient
  | .configureStartAuxiliary | .quiesceResetClient _ => true
  | _ => false

/-- The client has been stopped, and not been started again. -/
def Call.stopped : Call → Bool
  | .configureResetClient | .configureStartAuxiliary | .activateRollback _ | .quiesceGeneration _
  | .quiesceInvalidate _ | .quiesceStopAuxiliary _ | .quiesceResetClient _ | .returned (.configure _)
  | .returned (.quiesce _) => true
  | _ => false

/-- There is neither a client nor an auxiliary thread. -/
def Call.released : Call → Bool
  | .configureGeneration | .configureWriteFault | .configureFatalFault | .configureInitBuffer
  | .configureInvalidate | .configureCreateClient | .returned (.configure false)
  | .returned (.quiesce .cleanup) | .returned (.quiesce .shutdown) => true
  | _ => false

/-- The callback goes on to use the client. -/
def Call.holds : Call → Bool
  | .configureStartAuxiliary | .activateGeneration | .activateInvalidate | .activateStart
  | .activateRollback _ | .activateWait | .activateFaulted | .activateSampled | .readFaultCode _
  | .readLatchedCode _ => true
  | _ => false

/-- `on_activate` may start the client, or has yet to restore it. -/
def Call.activating : Call → Bool
  | .activateHandles | .activateGeneration | .activateInvalidate | .activateStart
  | .activateRollback _ => true
  | _ => false

namespace State

variable {s s' : State} {choice : Choice}

/-! ## Ownership -/

/-- The client's worker may run. -/
def clientRuns (s : State) : Bool := s.client.any (·.running)

/-- Which of the client, its worker and the auxiliary thread there are. -/
structure Owned (s : State) : Prop where
  auxiliary : s.auxiliary ≠ .none → s.client ≠ none
  receiver : s.receiver ≠ .idle → s.clientRuns = true
  joined : s.call.joined = true → s.auxiliary = .none
  stopped : s.call.stopped = true → s.clientRuns = false
  released : s.call.released = true → s.client = none ∧ s.auxiliary = .none
  holds : s.call.holds = true → s.client ≠ none

/-- What a step of the framework leaves alone. -/
structure Keeps (s s' : State) : Prop where
  client : s'.client = s.client
  receiver : s'.receiver = s.receiver
  auxiliary : s'.auxiliary = s.auxiliary

theorem Keeps.goto (s : State) (call : Call) : Keeps s (s.goto call) := ⟨rfl, rfl, rfl⟩

theorem invalidateInterfaces_keeps (s : State) (accepted : Fin 6 → Bool) :
    Keeps s (s.invalidateInterfaces accepted) := by
  unfold invalidateInterfaces
  cases s.api <;> exact ⟨rfl, rfl, rfl⟩

theorem writeAxes_keeps (s : State) (sample : SiSample) (accepted : Fin 6 → Bool) :
    Keeps s (s.writeAxes sample accepted).1 := by
  unfold writeAxes
  cases s.api <;> exact ⟨rfl, rfl, rfl⟩

theorem Keeps.trans {s₁ : State} (h : Keeps s s₁) (h' : Keeps s₁ s') : Keeps s s' :=
  ⟨h'.client.trans h.client, h'.receiver.trans h.receiver, h'.auxiliary.trans h.auxiliary⟩

/-- `Client::stop` returns with the worker's thread ended. -/
theorem stopClient_spec (h : s.stopClient = some s') :
    (s.client ≠ none → s.receiver = .idle) ∧ s'.receiver = s.receiver ∧ s'.auxiliary = s.auxiliary ∧
      s'.clientRuns = false ∧ (s'.client = none ↔ s.client = none) := by
  unfold stopClient at h
  split at h
  · rename_i hnone
    cases h
    exact ⟨fun hsome => absurd hnone hsome, rfl, rfl, by simp [clientRuns, hnone], Iff.rfl⟩
  · rename_i client hclient
    split at h <;> cases h
    rename_i hidle
    exact ⟨fun _ => hidle, rfl, rfl, rfl, by simp [hclient]⟩

/-- `stop_auxiliary` returns with the auxiliary thread ended. -/
theorem stopAuxiliary_spec (h : s.stopAuxiliary = some s') :
    s'.auxiliary = .none ∧ s'.client = s.client ∧ s'.receiver = s.receiver := by
  unfold stopAuxiliary at h
  split at h <;> cases h
  exact ⟨rfl, rfl, rfl⟩

/-! ## The other threads -/

theorem Owned.environment {i : Input} (hinv : s.Owned) (h : s.next i = some s')
    (hi : i.external = true) :
    s'.Owned ∧ s'.clientRuns = s.clientRuns ∧ (s.auxiliary = .none → s'.auxiliary = .none) := by
  have henv := next_environment h hi
  have hruns : s'.clientRuns = s.clientRuns := by
    cases i with
    | call callback => cases hi
    | framework choice => cases hi
    | sample sample =>
      simp only [next] at h
      grind [clientRuns, latchFatalFault]
    | receiver =>
      simp only [next] at h
      split at h <;> cases h <;> cases hclient : s.client <;> simp [clientRuns, mapClient, hclient]
    | clientFault code =>
      simp only [next] at h
      split at h
      · cases h
      · rename_i client hclient
        split at h <;> cases h
        simp [clientRuns, hclient]
    | auxiliaryFailure => simp only [next] at h; split at h <;> cases h; rfl
    | diagnostics => simp only [next] at h; split at h <;> cases h <;> rfl
    | tick ticks => cases h; rfl
  have haux : (s.auxiliary = .none → s'.auxiliary = .none) := (environment_latches h hi).1
  have hreceiver : s'.receiver ≠ .idle → s.receiver ≠ .idle ∨ s.clientRuns = true := by
    intro hbusy
    cases i with
    | call callback => cases hi
    | framework choice => cases hi
    | sample sample =>
      simp only [next] at h
      split at h
      · cases h
      · rename_i client hclient
        split at h
        · rename_i hrun
          exact .inr (by simp [clientRuns, hclient, hrun.1])
        · cases h
    | receiver =>
      simp only [next] at h
      refine .inl fun hidle => ?_
      rw [hidle] at h
      cases h
    | clientFault code =>
      simp only [next] at h
      split at h
      · cases h
      · split at h <;> cases h
        exact .inl hbusy
    | auxiliaryFailure => simp only [next] at h; split at h <;> cases h; exact .inl hbusy
    | diagnostics => simp only [next] at h; split at h <;> cases h <;> exact .inl hbusy
    | tick ticks => cases h; exact .inl hbusy
  refine ⟨⟨fun hsome hnone => ?_, fun hbusy => ?_, ?_, ?_, ?_, ?_⟩, hruns, haux⟩
  · have hclient := henv.client.mp hnone
    by_cases hold : s.auxiliary = .none
    · exact hsome (haux hold)
    · exact hinv.auxiliary hold hclient
  · rw [hruns]
    exact (hreceiver hbusy).elim hinv.receiver id
  · rw [henv.call]
    exact fun hc => haux (hinv.joined hc)
  · rw [henv.call, hruns]
    exact hinv.stopped
  · rw [henv.call]
    exact fun hc => ⟨henv.client.mpr (hinv.released hc).1, haux (hinv.released hc).2⟩
  · rw [henv.call]
    exact fun hc hnone => hinv.holds hc (henv.client.mp hnone)

/-! ## The framework -/

/-- A step that leaves the three alone, to a point that asks for no more than the last. -/
theorem Owned.keep (hinv : s.Owned) (h : Keeps s s') (hjoined : s'.call.joined = true → s.call.joined = true)
    (hstopped : s'.call.stopped = true → s.call.stopped = true ∨ s.client = none)
    (hreleased : s'.call.released = true → s.call.released = true)
    (hholds : s'.call.holds = true → s.client ≠ none) : s'.Owned := by
  refine ⟨?_, ?_, ?_, ?_, ?_, ?_⟩
  · rw [h.auxiliary, h.client]
    exact hinv.auxiliary
  · rw [h.receiver, clientRuns, h.client]
    exact hinv.receiver
  · rw [h.auxiliary]
    exact fun hc => hinv.joined (hjoined hc)
  · intro hc
    rw [clientRuns, h.client]
    rcases hstopped hc with hc | hnone
    · exact hinv.stopped hc
    · simp [hnone]
  · rw [h.client, h.auxiliary]
    exact fun hc => hinv.released (hreleased hc)
  · rw [h.client]
    exact hholds

theorem Owned.idle (hinv : s.Owned) (h : s.clientRuns = false) : s.receiver = .idle := by
  by_contra hbusy
  rw [hinv.receiver hbusy] at h
  cases h

/-- `Client::stop` returns while the sample callback is not running. -/
theorem Owned.idle_of_stop (hinv : s.Owned) (h : s.stopClient = some s') : s'.receiver = .idle := by
  obtain ⟨hidle, hreceiver, -⟩ := stopClient_spec h
  rw [hreceiver]
  by_cases hnone : s.client = none
  · exact hinv.idle (by simp [clientRuns, hnone])
  · exact hidle hnone

theorem Owned.configure (hinv : s.Owned) (h : s.nextConfigure choice = some s') : s'.Owned := by
  have hjoined := hinv.joined
  have hstopped := hinv.stopped
  have hreleased := hinv.released
  unfold nextConfigure at h
  split at h <;> (try rename_i hcall; rw [hcall] at hjoined hstopped hreleased)
  · -- configureStopAuxiliary
    obtain ⟨s₁, hstop, rfl⟩ := Option.map_eq_some_iff.mp h
    obtain ⟨hnone, hclient, hreceiver⟩ := stopAuxiliary_spec hstop
    refine ⟨fun hsome => absurd hnone hsome, fun hbusy => ?_, fun _ => hnone, by rintro ⟨⟩,
      by rintro ⟨⟩, by rintro ⟨⟩⟩
    show s₁.clientRuns = true
    rw [clientRuns, hclient]
    exact hinv.receiver (hreceiver ▸ hbusy)
  · -- configureStopClient
    obtain ⟨s₁, hstop, rfl⟩ := Option.map_eq_some_iff.mp h
    obtain ⟨-, -, haux, hruns, -⟩ := stopClient_spec hstop
    have hnone : s₁.auxiliary = .none := haux.trans (hjoined rfl)
    exact ⟨fun hsome => absurd hnone hsome, fun hbusy => absurd (hinv.idle_of_stop hstop) hbusy,
      fun _ => hnone, fun _ => hruns, by rintro ⟨⟩, by rintro ⟨⟩⟩
  · -- configureResetClient
    cases h
    exact ⟨fun hsome => absurd (hjoined rfl) hsome,
      fun hbusy => absurd (hinv.idle (hstopped rfl)) hbusy, fun _ => hjoined rfl, by rintro ⟨⟩,
      fun _ => ⟨rfl, hjoined rfl⟩, by rintro ⟨⟩⟩
  · cases h
    exact hinv.keep ⟨rfl, rfl, rfl⟩ (fun _ => by rw [hcall]; rfl) (by rintro ⟨⟩)
      (fun _ => by rw [hcall]; rfl) (by rintro ⟨⟩)
  · cases h
    exact hinv.keep ⟨rfl, rfl, rfl⟩ (fun _ => by rw [hcall]; rfl) (by rintro ⟨⟩)
      (fun _ => by rw [hcall]; rfl) (by rintro ⟨⟩)
  · cases h
    exact hinv.keep ⟨rfl, rfl, rfl⟩ (fun _ => by rw [hcall]; rfl) (by rintro ⟨⟩)
      (fun _ => by rw [hcall]; rfl) (by rintro ⟨⟩)
  · cases h
    exact hinv.keep ⟨rfl, rfl, rfl⟩ (fun _ => by rw [hcall]; rfl) (by rintro ⟨⟩)
      (fun _ => by rw [hcall]; rfl) (by rintro ⟨⟩)
  · cases h
    exact hinv.keep ((invalidateInterfaces_keeps s choice.accepted).trans (.goto _ _))
      (fun _ => by rw [hcall]; rfl) (by rintro ⟨⟩) (fun _ => by rw [hcall]; rfl) (by rintro ⟨⟩)
  · -- configureCreateClient
    obtain ⟨hclient, haux⟩ := hreleased rfl
    split_ifs at h <;> cases h
    · have hidle : s.receiver = .idle := hinv.idle (by simp [clientRuns, hclient])
      exact ⟨fun hsome => absurd haux hsome, fun hbusy => absurd hidle hbusy, fun _ => haux, fun _ => rfl,
        by rintro ⟨⟩, by rintro _ ⟨⟩⟩
    · exact hinv.keep (.goto _ _) (by rintro ⟨⟩) (fun _ => .inr hclient)
        (fun _ => by rw [hcall]; rfl) (by rintro ⟨⟩)
  · -- configureStartAuxiliary
    have hidle := hinv.idle (hstopped rfl)
    split_ifs at h <;> cases h
    · exact ⟨fun _ => hinv.holds (by rw [hcall]; rfl), fun hbusy => absurd hidle hbusy, by rintro ⟨⟩,
        fun _ => hstopped rfl, by rintro ⟨⟩, by rintro ⟨⟩⟩
    · exact ⟨fun hsome => absurd (hjoined rfl) hsome, fun hbusy => absurd hidle hbusy, by rintro ⟨⟩,
        fun _ => rfl, fun _ => ⟨rfl, hjoined rfl⟩, by rintro ⟨⟩⟩
  · cases h

theorem Owned.activate (hinv : s.Owned) (h : s.nextActivate choice = some s') : s'.Owned := by
  have hholds := hinv.holds
  have hstopped := hinv.stopped
  unfold nextActivate at h
  split at h <;> (try rename_i hcall; rw [hcall] at hholds hstopped)
  · -- activateHandles
    by_cases hclient : s.client = none
    · rw [if_pos hclient] at h
      cases h
      exact hinv.keep (.goto _ _) (by rintro ⟨⟩) (by rintro ⟨⟩) (by rintro ⟨⟩) (by rintro ⟨⟩)
    · rw [if_neg hclient] at h
      cases hapi : s.api <;> rw [hapi] at h <;> cases h
      · exact hinv.keep (.goto _ _) (by rintro ⟨⟩) (by rintro ⟨⟩) (by rintro ⟨⟩) (fun _ => hclient)
      · split_ifs <;> exact hinv.keep ⟨rfl, rfl, rfl⟩ (by rintro ⟨⟩) (by rintro ⟨⟩) (by rintro ⟨⟩)
          (fun _ => hclient)
  · cases h
    exact hinv.keep ⟨rfl, rfl, rfl⟩ (by rintro ⟨⟩) (by rintro ⟨⟩) (by rintro ⟨⟩) (fun _ => hholds rfl)
  · cases h
    exact hinv.keep ((invalidateInterfaces_keeps s choice.accepted).trans (.goto _ _)) (by rintro ⟨⟩)
      (by rintro ⟨⟩) (by rintro ⟨⟩) (fun _ => hholds rfl)
  · -- activateStart
    split at h
    · cases h
    · split_ifs at h with hrunning hok hidle hok <;> cases h
      · exact hinv.keep (.goto _ _) (by rintro ⟨⟩) (by rintro ⟨⟩) (by rintro ⟨⟩) (by rintro ⟨⟩)
      · exact ⟨fun _ => by simp [goto], fun hbusy => absurd hidle hbusy, by rintro ⟨⟩, by rintro ⟨⟩,
          by rintro ⟨⟩, fun _ => by simp [goto]⟩
      · exact ⟨fun _ => by simp [goto], fun hbusy => absurd hidle hbusy, by rintro ⟨⟩, fun _ => rfl,
          by rintro ⟨⟩, fun _ => by simp [goto]⟩
  · -- activateRollback: no worker has been created
    cases h
    have hidle : s.receiver = .idle := hinv.idle (hstopped rfl)
    exact ⟨fun _ => by simpa [goto, mapClient] using hholds rfl, fun hbusy => absurd hidle hbusy,
      by rintro ⟨⟩, by rintro ⟨⟩, by rintro ⟨⟩, by rintro ⟨⟩⟩
  · split_ifs at h <;> cases h
    · exact hinv.keep (.goto _ _) (by rintro ⟨⟩) (by rintro ⟨⟩) (by rintro ⟨⟩) (fun _ => hholds rfl)
    · exact hinv.keep (.goto _ _) (by rintro ⟨⟩) (by rintro ⟨⟩) (by rintro ⟨⟩) (by rintro ⟨⟩)
  · cases h
    split_ifs <;> exact hinv.keep (.goto _ _) (by rintro ⟨⟩) (by rintro ⟨⟩) (by rintro ⟨⟩)
      (fun _ => hholds rfl)
  · cases h
    split_ifs <;> exact hinv.keep (.goto _ _) (by rintro ⟨⟩) (by rintro ⟨⟩) (by rintro ⟨⟩)
      (fun _ => hholds rfl)
  · -- activateStop
    obtain ⟨s₁, hstop, rfl⟩ := Option.map_eq_some_iff.mp h
    obtain ⟨-, -, haux, hruns, hclient⟩ := stopClient_spec hstop
    refine ⟨fun hsome hnone => ?_, fun hbusy => absurd (hinv.idle_of_stop hstop) hbusy, by rintro ⟨⟩,
      by rintro ⟨⟩, by rintro ⟨⟩, by rintro ⟨⟩⟩
    exact hinv.auxiliary (haux ▸ hsome) (hclient.mp hnone)
  · cases h
    exact hinv.keep ((invalidateInterfaces_keeps s choice.accepted).trans (.goto _ _)) (by rintro ⟨⟩)
      (by rintro ⟨⟩) (by rintro ⟨⟩) (by rintro ⟨⟩)
  · cases h

theorem Owned.quiesce (hinv : s.Owned) (h : s.nextQuiesce choice = some s') : s'.Owned := by
  have hjoined := hinv.joined
  have hstopped := hinv.stopped
  unfold nextQuiesce at h
  split at h <;> (try rename_i k hcall; rw [hcall] at hjoined hstopped)
  · -- quiesceStopClient
    obtain ⟨s₁, hstop, rfl⟩ := Option.map_eq_some_iff.mp h
    obtain ⟨-, -, haux, hruns, hclient⟩ := stopClient_spec hstop
    refine ⟨fun hsome hnone => ?_, fun hbusy => absurd (hinv.idle_of_stop hstop) hbusy, by rintro ⟨⟩,
      fun _ => hruns, by rintro ⟨⟩, by rintro ⟨⟩⟩
    exact hinv.auxiliary (haux ▸ hsome) (hclient.mp hnone)
  · cases h
    exact hinv.keep ⟨rfl, rfl, rfl⟩ (by rintro ⟨⟩) (fun _ => .inl (by rw [hcall]; rfl)) (by rintro ⟨⟩)
      (by rintro ⟨⟩)
  · -- quiesceInvalidate
    have hkeeps := invalidateInterfaces_keeps s choice.accepted
    cases k <;> cases h
    · exact hinv.keep (hkeeps.trans (.goto _ _)) (by rintro ⟨⟩) (fun _ => .inl (by rw [hcall]; rfl))
        (by rintro ⟨⟩) (by rintro ⟨⟩)
    · exact hinv.keep (hkeeps.trans (.goto _ _)) (by rintro ⟨⟩) (fun _ => .inl (by rw [hcall]; rfl))
        (by rintro ⟨⟩) (by rintro ⟨⟩)
    · exact hinv.keep (hkeeps.trans (.goto _ _)) (by rintro ⟨⟩) (fun _ => .inl (by rw [hcall]; rfl))
        (by rintro ⟨⟩) (by rintro ⟨⟩)
    · exact hinv.keep (hkeeps.trans (.goto _ _)) (by rintro ⟨⟩) (fun _ => .inl (by rw [hcall]; rfl))
        (by rintro ⟨⟩) (by rintro ⟨⟩)
  · -- quiesceStopAuxiliary
    obtain ⟨s₁, hstop, rfl⟩ := Option.map_eq_some_iff.mp h
    obtain ⟨hnone, hclient, hreceiver⟩ := stopAuxiliary_spec hstop
    have hruns : s₁.clientRuns = false := by
      rw [clientRuns, hclient]
      exact hstopped rfl
    refine ⟨fun hsome => absurd hnone hsome, fun hbusy => ?_, fun _ => hnone, fun _ => hruns,
      by rintro ⟨⟩, by rintro ⟨⟩⟩
    exact absurd (hinv.idle (hstopped rfl)) (hreceiver ▸ hbusy)
  · -- quiesceResetClient
    cases h
    refine ⟨fun hsome => absurd (hjoined rfl) hsome,
      fun hbusy => absurd (hinv.idle (hstopped rfl)) hbusy, by rintro ⟨⟩, fun _ => rfl,
      fun _ => ⟨rfl, hjoined rfl⟩, by rintro ⟨⟩⟩
  · cases h

theorem Owned.read (hinv : s.Owned) (h : s.nextRead choice = some s') : s'.Owned := by
  unfold nextRead at h
  split at h
  · split_ifs at h
    cases h
    exact hinv.keep (.goto _ _) (by rintro ⟨⟩) (by rintro ⟨⟩) (by rintro ⟨⟩) (by rintro ⟨⟩)
  · split at h
    · cases h
      exact hinv.keep (.goto _ _) (by rintro ⟨⟩) (by rintro ⟨⟩) (by rintro ⟨⟩) (by rintro ⟨⟩)
    · rename_i client hclient
      cases h
      split_ifs <;> exact hinv.keep (.goto _ _) (by rintro ⟨⟩) (by rintro ⟨⟩) (by rintro ⟨⟩)
        (fun _ => by simp [hclient])
  · split at h
    · cases h
    · rename_i client hclient
      cases h
      split_ifs <;> exact hinv.keep (.goto _ _) (by rintro ⟨⟩) (by rintro ⟨⟩) (by rintro ⟨⟩)
        (fun _ => by simp [hclient])
  · split at h <;> cases h
    exact hinv.keep (.goto _ _) (by rintro ⟨⟩) (by rintro ⟨⟩) (by rintro ⟨⟩) (by rintro ⟨⟩)
  · cases h
    exact hinv.keep ⟨rfl, rfl, rfl⟩ (by rintro ⟨⟩) (by rintro ⟨⟩) (by rintro ⟨⟩) (by rintro ⟨⟩)
  · split_ifs at h <;> cases h <;>
      exact hinv.keep (.goto _ _) (by rintro ⟨⟩) (by rintro ⟨⟩) (by rintro ⟨⟩) (by rintro ⟨⟩)
  · split_ifs at h <;> cases h <;>
      exact hinv.keep (.goto _ _) (by rintro ⟨⟩) (by rintro ⟨⟩) (by rintro ⟨⟩) (by rintro ⟨⟩)
  · split_ifs at h <;> cases h <;>
      exact hinv.keep ⟨rfl, rfl, rfl⟩ (by rintro ⟨⟩) (by rintro ⟨⟩) (by rintro ⟨⟩) (by rintro ⟨⟩)
  · split_ifs at h <;> cases h <;>
      exact hinv.keep ⟨rfl, rfl, rfl⟩ (by rintro ⟨⟩) (by rintro ⟨⟩) (by rintro ⟨⟩) (by rintro ⟨⟩)
  · rename_i checked hcall
    have hkeeps := writeAxes_keeps s checked.sample choice.accepted
    split at h <;> rename_i s₁ hwrite <;> rw [hwrite] at hkeeps <;> cases h <;>
      exact hinv.keep (hkeeps.trans (.goto _ _)) (by rintro ⟨⟩) (by rintro ⟨⟩) (by rintro ⟨⟩)
        (by rintro ⟨⟩)
  · cases h
    exact hinv.keep ⟨rfl, rfl, rfl⟩ (by rintro ⟨⟩) (by rintro ⟨⟩) (by rintro ⟨⟩) (by rintro ⟨⟩)
  · cases h
    have hkeeps := invalidateInterfaces_keeps s choice.accepted
    exact hinv.keep ⟨hkeeps.client, hkeeps.receiver, hkeeps.auxiliary⟩ (by rintro ⟨⟩) (by rintro ⟨⟩)
      (by rintro ⟨⟩) (by rintro ⟨⟩)
  · cases h

theorem Owned.step {i : Input} (hinv : s.Owned) (h : s.next i = some s') : s'.Owned := by
  rcases input_cases i with ⟨callback, rfl⟩ | ⟨choice, rfl⟩ | hexternal
  · simp only [next] at h
    split at h <;> cases h <;>
      cases callback <;> exact hinv.keep (.goto _ _) (by rintro ⟨⟩) (by rintro ⟨⟩) (by rintro ⟨⟩) (by rintro ⟨⟩)
  · rcases next_framework h with hconf | hact | hqui | hread
    · exact hinv.configure hconf
    · exact hinv.activate hact
    · exact hinv.quiesce hqui
    · exact hinv.read hread
  · exact (hinv.environment h hexternal).1

theorem owned_reachable {api : Api} {config : Config} {interfaces : Fin 6 → Double}
    (h : Reachable Step (init api config interfaces) s) : s.Owned := by
  refine h.invariant (I := State.Owned) ?_ fun s i s' _ hinv hstep => hinv.step hstep
  exact ⟨fun hsome => absurd rfl hsome, fun hbusy => absurd rfl hbusy, by rintro ⟨⟩, by rintro ⟨⟩,
    by rintro ⟨⟩, by rintro ⟨⟩⟩

/-! ## When the client comes and goes -/

theorem nextRead_keeps (h : s.nextRead choice = some s') : Keeps s s' := by
  unfold nextRead at h
  split at h
  · split_ifs at h
    cases h
    exact .goto _ _
  · split at h <;> cases h <;> exact .goto _ _
  · split at h <;> cases h
    exact .goto _ _
  · split at h <;> cases h
    exact .goto _ _
  · cases h
    exact ⟨rfl, rfl, rfl⟩
  · split_ifs at h <;> cases h <;> exact .goto _ _
  · split_ifs at h <;> cases h <;> exact .goto _ _
  · split_ifs at h <;> cases h <;> exact ⟨rfl, rfl, rfl⟩
  · split_ifs at h <;> cases h <;> exact ⟨rfl, rfl, rfl⟩
  · rename_i checked hcall
    have hkeeps := writeAxes_keeps s checked.sample choice.accepted
    split at h <;> rename_i s₁ hwrite <;> rw [hwrite] at hkeeps <;> cases h <;>
      exact hkeeps.trans (.goto _ _)
  · cases h
    exact ⟨rfl, rfl, rfl⟩
  · cases h
    have hkeeps := invalidateInterfaces_keeps s choice.accepted
    exact ⟨hkeeps.client, hkeeps.receiver, hkeeps.auxiliary⟩
  · cases h

/-- `on_activate` neither creates the client nor drops it, and leaves the auxiliary thread alone. -/
theorem nextActivate_client (h : s.nextActivate choice = some s') :
    (s'.client = none ↔ s.client = none) ∧ s'.auxiliary = s.auxiliary := by
  unfold nextActivate at h
  split at h
  · by_cases hclient : s.client = none
    · rw [if_pos hclient] at h
      cases h
      exact ⟨Iff.rfl, rfl⟩
    · rw [if_neg hclient] at h
      cases hapi : s.api <;> rw [hapi] at h <;> cases h <;> exact ⟨Iff.rfl, rfl⟩
  · cases h
    exact ⟨Iff.rfl, rfl⟩
  · cases h
    have hkeeps := invalidateInterfaces_keeps s choice.accepted
    exact ⟨by rw [goto, hkeeps.client], hkeeps.auxiliary⟩
  · split at h
    · cases h
    · rename_i client hclient
      split_ifs at h <;> cases h
      · exact ⟨Iff.rfl, rfl⟩
      · exact ⟨by simp [goto, hclient], rfl⟩
      · exact ⟨by simp [goto, hclient], rfl⟩
  · cases h
    exact ⟨by simp [goto, mapClient], rfl⟩
  · split_ifs at h <;> cases h <;> exact ⟨Iff.rfl, rfl⟩
  · cases h
    exact ⟨Iff.rfl, rfl⟩
  · cases h
    exact ⟨Iff.rfl, rfl⟩
  · obtain ⟨s₁, hstop, rfl⟩ := Option.map_eq_some_iff.mp h
    obtain ⟨-, -, haux, -, hclient⟩ := stopClient_spec hstop
    exact ⟨hclient, haux⟩
  · cases h
    have hkeeps := invalidateInterfaces_keeps s choice.accepted
    exact ⟨by rw [goto, hkeeps.client], hkeeps.auxiliary⟩
  · cases h

/-- Neither thread uses the client. -/
structure Unused (s : State) : Prop where
  auxiliary : s.auxiliary = .none
  receiver : s.receiver = .idle
  worker : s.clientRuns = false

/-- **The handle is touched only while neither thread is there.** -/
theorem Owned.client_changes {i : Input} (hinv : s.Owned) (h : s.next i = some s')
    (hchange : ¬ (s'.client = none ↔ s.client = none)) : s.Unused := by
  have hunused : s.call.joined = true → s.call.stopped = true → s.Unused := fun hjoined hstopped =>
    ⟨hinv.joined hjoined, hinv.idle (hinv.stopped hstopped), hinv.stopped hstopped⟩
  have hsame : s'.client = s.client → s.Unused := fun heq => absurd (by rw [heq]) hchange
  have hstop : ∀ call, (s.stopClient).map (·.goto call) = some s' → s.Unused := by
    intro call hmap
    obtain ⟨s₁, hstop, rfl⟩ := Option.map_eq_some_iff.mp hmap
    exact absurd (stopClient_spec hstop).2.2.2.2 hchange
  have haux : ∀ call, (s.stopAuxiliary).map (·.goto call) = some s' → s.Unused := by
    intro call hmap
    obtain ⟨s₁, hjoin, rfl⟩ := Option.map_eq_some_iff.mp hmap
    exact hsame (stopAuxiliary_spec hjoin).2.1
  rcases input_cases i with ⟨callback, rfl⟩ | ⟨choice, rfl⟩ | hexternal
  · simp only [next] at h
    split at h <;> cases h <;> exact hsame rfl
  · rcases next_framework h with h | h | h | h
    · unfold nextConfigure at h
      split at h <;> (try rename_i hcall)
      · exact haux _ h
      · exact hstop _ h
      · exact hunused (by rw [hcall]; rfl) (by rw [hcall]; rfl)
      · cases h
        exact hsame rfl
      · cases h
        exact hsame rfl
      · cases h
        exact hsame rfl
      · cases h
        exact hsame rfl
      · cases h
        exact hsame (invalidateInterfaces_keeps s choice.accepted).client
      · obtain ⟨hclient, hnone⟩ := hinv.released (by rw [hcall]; rfl)
        have hruns : s.clientRuns = false := by simp [clientRuns, hclient]
        exact ⟨hnone, hinv.idle hruns, hruns⟩
      · exact hunused (by rw [hcall]; rfl) (by rw [hcall]; rfl)
      · cases h
    · exact absurd (nextActivate_client h).1 hchange
    · unfold nextQuiesce at h
      split at h <;> (try rename_i k hcall)
      · exact hstop _ h
      · cases h
        exact hsame rfl
      · cases k <;> cases h <;> exact hsame (invalidateInterfaces_keeps s choice.accepted).client
      · exact haux _ h
      · exact hunused (by rw [hcall]; rfl) (by rw [hcall]; rfl)
      · cases h
    · exact hsame (nextRead_keeps h).client
  · exact absurd (next_environment h hexternal).client hchange

/-! ## What has been torn down stays so -/

/-- There is neither a client nor an auxiliary thread. -/
def Released (s : State) : Prop := s.client = none ∧ s.auxiliary = .none

/-- The client does not run, and the sample callback is over. -/
def Halted (s : State) : Prop := s.clientRuns = false ∧ s.receiver = .idle

/-- The framework neither stores a sample nor publishes a report. -/
theorem framework_history (h : s.next (.framework choice) = some s') :
    s'.stored = s.stored ∧ s'.reports = s.reports := by
  have hinvalidate : ∀ t : State, (t.invalidateInterfaces choice.accepted).stored = t.stored ∧
      (t.invalidateInterfaces choice.accepted).reports = t.reports := by
    intro t
    unfold invalidateInterfaces
    cases t.api <;> exact ⟨rfl, rfl⟩
  have hwrite : ∀ sample, (s.writeAxes sample choice.accepted).1.stored = s.stored ∧
      (s.writeAxes sample choice.accepted).1.reports = s.reports := by
    intro sample
    unfold writeAxes
    cases s.api <;> exact ⟨rfl, rfl⟩
  rcases next_framework h with h | h | h | h
  · unfold nextConfigure at h
    split at h <;> grind [goto, stopClient, stopAuxiliary]
  · unfold nextActivate at h
    split at h <;> grind [goto, stopClient, mapClient]
  · unfold nextQuiesce at h
    split at h <;> grind [goto, stopClient, stopAuxiliary]
  · unfold nextRead at h
    split at h <;> grind [goto, latchFatalFault, readError]

/-- A callback that is not `on_configure` does not turn into it. -/
theorem next_configuring {i : Input} (h : s.next i = some s') (hcall : s.call.configuring = false)
    (hi : i ≠ .call .configure) : s'.call.configuring = false := by
  rcases input_cases i with ⟨callback, rfl⟩ | ⟨choice, rfl⟩ | hexternal
  · simp only [next] at h
    split at h <;> cases h <;> cases callback <;> first | exact absurd rfl hi | rfl
  · rcases next_framework h with h | h | h | h
    · rw [nextConfigure_configuring h] at hcall
      cases hcall
    · exact Call.resting_configuring (nextActivate_resting h)
    · exact Call.resting_configuring (nextQuiesce_resting h)
    · unfold nextRead at h
      split at h <;> grind [goto, latchFatalFault, readError, Call.configuring]
  · rw [(next_environment h hexternal).call]
    exact hcall

/-- Until the next `on_configure` nothing is built. -/
theorem Released.step {i : Input} (hrel : s.Released) (hinv : s.Owned) (h : s.next i = some s')
    (hcall : s.call.configuring = false) (hi : i ≠ .call .configure) :
    s'.Released ∧ s'.stored = s.stored ∧ s'.reports = s.reports := by
  obtain ⟨hclient, haux⟩ := hrel
  have hidle : s.receiver = .idle := hinv.idle (by simp [clientRuns, hclient])
  cases i with
  | call callback =>
    simp only [next] at h
    split at h <;> cases h <;> exact ⟨⟨hclient, haux⟩, rfl, rfl⟩
  | framework choice =>
    refine ⟨?_, framework_history h⟩
    rcases next_framework h with h | h | h | h
    · rw [nextConfigure_configuring h] at hcall
      cases hcall
    · obtain ⟨hsame, hkept⟩ := nextActivate_client h
      exact ⟨hsame.mpr hclient, hkept.trans haux⟩
    · unfold nextQuiesce at h
      split at h
      · obtain ⟨s₁, hstop, rfl⟩ := Option.map_eq_some_iff.mp h
        obtain ⟨-, -, hkept, -, hsame⟩ := stopClient_spec hstop
        exact ⟨hsame.mpr hclient, hkept.trans haux⟩
      · cases h
        exact ⟨hclient, haux⟩
      · rename_i k hk
        have hkeeps := invalidateInterfaces_keeps s choice.accepted
        cases k <;> cases h <;> exact ⟨hkeeps.client.trans hclient, hkeeps.auxiliary.trans haux⟩
      · obtain ⟨s₁, hjoin, rfl⟩ := Option.map_eq_some_iff.mp h
        obtain ⟨hnone, hsame, -⟩ := stopAuxiliary_spec hjoin
        exact ⟨hsame.trans hclient, hnone⟩
      · cases h
        exact ⟨rfl, haux⟩
      · cases h
    · have hkeeps := nextRead_keeps h
      exact ⟨hkeeps.client.trans hclient, hkeeps.auxiliary.trans haux⟩
  | sample sample => simp [next, hclient] at h
  | receiver => simp [next, hidle] at h
  | clientFault code => simp [next, hclient] at h
  | auxiliaryFailure => simp [next, haux] at h
  | diagnostics => simp [next, haux] at h
  | tick ticks =>
    cases h
    exact ⟨⟨hclient, haux⟩, rfl, rfl⟩

/-- Until the next `on_activate` the sample callback does not run. -/
theorem Halted.step {i : Input} (hhalt : s.Halted) (h : s.next i = some s')
    (hcall : s.call.activating = false) (hi : i ≠ .call .activate) :
    s'.Halted ∧ s'.call.activating = false ∧ s'.stored = s.stored := by
  obtain ⟨hruns, hidle⟩ := hhalt
  have hstill : ∀ client, s.client = some client → client.running = false := by
    intro client hclient
    simpa [clientRuns, hclient] using hruns
  cases i with
  | call callback =>
    simp only [next] at h
    split at h <;> cases h <;> cases callback <;>
      first | exact absurd rfl hi | exact ⟨⟨hruns, hidle⟩, rfl, rfl⟩
  | framework choice =>
    suffices hmain : s'.Halted ∧ s'.call.activating = false from
      ⟨hmain.1, hmain.2, (framework_history h).1⟩
    have hkeeps := invalidateInterfaces_keeps s choice.accepted
    have hstop : ∀ call, call.activating = false → (s.stopClient).map (·.goto call) = some s' →
        s'.Halted ∧ s'.call.activating = false := by
      intro call hcall' hmap
      obtain ⟨s₁, hstop, rfl⟩ := Option.map_eq_some_iff.mp hmap
      obtain ⟨-, hreceiver, -, hnot, -⟩ := stopClient_spec hstop
      exact ⟨⟨hnot, hreceiver.trans hidle⟩, hcall'⟩
    have hjoin : ∀ call, call.activating = false → (s.stopAuxiliary).map (·.goto call) = some s' →
        s'.Halted ∧ s'.call.activating = false := by
      intro call hcall' hmap
      obtain ⟨s₁, hjoin, rfl⟩ := Option.map_eq_some_iff.mp hmap
      obtain ⟨-, hclient, hreceiver⟩ := stopAuxiliary_spec hjoin
      refine ⟨⟨?_, hreceiver.trans hidle⟩, hcall'⟩
      show s₁.clientRuns = false
      rw [clientRuns, hclient]
      exact hruns
    have hsame : ∀ t : State, Keeps s t → t.call.activating = false →
        t.Halted ∧ t.call.activating = false := by
      intro t hk hcall'
      exact ⟨⟨by rw [clientRuns, hk.client]; exact hruns, hk.receiver.trans hidle⟩, hcall'⟩
    rcases next_framework h with h | h | h | h
    · unfold nextConfigure at h
      split at h
      · exact hjoin _ rfl h
      · exact hstop _ rfl h
      · cases h
        exact ⟨⟨rfl, hidle⟩, rfl⟩
      · cases h
        exact hsame _ ⟨rfl, rfl, rfl⟩ rfl
      · cases h
        exact hsame _ ⟨rfl, rfl, rfl⟩ rfl
      · cases h
        exact hsame _ ⟨rfl, rfl, rfl⟩ rfl
      · cases h
        exact hsame _ ⟨rfl, rfl, rfl⟩ rfl
      · cases h
        exact hsame _ (hkeeps.trans (.goto _ _)) rfl
      · split_ifs at h <;> cases h
        · exact ⟨⟨rfl, hidle⟩, rfl⟩
        · exact hsame _ (.goto _ _) rfl
      · split_ifs at h <;> cases h
        · exact ⟨⟨hruns, hidle⟩, rfl⟩
        · exact ⟨⟨rfl, hidle⟩, rfl⟩
      · cases h
    · unfold nextActivate at h
      split at h <;> (try rename_i hat; rw [hat] at hcall; cases hcall)
      · split_ifs at h <;> cases h <;> exact hsame _ (.goto _ _) rfl
      · cases h
        split_ifs <;> exact hsame _ (.goto _ _) rfl
      · cases h
        split_ifs <;> exact hsame _ (.goto _ _) rfl
      · exact hstop _ rfl h
      · cases h
        exact hsame _ (hkeeps.trans (.goto _ _)) rfl
      · cases h
    · unfold nextQuiesce at h
      split at h
      · exact hstop _ rfl h
      · cases h
        exact hsame _ ⟨rfl, rfl, rfl⟩ rfl
      · rename_i k hk
        cases k <;> cases h <;> exact hsame _ (hkeeps.trans (.goto _ _)) rfl
      · exact hjoin _ rfl h
      · cases h
        exact ⟨⟨rfl, hidle⟩, rfl⟩
      · cases h
    · refine hsame _ (nextRead_keeps h) ?_
      unfold nextRead at h
      split at h <;> grind [goto, latchFatalFault, readError, Call.activating]
  | sample sample =>
    simp only [next] at h
    split at h
    · cases h
    · rename_i client hclient
      rw [if_neg (by simp [hstill client hclient])] at h
      cases h
  | receiver => simp [next, hidle] at h
  | clientFault code =>
    simp only [next] at h
    split at h
    · cases h
    · rename_i client hclient
      rw [if_neg (by simp [hstill client hclient])] at h
      cases h
  | auxiliaryFailure =>
    simp only [next] at h
    split at h <;> cases h
    exact ⟨⟨hruns, hidle⟩, hcall, rfl⟩
  | diagnostics =>
    simp only [next] at h
    split at h <;> cases h <;> exact ⟨⟨hruns, hidle⟩, hcall, rfl⟩
  | tick ticks =>
    cases h
    exact ⟨⟨hruns, hidle⟩, hcall, rfl⟩

/-- What `on_cleanup`, `on_shutdown` and a failed `on_configure` leave. -/
theorem Released.runs {is : List Input} (h : Runs Step s is s') (hrel : s.Released) (hinv : s.Owned)
    (hcall : s.call.configuring = false) (hi : .call .configure ∉ is) :
    s'.Released ∧ s'.stored = s.stored ∧ s'.reports = s.reports := by
  induction h with
  | nil s => exact ⟨hrel, rfl, rfl⟩
  | @cons s s₁ s' i is hstep _ ih =>
    have hne : i ≠ .call .configure := fun heq => hi (heq ▸ List.mem_cons_self)
    obtain ⟨hrel₁, hstored, hreports⟩ := hrel.step hinv hstep hcall hne
    obtain ⟨hrel', hstored', hreports'⟩ := ih hrel₁ (hinv.step hstep)
      (next_configuring hstep hcall hne) fun hmem => hi (List.mem_cons_of_mem i hmem)
    exact ⟨hrel', hstored'.trans hstored, hreports'.trans hreports⟩

/-- What all four of the quiescing callbacks leave. -/
theorem Halted.runs {is : List Input} (h : Runs Step s is s') (hhalt : s.Halted)
    (hcall : s.call.activating = false) (hi : .call .activate ∉ is) :
    s'.Halted ∧ s'.stored = s.stored := by
  induction h with
  | nil s => exact ⟨hhalt, rfl⟩
  | @cons s s₁ s' i is hstep _ ih =>
    obtain ⟨hhalt₁, hcall₁, hstored⟩ :=
      hhalt.step hstep hcall fun heq => hi (heq ▸ List.mem_cons_self)
    obtain ⟨hhalt', hstored'⟩ := ih hhalt₁ hcall₁ fun hmem => hi (List.mem_cons_of_mem i hmem)
    exact ⟨hhalt', hstored'.trans hstored⟩

/-! ## Every callback returns -/

end State

/-- An upper bound on the steps of a callback that are left when every allocation and wait fails. -/
def Call.remaining : Call → Nat
  | .idle | .returned _ => 0
  | .configureStopAuxiliary => 10
  | .configureStopClient => 9
  | .configureResetClient => 8
  | .configureGeneration => 7
  | .configureWriteFault => 6
  | .configureFatalFault => 5
  | .configureInitBuffer => 4
  | .configureInvalidate => 3
  | .configureCreateClient => 2
  | .configureStartAuxiliary => 1
  | .activateHandles => 8
  | .activateGeneration => 7
  | .activateInvalidate => 6
  | .activateStart => 5
  | .activateFaulted => 4
  | .activateWait | .activateSampled => 3
  | .activateRollback _ | .activateStop => 2
  | .activateFailed => 1
  | .quiesceStopClient _ => 5
  | .quiesceGeneration _ => 4
  | .quiesceInvalidate _ => 3
  | .quiesceStopAuxiliary _ => 2
  | .quiesceResetClient _ => 1
  | .readBuffer => 12
  | .readFaulted _ => 11
  | .readFaultCode _ => 10
  | .readLatchedCode _ => 9
  | .readLatch _ _ => 8
  | .readFatalFault _ _ => 7
  | .readWriteFault _ _ _ => 6
  | .readFinite _ _ _ _ => 5
  | .readStale _ _ _ _ => 4
  | .readWrite _ => 3
  | .readLatchWriteFault => 2
  | .readFailed => 1

namespace State

variable {s s' : State} {choice : Choice}

/-- Neither thread stands in the way of a join. -/
structure Quiet (s : State) : Prop where
  receiver : s.receiver = .idle
  auxiliary : ∀ fault, s.auxiliary ≠ .publishing fault

/-- The callback, the sample callback and the auxiliary thread go on. -/
def Proceeds : Input → Prop
  | .framework _ | .receiver | .diagnostics => True
  | _ => False

theorem Quiet.of_keeps (hquiet : s.Quiet) (h : Keeps s s') : s'.Quiet :=
  ⟨h.receiver.trans hquiet.receiver, by rw [h.auxiliary]; exact hquiet.auxiliary⟩

theorem Quiet.stopClient (hquiet : s.Quiet) : ∃ s', s.stopClient = some s' ∧ s'.Quiet := by
  unfold State.stopClient
  cases hclient : s.client with
  | none => exact ⟨s, rfl, hquiet⟩
  | some client =>
    simp only [if_pos hquiet.receiver]
    exact ⟨_, rfl, hquiet.receiver, hquiet.auxiliary⟩

theorem Quiet.stopAuxiliary (hquiet : s.Quiet) : ∃ s', s.stopAuxiliary = some s' ∧ s'.Quiet := by
  unfold State.stopAuxiliary
  cases haux : s.auxiliary with
  | publishing fault => exact absurd haux (hquiet.auxiliary fault)
  | none => exact ⟨_, rfl, hquiet.receiver, by simp⟩
  | spinning => exact ⟨_, rfl, hquiet.receiver, by simp⟩

/-- The choice of a system in which everything fails that can. -/
def failing : Choice := { ok := false }

/-- The next step of a callback, and what it leaves. -/
def Advances (s : State) (next : Option State) : Prop :=
  ∃ s', next = some s' ∧ s'.Quiet ∧ s'.call.remaining < s.call.remaining

theorem Quiet.advance (hquiet : s.Quiet) (h : Keeps s s') (hless : s'.call.remaining < s.call.remaining) :
    Advances s (some s') := ⟨s', rfl, hquiet.of_keeps h, hless⟩

theorem Quiet.advance_stopClient (hquiet : s.Quiet) {call : Call}
    (hless : call.remaining < s.call.remaining) : Advances s ((s.stopClient).map (·.goto call)) := by
  obtain ⟨s₁, hstop, hquiet₁⟩ := hquiet.stopClient
  exact ⟨s₁.goto call, by rw [hstop]; rfl, hquiet₁.of_keeps (.goto _ _), hless⟩

theorem Quiet.advance_stopAuxiliary (hquiet : s.Quiet) {call : Call}
    (hless : call.remaining < s.call.remaining) : Advances s ((s.stopAuxiliary).map (·.goto call)) := by
  obtain ⟨s₁, hjoin, hquiet₁⟩ := hquiet.stopAuxiliary
  exact ⟨s₁.goto call, by rw [hjoin]; rfl, hquiet₁.of_keeps (.goto _ _), hless⟩

/-- The invalidation does not stand in the way. -/
theorem Quiet.advance_invalidate (hquiet : s.Quiet) {accepted : Fin 6 → Bool} {call : Call}
    (hless : call.remaining < s.call.remaining) :
    Advances s (some ((s.invalidateInterfaces accepted).goto call)) :=
  hquiet.advance ((invalidateInterfaces_keeps s accepted).trans (.goto _ _)) hless

/-- A callback with both threads quiet takes its next step. -/
theorem Owned.progress (hinv : s.Owned) (hquiet : s.Quiet) (hcall : s.call.remaining ≠ 0) :
    Advances s (s.next (.framework failing)) := by
  have hholds := hinv.holds
  have hgo : ∀ call : Call, call.remaining < s.call.remaining → Advances s (some (s.goto call)) :=
    fun call hless => hquiet.advance (.goto s call) hless
  simp only [next]
  cases hat : s.call with
  | idle => simp [hat, Call.remaining] at hcall
  | returned result => simp [hat, Call.remaining] at hcall
  | configureStopAuxiliary | configureStopClient =>
    simp only [nextConfigure, nextActivate, nextQuiesce, nextRead, hat, Option.or_none]
    first
    | exact hquiet.advance_stopAuxiliary (by rw [hat]; decide)
    | exact hquiet.advance_stopClient (by rw [hat]; decide)
  | configureResetClient | configureGeneration | configureWriteFault | configureFatalFault =>
    simp only [nextConfigure, hat, Option.some_or]
    exact ⟨_, rfl, ⟨hquiet.receiver, hquiet.auxiliary⟩, by rw [hat]; simp [goto, Call.remaining]⟩
  | configureInitBuffer =>
    simp only [nextConfigure, hat, Option.some_or]
    exact hgo _ (by rw [hat]; decide)
  | configureInvalidate =>
    simp only [nextConfigure, hat, Option.some_or]
    exact hquiet.advance_invalidate (by rw [hat]; decide)
  | configureCreateClient =>
    simp only [nextConfigure, hat, failing, Bool.false_eq_true, if_false, Option.some_or]
    exact hgo _ (by rw [hat]; decide)
  | configureStartAuxiliary =>
    simp only [nextConfigure, hat, failing, Bool.false_eq_true, if_false, Option.some_or]
    exact ⟨_, rfl, ⟨hquiet.receiver, hquiet.auxiliary⟩, by rw [hat]; simp [goto, Call.remaining]⟩
  | activateHandles =>
    simp only [nextConfigure, nextActivate, hat, failing, Option.none_or]
    by_cases hclient : s.client = none
    · rw [if_pos hclient]
      exact hgo _ (by rw [hat]; decide)
    · rw [if_neg hclient]
      cases s.api with
      | Legacy => exact hgo _ (by rw [hat]; decide)
      | Modern =>
        exact ⟨_, rfl, ⟨hquiet.receiver, hquiet.auxiliary⟩, by rw [hat]; simp [goto, Call.remaining]⟩
  | activateGeneration =>
    simp only [nextConfigure, nextActivate, hat, Option.none_or, Option.some_or]
    exact ⟨_, rfl, ⟨hquiet.receiver, hquiet.auxiliary⟩, by rw [hat]; simp [goto, Call.remaining]⟩
  | activateInvalidate | activateFailed =>
    simp only [nextConfigure, nextActivate, hat, Option.none_or, Option.some_or]
    exact hquiet.advance_invalidate (by rw [hat]; decide)
  | activateStart =>
    simp only [nextConfigure, nextActivate, nextQuiesce, nextRead, hat, failing, Bool.false_eq_true,
      if_false, Option.none_or, Option.or_none]
    split
    · rename_i hclient
      exact absurd hclient (hholds (by rw [hat]; rfl))
    · split_ifs with hrunning hidle
      · exact hgo _ (by rw [hat]; decide)
      · exact ⟨_, rfl, ⟨hquiet.receiver, hquiet.auxiliary⟩, by rw [hat]; simp [goto, Call.remaining]⟩
      · exact absurd hquiet.receiver hidle
  | activateRollback previous =>
    simp only [nextConfigure, nextActivate, hat, Option.none_or, Option.some_or]
    exact ⟨_, rfl, ⟨hquiet.receiver, hquiet.auxiliary⟩, by rw [hat]; simp [goto, Call.remaining]⟩
  | activateWait =>
    simp only [nextConfigure, nextActivate, hat, failing, Bool.false_eq_true, if_false, Option.none_or,
      Option.some_or]
    exact hgo _ (by rw [hat]; decide)
  | activateFaulted | activateSampled =>
    simp only [nextConfigure, nextActivate, hat, Option.none_or, Option.some_or]
    split_ifs <;> exact hgo _ (by rw [hat]; decide)
  | activateStop =>
    simp only [nextConfigure, nextActivate, nextQuiesce, nextRead, hat, Option.none_or, Option.or_none]
    exact hquiet.advance_stopClient (by rw [hat]; decide)
  | quiesceStopClient k =>
    simp only [nextConfigure, nextActivate, nextQuiesce, nextRead, hat, Option.none_or, Option.or_none]
    exact hquiet.advance_stopClient (by rw [hat]; simp [Call.remaining])
  | quiesceGeneration k | quiesceResetClient k =>
    simp only [nextConfigure, nextActivate, nextQuiesce, hat, Option.none_or, Option.some_or]
    exact ⟨_, rfl, ⟨hquiet.receiver, hquiet.auxiliary⟩, by rw [hat]; simp [goto, Call.remaining]⟩
  | quiesceInvalidate k =>
    simp only [nextConfigure, nextActivate, nextQuiesce, hat, Option.none_or]
    cases k <;> exact hquiet.advance_invalidate (by rw [hat]; decide)
  | quiesceStopAuxiliary k =>
    simp only [nextConfigure, nextActivate, nextQuiesce, nextRead, hat, Option.none_or, Option.or_none]
    exact hquiet.advance_stopAuxiliary (by rw [hat]; simp [Call.remaining])
  | readBuffer =>
    simp only [nextConfigure, nextActivate, nextQuiesce, nextRead, hat, failing, Option.none_or]
    exact hgo _ (by rw [hat]; simp [Call.remaining])
  | readFaulted sample =>
    simp only [nextConfigure, nextActivate, nextQuiesce, nextRead, hat, Option.none_or]
    split
    · exact hgo _ (by rw [hat]; simp [Call.remaining])
    · split_ifs <;> exact hgo _ (by rw [hat]; simp [Call.remaining])
  | readFaultCode sample =>
    simp only [nextConfigure, nextActivate, nextQuiesce, nextRead, hat, Option.none_or]
    split
    · rename_i hclient
      exact absurd hclient (hholds (by rw [hat]; rfl))
    · split_ifs <;> exact hgo _ (by rw [hat]; simp [Call.remaining])
  | readLatchedCode sample =>
    simp only [nextConfigure, nextActivate, nextQuiesce, nextRead, hat, Option.none_or]
    split
    · rename_i hclient
      exact absurd hclient (hholds (by rw [hat]; rfl))
    · exact hgo _ (by rw [hat]; simp [Call.remaining])
  | readLatch sample code | readLatchWriteFault =>
    simp only [nextConfigure, nextActivate, nextQuiesce, nextRead, hat, Option.none_or]
    exact ⟨_, rfl, ⟨hquiet.receiver, hquiet.auxiliary⟩, by rw [hat]; simp [goto, Call.remaining]⟩
  | readFatalFault sample clientFault | readWriteFault sample clientFault fatalFault =>
    simp only [nextConfigure, nextActivate, nextQuiesce, nextRead, hat, Option.none_or]
    split_ifs <;> exact hgo _ (by rw [hat]; simp [Call.remaining])
  | readFinite sample clientFault fatalFault writeFault
  | readStale sample clientFault fatalFault writeFault =>
    simp only [nextConfigure, nextActivate, nextQuiesce, nextRead, hat, Option.none_or]
    split_ifs <;>
      exact ⟨_, rfl, ⟨hquiet.receiver, hquiet.auxiliary⟩, by rw [hat]; simp [goto, Call.remaining]⟩
  | readWrite checked =>
    have hkeeps := writeAxes_keeps s checked.sample failing.accepted
    simp only [nextConfigure, nextActivate, nextQuiesce, nextRead, hat, Option.none_or]
    split <;> rename_i s₁ hwrite <;> rw [hwrite] at hkeeps <;>
      exact hquiet.advance (hkeeps.trans (.goto _ _)) (by rw [hat]; simp [goto, Call.remaining])
  | readFailed =>
    simp only [nextConfigure, nextActivate, nextQuiesce, nextRead, hat, Option.none_or]
    have hkeeps := invalidateInterfaces_keeps s failing.accepted
    exact hquiet.advance ⟨hkeeps.client, hkeeps.receiver, hkeeps.auxiliary⟩
      (by rw [hat]; simp [readError, goto, Call.remaining])

/-- The two threads come to where they are in nobody's way, within three moves. -/
theorem exists_quiet (s : State) : ∃ is s', is.length ≤ 3 ∧ (∀ i ∈ is, Proceeds i ∧ i.external = true) ∧
    Runs Step s is s' ∧ s'.Quiet := by
  have hreceiver : ∃ is s', is.length ≤ 2 ∧ (∀ i ∈ is, i = .receiver) ∧ Runs Step s is s' ∧
      s'.receiver = .idle := by
    cases hat : s.receiver with
    | idle => exact ⟨[], s, by simp, by simp, .nil s, hat⟩
    | stored =>
      let counted : State := { s with sampleGeneration := s.sampleGeneration + 1, receiver := .counted }
      have hfirst : Step s .receiver counted := by simp only [Step, stepOf, next, hat]; rfl
      exact ⟨[.receiver, .receiver], _, by simp, by simp, .cons hfirst (.single rfl), rfl⟩
    | counted =>
      exact ⟨[.receiver], _, by simp, by simp,
        .single (show s.next .receiver = some _ by simp only [next, hat]; rfl), rfl⟩
    | overflowed =>
      exact ⟨[.receiver], _, by simp, by simp,
        .single (show s.next .receiver = some _ by simp only [next, hat]; rfl), rfl⟩
  obtain ⟨is, s₁, hlength, his, hruns, hidle⟩ := hreceiver
  have hboth : ∀ i ∈ is, Proceeds i ∧ i.external = true := fun i hi => by
    rw [his i hi]
    exact ⟨trivial, rfl⟩
  cases haux : s₁.auxiliary with
  | none => exact ⟨is, s₁, by omega, hboth, hruns, hidle, by simp [haux]⟩
  | spinning => exact ⟨is, s₁, by omega, hboth, hruns, hidle, by simp [haux]⟩
  | publishing fault =>
    let published : State :=
      { s₁ with
        auxiliary := .spinning
        reports := (if fault = .None then s₁.fatalFault else fault) :: s₁.reports }
    have hlast : Step s₁ .diagnostics published := by
      simp only [Step, stepOf, next, haux]
      rfl
    refine ⟨is ++ [.diagnostics], published, ?_, fun i hi => ?_, hruns.append (.single hlast), hidle,
      by simp [published]⟩
    · rw [List.length_append]
      simp only [List.length_singleton]
      omega
    · rcases List.mem_append.mp hi with hi | hi
      · exact hboth i hi
      · rw [List.mem_singleton.mp hi]
        exact ⟨trivial, rfl⟩

theorem Owned.finishes (hinv : s.Owned) (hquiet : s.Quiet) :
    ∃ is s', is.length ≤ s.call.remaining ∧ (∀ i ∈ is, Proceeds i) ∧ Runs Step s is s' ∧
      s'.call.remaining = 0 := by
  generalize hn : s.call.remaining = n
  induction n using Nat.strong_induction_on generalizing s with
  | _ n ih =>
    by_cases hzero : s.call.remaining = 0
    · exact ⟨[], s, by simp, by simp, .nil s, hzero⟩
    obtain ⟨s₁, hstep, hquiet₁, hless⟩ := hinv.progress hquiet hzero
    obtain ⟨is, s', hlength, his, hruns, hdone⟩ := ih _ (hn ▸ hless) (hinv.step hstep) hquiet₁ rfl
    refine ⟨.framework failing :: is, s', ?_, ?_, .cons hstep hruns, hdone⟩
    · rw [List.length_cons]
      omega
    · intro i hi
      rcases List.mem_cons.mp hi with rfl | hi
      · trivial
      · exact his i hi

theorem Call.remaining_le (call : Call) : call.remaining ≤ 12 := by
  cases call <;> simp [Call.remaining]

/-- **Every callback returns**: within fifteen moves of its own threads. -/
theorem Owned.returns (hinv : s.Owned) : ∃ is s', is.length ≤ 15 ∧ (∀ i ∈ is, Proceeds i) ∧
    Runs Step s is s' ∧ s'.call.remaining = 0 := by
  obtain ⟨is, s₁, hlength, his, hruns, hquiet⟩ := exists_quiet s
  have hinv₁ : s₁.Owned := hruns.invariant (fun _ _ _ h hstep => h.step hstep) hinv
  obtain ⟨js, s', hlength', hjs, hruns', hdone⟩ := hinv₁.finishes hquiet
  refine ⟨is ++ js, s', ?_, fun i hi => ?_, hruns.append hruns', hdone⟩
  · have hle := Call.remaining_le s₁.call
    rw [List.length_append]
    omega
  · exact (List.mem_append.mp hi).elim (fun h => (his i h).1) (hjs i)

/-! ## The teardown -/

/-- What is promised of the plugin in a state. -/
structure TeardownSafe (s : State) : Prop where
  /-- Diagnostics and the bias service find a client. -/
  auxiliary : s.auxiliary ≠ .none → s.client ≠ none
  /-- Nobody uses the client while it is created or dropped. -/
  handle : ∀ i s', Step s i s' → ¬ (s'.client = none ↔ s.client = none) → s.Unused
  /-- After `on_cleanup`, `on_shutdown` or a failed `on_configure`: nothing until the next one. -/
  released : s.call = .returned (.configure false) ∨ s.call = .returned (.quiesce .cleanup) ∨
      s.call = .returned (.quiesce .shutdown) →
    ∀ is s', .call .configure ∉ is → Runs Step s is s' →
      s'.client = none ∧ s'.auxiliary = .none ∧ s'.stored = s.stored ∧ s'.reports = s.reports
  /-- After any of the four: no sample is stored until the next `on_activate`. -/
  halted : ∀ k, s.call = .returned (.quiesce k) → ∀ is s', .call .activate ∉ is → Runs Step s is s' →
    s'.clientRuns = false ∧ s'.receiver = .idle ∧ s'.stored = s.stored
  returns : ∃ is s', is.length ≤ 15 ∧ (∀ i ∈ is, Proceeds i) ∧ Runs Step s is s' ∧
    (s'.call = .idle ∨ ∃ result, s'.call = .returned result)

/-- **The teardown is safe** in every history of lifecycle callbacks, reads, samples and faults. -/
theorem teardown_safe {api : Api} {config : Config} {interfaces : Fin 6 → Double}
    (h : Reachable Step (init api config interfaces) s) : s.TeardownSafe := by
  have hinv := owned_reachable h
  refine ⟨hinv.auxiliary, fun i s' hstep hchange => hinv.client_changes hstep hchange,
    fun hcall is s' hi hruns => ?_, fun k hcall is s' hi hruns => ?_, ?_⟩
  · have hreleased : s.call.released = true := by rcases hcall with h | h | h <;> rw [h] <;> rfl
    have hconfiguring : s.call.configuring = false := by rcases hcall with h | h | h <;> rw [h] <;> rfl
    obtain ⟨⟨hclient, haux⟩, hstored, hreports⟩ :=
      Released.runs hruns (hinv.released hreleased) hinv hconfiguring hi
    exact ⟨hclient, haux, hstored, hreports⟩
  · have hstopped := hinv.stopped (by rw [hcall]; rfl)
    obtain ⟨⟨hnot, hidle⟩, hstored⟩ :=
      Halted.runs hruns ⟨hstopped, hinv.idle hstopped⟩ (by rw [hcall]; rfl) hi
    exact ⟨hnot, hidle, hstored⟩
  · obtain ⟨is, s', hlength, his, hruns, hdone⟩ := hinv.returns
    refine ⟨is, s', hlength, his, hruns, ?_⟩
    cases hat : s'.call with
    | idle => exact .inl rfl
    | returned result => exact .inr ⟨result, rfl⟩
    | _ => simp [hat, Call.remaining] at hdone

/-- Configured, activated and cleaned up again. -/
def cleanupInputs : List Input :=
  configureInputs ++ activateInputs ++ .call (.quiesce .cleanup) :: List.replicate 5 (.framework {})

theorem teardown_safe_cleanup : ∃ s : State, s.call = .returned (.quiesce .cleanup) ∧
    s.stored = [zeroSiSample] ∧ s.TeardownSafe := by
  have hrun : ((Library.execute next (init .Modern {} fun _ => .nan) cleanupInputs).map fun s =>
      decide (s.call = .returned (.quiesce .cleanup) ∧ s.stored = [zeroSiSample])) = some true := by
    decide +kernel
  obtain ⟨s, hruns, hs⟩ := Library.exists_runs_of_execute hrun
  obtain ⟨hcall, hstored⟩ := of_decide_eq_true hs
  exact ⟨s, hcall, hstored, teardown_safe ⟨_, hruns⟩⟩

end State

end NetFT.Plugin
