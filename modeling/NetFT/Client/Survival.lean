/-
# NetFT.Client.Survival — what a Reconnect session survives.

Under Reconnect `handle_record` forgives the FT discontinuities and a failed callback, but a serious
status stays the outcome of its record, and `run` closes the session on it.

* `Survives` is what the policy promises of one record, `StreamSurvives` of a session.
* `serious_delivered`: whether a sample with a serious status is filtered is as promised all the same.
* **`streamSurvives_iff`**: a session keeps the promise exactly when no record that it handles has a
  serious status; `serious_not_streamSurvives` is a session that does not.
-/
import NetFT.Client.Delivery
import NetFT.Client.Session
import NetFT.Wire

namespace NetFT.Client

set_option autoImplicit false

/-! ## The promise -/

/-- The pass hands `record` to `handle_record`. -/
def HandlesRecord (s : LoopState) (p : Pass) (record : RawRecord) : Prop :=
  p.now < s.deadline ∧
    (∃ data, receive (Ticks.toSeconds (s.deadline - p.now)) p.reception = .ok data ∧
      decodeRecord data = .ok record) ∧
    ∃ deadline, checkedDeadline p.receivedAt s.impl.config.receiveTimeout = .ok deadline

/-- Neither tracker finds the record late, or twice the same. -/
def Impl.inOrder (c : Impl) (record : RawRecord) : Bool :=
  !(c.rdtSequence.observe record.rdtSequence).1.kind.dropped &&
    !(c.ftSequence.observe record.ftSequence).1.discontinuity

/-- **The stream survives a record**: it does not end the session, and a serious status only decides
whether the sample is filtered. -/
structure Survives (c : Impl) (record : RawRecord) (receivedAt : TimePoint) (result : CallbackResult) :
    Prop where
  stays : (c.handleRecord record receivedAt result).2 = .ok none
  filtered : classifyStatus record.status = .Error → c.config.deliverSamplesWithErrorStatus = false →
    c.passes record receivedAt = false
  delivered : classifyStatus record.status = .Error → c.config.deliverSamplesWithErrorStatus = true →
    c.config.sampleRateLimitHz = 0 → c.inOrder record = true → c.passes record receivedAt = true

/-- What may end a session. -/
def sessionEnds : List SessionResult :=
  [.Stopped, .Timeout, .Socket, .SensorConfiguration, .MalformedStorm]

structure StreamSurvives (c : Impl) (input : SessionInput) : Prop where
  record : ∀ pre s p record, InSession c input pre s p → HandlesRecord s p record →
    Survives s.impl.clearMalformed record p.receivedAt p.result
  ends : ∀ c' outcome, c.receiveSession input = (c', .ok outcome) →
    outcome.result ∈ sessionEnds ∧
      (outcome.result = .SensorConfiguration →
        ∃ what, configurationForSession c.config input.discovery = .error what)

/-- Every sample that the session scales is finite. -/
def FiniteSamples (c : Impl) (input : SessionInput) : Prop :=
  ∀ pre s p record configuration, InSession c input pre s p → HandlesRecord s p record →
    s.impl.health.sensorConfiguration = some configuration →
    Sample.isFinite (sampleOf record configuration p.receivedAt) = true

/-! ## One record -/

variable {c : Impl} {record : RawRecord} {receivedAt : TimePoint} {result : CallbackResult}

/-- How `handle_record` ends, whatever the callback does. -/
theorem handleRecord_of_finite {configuration : SensorConfiguration}
    (hconf : c.health.sensorConfiguration = some configuration)
    (hfinite : Sample.isFinite (sampleOf record configuration receivedAt) = true)
    (hpolicy : c.config.recoveryPolicy = .Reconnect) :
    (c.handleRecord record receivedAt result).2 = .ok (c.recordOutcome record) := by
  obtain ⟨_, _, _, _, _, hframe⟩ := c.observeRecord_frame record receivedAt
  have hpolicy' : (c.observeRecord record receivedAt).1.config.recoveryPolicy = .Reconnect := by
    rw [hframe]
    exact hpolicy
  unfold Impl.handleRecord
  rw [Impl.prepareRecord_of_finite hconf hfinite]
  cases c.delivers record receivedAt with
  | false => rfl
  | true =>
    simp only [if_true, Impl.finishRecord]
    split
    · rfl
    · simp [callbackFailureOutcome, hpolicy']

theorem recordOutcome_reconnect (hpolicy : c.config.recoveryPolicy = .Reconnect) :
    c.recordOutcome record =
      if classifyStatus record.status = .Error then some .SeriousStatus else none :=
  verdict_reconnect hpolicy _ _ _

theorem delivers_eq (c : Impl) (record : RawRecord) (receivedAt : TimePoint) :
    c.delivers record receivedAt =
      (c.inOrder record &&
        (classifyStatus record.status != .Error || c.config.deliverSamplesWithErrorStatus) &&
        !rateLimited c.config c.lastDeliveryAt receivedAt) := by
  rw [Impl.delivers, verdict_deliver, Impl.inOrder]

/-- **The stream survives a record exactly when its status is not serious.** -/
theorem survives_iff {configuration : SensorConfiguration}
    (hconf : c.health.sensorConfiguration = some configuration)
    (hfinite : Sample.isFinite (sampleOf record configuration receivedAt) = true)
    (hpolicy : c.config.recoveryPolicy = .Reconnect) :
    Survives c record receivedAt result ↔ classifyStatus record.status ≠ .Error := by
  have houtcome : (c.handleRecord record receivedAt result).2 = .ok (c.recordOutcome record) :=
    handleRecord_of_finite hconf hfinite hpolicy
  rw [recordOutcome_reconnect hpolicy] at houtcome
  constructor
  · intro hsurvives hserious
    rw [hsurvives.stays, if_pos hserious] at houtcome
    cases houtcome
  · intro hmild
    refine ⟨?_, fun hserious => absurd hserious hmild, fun hserious => absurd hserious hmild⟩
    rw [houtcome, if_neg hmild]

/-- A serious record does all that is promised but leave the session open. -/
theorem serious_delivered {configuration : SensorConfiguration}
    (hconf : c.health.sensorConfiguration = some configuration)
    (hfinite : Sample.isFinite (sampleOf record configuration receivedAt) = true)
    (hserious : classifyStatus record.status = .Error) :
    c.passes record receivedAt =
      (c.config.deliverSamplesWithErrorStatus && c.inOrder record &&
        !rateLimited c.config c.lastDeliveryAt receivedAt) := by
  have hpasses : c.passes record receivedAt = c.delivers record receivedAt := by
    rw [Impl.passes, Impl.prepareRecord_of_finite hconf hfinite]
    cases c.delivers record receivedAt <;> rfl
  rw [hpasses, delivers_eq, hserious, Bool.and_comm (c.inOrder record)]
  rfl

/-! ## A session -/

variable {input : SessionInput} {s s' : LoopState} {p : Pass}

/-- A pass that handles a record does nothing else. -/
theorem loopStep_of_handles (h : HandlesRecord s p record) :
    ∃ deadline, loopStep s p =
      match s.impl.clearMalformed.handleRecord record p.receivedAt p.result with
      | (c, .error what) => .raised c what
      | (c, .ok (some outcome)) => .ended c { result := outcome, receivedValidRecord := true }
      | (c, .ok none) => .next { impl := c, deadline, receivedValidRecord := true } := by
  obtain ⟨hnow, ⟨data, hreceive, hdecode⟩, deadline, hdeadline⟩ := h
  have hne : data ≠ [] := by
    rintro rfl
    simp [decodeRecord] at hdecode
  refine ⟨deadline, ?_⟩
  have hdeadline' : checkedDeadline p.receivedAt s.impl.clearMalformed.config.receiveTimeout =
      .ok deadline := hdeadline
  obtain ⟨b, bs, rfl⟩ := List.exists_cons_of_ne_nil hne
  rcases hhandled : s.impl.clearMalformed.handleRecord record p.receivedAt p.result with
    ⟨_, _ | _ | _⟩ <;>
    simp only [loopStep, if_neg (not_le.mpr hnow), hreceive, datagramStep, hdecode, hdeadline', hhandled]

/-- A pass either handles a record, or ends the session in one of the other ways, or continues it with
the configuration it has. -/
theorem loopStep_cases (s : LoopState) (p : Pass) :
    (∃ record, HandlesRecord s p record) ∨ (∃ c what, loopStep s p = .raised c what) ∨
      (∃ c o, loopStep s p = .ended c o ∧ o.result ∈ [.Timeout, .Socket, .MalformedStorm]) ∨
      ∃ s', loopStep s p = .next s' ∧ s'.impl.config = s.impl.config ∧
        s'.impl.health.sensorConfiguration = s.impl.health.sensorConfiguration := by
  simp only [loopStep]
  split_ifs with hnow
  · exact .inr (.inr (.inl ⟨_, _, rfl, by simp⟩))
  split
  · exact .inr (.inr (.inl ⟨_, _, rfl, by simp⟩))
  · exact .inr (.inr (.inl ⟨_, _, rfl, by simp⟩))
  rename_i data hne hreceive
  cases hdecode : decodeRecord data with
  | error what =>
    simp only [datagramStep, hdecode]
    split_ifs
    · exact .inr (.inr (.inl ⟨_, _, rfl, by simp⟩))
    · exact .inr (.inr (.inr ⟨_, rfl, rfl, rfl⟩))
  | ok record =>
    simp only [datagramStep, hdecode]
    cases hdeadline : checkedDeadline p.receivedAt s.impl.clearMalformed.config.receiveTimeout with
    | error what => exact .inr (.inl ⟨_, _, rfl⟩)
    | ok deadline => exact .inl ⟨record, not_le.mp hnow, ⟨data, hreceive, hdecode⟩, deadline, hdeadline⟩

/-- The configuration of a session is the one it was opened with. -/
theorem loopStep_next_configuration (h : loopStep s p = .next s') :
    s'.impl.config = s.impl.config ∧
      s'.impl.health.sensorConfiguration = s.impl.health.sensorConfiguration := by
  rcases loopStep_cases s p with ⟨record, hhandles⟩ | ⟨c, what, hraised⟩ | ⟨c, o, hended, -⟩ |
    ⟨s₁, hnext, hconfig, hsensor⟩
  · obtain ⟨deadline, hstep⟩ := loopStep_of_handles hhandles
    rw [hstep] at h
    have hconfig := s.impl.clearMalformed.handleRecord_config record p.receivedAt p.result
    have hsame := s.impl.clearMalformed.handleRecord_sameSession record p.receivedAt p.result
    split at h
    · cases h
    · cases h
    · rename_i heq
      rw [heq] at hconfig hsame
      cases h
      exact ⟨hconfig, hsame.sensorConfiguration⟩
  · rw [hraised] at h
    cases h
  · rw [hended] at h
    cases h
  · rw [hnext] at h
    cases h
    exact ⟨hconfig, hsensor⟩

theorem Accepts.configuration {ps : List Pass} (h : Accepts s ps s') :
    s'.impl.config = s.impl.config ∧
      s'.impl.health.sensorConfiguration = s.impl.health.sensorConfiguration := by
  induction h with
  | nil s => exact ⟨rfl, rfl⟩
  | cons hstep _ ih =>
    obtain ⟨hconfig, hsensor⟩ := loopStep_next_configuration hstep
    exact ⟨ih.1.trans hconfig, ih.2.trans hsensor⟩

/-- Opening a session installs a sensor configuration, or ends the session in the ways that are
allowed. -/
theorem openSession_cases (c : Impl) (input : SessionInput) :
    (∃ c' what, c.openSession input = .raised c' what) ∨
    (∃ c' o, c.openSession input = .ended c' o ∧ o.result ∈ sessionEnds ∧
      (o.result = .SensorConfiguration →
        ∃ what, configurationForSession c.config input.discovery = .error what)) ∨
    ∃ s, c.openSession input = .next s ∧ s.impl.config = c.config ∧
      ∃ configuration revision, configurationForSession c.config input.discovery = .ok configuration ∧
        s.impl.health.sensorConfiguration = some { configuration with revision } := by
  simp only [Impl.openSession]
  split_ifs
  · exact .inr (.inl ⟨_, _, rfl, by simp [sessionEnds], fun h => by cases h⟩)
  have hconfig : (c.setState .Connecting).config = c.config := rfl
  rw [hconfig]
  split
  · rename_i what hfailed
    exact .inr (.inl ⟨_, _, rfl, by simp [sessionEnds], fun _ => ⟨what, hfailed⟩⟩)
  rename_i configuration hconfiguration
  obtain ⟨_, revision, happly⟩ := (c.setState .Connecting).applyConfiguration_frame configuration
  rw [happly]
  split
  · exact .inr (.inl ⟨_, _, rfl, by simp [sessionEnds], fun h => by cases h⟩)
  split
  · exact .inr (.inl ⟨_, _, rfl, by simp [sessionEnds], fun h => by cases h⟩)
  split
  · exact .inl ⟨_, _, rfl⟩
  · exact .inr (.inr ⟨_, rfl, rfl, configuration, revision, hconfiguration, rfl⟩)

theorem InSession.configuration {pre : List Pass} (h : InSession c input pre s p) :
    s.impl.config = c.config ∧
      ∃ configuration revision, configurationForSession c.config input.discovery = .ok configuration ∧
        s.impl.health.sensorConfiguration = some { configuration with revision } := by
  obtain ⟨s₀, hopen, hacc⟩ := h.reached
  obtain ⟨hconfig, hsensor⟩ := hacc.configuration
  rcases openSession_cases c input with ⟨c', what, hraised⟩ | ⟨c', o, hended, -⟩ |
    ⟨s₁, hnext, hconfig₁, configuration, revision, hconfiguration, hsensor₁⟩
  · rw [hraised] at hopen
    cases hopen
  · rw [hended] at hopen
    cases hopen
  · rw [hnext] at hopen
    cases hopen
    exact ⟨hconfig.trans hconfig₁, configuration, revision, hconfiguration, hsensor.trans hsensor₁⟩

/-- The samples of validated calibrations are finite. -/
theorem finiteSamples_of_valid
    (hvalid : ∀ configuration, configurationForSession c.config input.discovery = .ok configuration →
      configuration.calibration.Valid) : FiniteSamples c input := by
  intro pre s p record configuration hin hhandles hsensor
  obtain ⟨-, configuration', revision, hconfiguration, hsensor'⟩ := hin.configuration
  rw [hsensor, Option.some.injEq] at hsensor'
  obtain ⟨-, ⟨data, -, hdecode⟩, -⟩ := hhandles
  rw [hsensor']
  apply sampleOf_isFinite (decodeRecord_inRange hdecode)
  exact hvalid configuration' hconfiguration

/-- **A Reconnect session survives its records exactly when none of them has a serious status**; the
sample of one that has is filtered, or delivered when that is asked for, even so. -/
theorem streamSurvives_iff (hpolicy : c.config.recoveryPolicy = .Reconnect)
    (hfinite : FiniteSamples c input) :
    (StreamSurvives c input ↔
      ∀ pre s p record, InSession c input pre s p → HandlesRecord s p record →
        classifyStatus record.status ≠ .Error) ∧
    ∀ pre s p record, InSession c input pre s p → HandlesRecord s p record →
      classifyStatus record.status = .Error →
      s.impl.clearMalformed.passes record p.receivedAt =
        (c.config.deliverSamplesWithErrorStatus && s.impl.clearMalformed.inOrder record &&
          !rateLimited c.config s.impl.clearMalformed.lastDeliveryAt p.receivedAt) := by
  have hrecord : ∀ pre s p record, InSession c input pre s p → HandlesRecord s p record →
      (Survives s.impl.clearMalformed record p.receivedAt p.result ↔
        classifyStatus record.status ≠ .Error) := by
    intro pre s p record hin hhandles
    obtain ⟨hconfig, configuration, revision, -, hsensor⟩ := hin.configuration
    refine survives_iff hsensor (hfinite pre s p record _ hin hhandles hsensor) ?_
    change s.impl.config.recoveryPolicy = _
    rw [hconfig, hpolicy]
  refine ⟨⟨?_, ?_⟩, fun pre s p record hin hhandles hserious => ?_⟩
  · intro hsurvives pre s p record hin hhandles
    exact (hrecord pre s p record hin hhandles).mp (hsurvives.record pre s p record hin hhandles)
  · intro hmild
    have hstays : ∀ pre s p record, InSession c input pre s p → HandlesRecord s p record →
        Survives s.impl.clearMalformed record p.receivedAt p.result := fun pre s p record hin hhandles =>
      (hrecord pre s p record hin hhandles).mpr (hmild pre s p record hin hhandles)
    refine ⟨hstays, fun c' outcome h => ?_⟩
    rcases receiveSession_cases h with (⟨o, heq, hended⟩ | ⟨what, heq, -⟩) | ⟨s₀, s, -, -, -, heq⟩ |
      ⟨pre, s, p, hin, ⟨o, heq, hended⟩ | ⟨what, heq, -⟩⟩
    · cases heq
      rcases openSession_cases c input with ⟨c₁, what, hraised⟩ | ⟨c₁, o₁, hended₁, hends⟩ |
        ⟨s₁, hnext, -⟩
      · rw [hraised] at hended
        cases hended
      · rw [hended₁] at hended
        cases hended
        exact hends
      · rw [hnext] at hended
        cases hended
    · cases heq
    · cases heq
      exact ⟨by simp [sessionEnds], fun h => by cases h⟩
    · cases heq
      rcases loopStep_cases s p with ⟨record, hhandles⟩ | ⟨c₁, what, hraised⟩ |
        ⟨c₁, o₁, hended₁, hmem⟩ | ⟨s₁, hnext, -⟩
      · obtain ⟨deadline, hstep⟩ := loopStep_of_handles hhandles
        have hopen := (hstays pre s p record hin hhandles).stays
        rw [hstep] at hended
        split at hended
        · cases hended
        · rename_i heq'
          rw [heq'] at hopen
          cases hopen
        · cases hended
      · rw [hraised] at hended
        cases hended
      · rw [hended₁] at hended
        cases hended
        simp only [List.mem_cons, List.not_mem_nil, or_false] at hmem
        rcases hmem with hresult | hresult | hresult <;> rw [hresult] <;>
          exact ⟨by simp [sessionEnds], fun h => by cases h⟩
      · rw [hnext] at hended
        cases hended
    · cases heq
  · obtain ⟨hconfig, configuration, revision, -, hsensor⟩ := hin.configuration
    rw [← hconfig]
    exact serious_delivered (c := s.impl.clearMalformed) hsensor
      (hfinite pre s p record _ hin hhandles hsensor) hserious

/-! ## A session that does not survive -/

/-- One record arrives 1 µs into the session, with the given status. -/
def oneRecordInput (status : UInt32) : SessionInput :=
  { discovery := .error ""
    openedAt := 1000
    passes :=
      [{ now := 1000
         reception :=
           { startedAt := 1000
             outcome := .ready (.received (RawRecord.pack { rdtSequence := 1, ftSequence := 1, status }))
             returnedAt := 2000 }
         receivedAt := 2000 }] }

/-- A Reconnect client that delivers serious samples. -/
def toleratingClient : Impl :=
  Impl.init
    { calibrationOverride := some ⟨1000000, 1000000, .Newton, .NewtonMeter⟩
      deliverSamplesWithErrorStatus := true }

theorem oneRecordInput_finite (status : UInt32) :
    FiniteSamples toleratingClient (oneRecordInput status) := by
  refine finiteSamples_of_valid fun configuration h => ?_
  cases h
  exact Calibration.valid_of_validate (by decide +kernel)

/-- A sample with a serious status is delivered, and ends the session. -/
theorem serious_not_streamSurvives :
    toleratingClient.config.recoveryPolicy = .Reconnect ∧
      FiniteSamples toleratingClient (oneRecordInput 0x80000001) ∧
      ¬ StreamSurvives toleratingClient (oneRecordInput 0x80000001) := by
  refine ⟨rfl, oneRecordInput_finite _, fun hsurvives => ?_⟩
  have hended : (toleratingClient.receiveSession (oneRecordInput 0x80000001)).2 =
      .ok { result := .SeriousStatus, receivedValidRecord := true } := by decide +kernel
  have hmem := (hsurvives.ends _ _ (Prod.ext rfl hended)).1
  exact absurd hmem (by decide)

/-- A sample with a warning does not. -/
theorem warning_streamSurvives : StreamSurvives toleratingClient (oneRecordInput 0x80010000) := by
  refine (streamSurvives_iff rfl (oneRecordInput_finite _)).1.mpr ?_
  intro pre s p record hin hhandles
  obtain ⟨rfl, rfl⟩ := hin.of_single rfl
  obtain ⟨-, ⟨data, hreceive, hdecode⟩, -⟩ := hhandles
  have hne : data ≠ [] := by
    rintro rfl
    simp [decodeRecord] at hdecode
  have hdata : data = RawRecord.pack { rdtSequence := 1, ftSequence := 1, status := 0x80010000 } := by
    simpa using (receive_eq_ok hreceive hne).symm
  rw [hdata, decodeRecord_pack (by simp [RawRecord.InRange])] at hdecode
  cases hdecode
  decide

end NetFT.Client
