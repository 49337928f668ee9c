/-
# NetFT.Client.Reordering — a FailStop session on an unreliable network.

The sensor's records carry an RDT and an FT number.  A datagram that the network delivers twice, or
late, is dropped by the RDT tracker; but the FT tracker looks at the same record and reports a stall
or a backward step, which is fatal under FailStop.  Over a scenario (`Scenario`: any FailStop client,
any sensor, any arrivals within `receive_timeout`):

* `accepts_inOrder` and `ends_of_not_inOrder` follow the loop along the arrivals;
* **`tolerated_iff_inOrder`**: the run latches nothing exactly when every record that arrives is newer
  than all before it, and its FT number is ahead by less than half a ring;
* `duplicated_not_tolerated` is the smallest scenario that fails.
-/
import NetFT.Client.Session

namespace NetFT.Client

set_option autoImplicit false

open Library

/-! ## Sensors -/

/-- The stream a sensor emits: true (unbounded) numbers, status word, force and torque counts of
record `i`. -/
structure Sensor where
  rdt : ℕ → ℕ
  ft : ℕ → ℕ
  status : ℕ → UInt32
  force : ℕ → Int × Int × Int
  torque : ℕ → Int × Int × Int

namespace Sensor

/-- Both numbers strictly advance, by less than half a ring a step, and no status is an error. -/
structure Healthy (sensor : Sensor) : Prop where
  rdt : ∀ i, sensor.rdt i < sensor.rdt (i + 1) ∧ sensor.rdt (i + 1) < sensor.rdt i + 2 ^ 31
  ft : ∀ i, sensor.ft i < sensor.ft (i + 1) ∧ sensor.ft (i + 1) < sensor.ft i + 2 ^ 31
  status : ∀ i, classifyStatus (sensor.status i) ≠ .Error

/-- Record `i` on the wire. -/
def record (sensor : Sensor) (i : ℕ) : RawRecord :=
  .numbered (sensor.rdt i) (sensor.ft i) (sensor.status i) (sensor.force i) (sensor.torque i)

/-- Record `i` is ahead of record `j`, by less than half a ring of FT numbers. -/
def Ahead (sensor : Sensor) (j i : ℕ) : Prop :=
  0 < Serial.distance (2 * 2 ^ 31) (sensor.ft i) (sensor.ft j) ∧
    Serial.distance (2 * 2 ^ 31) (sensor.ft i) (sensor.ft j) < 2 ^ 31

instance (sensor : Sensor) (j i : ℕ) : Decidable (sensor.Ahead j i) := by
  unfold Ahead
  infer_instance

/-- A late record (or a duplicate) is less than half a ring behind. -/
def NearWhenLate (sensor : Sensor) (j i : ℕ) : Prop :=
  i ≤ j → sensor.ft j < sensor.ft i + 2 ^ 31 ∧ sensor.rdt j < sensor.rdt i + 2 ^ 31

theorem Healthy.ft_strictMono {sensor : Sensor} (h : sensor.Healthy) : StrictMono sensor.ft :=
  strictMono_nat_of_lt_succ fun i => (h.ft i).1

/-- A record that is ahead is newer: a late one is seen as behind. -/
theorem Ahead.lt {sensor : Sensor} {j i : ℕ} (h : sensor.Ahead j i) (hhealthy : sensor.Healthy)
    (hlate : sensor.NearWhenLate j i) : j < i := by
  by_contra hle
  push Not at hle
  have hft := hhealthy.ft_strictMono.monotone hle
  have hnear := (hlate hle).1
  have hforward := (Serial.forward_iff (n := sensor.ft i) (m := sensor.ft j) (H := 2 ^ 31)
    (by omega) hnear).mp h
  omega

end Sensor

/-! ## Arrivals -/

/-- A record's arrival: its index in the stream and the pass of the loop that receives it. -/
abbrev Arrival := ℕ × Pass

/-- The pass `p` receives record `i` before the deadline `last + timeout`, and its callback returns. -/
structure Delivers (sensor : Sensor) (timeout : Ticks) (last : TimePoint) (i : ℕ) (p : Pass) :
    Prop where
  now : p.now < last + timeout
  reception : p.reception.InTime (last + timeout - p.now)
  datagram : ∃ data, p.reception.outcome = .ready (.received data) ∧
    decodeRecord data = .ok (sensor.record i)
  result : p.result = .returned
  receivedAt : p.receivedAt ≤ maxTicks - timeout

/-- Every arrival is received within `receive_timeout` of the one before it. -/
def Punctual (sensor : Sensor) (timeout : Ticks) : TimePoint → List Arrival → Prop
  | _, [] => True
  | last, (i, p) :: rest =>
    Delivers sensor timeout last i p ∧ Punctual sensor timeout p.receivedAt rest

/-- Every record is newer than all that arrived before it, and its FT number ahead of theirs by less
than half a ring; `base` is the record the FT baseline comes from. -/
def InOrder (sensor : Sensor) : Option ℕ → List Arrival → Prop
  | _, [] => True
  | none, (i, _) :: rest => InOrder sensor (some i) rest
  | some j, (i, _) :: rest => (j < i ∧ sensor.Ahead j i) ∧ InOrder sensor (some i) rest

/-! ## One record -/

/-- The FT tracker stands at record `base` of the stream, with no restart candidate. -/
def TracksFt (sensor : Sensor) (t : FtSequenceTracker) (base : Option ℕ) : Prop :=
  t.hasRestartCandidate = false ∧
    match base with
    | none => t.hasLast = false
    | some j => t.Newest (sensor.ft j)

/-- What the arrivals of a session start from, and keep. -/
structure Streaming (sensor : Sensor) (timeout : Ticks) (c : Impl) (base : Option ℕ) : Prop where
  policy : c.config.recoveryPolicy = .FailStop
  timeout : checkedDuration c.config.receiveTimeout = .ok timeout
  configuration : ∃ configuration, c.health.sensorConfiguration = some configuration ∧
    configuration.calibration.Valid
  ft : TracksFt sensor c.ftSequence base

variable {sensor : Sensor} {timeout : Ticks} {c : Impl} {base : Option ℕ} {i : ℕ}

/-- The FT tracker accepts a record that is ahead of its baseline, and stands there afterwards. -/
theorem TracksFt.observe_ahead {t : FtSequenceTracker} (h : TracksFt sensor t base)
    (hahead : ∀ j, base = some j → sensor.Ahead j i) :
    (t.observe (UInt32.ofNat (sensor.ft i))).1.discontinuity = false ∧
      TracksFt sensor (t.observe (UInt32.ofNat (sensor.ft i))).2 (some i) := by
  obtain ⟨hcand, hbase⟩ := h
  cases base with
  | none =>
    rw [FtSequenceTracker.observe_fresh hbase]
    exact ⟨rfl, hcand, rfl, rfl⟩
  | some j =>
    rw [FtSequenceTracker.observe_forward hbase (hahead j rfl)]
    exact ⟨rfl, rfl, hbase.hasLast, rfl⟩

/-- Under FailStop, the outcome of a healthy record whose callback returns is the verdict on its FT
number. -/
theorem handleRecord_healthy (hstreaming : Streaming sensor timeout c base)
    (hhealthy : sensor.Healthy) (hrange : (sensor.record i).InRange) (receivedAt : TimePoint) :
    ∃ outcome, (c.handleRecord (sensor.record i) receivedAt .returned).2 = .ok outcome ∧
      if (c.ftSequence.observe (UInt32.ofNat (sensor.ft i))).1.discontinuity then
        outcome = some .FtStall ∨ outcome = some .FtBackward
      else outcome = none := by
  obtain ⟨configuration, hconf, hvalid⟩ := hstreaming.configuration
  have hstatus : classifyStatus (sensor.record i).status ≠ .Error := hhealthy.status i
  have houtcome : (c.handleRecord (sensor.record i) receivedAt .returned).2 =
      .ok (c.recordOutcome (sensor.record i)) := by
    rw [Impl.handleRecord_spec hconf hvalid hrange, ite_self]
    split_ifs <;> rfl
  refine ⟨_, houtcome, ?_⟩
  rw [Impl.recordOutcome, verdict_failStop hstreaming.policy, if_neg hstatus,
    show (sensor.record i).ftSequence = UInt32.ofNat (sensor.ft i) from rfl]
  cases (c.ftSequence.observe (UInt32.ofNat (sensor.ft i))).1 <;>
    simp [FtSequenceKind.discontinuity]

theorem Streaming.handleRecord (hstreaming : Streaming sensor timeout c base)
    (receivedAt : TimePoint) {t : FtSequenceTracker}
    (ht : (c.ftSequence.observe (UInt32.ofNat (sensor.ft i))).2 = t)
    (hbase : TracksFt sensor t (some i)) :
    Streaming sensor timeout (c.handleRecord (sensor.record i) receivedAt .returned).1 (some i) := by
  have hcontrol := SameControl.handleRecord c (sensor.record i) receivedAt .returned
  have hhealth := c.handleRecord_sameSession (sensor.record i) receivedAt .returned
  refine ⟨by rw [hcontrol.config, hstreaming.policy], by rw [hcontrol.config, hstreaming.timeout],
    ?_, ?_⟩
  · rw [hhealth.sensorConfiguration]
    exact hstreaming.configuration
  · rw [(c.handleRecord_trackers (sensor.record i) receivedAt .returned).2]
    exact ht ▸ hbase

/-! ## One pass -/

variable {s : LoopState} {p : Pass} {last : TimePoint}

/-- A pass that receives record `i` in time runs `handle_record` on it. -/
theorem loopStep_delivers (hstreaming : Streaming sensor timeout s.impl base)
    (hdeadline : s.deadline = last + timeout) (hp : Delivers sensor timeout last i p) :
    (sensor.record i).InRange ∧
      loopStep s p =
        match s.impl.clearMalformed.handleRecord (sensor.record i) p.receivedAt .returned with
        | (c, .error what) => .raised c what
        | (c, .ok (some outcome)) => .ended c { result := outcome, receivedValidRecord := true }
        | (c, .ok none) =>
          .next { impl := c, deadline := p.receivedAt + timeout, receivedValidRecord := true } := by
  obtain ⟨data, hout, hdecode⟩ := hp.datagram
  refine ⟨decodeRecord_inRange hdecode, ?_⟩
  have hreceive : receive (Ticks.toSeconds (s.deadline - p.now)) p.reception = .ok data := by
    rw [hdeadline, receive_inTime hp.reception, hout]
    rfl
  have hnow : ¬ s.deadline ≤ p.now := by
    rw [hdeadline]
    exact not_le.mpr hp.now
  have hdata : data ≠ [] := by
    rintro rfl
    simp [decodeRecord] at hdecode
  have hnext : checkedDeadline p.receivedAt s.impl.clearMalformed.config.receiveTimeout =
      .ok (p.receivedAt + timeout) := by
    rw [show s.impl.clearMalformed.config = s.impl.config from rfl, checkedDeadline,
      hstreaming.timeout]
    exact if_neg (not_lt.mpr hp.receivedAt)
  have hcase : loopStep s p = datagramStep s data p.receivedAt p.result := by
    simp only [loopStep, if_neg hnow, hreceive]
  rw [hcase, datagramStep, hdecode, hp.result]
  rcases hhandled : s.impl.clearMalformed.handleRecord (sensor.record i) p.receivedAt .returned with
    ⟨_, _ | _ | _⟩ <;> simp only [hnext, hhandled]

/-- A record ahead of the baseline keeps the session open. -/
theorem loopStep_ahead (hstreaming : Streaming sensor timeout s.impl base)
    (hhealthy : sensor.Healthy) (hdeadline : s.deadline = last + timeout)
    (hp : Delivers sensor timeout last i p) (hahead : ∀ j, base = some j → sensor.Ahead j i) :
    ∃ s', loopStep s p = .next s' ∧ Streaming sensor timeout s'.impl (some i) ∧
      s'.deadline = p.receivedAt + timeout := by
  have hclear : Streaming sensor timeout s.impl.clearMalformed base :=
    ⟨hstreaming.policy, hstreaming.timeout, hstreaming.configuration, hstreaming.ft⟩
  obtain ⟨hrange, hstep⟩ := loopStep_delivers hstreaming hdeadline hp
  obtain ⟨hkind, htracks⟩ := hclear.ft.observe_ahead hahead
  obtain ⟨outcome, houtcome, hverdict⟩ :=
    handleRecord_healthy hclear hhealthy hrange p.receivedAt
  have hnext := hclear.handleRecord p.receivedAt rfl htracks
  rw [hkind, if_neg (by simp)] at hverdict
  subst hverdict
  rw [hstep]
  cases hhandle : s.impl.clearMalformed.handleRecord (sensor.record i) p.receivedAt .returned with
  | mk c ended =>
    rw [hhandle] at houtcome hnext
    simp only at houtcome
    subst houtcome
    exact ⟨_, rfl, hnext, rfl⟩

/-- A record that is not ahead of the baseline ends the session with an FT fault. -/
theorem loopStep_notAhead {j : ℕ} (hstreaming : Streaming sensor timeout s.impl (some j))
    (hhealthy : sensor.Healthy) (hdeadline : s.deadline = last + timeout)
    (hp : Delivers sensor timeout last i p) (hnot : ¬ sensor.Ahead j i) :
    ∃ c outcome, loopStep s p = .ended c outcome ∧
      (outcome.result = .FtStall ∨ outcome.result = .FtBackward) := by
  have hclear : Streaming sensor timeout s.impl.clearMalformed (some j) :=
    ⟨hstreaming.policy, hstreaming.timeout, hstreaming.configuration, hstreaming.ft⟩
  obtain ⟨hrange, hstep⟩ := loopStep_delivers hstreaming hdeadline hp
  obtain ⟨hcand, hbase⟩ := hclear.ft
  have hkind := FtSequenceTracker.observe_discontinuity (n := sensor.ft i) hbase hcand hnot
  obtain ⟨outcome, houtcome, hverdict⟩ :=
    handleRecord_healthy hclear hhealthy hrange p.receivedAt
  rw [hkind, if_pos rfl] at hverdict
  rw [hstep]
  cases hhandle : s.impl.clearMalformed.handleRecord (sensor.record i) p.receivedAt .returned with
  | mk c ended =>
    rw [hhandle] at houtcome
    simp only at houtcome
    subst houtcome
    rcases hverdict with rfl | rfl
    · exact ⟨c, _, rfl, .inl rfl⟩
    · exact ⟨c, _, rfl, .inr rfl⟩

/-! ## The arrivals of a session -/

/-- Arrivals in order leave the session open. -/
theorem accepts_inOrder (hhealthy : sensor.Healthy) {arrivals : List Arrival}
    (hstreaming : Streaming sensor timeout s.impl base) (hdeadline : s.deadline = last + timeout)
    (hpunctual : Punctual sensor timeout last arrivals) (horder : InOrder sensor base arrivals) :
    ∃ s', Accepts s (arrivals.map Prod.snd) s' := by
  induction arrivals generalizing s last base with
  | nil => exact ⟨s, .nil s⟩
  | cons arrival rest ih =>
    obtain ⟨i, p⟩ := arrival
    obtain ⟨hp, hrest⟩ := hpunctual
    have hahead : (∀ j, base = some j → sensor.Ahead j i) ∧ InOrder sensor (some i) rest := by
      cases base with
      | none => exact ⟨fun _ h => by simp at h, horder⟩
      | some j => exact ⟨fun _ h => by cases h; exact horder.1.2, horder.2⟩
    obtain ⟨s₁, hstep, hstreaming₁, hdeadline₁⟩ :=
      loopStep_ahead hstreaming hhealthy hdeadline hp hahead.1
    obtain ⟨s', hacc⟩ := ih hstreaming₁ hdeadline₁ hrest hahead.2
    exact ⟨s', .cons hstep hacc⟩

/-- The first arrival out of order ends the session with an FT fault. -/
theorem ends_of_not_inOrder (hhealthy : sensor.Healthy) {arrivals : List Arrival}
    (hstreaming : Streaming sensor timeout s.impl base) (hdeadline : s.deadline = last + timeout)
    (hpunctual : Punctual sensor timeout last arrivals)
    (hlate : (base.toList ++ arrivals.map Prod.fst).Pairwise sensor.NearWhenLate)
    (horder : ¬ InOrder sensor base arrivals) :
    ∃ pre p rest s' c outcome, arrivals.map Prod.snd = pre ++ p :: rest ∧ Accepts s pre s' ∧
      loopStep s' p = .ended c outcome ∧
      (outcome.result = .FtStall ∨ outcome.result = .FtBackward) := by
  induction arrivals generalizing s last base with
  | nil => exact absurd trivial horder
  | cons arrival rest ih =>
    obtain ⟨i, p⟩ := arrival
    obtain ⟨hp, hrest⟩ := hpunctual
    have hlate' : ((some i).toList ++ rest.map Prod.fst).Pairwise sensor.NearWhenLate := by
      simp only [List.map_cons] at hlate
      exact (List.pairwise_append.mp hlate).2.1
    by_cases hahead : ∀ j, base = some j → sensor.Ahead j i
    · obtain ⟨s₁, hstep, hstreaming₁, hdeadline₁⟩ :=
        loopStep_ahead hstreaming hhealthy hdeadline hp hahead
      have horder' : ¬ InOrder sensor (some i) rest := by
        cases base with
        | none => exact horder
        | some j =>
          have hnear : sensor.NearWhenLate j i :=
            (List.pairwise_cons.mp hlate).1 i (List.mem_cons_self)
          exact fun h => horder ⟨⟨(hahead j rfl).lt hhealthy hnear, hahead j rfl⟩, h⟩
      obtain ⟨pre, q, later, s', c, outcome, heq, hacc, hend⟩ :=
        ih hstreaming₁ hdeadline₁ hrest hlate' horder'
      exact ⟨p :: pre, q, later, s', c, outcome, by simp [heq], .cons hstep hacc, hend⟩
    · push Not at hahead
      obtain ⟨j, rfl, hnot⟩ := hahead
      obtain ⟨c, outcome, hstep, hresult⟩ :=
        loopStep_notAhead hstreaming hhealthy hdeadline hp hnot
      exact ⟨[], p, rest.map Prod.snd, s, c, outcome, rfl, .nil s, hstep, hresult⟩

/-! ## The run -/

/-- A FailStop client streams from a sensor over a network that loses, duplicates and reorders: the
session opens, its passes receive `arrivals` in time, and a late record is not too late.  `base` is
the record that an earlier run of this client left as the FT baseline. -/
structure Scenario (sensor : Sensor) (timeout : Ticks) (c : Impl) (input : SessionInput)
    (base : Option ℕ) (arrivals : List Arrival) : Prop where
  healthy : sensor.Healthy
  policy : c.config.recoveryPolicy = .FailStop
  stopping : c.stopping = false
  fault : c.faultLatch = .None
  receiveTimeout : checkedDuration c.config.receiveTimeout = .ok timeout
  ft : match base with
    | none => c.ftSequence.hasLast = false
    | some j => c.ftSequence.Newest (sensor.ft j)
  configuration : ∃ configuration, configurationForSession c.config input.discovery = .ok configuration ∧
    configuration.calibration.Valid
  connect : input.connect = .ok ()
  send : input.send = .ok ()
  openedAt : input.openedAt ≤ maxTicks - timeout
  passes : input.passes = arrivals.map Prod.snd
  punctual : Punctual sensor timeout input.openedAt arrivals
  late : (base.toList ++ arrivals.map Prod.fst).Pairwise sensor.NearWhenLate

/-- **Duplication and reordering are tolerated**: no record of the session is an FT fault, and the run
latches nothing. -/
structure Tolerated (c : Impl) (input : SessionInput) (later : List SessionInput) : Prop where
  records : ∀ pre s p c' outcome, InSession c input pre s p → loopStep s p = .ended c' outcome →
    outcome.result ≠ .FtStall ∧ outcome.result ≠ .FtBackward
  fault : (c.run (input :: later)).faultLatch = .None

variable {input : SessionInput} {arrivals : List Arrival}

/-- The session of a scenario opens. -/
theorem Scenario.openSession (h : Scenario sensor timeout c input base arrivals) :
    ∃ s, c.openSession input = .next s ∧ Streaming sensor timeout s.impl base ∧
      s.deadline = input.openedAt + timeout := by
  obtain ⟨configuration, hconf, hvalid⟩ := h.configuration
  obtain ⟨_, _, happly⟩ := (c.setState .Connecting).applyConfiguration_frame configuration
  have hdeadline : checkedDeadline input.openedAt c.config.receiveTimeout =
      .ok (input.openedAt + timeout) := by
    rw [checkedDeadline, h.receiveTimeout]
    exact if_neg (not_lt.mpr h.openedAt)
  have hstopping : (c.setState .Connecting).stopping = false := h.stopping
  have hconf' : configurationForSession (c.setState .Connecting).config input.discovery =
      .ok configuration := hconf
  simp only [Impl.openSession, hstopping, hconf', happly, h.connect, h.send, Bool.false_eq_true,
    if_false]
  simp only [Impl.resetSequences, Impl.setSessionStarted, Impl.connectTransport, Impl.setState,
    hdeadline]
  refine ⟨_, rfl, ⟨h.policy, h.receiveTimeout, ⟨_, rfl, hvalid⟩, rfl, ?_⟩, rfl⟩
  have hbase := h.ft
  cases base with
  | none => exact hbase
  | some j => exact hbase.beginSession

/-- **A FailStop run tolerates exactly the arrivals that come in order.** -/
theorem tolerated_iff_inOrder (h : Scenario sensor timeout c input base arrivals)
    (later : List SessionInput) :
    Tolerated c input later ↔ InOrder sensor base arrivals := by
  obtain ⟨s₀, hopen, hstreaming, hdeadline⟩ := h.openSession
  have hsession : c.receiveSession input = receiveLoop s₀ (arrivals.map Prod.snd) := by
    rw [Impl.receiveSession, hopen, h.passes]
  constructor
  · intro htolerated
    by_contra horder
    obtain ⟨pre, p, rest, s', c', outcome, hpasses, hacc, hend, hresult⟩ :=
      ends_of_not_inOrder h.healthy hstreaming hdeadline h.punctual h.late horder
    have hin : InSession c input pre s' p :=
      ⟨⟨rest, h.passes.trans hpasses⟩, s₀, hopen, hacc⟩
    obtain ⟨hstall, hbackward⟩ := htolerated.records pre s' p c' outcome hin hend
    exact hresult.elim hstall hbackward
  · intro horder
    obtain ⟨s', hacc⟩ :=
      accepts_inOrder h.healthy hstreaming hdeadline h.punctual horder
    have hloop : receiveLoop s₀ (arrivals.map Prod.snd) = receiveLoop s' [] := by
      simpa using receiveLoop_accepts hacc []
    refine ⟨fun pre s p c' outcome hin hend => ?_, ?_⟩
    · -- the loop accepts every pass, so none ends the session
      obtain ⟨rest, hrest⟩ := hin.passes
      obtain ⟨s₁, hopen₁, hacc₁⟩ := hin.reached
      rw [hopen, LoopResult.next.injEq] at hopen₁
      subst hopen₁
      rw [h.passes] at hrest
      have hends : receiveLoop s₀ (arrivals.map Prod.snd) = (c', .ok outcome) := by
        rw [hrest, receiveLoop_accepts hacc₁, receiveLoop, hend]
      rw [hloop, receiveLoop, Prod.mk.injEq, Except.ok.injEq] at hends
      rw [← hends.2]
      simp
    · exact Impl.run_failStop h.policy h.stopping h.fault (by rw [hsession, hloop, receiveLoop]) later

/-! ## A duplicate -/

/-- Record `i` carries the numbers `i + 1` and zero counts. -/
def steadySensor : Sensor :=
  { rdt := fun i => i + 1, ft := fun i => i + 1, status := fun _ => 0,
    force := fun _ => (0, 0, 0), torque := fun _ => (0, 0, 0) }

/-- The datagram of a record with both numbers below 256, an ok status and zero counts. -/
def steadyDatagram (n : UInt8) : List UInt8 :=
  [0, 0, 0, n, 0, 0, 0, n] ++ List.replicate 28 0

/-- Record `i` of the steady sensor is received at `receivedAt`. -/
def steadyArrival (i : ℕ) (receivedAt : TimePoint) : Arrival :=
  (i,
    { now := receivedAt
      reception :=
        { startedAt := receivedAt
          outcome := .ready (.received (steadyDatagram (UInt8.ofNat (i + 1))))
          returnedAt := receivedAt }
      receivedAt })

def steadyInput (arrivals : List Arrival) : SessionInput :=
  { discovery := .error "", openedAt := 1000, passes := arrivals.map Prod.snd }

def failStopClient : Impl :=
  Impl.init
    { recoveryPolicy := .FailStop
      calibrationOverride := some ⟨1000000, 1000000, .Newton, .NewtonMeter⟩ }

theorem steadySensor_healthy : steadySensor.Healthy where
  rdt i := by simp [steadySensor]
  ft i := by simp [steadySensor]
  status i := (by decide : classifyStatus 0 ≠ .Error)

theorem steadyScenario {arrivals : List Arrival}
    (hpunctual : Punctual steadySensor 100000000 1000 arrivals)
    (hlate : (arrivals.map Prod.fst).Pairwise steadySensor.NearWhenLate) :
    Scenario steadySensor 100000000 failStopClient (steadyInput arrivals) none arrivals where
  healthy := steadySensor_healthy
  policy := rfl
  stopping := rfl
  fault := rfl
  receiveTimeout := by decide +kernel
  ft := rfl
  configuration := ⟨_, rfl, Calibration.valid_of_validate (by decide +kernel)⟩
  connect := rfl
  send := rfl
  openedAt := (by decide : (1000 : Int) ≤ maxTicks - 100000000)
  passes := rfl
  punctual := hpunctual
  late := hlate

/-- The first record, and a second copy of it. -/
def duplicated : List Arrival := [steadyArrival 0 2000, steadyArrival 0 3000]

/-- The first and the third record; the second is lost. -/
def lossy : List Arrival := [steadyArrival 0 2000, steadyArrival 2 3000]

theorem steady_delivers {i : ℕ} {last receivedAt : TimePoint} (limit : TimePoint)
    (hnow : receivedAt < last + 100000000)
    (hlimit : checkedDeadline receivedAt (Ticks.toSeconds (last + 100000000 - receivedAt)) = .ok limit)
    (hdecode : decodeRecord (steadyDatagram (UInt8.ofNat (i + 1))) = .ok (steadySensor.record i))
    (hrange : receivedAt ≤ maxTicks - 100000000) :
    Delivers steadySensor 100000000 last i (steadyArrival i receivedAt).2 :=
  ⟨hnow, ⟨limit, hlimit, fun _ h => by simp [steadyArrival] at h⟩, ⟨_, rfl, hdecode⟩, rfl, hrange⟩

theorem duplicated_punctual : Punctual steadySensor 100000000 1000 duplicated :=
  ⟨steady_delivers 100001000 (by decide) (by decide +kernel) (by decide +kernel) (by decide),
    steady_delivers 100002000 (by decide) (by decide +kernel) (by decide +kernel) (by decide), trivial⟩

theorem lossy_punctual : Punctual steadySensor 100000000 1000 lossy :=
  ⟨steady_delivers 100001000 (by decide) (by decide +kernel) (by decide +kernel) (by decide),
    steady_delivers 100002000 (by decide) (by decide +kernel) (by decide +kernel) (by decide), trivial⟩

/-- A duplicate latches FtStall. -/
theorem duplicated_not_tolerated :
    Scenario steadySensor 100000000 failStopClient (steadyInput duplicated) none duplicated ∧
      ¬ Tolerated failStopClient (steadyInput duplicated) [] := by
  refine ⟨steadyScenario duplicated_punctual ?_, fun h => ?_⟩
  · simp only [duplicated, steadyArrival, List.map_cons, List.map_nil, List.pairwise_pair]
    exact fun _ => ⟨by simp only [steadySensor]; omega, by simp only [steadySensor]; omega⟩
  · have hfault : (failStopClient.run [steadyInput duplicated]).faultLatch = .FtStall := by
      decide +kernel
    rw [h.fault] at hfault
    cases hfault

/-- A lost record is tolerated. -/
theorem lossy_tolerated : Tolerated failStopClient (steadyInput lossy) [] := by
  refine (tolerated_iff_inOrder (steadyScenario lossy_punctual ?_) []).mpr ?_
  · simp [lossy, steadyArrival, Sensor.NearWhenLate]
  · exact ⟨by decide +kernel, trivial⟩

end NetFT.Client
