/-
# NetFT.Client.History — what became of every record.

A history variable of the machine: the configurations that the sessions of a client were given, and the
records that `handle_record` counted, over all sessions and all runs of the worker.  `Pc.record` reads
the step that thread `t` is about to take; no step reads the history.

* `Handled` is one record: who handled it, with which configuration, how it was classified, whether its
  sample went to the callback, how the callback ended, and its `Fate`.
* `Counts` is the part of the health snapshot that has to agree with the history; `Data` adds the latest
  sample and the generations, which are what `start` saves and a rollback restores.
-/
import NetFT.Client.Ownership

namespace NetFT.Client

set_option autoImplicit false

open Library.Threads (Tid Effect)

/-! ## Records -/

/-- What `handle_record` did with a record: `offered` is one whose sample is on its way through the
callback. -/
inductive Fate where
  | withheld | limited | unscalable | offered | delivered | failed
  deriving DecidableEq, Repr

/-- A record that `handle_record` took, with what became of it. -/
structure Handled where
  worker : Tid
  /-- How many workers had been created. -/
  run : Nat
  record : RawRecord
  receivedAt : TimePoint
  configuration : SensorConfiguration
  rdt : SequenceKind
  ft : FtSequenceKind
  severity : StatusSeverity
  passed : Bool := false
  ended : Option CallbackResult := none
  fate : Fate
  deriving DecidableEq, Repr

namespace Handled

/-- The sample of the record. -/
def sample (r : Handled) : Sample := sampleOf r.record r.configuration r.receivedAt

/-- The classes for which a record is withheld. -/
def refused (config : Config) (r : Handled) : Bool :=
  r.rdt.dropped || r.ft.discontinuity ||
    (r.severity == .Error && !config.deliverSamplesWithErrorStatus)

end Handled

/-- The classes and the fate of a record that is observed in the state `c`. -/
def Impl.handled (c : Impl) (worker : Tid) (run : Nat) (record : RawRecord) (receivedAt : TimePoint)
    (configuration : SensorConfiguration) : Handled :=
  let rdt := (c.rdtSequence.observe record.rdtSequence).1.kind
  let ft := (c.ftSequence.observe record.ftSequence).1
  let severity := classifyStatus record.status
  { worker, run, record, receivedAt, configuration, rdt, ft, severity
    fate :=
      if (verdict c.config rdt ft severity).1 = false then .withheld
      else if rateLimited c.config c.lastDeliveryAt receivedAt then .limited
      else if Sample.isFinite (sampleOf record configuration receivedAt) then .offered
      else .unscalable }

/-- A record as `handle_record` leaves its locked part. -/
structure Handled.Fresh (r : Handled) (config : Config) : Prop where
  passed : r.passed = false
  ended : r.ended = none
  withheld : r.fate = .withheld ↔ r.refused config = true
  delivered : r.fate ≠ .delivered
  failed : r.fate ≠ .failed
  unscalable : r.fate = .unscalable → Sample.isFinite r.sample = false

theorem Impl.handled_fresh (c : Impl) (worker : Tid) (run : Nat) (record : RawRecord)
    (receivedAt : TimePoint) (configuration : SensorConfiguration) :
    (c.handled worker run record receivedAt configuration).Fresh c.config := by
  set r := c.handled worker run record receivedAt configuration with hr
  have hdeliver : (verdict c.config r.rdt r.ft r.severity).1 = !r.refused c.config := by
    rw [verdict_deliver, Handled.refused]
    cases r.rdt.dropped <;> cases r.ft.discontinuity <;> cases r.severity <;>
      cases c.config.deliverSamplesWithErrorStatus <;> rfl
  have hfate : r.fate =
      if (verdict c.config r.rdt r.ft r.severity).1 = false then .withheld
      else if rateLimited c.config c.lastDeliveryAt receivedAt then .limited
      else if Sample.isFinite r.sample then .offered
      else .unscalable := rfl
  rw [hdeliver] at hfate
  refine ⟨rfl, rfl, ?_, ?_, ?_, ?_⟩ <;> rw [hfate] <;> cases r.refused c.config <;> simp <;>
    split_ifs <;> simp_all

/-! ## The history -/

/-- Both lists have the newest entry first. -/
structure History where
  /-- The configurations given to `apply_configuration`, as discovery or the override had them. -/
  given : List SensorConfiguration := []
  records : List Handled := []
  deriving DecidableEq, Repr

/-- The newest record moves on. -/
def History.update (h : History) (f : Handled → Handled) : History :=
  { h with records := h.records.modifyHead f }

namespace Pc

/-- The history after thread `t` has acted at a control point. -/
def record (p : Pc) (t : Tid) (choice : Choice) (s : Shared) (h : History) : History :=
  match p with
  | .run (.apply _ configuration) => { h with given := configuration :: h.given }
  | .run (.observe _ record receivedAt) =>
    match s.impl.health.sensorConfiguration with
    | none => h
    | some configuration =>
      { h with
        records := s.impl.handled t s.created.length record receivedAt configuration :: h.records }
  | .run (.invoke _) => if s.impl.callback.isSome then h.update ({ · with passed := true }) else h
  | .run (.inCallback _) =>
    match choice with
    | .returned => h.update ({ · with ended := some .returned })
    | .threw what => h.update ({ · with ended := some (.threw what) })
    | _ => h
  | .run (.callbackThrew _ _) => h.update ({ · with fate := .failed })
  | .run (.deliver _) => h.update ({ · with fate := .delivered })
  | _ => h

end Pc

/-- The history after a step. -/
def recordHistory (s : System) (i : Input) (h : History) : History :=
  match i.move with
  | .go choice => (s.threads i.tid).pc.record i.tid choice s.shared h
  | _ => h

/-- One step of the client, and what it adds to the history. -/
abbrev RecordStep : System × History → Input → System × History → Prop :=
  Library.tracked Step recordHistory

/-- The states of a client with their histories, under any configuration. -/
def Recorded (config : Config) (x : System × History) : Prop :=
  Library.Reachable RecordStep (System.init config, {}) x

theorem Recorded.reachable {config : Config} {x : System × History} (h : Recorded config x) :
    x.1.Reachable config := Library.Reachable.of_tracked h

/-! ## What has to agree with it -/

/-- The counters of the health snapshot that the history accounts for, with the configuration. -/
structure Counts where
  received : Nat := 0
  delivered : Nat := 0
  rateLimited : Nat := 0
  callbackError : Nat := 0
  duplicate : Nat := 0
  outOfOrder : Nat := 0
  ftStall : Nat := 0
  ftBackward : Nat := 0
  deviceError : Nat := 0
  configuration : Option SensorConfiguration := none
  calibrationChange : Nat := 0
  deriving DecidableEq, Repr

/-- Of what `data_mutex_` protects, the part that the history accounts for. -/
structure Data where
  counts : Counts := {}
  latest : Option Sample := none
  generation : Nat := 0
  deliveredGeneration : Nat := 0
  deriving DecidableEq, Repr

end NetFT.Client

namespace NetFT

def HealthSnapshot.counts (health : HealthSnapshot) : Client.Counts where
  received := health.receivedCount
  delivered := health.deliveredCount
  rateLimited := health.rateLimitedCount
  callbackError := health.callbackErrorCount
  duplicate := health.duplicateCount
  outOfOrder := health.outOfOrderCount
  ftStall := health.ftStallCount
  ftBackward := health.ftBackwardCount
  deviceError := health.deviceErrorCount
  configuration := health.sensorConfiguration
  calibrationChange := health.calibrationChangeCount

end NetFT

namespace NetFT.Client

set_option autoImplicit false

open Library.Threads (Tid)

/-- That part of a client. -/
def Impl.data (c : Impl) : Data where
  counts := c.health.counts
  latest := c.latest
  generation := c.generation
  deliveredGeneration := c.deliveredGeneration

/-- The same of the copies that `start` has saved. -/
def Saved.data (saved : Saved) : Data where
  counts := saved.health.counts
  latest := saved.latest
  generation := saved.generation
  deliveredGeneration := saved.deliveredGeneration

namespace Counts

/-- A record is counted. -/
def handle (n : Counts) (r : Handled) : Counts :=
  { n with
    received := n.received + 1
    rateLimited := n.rateLimited + if r.fate = .limited then 1 else 0
    duplicate := n.duplicate + if r.rdt = .Duplicate then 1 else 0
    outOfOrder := n.outOfOrder + if r.rdt = .OutOfOrder then 1 else 0
    ftStall := n.ftStall + if r.ft = .Stall then 1 else 0
    ftBackward := n.ftBackward + if r.ft = .Backward then 1 else 0
    deviceError := n.deviceError + if r.severity = .Error then 1 else 0 }

/-- What a session stores when it applies a configuration. -/
def stored (n : Counts) (configuration : SensorConfiguration) : SensorConfiguration :=
  match n.configuration with
  | none => { configuration with revision := 1 }
  | some previous =>
    { configuration with
      revision :=
        if previous.calibration = configuration.calibration then previous.revision
        else previous.revision + 1 }

/-- A configuration is stored, and counted if its calibration is another one. -/
def configure (n : Counts) (configuration : SensorConfiguration) : Counts :=
  { n with
    configuration := some (n.stored configuration)
    calibrationChange := n.calibrationChange +
      match n.configuration with
      | none => 0
      | some previous => if previous.calibration = configuration.calibration then 0 else 1 }

end Counts

/-- A new generation begins. -/
def Data.next (d : Data) : Data :=
  { d with latest := none, generation := d.generation + 1, deliveredGeneration := 0 }

/-- The data after a delivery. -/
def Data.deliver (d : Data) (sample : Sample) : Data :=
  { d with
    counts := { d.counts with delivered := d.counts.delivered + 1 }
    latest := some sample
    deliveredGeneration := d.generation }

/-- The data after a callback that threw. -/
def Data.fail (d : Data) : Data :=
  { d with counts := { d.counts with callbackError := d.counts.callbackError + 1 } }

/-! ## The sections of the client, as steps of the data -/

namespace Impl

variable (c : Impl)

/-- `same_calibration` compares all of a calibration. -/
theorem sameCalibration_iff (left right : Calibration) :
    sameCalibration left right = true ↔ left = right := by
  obtain ⟨f, t, fu, tu⟩ := left
  obtain ⟨f', t', fu', tu'⟩ := right
  simp [sameCalibration, and_assoc]

theorem applyConfiguration_data (configuration : SensorConfiguration) :
    (c.applyConfiguration configuration).data =
      { c.data with counts := c.data.counts.configure configuration } := by
  unfold applyConfiguration data Counts.configure Counts.stored HealthSnapshot.counts
  split <;> rename_i hconf
  · simp only [sameCalibration_iff]
    split_ifs <;> simp [*]
  · simp [hconf]

/-- The configuration that is stored. -/
theorem applyConfiguration_stored (configuration : SensorConfiguration) :
    (c.applyConfiguration configuration).health.sensorConfiguration =
      some (c.data.counts.stored configuration) := by
  have hdata := congrArg (·.counts.configuration) (c.applyConfiguration_data configuration)
  exact hdata

theorem beginGeneration_data : c.beginGeneration.data = c.data.next := rfl

theorem restoreData_data (saved : Saved) : (c.restoreData saved).data = saved.data := rfl

theorem deliverSample_data (sample : Sample) : (c.deliverSample sample).data = c.data.deliver sample :=
  rfl

theorem recordCallbackError_data (message : String) :
    (c.recordCallbackError message).data = c.data.fail := rfl

/-- Without a configuration nothing is counted. -/
theorem prepareRecord_none (h : c.health.sensorConfiguration = none) (record : RawRecord)
    (receivedAt : TimePoint) :
    (c.prepareRecord record receivedAt).1.data = c.data ∧
      ∃ what, (c.prepareRecord record receivedAt).2 = .raised what := by
  unfold prepareRecord observeRecord
  simp only [h]
  exact ⟨rfl, _, rfl⟩

/-- What an RDT observation counts. -/
theorem countRdt_counts (health : HealthSnapshot) (rdt : SequenceObservation) :
    (countRdt health rdt).counts =
      { health.counts with
        duplicate := health.counts.duplicate + if rdt.kind = .Duplicate then 1 else 0
        outOfOrder := health.counts.outOfOrder + if rdt.kind = .OutOfOrder then 1 else 0 } := by
  unfold countRdt
  cases rdt.kind <;> rfl

/-- What an FT verdict counts. -/
theorem countFt_counts (health : HealthSnapshot) (ft : FtSequenceKind) :
    (countFt health ft).counts =
      { health.counts with
        ftStall := health.counts.ftStall + if ft = .Stall then 1 else 0
        ftBackward := health.counts.ftBackward + if ft = .Backward then 1 else 0 } := by
  cases ft <;> rfl

theorem countSeverity_counts (health : HealthSnapshot) (severity : StatusSeverity) :
    (countSeverity health severity).counts =
      { health.counts with
        deviceError := health.counts.deviceError + if severity = .Error then 1 else 0 } := by
  cases severity <;> rfl

variable {configuration : SensorConfiguration} (worker : Tid) (run : Nat) (record : RawRecord)
  (receivedAt : TimePoint)

theorem observedHealth_counts (times : List TimePoint) (rdt : SequenceObservation)
    (ft : FtSequenceKind) (severity : StatusSeverity) :
    (c.observedHealth record times rdt ft severity).counts =
      { c.health.counts with
        received := c.health.counts.received + 1
        duplicate := c.health.counts.duplicate + if rdt.kind = .Duplicate then 1 else 0
        outOfOrder := c.health.counts.outOfOrder + if rdt.kind = .OutOfOrder then 1 else 0
        ftStall := c.health.counts.ftStall + if ft = .Stall then 1 else 0
        ftBackward := c.health.counts.ftBackward + if ft = .Backward then 1 else 0
        deviceError := c.health.counts.deviceError + if severity = .Error then 1 else 0 } := by
  rw [observedHealth, countSeverity_counts, countFt_counts, countRdt_counts]
  rfl

/-- With one, the record is counted as it is classified. -/
theorem prepareRecord_data (h : c.health.sensorConfiguration = some configuration) :
    (c.prepareRecord record receivedAt).1.data =
      { c.data with
        counts := c.data.counts.handle (c.handled worker run record receivedAt configuration) } := by
  have hlimit : ∀ health : HealthSnapshot,
      { health with rateLimitedCount := health.rateLimitedCount + 1 }.counts =
        { health.counts with rateLimited := health.counts.rateLimited + 1 } := fun _ => rfl
  rw [prepareRecord_fst]
  unfold observeRecord
  simp only [h, data, Data.mk.injEq, and_true]
  cases hdeliver : (verdict c.config (c.rdtSequence.observe record.rdtSequence).1.kind
      (c.ftSequence.observe record.ftSequence).1 (classifyStatus record.status)).1
  · simp only [Bool.false_and, Bool.false_eq_true, if_false, observedHealth_counts]
    simp [Counts.handle, handled, hdeliver]
  · cases hlimited : rateLimited c.config c.lastDeliveryAt receivedAt
    · simp only [Bool.and_false, Bool.false_eq_true, if_false, observedHealth_counts]
      cases hfinite : Sample.isFinite (sampleOf record configuration receivedAt) <;>
        simp [Counts.handle, handled, hdeliver, hlimited, hfinite]
    · simp only [Bool.and_true, if_true, hlimit, observedHealth_counts]
      simp [Counts.handle, handled, hdeliver, hlimited]

/-- Only a record that is offered is invoked. -/
theorem prepareRecord_fate (h : c.health.sensorConfiguration = some configuration) :
    (((c.handled worker run record receivedAt configuration).fate = .offered ∧ ∃ outcome,
        (c.prepareRecord record receivedAt).2 =
          .invoke (sampleOf record configuration receivedAt) outcome) ∨
      (c.handled worker run record receivedAt configuration).fate ≠ .offered ∧ ∃ outcome,
        (c.prepareRecord record receivedAt).2 = .done outcome) := by
  unfold prepareRecord observeRecord
  simp only [h]
  cases hdeliver : (verdict c.config (c.rdtSequence.observe record.rdtSequence).1.kind
      (c.ftSequence.observe record.ftSequence).1 (classifyStatus record.status)).1
  · exact .inr ⟨by simp [handled, hdeliver], _, rfl⟩
  · cases hlimited : rateLimited c.config c.lastDeliveryAt receivedAt
    · cases hfinite : Sample.isFinite (sampleOf record configuration receivedAt)
      · exact .inr ⟨by simp [handled, hdeliver, hlimited, hfinite], by simp⟩
      · exact .inl ⟨by simp [handled, hdeliver, hlimited, hfinite], by simp⟩
    · exact .inr ⟨by simp [handled, hdeliver, hlimited], by simp⟩

end Impl

end NetFT.Client
