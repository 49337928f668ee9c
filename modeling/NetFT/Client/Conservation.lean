/-
# NetFT.Client.Conservation — the health counters conserve records.

Every counter of the health snapshot is the number of records of the history in its class: the fates
for the delivered, rate-limited and failed ones, the verdicts for the others.  A record has one fate, so
between two records the fates add up to the records that were received.

* `Counts.Accounts`: the counters agree with the history; every move of the ledger keeps it.
* **`records_conserved`**: the balance, and the bounds on the records that were withheld.
-/
import NetFT.Client.Ledger

namespace NetFT.Client

set_option autoImplicit false

/-! ## Counting records -/

theorem length_eq_fates (records : List Handled) :
    records.length =
      records.countP (·.fate == .delivered) + records.countP (·.fate == .limited) +
        records.countP (·.fate == .failed) + records.countP (·.fate == .withheld) +
        (records.countP (·.fate == .unscalable) + records.countP (·.fate == .offered)) := by
  induction records with
  | nil => rfl
  | cons r records ih =>
    simp only [List.length_cons, List.countP_cons, ih]
    cases r.fate <;> simp <;> omega

theorem countP_dropped (records : List Handled) :
    records.countP (·.rdt.dropped) =
      records.countP (·.rdt == .Duplicate) + records.countP (·.rdt == .OutOfOrder) := by
  induction records with
  | nil => rfl
  | cons r records ih =>
    simp only [List.countP_cons, ih]
    cases r.rdt <;> simp [SequenceKind.dropped] <;> omega

theorem countP_discontinuity (records : List Handled) :
    records.countP (·.ft.discontinuity) =
      records.countP (·.ft == .Stall) + records.countP (·.ft == .Backward) := by
  induction records with
  | nil => rfl
  | cons r records ih =>
    simp only [List.countP_cons, ih]
    cases r.ft <;> simp [FtSequenceKind.discontinuity] <;> omega

/-- A withheld record is in one of the classes, or in several. -/
theorem countP_refused_le (config : Config) (records : List Handled) :
    records.countP (·.refused config) ≤
      records.countP (·.rdt.dropped) + records.countP (·.ft.discontinuity) +
        records.countP (·.severity == .Error) := by
  induction records with
  | nil => rfl
  | cons r records ih =>
    have hone : (if r.refused config = true then 1 else 0) ≤
        (if r.rdt.dropped = true then 1 else 0) + (if r.ft.discontinuity = true then 1 else 0) +
          if (r.severity == .Error) = true then 1 else 0 := by
      unfold Handled.refused
      cases r.rdt.dropped <;> cases r.ft.discontinuity <;> cases r.severity == .Error <;>
        cases config.deliverSamplesWithErrorStatus <;> decide
    simp only [List.countP_cons]
    omega

/-! ## The counters -/

structure Counts.Accounts (config : Config) (n : Counts) (records : List Handled) : Prop where
  received : n.received = records.length
  delivered : n.delivered = records.countP (·.fate == .delivered)
  rateLimited : n.rateLimited = records.countP (·.fate == .limited)
  callbackError : n.callbackError = records.countP (·.fate == .failed)
  duplicate : n.duplicate = records.countP (·.rdt == .Duplicate)
  outOfOrder : n.outOfOrder = records.countP (·.rdt == .OutOfOrder)
  ftStall : n.ftStall = records.countP (·.ft == .Stall)
  ftBackward : n.ftBackward = records.countP (·.ft == .Backward)
  deviceError : n.deviceError = records.countP (·.severity == .Error)
  withheld : ∀ r ∈ records, r.fate = .withheld ↔ r.refused config = true
  unscalable : ∀ r ∈ records, r.fate = .unscalable → Sample.isFinite r.sample = false

namespace Counts.Accounts

variable {config : Config} {n : Counts} {records rest : List Handled} {r r' : Handled}

theorem handle (h : n.Accounts config records) (hfresh : r.Fresh config) :
    (n.handle r).Accounts config (r :: records) where
  received := by simp [Counts.handle, h.received]
  delivered := by simp [Counts.handle, h.delivered, hfresh.delivered]
  rateLimited := by simp [Counts.handle, h.rateLimited, List.countP_cons]
  callbackError := by simp [Counts.handle, h.callbackError, hfresh.failed]
  duplicate := by simp [Counts.handle, h.duplicate, List.countP_cons]
  outOfOrder := by simp [Counts.handle, h.outOfOrder, List.countP_cons]
  ftStall := by simp [Counts.handle, h.ftStall, List.countP_cons]
  ftBackward := by simp [Counts.handle, h.ftBackward, List.countP_cons]
  deviceError := by simp [Counts.handle, h.deviceError, List.countP_cons]
  withheld := by
    rintro r' (_ | ⟨_, hr'⟩)
    · exact hfresh.withheld
    · exact h.withheld r' hr'
  unscalable := by
    rintro r' (_ | ⟨_, hr'⟩)
    · exact hfresh.unscalable
    · exact h.unscalable r' hr'

/-- The classes of the newest record stay; its fate may be settled. -/
theorem settle {n' : Counts} (h : n.Accounts config (r :: rest)) (hoffered : r.fate = .offered)
    (hclasses : r'.rdt = r.rdt ∧ r'.ft = r.ft ∧ r'.severity = r.severity)
    (hcounts : n' =
      { n with
        delivered := n.delivered + if r'.fate = .delivered then 1 else 0
        callbackError := n.callbackError + if r'.fate = .failed then 1 else 0 })
    (hfate : r'.fate = .offered ∨ r'.fate = .delivered ∨ r'.fate = .failed) :
    n'.Accounts config (r' :: rest) := by
  obtain ⟨hrdt, hft, hseverity⟩ := hclasses
  obtain ⟨h₁, h₂, h₃, h₄, h₅, h₆, h₇, h₈, h₉, hwithheld, hunscalable⟩ := h
  simp only [List.countP_cons, hoffered] at h₂ h₃ h₄ h₅ h₆ h₇ h₈ h₉
  subst hcounts
  constructor
  · exact h₁
  · simp [h₂, List.countP_cons]
  · rcases hfate with hfate | hfate | hfate <;> simp [h₃, hfate]
  · simp [h₄, List.countP_cons]
  · simp [h₅, List.countP_cons, hrdt]
  · simp [h₆, List.countP_cons, hrdt]
  · simp [h₇, List.countP_cons, hft]
  · simp [h₈, List.countP_cons, hft]
  · simp [h₉, List.countP_cons, hseverity]
  · rintro r'' (_ | ⟨_, hr''⟩)
    · have hrefused := hwithheld r List.mem_cons_self
      have hsame : r'.refused config = r.refused config := by
        simp only [Handled.refused, hrdt, hft, hseverity]
      rw [hsame, ← hrefused, hoffered]
      rcases hfate with hfate | hfate | hfate <;> simp [hfate]
    · exact hwithheld r'' (List.mem_cons_of_mem _ hr'')
  · rintro r'' (_ | ⟨_, hr''⟩)
    · rcases hfate with hfate | hfate | hfate <;> simp [hfate]
    · exact hunscalable r'' (List.mem_cons_of_mem _ hr'')

end Counts.Accounts

/-- The counters of the data, and those that a rollback would restore, agree with the history. -/
theorem Ledger.accounts_move {config : Config} {L L' : Ledger} (hsound : L.Sound)
    (hinv : L.data.counts.Accounts config L.history.records) (hmove : L.Move config L') :
    L'.data.counts.Accounts config L'.history.records := by
  cases hmove with
  | stay | «begin» | create | skip => exact hinv
  | restore hsaved =>
    have hdata := (hsound.saved _ hsaved).1
    rw [hdata] at hinv
    exact hinv
  | configure configuration => exact ⟨hinv.1, hinv.2, hinv.3, hinv.4, hinv.5, hinv.6, hinv.7, hinv.8,
      hinv.9, hinv.10, hinv.11⟩
  | handle r _ _ hfresh => exact hinv.handle hfresh
  | call hpending =>
    obtain ⟨r, rest, hrecords, hhand, -, hnew⟩ := hsound.advance hpending ({ · with passed := true })
    rw [hrecords] at hinv
    rw [hnew]
    exact hinv.settle hhand.offered ⟨rfl, rfl, rfl⟩ (by simp [hhand.offered]) (.inl hhand.offered)
  | «return» hpending =>
    obtain ⟨r, rest, hrecords, hhand, -, hnew⟩ :=
      hsound.advance hpending ({ · with ended := some .returned })
    rw [hrecords] at hinv
    rw [hnew]
    exact hinv.settle hhand.offered ⟨rfl, rfl, rfl⟩ (by simp [hhand.offered]) (.inl hhand.offered)
  | throw what hpending =>
    obtain ⟨r, rest, hrecords, hhand, -, hnew⟩ :=
      hsound.advance hpending ({ · with ended := some (.threw what) })
    rw [hrecords] at hinv
    rw [hnew]
    exact hinv.settle hhand.offered ⟨rfl, rfl, rfl⟩ (by simp [hhand.offered]) (.inl hhand.offered)
  | fail hpending =>
    obtain ⟨r, rest, hrecords, hhand, -, hnew⟩ := hsound.advance hpending ({ · with fate := .failed })
    rw [hrecords] at hinv
    rw [hnew]
    exact hinv.settle hhand.offered ⟨rfl, rfl, rfl⟩ (by simp [Data.fail]) (.inr (.inr rfl))
  | deliver hpending =>
    obtain ⟨r, rest, hrecords, hhand, -, hnew⟩ :=
      hsound.advance hpending ({ · with fate := .delivered })
    rw [hrecords] at hinv
    rw [hnew]
    exact hinv.settle hhand.offered ⟨rfl, rfl, rfl⟩ (by simp [Data.deliver]) (.inr (.inl rfl))

/-! ## The balance -/

/-- **The counters conserve records**, in a state `x` between two records. -/
structure Conserved (config : Config) (x : System × History) : Prop where
  /-- The four groups account for every record received. -/
  balance : x.1.shared.impl.health.receivedCount =
    x.1.shared.impl.health.deliveredCount + x.1.shared.impl.health.rateLimitedCount +
      x.1.shared.impl.health.callbackErrorCount + x.2.records.countP (·.refused config)
  received : x.1.shared.impl.health.receivedCount = x.2.records.length
  delivered : x.1.shared.impl.health.deliveredCount = x.2.records.countP (·.fate == .delivered)
  rateLimited : x.1.shared.impl.health.rateLimitedCount = x.2.records.countP (·.fate == .limited)
  callbackError : x.1.shared.impl.health.callbackErrorCount = x.2.records.countP (·.fate == .failed)
  /-- A record is in one group: it has one fate, and is withheld for its classes alone. -/
  grouped : ∀ r ∈ x.2.records,
    (r.fate = .delivered ∨ r.fate = .limited ∨ r.fate = .failed ∨ r.fate = .withheld) ∧
      (r.refused config = true ↔ r.fate = .withheld)
  atLeast : max
      (x.1.shared.impl.health.duplicateCount + x.1.shared.impl.health.outOfOrderCount)
      (x.1.shared.impl.health.ftStallCount + x.1.shared.impl.health.ftBackwardCount) ≤
    x.2.records.countP (·.refused config)
  atMost : x.2.records.countP (·.refused config) ≤
    x.1.shared.impl.health.duplicateCount + x.1.shared.impl.health.outOfOrderCount +
      x.1.shared.impl.health.ftStallCount + x.1.shared.impl.health.ftBackwardCount +
      x.1.shared.impl.health.deviceErrorCount

/-- In every reachable state with no record in hand, the counters are in balance, if no record had a
scaled value that is not finite. -/
theorem records_conserved {config : Config} {x : System × History} (h : Recorded config x)
    (hbetween : ∀ t, (x.1.threads t).pc.phase = none)
    (hfinite : ∀ r ∈ x.2.records, Sample.isFinite r.sample = true) : Conserved config x := by
  obtain ⟨L, hof, hsound, hinv⟩ := h.invariant
    (I := fun L => L.data.counts.Accounts config L.history.records)
    (by constructor <;> simp) fun L L' => Ledger.accounts_move
  have hnone : L.pending = none := by
    refine Option.eq_none_iff_forall_ne_some.mpr fun ⟨t, phase, sample⟩ hpending => ?_
    have hphase := (hof.pending t phase sample).mp hpending
    simp [hbetween t] at hphase
  rw [← hof.history, ← hof.data] at hinv
  have hsettled := hsound.settled hnone
  rw [← hof.history] at hsettled
  have hscaled : ∀ r ∈ x.2.records, r.fate ≠ .unscalable := fun r hr hfate => by
    simpa [hinv.unscalable r hr hfate] using hfinite r hr
  have hwithheld : x.2.records.countP (·.refused config) = x.2.records.countP (·.fate == .withheld) :=
    List.countP_congr fun r hr => by rw [beq_iff_eq, hinv.withheld r hr]
  have hfates := length_eq_fates x.2.records
  have hno : x.2.records.countP (·.fate == .unscalable) = 0 ∧
      x.2.records.countP (·.fate == .offered) = 0 := by
    constructor <;> rw [List.countP_eq_zero] <;> intro r hr <;> rw [beq_iff_eq]
    · exact hscaled r hr
    · exact hsettled r hr
  have hdropped : x.2.records.countP (·.rdt.dropped) ≤ x.2.records.countP (·.refused config) :=
    List.countP_mono_left fun r _ hr => by simp [Handled.refused, hr]
  have hdiscontinuity :
      x.2.records.countP (·.ft.discontinuity) ≤ x.2.records.countP (·.refused config) :=
    List.countP_mono_left fun r _ hr => by simp [Handled.refused, hr]
  have hle := countP_refused_le config x.2.records
  rw [countP_dropped, countP_discontinuity] at hle
  rw [countP_dropped] at hdropped
  rw [countP_discontinuity] at hdiscontinuity
  obtain ⟨h₁, h₂, h₃, h₄, h₅, h₆, h₇, h₈, h₉, hclasses, -⟩ := hinv
  simp only [Impl.data, HealthSnapshot.counts] at h₁ h₂ h₃ h₄ h₅ h₆ h₇ h₈ h₉
  refine ⟨by omega, h₁, h₂, h₃, h₄, fun r hr => ⟨?_, (hclasses r hr).symm⟩, by omega, by omega⟩
  have hone := hsettled r hr
  have htwo := hscaled r hr
  cases hfate : r.fate <;> simp_all

/-! ## A delivered and a withheld record -/

/-- One count is one newton, or one newton metre. -/
def unitConfig : Config :=
  { calibrationOverride :=
      some { countsPerForceUnit := 1, countsPerTorqueUnit := 1, forceUnit := .Newton,
             torqueUnit := .NewtonMeter } }

/-- Both sequence numbers are 1, and all axes are zero. -/
def datagram : List UInt8 := [0, 0, 0, 1, 0, 0, 0, 1] ++ List.replicate 28 0

/-- Thread 1 starts the client with a callback, and thread 2, the worker, opens a session. -/
def openRun : List Input :=
  go 1 (.call (.start (some 7))) :: steps 1 7 ++ [go 1 (.created 2)] ++ steps 1 3 ++ steps 2 3 ++
    [go 2 (.fail "")] ++ steps 2 6 ++ [go 2 (.reading 0)]

/-- The worker receives the datagram, and its callback returns. -/
def deliverRun : List Input :=
  [go 2, go 2 (.reading 1), go 2 (.received datagram), go 2, go 2 (.reading 2), go 2, go 2,
    go 2 .returned] ++ steps 2 3

/-- The worker receives it again: it is a duplicate. -/
def duplicateRun : List Input :=
  [go 2, go 2 (.reading 3), go 2 (.received datagram), go 2, go 2 (.reading 4), go 2]

theorem delivered_then_withheld : ∃ x, Recorded unitConfig x ∧
    x.2.records.map (·.fate) = [.withheld, .delivered] ∧ Conserved unitConfig x := by
  have hrun : ((Library.execute (Library.trackedNext program.next recordHistory)
      (System.init unitConfig, {}) (openRun ++ deliverRun ++ duplicateRun)).map fun x =>
        decide (x.2.records.map (·.fate) = [.withheld, .delivered] ∧
          (∀ r ∈ x.2.records, Sample.isFinite r.sample = true) ∧
          (x.1.threads 2).pc.isWorker = true ∧ (x.1.threads 2).pc.phase = none)) = some true := by
    decide +kernel
  obtain ⟨x, hruns, hx⟩ := Library.exists_runs_of_execute hrun
  obtain ⟨hfates, hfinite, hworker, hphase⟩ := of_decide_eq_true hx
  have hrecorded : Recorded unitConfig x :=
    ⟨_, hruns.mono fun _ _ _ h => Library.trackedNext_tracked h⟩
  refine ⟨x, hrecorded, hfates, records_conserved hrecorded (fun t => ?_) hfinite⟩
  -- a thread with a sample in hand would be the worker
  by_contra hsample
  have howns : (x.1.threads 2).pc.owning = true := by rw [Pc.owning, hworker, Bool.true_or]
  have hsame := hrecorded.reachable.owner_unique (Pc.owning_of_phase hsample) howns
  rw [hsame] at hsample
  exact hsample hphase

end NetFT.Client
