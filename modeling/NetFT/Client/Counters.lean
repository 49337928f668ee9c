/-
# NetFT.Client.Counters — the counters of `health()` never fall.

The diagnostics take the growth of a counter for an event.  A `start` that cannot create its thread
writes a whole snapshot back, which is the one place where a counter could fall; what it writes back has
the counters of the moment, because nobody counts while a `start` works on the data.

* `HealthSnapshot.counter` is what a counter's `std::uint64_t` holds of the events counted; it wraps.
* `Counting` says what an action does to the counters, and `savedHealth` what a `start` would restore.
* **`counters_grow`**: a counter that has not wrapped does not fall in a run, and the snapshots that the
  calls of `health()` return, in the order of the calls, are as the evaluator of the diagnostics assumes.
-/
import NetFT.Client.Ownership
import NetFT.Ros.EventWindow
import Mathlib.Data.Fintype.Basic

namespace NetFT

/-- The counters of a health snapshot. -/
inductive Counter where
  | received | delivered | rateLimited | deviceError | warning | lost | duplicate | outOfOrder
  | malformed | reconnect | timeout | callbackError | ftStall | ftBackward | ftRestart
  | calibrationChange
  deriving DecidableEq, Repr

instance : Fintype Counter where
  elems := {.received, .delivered, .rateLimited, .deviceError, .warning, .lost, .duplicate, .outOfOrder,
    .malformed, .reconnect, .timeout, .callbackError, .ftStall, .ftBackward, .ftRestart,
    .calibrationChange}
  complete k := by cases k <;> decide

/-- How many events a counter has counted. -/
def HealthSnapshot.count (health : HealthSnapshot) : Counter → ℕ
  | .received => health.receivedCount
  | .delivered => health.deliveredCount
  | .rateLimited => health.rateLimitedCount
  | .deviceError => health.deviceErrorCount
  | .warning => health.warningCount
  | .lost => health.lostCount
  | .duplicate => health.duplicateCount
  | .outOfOrder => health.outOfOrderCount
  | .malformed => health.malformedCount
  | .reconnect => health.reconnectCount
  | .timeout => health.timeoutCount
  | .callbackError => health.callbackErrorCount
  | .ftStall => health.ftStallCount
  | .ftBackward => health.ftBackwardCount
  | .ftRestart => health.ftRestartCount
  | .calibrationChange => health.calibrationChangeCount

/-- The value of a counter, which starts again from 0 after 2^64 events. -/
def HealthSnapshot.counter (health : HealthSnapshot) (k : Counter) : UInt64 := .ofNat (health.count k)

/-- A counter that has not wrapped keeps the order of what it counts. -/
theorem HealthSnapshot.counter_le {earlier later : HealthSnapshot} {k : Counter}
    (h : earlier.count k ≤ later.count k) (hlimit : later.count k < 2 ^ 64) :
    earlier.counter k ≤ later.counter k := by
  rw [UInt64.le_iff_toNat_le, counter, counter, UInt64.toNat_ofNat_of_lt' (h.trans_lt hlimit),
    UInt64.toNat_ofNat_of_lt' hlimit]
  exact h

end NetFT

namespace NetFT.Client

set_option autoImplicit false

open Library (Runs tracked)
open Library.Threads (Tid Effect Program Sys)

/-- The counters of a client. -/
def Impl.count (c : Impl) : Counter → ℕ := c.health.count

/-! ## What the sections count -/

section

variable (c : Impl)

/-- What an RDT observation counts. -/
theorem countRdt_grows (health : HealthSnapshot) (rdt : SequenceObservation) :
    health.count ≤ (countRdt health rdt).count := by
  intro k
  unfold countRdt
  cases rdt.kind <;> cases k <;> simp [HealthSnapshot.count]

/-- What an FT verdict counts. -/
theorem countFt_grows (health : HealthSnapshot) (ft : FtSequenceKind) :
    health.count ≤ (countFt health ft).count := by
  intro k
  cases ft <;> cases k <;> simp [countFt, HealthSnapshot.count]

/-- What a status word counts. -/
theorem countSeverity_grows (health : HealthSnapshot) (severity : StatusSeverity) :
    health.count ≤ (countSeverity health severity).count := by
  intro k
  cases severity <;> cases k <;> simp [countSeverity, HealthSnapshot.count]

/-- What a record that is received counts. -/
theorem observedHealth_grows (record : RawRecord) (times : List TimePoint) (rdt : SequenceObservation)
    (ft : FtSequenceKind) (severity : StatusSeverity) :
    c.count ≤ (c.observedHealth record times rdt ft severity).count := by
  refine le_trans ?_ ((countRdt_grows _ rdt).trans ((countFt_grows _ ft).trans
    (countSeverity_grows _ severity)))
  intro k
  cases k <;> simp [Impl.count, HealthSnapshot.count]

theorem rateLimited_grows (health : HealthSnapshot) (limited : Bool) :
    health.count ≤
      (if limited then { health with rateLimitedCount := health.rateLimitedCount + 1 }
        else health).count := by
  cases limited with
  | false => exact le_refl health.count
  | true =>
    intro k
    cases k <;> simp [HealthSnapshot.count]

/-- **A record counts, and takes nothing back.** -/
theorem prepareRecord_grows (record : RawRecord) (receivedAt : TimePoint) :
    c.count ≤ (c.prepareRecord record receivedAt).1.count := by
  rw [Impl.prepareRecord_fst]
  unfold Impl.observeRecord
  cases hconf : c.health.sensorConfiguration with
  | none =>
    simp only [hconf]
    exact le_refl c.count
  | some configuration =>
    simp only [hconf]
    exact le_trans (observedHealth_grows c record _ _ _ _) (rateLimited_grows _ _)

theorem applyConfiguration_grows (configuration : SensorConfiguration) :
    c.count ≤ (c.applyConfiguration configuration).count := by
  intro k
  unfold Impl.applyConfiguration
  cases c.health.sensorConfiguration with
  | none => cases k <;> simp [Impl.count, HealthSnapshot.count]
  | some previous =>
    simp only
    split_ifs <;> cases k <;> simp [Impl.count, HealthSnapshot.count]

/-- A fault counts nothing. -/
theorem publishFault_count (code : FaultCode) (message : String) :
    (c.publishFault code message).count = c.count := by
  funext k
  unfold Impl.publishFault
  split_ifs
  · cases k <;> rfl
  · rfl

end

/-- A step of the worker. -/
theorem RunPc.step_grows {pc pc' : RunPc} {choice : Choice} {c c' : Impl} {wire wire' : Wire}
    (h : pc.step choice c wire = some (c', wire', pc')) : c.count ≤ c'.count := by
  cases pc with
  | apply b configuration =>
    cases h
    exact applyConfiguration_grows c configuration
  | timeout l =>
    cases h
    intro k
    split_ifs
    · exact le_refl _
    · cases k <;> simp [Impl.count, HealthSnapshot.count, Impl.countTimeout]
  | malformed l =>
    cases h
    intro k
    cases k <;> simp [Impl.count, HealthSnapshot.count, Impl.countMalformed]
  | observe l record receivedAt =>
    have hgrows := prepareRecord_grows c record receivedAt
    simp only [step, stepOpen, stepLoop, stepClose, Option.none_or, Option.or_none] at h
    split at h <;> cases h <;> simp_all
  | callbackThrew k what =>
    cases h
    intro k
    cases k <;> simp [Impl.count, HealthSnapshot.count, Impl.recordCallbackError]
  | deliver k =>
    cases h
    intro k
    cases k <;> simp [Impl.count, HealthSnapshot.count, Impl.deliverSample]
  | enterBackoff b message =>
    cases h
    intro k
    cases k <;> simp [Impl.count, HealthSnapshot.count, Impl.enterBackoff]
  | publish code message =>
    cases h
    exact (publishFault_count c code message).ge
  | connecting | finishState =>
    cases h
    intro k
    cases k <;> exact le_refl _
  | _ =>
    apply le_of_eq
    simp only [step, stepOpen, stepLoop, stepClose, Option.none_or, Option.or_none, Option.map_none] at h
    grind [Impl.count, Impl.connectTransport, Impl.setSessionStarted, Impl.resetSequences,
      Impl.clearMalformed, Impl.closeSession, Impl.closeTransport]

/-! ## What an action does to the counters -/

/-- The snapshot that a `start` in progress would write back. -/
def StartPc.savedHealth : StartPc → Option HealthSnapshot
  | .stopping saved | .exited saved | .create saved | .rollbackStopping saved | .rollbackExited saved
  | .rollbackRecord saved | .rollbackData saved => some saved.health
  | _ => none

/-- The snapshot that a thread would put back. -/
def Pc.savedHealth : Pc → Option HealthSnapshot
  | .start _ _ pc => pc.savedHealth
  | _ => none

/-- The counters after an action at the control point `p`. -/
inductive Counting (p : Pc) (n : Counter → ℕ) : (Counter → ℕ) → Prop where
  | keep : Counting p n n
  | worker (n' : Counter → ℕ) : (∃ pc, p = .run pc) → n ≤ n' → Counting p n n'
  | restore (ctx : Ctx) (callback : SampleCallback) (saved : Saved) :
      p = .start ctx callback (.rollbackData saved) → Counting p n saved.health.count

section

variable {p : Pc} {t : Tid} {choice : Choice} {s : Shared} {e : Effect Shared Pc}

theorem Counting.of_eq {n n' : Counter → ℕ} (h : n' = n) : Counting p n n' := h ▸ .keep

theorem setState_count (c : Impl) (state : ClientState) : (c.setState state).count = c.count := by
  funext k
  cases k <;> rfl

theorem beginGeneration_count (c : Impl) : c.beginGeneration.count = c.count := by
  funext k
  cases k <;> rfl

/-- A section of `start`: what it would restore has the counters that it found. -/
theorem startStep_counting {ctx : Ctx} {callback : SampleCallback} {pc : StartPc}
    (h : startStep ctx callback pc t choice s = some e) :
    Counting (.start ctx callback pc) s.impl.count e.shared.impl.count ∧
      (e.next.savedHealth = none ∨
        e.shared.impl.count = s.impl.count ∧
          (e.next.savedHealth = (Pc.start ctx callback pc).savedHealth ∨ e.next.savedHealth = some s.impl.health)) := by
  have hresume : ctx.resume.savedHealth = none := by cases ctx <;> rfl
  have hpublish := publishFault_count s.impl
  have hbegin := beginGeneration_count s.impl
  cases pc with
  | rollbackData saved =>
    cases h
    exact ⟨.restore ctx callback saved rfl, .inl rfl⟩
  | data saved =>
    cases h
    exact ⟨.of_eq hbegin, .inr ⟨hbegin, .inr rfl⟩⟩
  | rollbackPublish saved =>
    cases h
    refine ⟨.of_eq ?_, .inl rfl⟩
    show (if saved.fault ≠ .None then _ else _ : Impl).count = _
    split_ifs
    · exact hpublish _ _
    · rfl
  | _ =>
    simp only [startStep] at h
    constructor
    · apply Counting.of_eq
      grind [Impl.count, Shared.leave, Impl.clearLastDelivery, Impl.resetFault]
    · grind [Impl.count, Shared.leave, Impl.clearLastDelivery, Pc.savedHealth, StartPc.savedHealth]

/-- `stop` counts nothing. -/
theorem stopStep_counting {ctx : Ctx} {caller : Caller} {pc : StopPc}
    (h : stopStep ctx caller pc t choice s = some e) :
    e.shared.impl.count = s.impl.count ∧ e.next.savedHealth = none := by
  have hresume : ctx.resume.savedHealth = none := by cases ctx <;> rfl
  have hstate := setState_count s.impl
  cases pc <;> cases caller <;> simp only [stopStep] at h <;>
    grind [Impl.count, Shared.leave, Impl.setSessionStarted, Impl.shutdownTransport, Pc.savedHealth]

/-- A call begins without a snapshot. -/
theorem beginCall_savedHealth {ctx : Ctx} {call : Call} (h : beginCall ctx t call s = some e) :
    e.next.savedHealth = none := by
  cases call <;> simp only [beginCall] at h <;> grind [Pc.savedHealth, StartPc.savedHealth]

/-- The other calls have nothing to restore. -/
theorem minor_savedHealth (h : p.action t choice s = some e) (hp : p.isMinor = true) :
    e.next.savedHealth = none := by
  have hresume : ∀ ctx : Ctx, ctx.resume.savedHealth = none := fun ctx => by cases ctx <;> rfl
  cases p with
  | start | stop | run => cases hp
  | bias ctx pc => cases pc <;> simp only [Pc.action, biasStep] at h <;> grind [Pc.savedHealth]
  | waitForFirstSample ctx pc =>
    cases pc <;> simp only [Pc.action, waitStep] at h <;> grind [Pc.savedHealth]
  | query ctx q => cases q <;> cases h <;> exact hresume ctx
  | destroy ctx pc => cases pc <;> cases h <;> first | rfl | exact hresume ctx
  | outside =>
    simp only [Pc.action, outsideStep] at h
    split at h
    · exact beginCall_savedHealth h
    · cases h
  | deferred =>
    simp only [Pc.action, deferredStep] at h
    split_ifs at h
    cases h
    rfl

/-- Every action counts in one of these ways; only `start` has something to restore. -/
theorem action_counting (h : p.action t choice s = some e) :
    Counting p s.impl.count e.shared.impl.count ∧
      (e.next.savedHealth = none ∨
        e.shared.impl.count = s.impl.count ∧
          (e.next.savedHealth = p.savedHealth ∨ e.next.savedHealth = some s.impl.health)) := by
  cases p with
  | start ctx callback pc => exact startStep_counting h
  | stop ctx caller pc => exact ⟨.of_eq (stopStep_counting h).1, .inl (stopStep_counting h).2⟩
  | run pc =>
    rcases runStep_cases h with ⟨k, call, -, hbegin⟩ | ⟨impl, sessions, next, hstep, rfl⟩
    · refine ⟨.of_eq ?_, .inl (beginCall_savedHealth hbegin)⟩
      rw [beginCall_impl hbegin]
    · exact ⟨.worker _ ⟨pc, rfl⟩ (RunPc.step_grows hstep), .inl rfl⟩
  | _ =>
    refine ⟨?_, .inl (minor_savedHealth h rfl)⟩
    apply Counting.of_eq
    rcases action_impl h rfl with hsame | ⟨-, hsame⟩ | ⟨now, -, hsame⟩ <;> rw [hsame] <;> rfl

end

/-! ## Runs -/

/-- What the `start` in progress would restore has the counters of the moment. -/
def System.Restorable (s : System) : Prop :=
  ∀ t health, (s.threads t).pc.savedHealth = some health → health.count = s.shared.impl.count

/-- A snapshot to put back is kept while there is no worker. -/
theorem Pc.unoccupied_of_savedHealth {p : Pc} (h : p.savedHealth ≠ none) :
    p.knows.unoccupied = true := by
  cases p with
  | start ctx callback pc => cases pc <;> first | rfl | exact absurd rfl h
  | _ => exact absurd rfl h

/-- The thread that keeps it owns the client. -/
theorem Pc.owning_of_savedHealth {p : Pc} (h : p.savedHealth ≠ none) : p.owning = true := by
  simp [owning, unoccupied_of_savedHealth h]

theorem passes_savedHealth {p q : Pc} {s : Shared} (h : program.Passes p q s) :
    q.savedHealth = none := by
  cases goesOn_of_passes h <;> rfl

section

variable {config : Config} {s s' : System} {i : Input}

/-- **One step** lets no counter fall, and keeps what a `start` would restore up to date. -/
theorem System.Restorable.step (h : s.Restorable) (hreach : s.Reachable config) (hstep : Step s i s') :
    s.shared.impl.count ≤ s'.shared.impl.count ∧ s'.Restorable := by
  by_cases hact : ∃ takes f, (s.threads i.tid).pc.instr = .act takes f
  · obtain ⟨takes, f, hinstr⟩ := hact
    obtain ⟨choice, e, -, hf, hshared, hnext, hothers⟩ := hreach.consistent.step_act hstep hinstr
    obtain ⟨-, rfl⟩ := Pc.instr_act hinstr
    obtain ⟨hcounting, hsaved⟩ := action_counting hf
    have hgrows : s.shared.impl.count ≤ e.shared.impl.count := by
      generalize e.shared.impl.count = n' at hcounting ⊢
      cases hcounting with
      | keep => exact le_refl s.shared.impl.count
      | worker _ _ hle => exact hle
      | restore ctx callback saved hp => exact (h i.tid saved.health (by rw [hp]; rfl)).ge
    rw [hshared]
    refine ⟨hgrows, fun u health hu => ?_⟩
    rw [hshared]
    by_cases hut : u = i.tid
    · subst hut
      rw [hnext] at hu
      rcases hsaved with hnone | ⟨hsame, hkept | hnew⟩
      · rw [hnone] at hu
        cases hu
      · rw [hsame]
        exact h i.tid health (hkept ▸ hu)
      · rw [hsame]
        rw [hnew] at hu
        cases hu
        rfl
    · -- another thread works on the data, so this one counts nothing
      have hbefore : (s.threads u).pc.savedHealth = some health := by
        rcases hothers u hut with hpc | ⟨hfresh, hspawned⟩
        · rw [← hpc]
          exact hu
        · rw [spawned_run hf hspawned] at hu
          cases hu
      have hne : (s.threads u).pc.savedHealth ≠ none := by
        rw [hbefore]
        exact Option.some_ne_none health
      have hidle : (s.threads i.tid).pc.owning = false := by
        by_contra howning
        rw [Bool.not_eq_false] at howning
        exact hut (hreach.owner_unique (Pc.owning_of_savedHealth hne) howning)
      have hsame : e.shared.impl.count = s.shared.impl.count := by
        generalize e.shared.impl.count = n' at hcounting ⊢
        cases hcounting with
        | keep => rfl
        | worker _ hp =>
          obtain ⟨pc, hpc⟩ := hp
          rw [hpc, Pc.owning, Bool.or_eq_false_iff] at hidle
          have hended : pc = .ended := by simpa [Pc.isWorker] using hidle.1
          rw [hpc, hended] at hf
          cases hf
        | restore ctx callback saved hp => exact h i.tid saved.health (by rw [hp]; rfl)
      rw [hsame]
      exact h u health hbefore
  · obtain ⟨himpl, -⟩ := shared_of_not_act hstep hact
    rw [himpl]
    refine ⟨le_refl s.shared.impl.count, fun u health hu => ?_⟩
    rw [himpl]
    rcases Program.step_pc hstep u with hpc | ⟨rfl, takes, f, _, _, hinstr, -⟩ | ⟨-, hpasses⟩ |
      ⟨-, child, f, hinstr⟩ | ⟨-, takes, f, _, _, hinstr, -⟩
    · exact h u health (hpc ▸ hu)
    · exact absurd ⟨takes, f, hinstr⟩ hact
    · rw [passes_savedHealth hpasses] at hu
      cases hu
    · obtain ⟨-, ⟨ctx, callback, -, hq⟩ | ⟨ctx, caller, -, hq⟩⟩ := Pc.instr_join hinstr <;>
        rw [hq] at hu <;> cases hu
    · exact absurd ⟨takes, f, hinstr⟩ hact

/-- **A snapshot that may be put back has the counters of the moment**, in every reachable state. -/
theorem System.Reachable.restorable (h : s.Reachable config) : s.Restorable := by
  refine Library.Reachable.invariant (I := System.Restorable) ?_ ?_ h
  · intro t health ht
    simp only [System.init] at ht
    split_ifs at ht <;> cases ht
  · intro s i s' hreach hinv hstep
    exact (hinv.step hreach hstep).2

/-- **A run** lets no counter fall. -/
theorem System.Reachable.count_le {is : List Input} (h : s.Reachable config) (hruns : Runs Step s is s') :
    s.shared.impl.count ≤ s'.shared.impl.count := by
  induction hruns with
  | nil s => exact le_refl s.shared.impl.count
  | cons hstep _ ih =>
    replace h : System.Reachable config _ := h
    exact (h.restorable.step h hstep).1.trans (ih (h.step hstep))

/-! ## What `health()` returns -/

/-- The snapshots that the calls of `health()` have returned, the newest last. -/
def recordSnapshot (s : System) (i : Input) (snapshots : List HealthSnapshot) : List HealthSnapshot :=
  match i.move, (s.threads i.tid).pc with
  | .go _, .query _ (.health now) => snapshots ++ [(s.shared.impl.healthAt now).2]
  | _, _ => snapshots

/-- `health()` counts nothing. -/
theorem healthAt_count (c : Impl) (now : TimePoint) : (c.healthAt now).2.count = c.count := by
  funext k
  cases k <;> rfl

theorem counters_le_of_count_le {earlier later : HealthSnapshot} (h : earlier.count ≤ later.count) :
    ({ health := earlier } : Ros.Snapshot).counters ≤ ({ health := later } : Ros.Snapshot).counters :=
  ⟨h .lost, h .deviceError, h .timeout, h .malformed, h .ftStall, h .ftBackward, h .ftRestart,
    h .callbackError⟩

/-- Snapshots in order, none of them ahead of the client. -/
structure Ascending (s : System) (snapshots : List HealthSnapshot) : Prop where
  sorted : snapshots.Pairwise fun earlier later => earlier.count ≤ later.count
  below : ∀ snapshot ∈ snapshots, snapshot.count ≤ s.shared.impl.count

/-- A step keeps the snapshots in order. -/
theorem Ascending.step {snapshots : List HealthSnapshot} (h : Ascending s snapshots)
    (hreach : s.Reachable config) (hstep : Step s i s') :
    Ascending s' (recordSnapshot s i snapshots) := by
  have hgrows := (hreach.restorable.step hreach hstep).1
  have hbelow : ∀ snapshot ∈ snapshots, snapshot.count ≤ s'.shared.impl.count :=
    fun snapshot hmem => (h.below snapshot hmem).trans hgrows
  unfold recordSnapshot
  split
  · rename_i now _ _
    refine ⟨List.pairwise_append.mpr ⟨h.sorted, List.pairwise_singleton _ _, ?_⟩, ?_⟩
    · intro earlier hmem later hlater
      rw [List.mem_singleton.mp hlater, healthAt_count]
      exact h.below earlier hmem
    · intro snapshot hmem
      rcases List.mem_append.mp hmem with hmem | hmem
      · exact hbelow snapshot hmem
      · rw [List.mem_singleton.mp hmem, healthAt_count]
        exact hgrows
  · exact ⟨h.sorted, hbelow⟩

/-- In every interleaving, with failed starts in it as well: a counter does not fall while it has counted
fewer than 2^64 events. -/
theorem counters_grow (config : Config) :
    (∀ (s s' : System) (is : List Input) (k : Counter), s.Reachable config → Runs Step s is s' →
      s'.shared.impl.health.count k < 2 ^ 64 →
      s.shared.impl.health.counter k ≤ s'.shared.impl.health.counter k) ∧
    ∀ x : System × List HealthSnapshot,
      Library.Reachable (tracked Step recordSnapshot) (System.init config, []) x →
      (∀ k, x.1.shared.impl.health.count k < 2 ^ 64) →
      x.2.Pairwise (fun earlier later => ∀ k, earlier.counter k ≤ later.counter k) ∧
        Ros.NonDecreasing (x.2.map fun health => { health }) := by
  refine ⟨fun s s' is k h hruns hlimit => HealthSnapshot.counter_le (h.count_le hruns k) hlimit,
    fun x hx hlimit => ?_⟩
  have hascending : Ascending x.1 x.2 := by
    refine Library.Reachable.invariant (I := fun x => Ascending x.1 x.2) ⟨.nil, by simp⟩ ?_ hx
    rintro ⟨s, snapshots⟩ i ⟨s', snapshots'⟩ hreach hinv ⟨hstep, rfl⟩
    have hclient : s.Reachable config := hreach.of_tracked
    exact hinv.step hclient hstep
  constructor
  · refine hascending.sorted.imp_of_mem fun _ hlater hle k => ?_
    exact HealthSnapshot.counter_le (hle k) ((hascending.below _ hlater k).trans_lt (hlimit k))
  · rw [Ros.NonDecreasing, List.pairwise_map]
    exact hascending.sorted.imp counters_le_of_count_le

end

/-- The worker counts a reconnect, is stopped, and the next `start()` cannot create its thread; thread 3
calls `health()` before and after that. -/
def healthRun : List Input :=
  startRun ++ discoveryFails ++ steps 2 4 ++ [go 3 (.call (.query (.health 1))), go 3] ++
    go 1 (.call .stop) :: steps 1 5 ++ go 2 (.reading 0) :: steps 2 9 ++ steps 1 7 ++
    go 1 (.call (.start none)) :: steps 1 7 ++ [go 1 (.fail "no thread")] ++ steps 1 9 ++
    [go 3 (.call (.query (.health 2))), go 3]

theorem counters_grow_failedStart : ∃ x : System × List HealthSnapshot,
    x.2.map (·.counter .reconnect) = [1, 1] ∧
      x.2.Pairwise (fun earlier later => ∀ k, earlier.counter k ≤ later.counter k) ∧
      Ros.NonDecreasing (x.2.map fun health => { health }) := by
  have hrun : ((Library.execute (Library.trackedNext program.next recordSnapshot)
      (System.init {}, []) healthRun).map fun x =>
        decide (x.2.map (·.counter .reconnect) = [1, 1] ∧
          ∀ k, x.1.shared.impl.health.count k < 2 ^ 64)) = some true := by
    decide +kernel
  obtain ⟨x, hruns, hx⟩ := Library.exists_runs_of_execute hrun
  obtain ⟨hreconnects, hlimit⟩ := of_decide_eq_true hx
  have hreach : Library.Reachable (tracked Step recordSnapshot) (System.init {}, []) x :=
    ⟨_, hruns.mono fun _ _ _ hstep => Library.trackedNext_tracked hstep⟩
  exact ⟨x, hreconnects, (counters_grow {}).2 x hreach hlimit⟩

end NetFT.Client
