/-
# NetFT.Client.RateWindow — the rates of `health()` count the last second.

The worker dates a record before it locks `data_mutex_`, so a call of `health()` may prune the queues
with a later reading before the record is pushed.  The queues stay exact, because the clock does not go
back and one worker at a time dates records.

* `TimedStep`: a step on a monotone clock.  Two readings matter, that of a record and that of `health()`.
* `InTime` is the invariant: both queues are what is left of the stamps of the current generation, and a
  `start` in progress has saved such queues.
* **`rates_exact`**: what `health()` returns is the number of records of the last second.
-/
import NetFT.Client.Conservation
import NetFT.Library.Window

namespace NetFT.Client

set_option autoImplicit false

open Library (restrict tracked Window.Retains Window.prune)
open Impl (pruneRateWindow)
open Library.Threads (Tid Effect Program Sys)

/-! ## Stamps -/

/-- What the rate windows depend on in a record. -/
structure Stamp where
  run : Nat
  receivedAt : TimePoint
  delivered : Bool
  deriving DecidableEq, Repr

def Handled.stamp (r : Handled) : Stamp := ⟨r.run, r.receivedAt, r.fate == .delivered⟩

/-- The newest first. -/
def History.stamps (h : History) : List Stamp := h.records.map Handled.stamp

/-- The times of the records of a generation, the oldest first. -/
def receptions (stamps : List Stamp) (generation : Nat) : List TimePoint :=
  ((stamps.filter (·.run = generation)).map (·.receivedAt)).reverse

/-- Those whose sample has been delivered. -/
def deliveries (stamps : List Stamp) (generation : Nat) : List TimePoint :=
  ((stamps.filter fun a => a.run = generation ∧ a.delivered = true).map (·.receivedAt)).reverse

/-- The queues of a generation are what is left of its stamps. -/
structure Windows (stamps : List Stamp) (generation : Nat) (receiveTimes deliveryTimes : List TimePoint)
    (clock : TimePoint) : Prop where
  receive : Window.Retains ticksPerSecond (receptions stamps generation) receiveTimes clock
  delivery : Window.Retains ticksPerSecond (deliveries stamps generation) deliveryTimes clock

section

variable {stamps : List Stamp} {generation : Nat} {receiveTimes deliveryTimes : List TimePoint}
  {clock clock' now time : TimePoint}

theorem mem_receptions {t : TimePoint} :
    t ∈ receptions stamps generation ↔ ∃ a ∈ stamps, a.run = generation ∧ a.receivedAt = t := by
  simp [receptions, and_assoc]

theorem mem_deliveries {t : TimePoint} : t ∈ deliveries stamps generation ↔
    ∃ a ∈ stamps, (a.run = generation ∧ a.delivered = true) ∧ a.receivedAt = t := by
  simp [deliveries, and_assoc]

theorem Windows.later (h : Windows stamps generation receiveTimes deliveryTimes clock)
    (hclock : clock ≤ clock') : Windows stamps generation receiveTimes deliveryTimes clock' :=
  ⟨h.receive.later hclock, h.delivery.later hclock⟩

/-- A generation begins without stamps. -/
theorem Windows.fresh (h : ∀ a ∈ stamps, a.run ≠ generation) : Windows stamps generation [] [] clock := by
  have hreceived : receptions stamps generation = [] :=
    List.eq_nil_iff_forall_not_mem.mpr fun t ht => by
      obtain ⟨a, ha, hrun, -⟩ := mem_receptions.mp ht
      exact h a ha hrun
  have hdelivered : deliveries stamps generation = [] :=
    List.eq_nil_iff_forall_not_mem.mpr fun t ht => by
      obtain ⟨a, ha, ⟨hrun, -⟩, -⟩ := mem_deliveries.mp ht
      exact h a ha hrun
  constructor
  · rw [hreceived]
    exact .nil
  · rw [hdelivered]
    exact .nil

/-- A record is received. -/
theorem Windows.receive_push (h : Windows stamps generation receiveTimes deliveryTimes clock)
    (hlast : ∀ a ∈ stamps, a.receivedAt ≤ time) (htime : time ≤ clock) :
    Windows (⟨generation, time, false⟩ :: stamps) generation
      (pruneRateWindow (receiveTimes ++ [time]) time) deliveryTimes clock := by
  have hreceived : receptions (⟨generation, time, false⟩ :: stamps) generation =
      receptions stamps generation ++ [time] := by simp [receptions]
  have hdelivered : deliveries (⟨generation, time, false⟩ :: stamps) generation =
      deliveries stamps generation := by simp [deliveries]
  constructor
  · rw [hreceived]
    refine (h.receive.push fun t ht => ?_).prune htime
    obtain ⟨a, ha, -, rfl⟩ := mem_receptions.mp ht
    exact hlast a ha
  · rw [hdelivered]
    exact h.delivery

/-- The newest record is delivered. -/
theorem Windows.delivery_push
    (h : Windows (⟨generation, time, false⟩ :: stamps) generation receiveTimes deliveryTimes clock)
    (hlast : ∀ a ∈ stamps, a.receivedAt ≤ time) (htime : time ≤ clock) :
    Windows (⟨generation, time, true⟩ :: stamps) generation receiveTimes
      (pruneRateWindow (deliveryTimes ++ [time]) time) clock := by
  have hreceived : receptions (⟨generation, time, true⟩ :: stamps) generation =
      receptions (⟨generation, time, false⟩ :: stamps) generation := by simp [receptions]
  have hbefore : deliveries (⟨generation, time, false⟩ :: stamps) generation =
      deliveries stamps generation := by simp [deliveries]
  have hdelivered : deliveries (⟨generation, time, true⟩ :: stamps) generation =
      deliveries stamps generation ++ [time] := by simp [deliveries]
  have hdelivery := h.delivery
  rw [hbefore] at hdelivery
  constructor
  · rw [hreceived]
    exact h.receive
  · rw [hdelivered]
    refine (hdelivery.push fun t ht => ?_).prune htime
    obtain ⟨a, ha, -, rfl⟩ := mem_deliveries.mp ht
    exact hlast a ha

/-- `health()` prunes both queues with its reading. -/
theorem Windows.prune (h : Windows stamps generation receiveTimes deliveryTimes clock)
    (hnow : now ≤ clock) : Windows stamps generation (pruneRateWindow receiveTimes now)
      (pruneRateWindow deliveryTimes now) clock :=
  ⟨h.receive.prune hnow, h.delivery.prune hnow⟩

end

/-! ## Steps on a monotone clock -/

/-- The reading of a step that the windows depend on. -/
def Pc.reading (p : Pc) (choice : Choice) : Option TimePoint :=
  match p, choice with
  | .run (.wellFormed _ _), .reading now => some now
  | .query _ (.health now), _ => some now
  | _, _ => none

def System.reading (s : System) (i : Input) : Option TimePoint :=
  match i.move with
  | .go choice => (s.threads i.tid).pc.reading choice
  | _ => none

/-- A client with its history, and the latest reading. -/
abbrev Clocked := (System × History) × TimePoint

/-- One step on a clock that does not go back. -/
abbrev TimedStep : Clocked → Input → Clocked → Prop :=
  restrict (tracked RecordStep fun x i clock => (x.1.reading i).getD clock)
    fun x i => ∀ now ∈ x.1.1.reading i, x.2 ≤ now

/-- The states of a client on such a clock. -/
def Timed (config : Config) (start : TimePoint) (x : Clocked) : Prop :=
  Library.Reachable TimedStep ((System.init config, {}), start) x

theorem Timed.recorded {config : Config} {start : TimePoint} {x : Clocked} (h : Timed config start x) :
    Recorded config x.1 := by
  obtain ⟨is, hruns⟩ := h
  exact ⟨is, hruns.of_restrict.of_tracked⟩

/-! ## Who changes the queues -/

/-- A record is dated, and not yet accounted. -/
def Pc.observing : Pc → Option TimePoint
  | .run (.observe _ _ receivedAt) => some receivedAt
  | _ => none

/-- The queues that a `start` in progress has saved. -/
def StartPc.held : StartPc → Option Saved
  | .stopping saved | .exited saved | .create saved | .rollbackStopping saved | .rollbackExited saved
  | .rollbackRecord saved | .rollbackData saved => some saved
  | _ => none

def Pc.held : Pc → Option Saved
  | .start _ _ pc => pc.held
  | _ => none

theorem Pc.saved_eq_held (p : Pc) : p.saved = p.held.map Saved.data := by
  cases p with
  | start ctx callback pc => cases pc <;> rfl
  | _ => rfl

/-- The control points whose action changes a queue or the generation. -/
def Pc.movesTimes : Pc → Bool
  | .start _ _ (.data _) | .start _ _ (.rollbackData _) | .run (.observe _ _ _) | .run (.deliver _)
  | .query _ (.health _) => true
  | _ => false

structure SameTimes (c c' : Impl) : Prop where
  generation : c'.generation = c.generation
  receiveTimes : c'.receiveTimes = c.receiveTimes
  deliveryTimes : c'.deliveryTimes = c.deliveryTimes

theorem SameTimes.refl (c : Impl) : SameTimes c c := ⟨rfl, rfl, rfl⟩

theorem SameTimes.applyConfiguration (c : Impl) (configuration : SensorConfiguration) :
    SameTimes c (c.applyConfiguration configuration) := by
  obtain ⟨_, _, h⟩ := c.applyConfiguration_frame configuration
  rw [h]
  exact ⟨rfl, rfl, rfl⟩

theorem SameTimes.publishFault (c : Impl) (code : FaultCode) (message : String) :
    SameTimes c (c.publishFault code message) := by
  unfold Impl.publishFault
  split_ifs <;> exact ⟨rfl, rfl, rfl⟩

section

variable {p : Pc} {t : Tid} {choice : Choice} {s : Shared} {e : Effect Shared Pc}

theorem RunPc.step_times {pc pc' : RunPc} {c c' : Impl} {wire wire' : Wire}
    (h : pc.step choice c wire = some (c', wire', pc')) (hmoves : (Pc.run pc).movesTimes = false) :
    SameTimes c c' := by
  have happly := SameTimes.applyConfiguration c
  have hpublish := SameTimes.publishFault c
  have hrefl := SameTimes.refl c
  cases pc with
  | observe | deliver => cases hmoves
  | _ =>
    simp only [step, stepOpen, stepLoop, stepClose] at h
    grind [SameTimes, Impl.setState, Impl.countTimeout, Impl.countMalformed, Impl.clearMalformed,
      Impl.enterBackoff, Impl.closeSession, Impl.closeTransport, Impl.connectTransport,
      Impl.setSessionStarted, Impl.resetSequences, Impl.setFault, Impl.recordCallbackError]

theorem startStep_times {ctx : Ctx} {callback : SampleCallback} {pc : StartPc}
    (h : startStep ctx callback pc t choice s = some e)
    (hmoves : (Pc.start ctx callback pc).movesTimes = false) : SameTimes s.impl e.shared.impl := by
  have hpublish := SameTimes.publishFault s.impl
  have hrefl := SameTimes.refl s.impl
  cases pc with
  | data | rollbackData => cases hmoves
  | _ =>
    simp only [startStep] at h
    grind [SameTimes, Impl.clearLastDelivery, Impl.resetFault, Shared.leave]

theorem stopStep_times {ctx : Ctx} {caller : Caller} {pc : StopPc}
    (h : stopStep ctx caller pc t choice s = some e) : SameTimes s.impl e.shared.impl := by
  have hrefl := SameTimes.refl s.impl
  cases pc <;> cases caller <;> simp only [stopStep] at h <;>
    grind [SameTimes, Impl.setSessionStarted, Impl.shutdownTransport, Impl.setState, Shared.leave]

/-- Away from these points an action leaves both queues and the generation alone. -/
theorem action_times (h : p.action t choice s = some e) (hmoves : p.movesTimes = false) :
    SameTimes s.impl e.shared.impl := by
  cases p with
  | start ctx callback pc => exact startStep_times h hmoves
  | stop ctx caller pc => exact stopStep_times h
  | run pc =>
    rcases runStep_cases h with ⟨k, call, -, hbegin⟩ | ⟨impl, sessions, next, hstep, rfl⟩
    · rw [beginCall_impl hbegin]
      exact .refl _
    · exact RunPc.step_times hstep hmoves
  | _ =>
    rcases action_impl h rfl with himpl | ⟨-, himpl⟩ | ⟨now, ⟨ctx, heq⟩, -⟩
    · rw [himpl]
      exact .refl _
    · rw [himpl]
      exact ⟨rfl, rfl, rfl⟩
    · rw [heq] at hmoves
      cases hmoves

/-- A record is dated at one point. -/
theorem action_observing (h : p.action t choice s = some e) {receivedAt : TimePoint}
    (hnext : e.next.observing = some receivedAt) :
    ∃ l record, p = .run (.wellFormed l record) ∧ choice = .reading receivedAt := by
  have hcall : ∀ {q : Pc}, q.isCall = true → q.observing = none := by
    intro q hq
    cases q with
    | run pc => cases pc <;> first | rfl | cases hq
    | _ => rfl
  have hafter : ∀ l outcome l' record time, RunPc.afterRecord l outcome ≠ .observe l' record time := by
    intro l outcome
    cases outcome <;> simp [RunPc.afterRecord]
  by_cases hrun : ∃ pc, p = .run pc
  · obtain ⟨pc, rfl⟩ := hrun
    rcases runStep_cases h with ⟨k, call, -, hbegin⟩ | ⟨impl, sessions, next, hstep, rfl⟩
    · rw [hcall (beginCall_ctx hbegin).2] at hnext
      cases hnext
    · cases next with
      | observe l record time =>
        cases hnext
        cases pc <;>
          simp only [RunPc.step, RunPc.stepOpen, RunPc.stepLoop, RunPc.stepClose, Option.none_or,
            Option.map_none] at hstep <;>
          grind [RunPc.endSession]
      | _ => cases hnext
  · have hnone := hcall (action_ctx h fun pc heq => hrun ⟨pc, heq⟩).2
    rw [hnone] at hnext
    cases hnext

/-- A `start` saves the queues at one point. -/
theorem action_held (h : p.action t choice s = some e) {saved : Saved} (hnext : e.next.held = some saved) :
    p.held = some saved ∨ (∃ ctx callback saved₀, p = .start ctx callback (.data saved₀)) ∧
      saved.generation = s.impl.generation ∧ saved.receiveTimes = s.impl.receiveTimes ∧
        saved.deliveryTimes = s.impl.deliveryTimes := by
  have hresume : ∀ ctx : Ctx, ctx.resume.held = none := fun ctx => by cases ctx <;> rfl
  have hcall : ∀ {ctx call}, beginCall ctx t call s = some e → e.next.held = none := by
    intro ctx call hbegin
    cases call <;> grind [beginCall, Pc.held, StartPc.held]
  cases p with
  | start ctx callback pc =>
    cases pc <;> simp only [Pc.action, startStep] at h <;> grind [Pc.held, StartPc.held]
  | stop ctx caller pc =>
    cases pc <;> cases caller <;> simp only [Pc.action, stopStep] at h <;> grind [Pc.held]
  | bias ctx pc => cases pc <;> simp only [Pc.action, biasStep] at h <;> grind [Pc.held]
  | waitForFirstSample ctx pc => cases pc <;> simp only [Pc.action, waitStep] at h <;> grind [Pc.held]
  | query ctx q => cases q <;> cases h <;> simp [hresume] at hnext
  | destroy ctx pc => cases pc <;> cases h <;> first
    | cases hnext
    | simp [hresume] at hnext
  | run pc =>
    rcases runStep_cases h with ⟨k, call, -, hbegin⟩ | ⟨impl, sessions, next, hstep, rfl⟩
    · rw [hcall hbegin] at hnext
      cases hnext
    · cases hnext
  | outside =>
    simp only [Pc.action, outsideStep] at h
    split at h
    · rw [hcall h] at hnext
      cases hnext
    · cases h
  | deferred =>
    simp only [Pc.action, deferredStep] at h
    split_ifs at h
    cases h
    cases hnext

theorem passes_times {q : Pc} (h : program.Passes p q s) : q.observing = none ∧ q.held = none := by
  have hafter : ∀ l outcome, (Pc.run (RunPc.afterRecord l outcome)).observing = none := by
    intro l outcome
    cases outcome <;> rfl
  cases goesOn_of_passes h with
  | deliveredLifecycle k => exact ⟨hafter _ _, rfl⟩
  | _ => exact ⟨rfl, rfl⟩

/-- The stamps change where a record is accounted and where it is delivered. -/
theorem record_stamps {h : History} (hobserve : p.observing = none) (hdeliver : ∀ k, p ≠ .run (.deliver k))
    (hthrew : ∀ k what, p = .run (.callbackThrew k what) → ∀ r ∈ h.records.head?, r.fate ≠ .delivered) :
    (p.record t choice s h).stamps = h.stamps := by
  have hupdate : ∀ {f : Handled → Handled}, (∀ r ∈ h.records.head?, (f r).stamp = r.stamp) →
      (h.update f).stamps = h.stamps := by
    intro f hf
    unfold History.update History.stamps
    cases hrecords : h.records with
    | nil => rfl
    | cons r rest =>
      simp only [List.modifyHead_cons, List.map_cons]
      rw [hf r (by rw [hrecords]; rfl)]
  cases p with
  | run pc =>
    cases pc with
    | observe => cases hobserve
    | deliver k => exact absurd rfl (hdeliver k)
    | apply => rfl
    | invoke k =>
      simp only [Pc.record]
      split_ifs
      · exact hupdate fun r _ => rfl
      · rfl
    | inCallback k =>
      cases choice <;> first
        | rfl
        | exact hupdate fun r _ => rfl
    | callbackThrew k what =>
      refine hupdate fun r hr => ?_
      have hne := hthrew k what rfl r hr
      simp [Handled.stamp, hne]
    | _ => rfl
  | _ => rfl

end

theorem prepareRecord_times {c : Impl} {configuration : SensorConfiguration}
    (hconf : c.health.sensorConfiguration = some configuration) (record : RawRecord)
    (receivedAt : TimePoint) :
    (c.prepareRecord record receivedAt).1.receiveTimes =
        pruneRateWindow (c.receiveTimes ++ [receivedAt]) receivedAt ∧
      (c.prepareRecord record receivedAt).1.deliveryTimes = c.deliveryTimes ∧
      (c.prepareRecord record receivedAt).1.generation = c.generation := by
  rw [Impl.prepareRecord_fst]
  unfold Impl.observeRecord
  simp only [hconf, and_self]

theorem prepareRecord_times_none {c : Impl} (hconf : c.health.sensorConfiguration = none)
    (record : RawRecord) (receivedAt : TimePoint) : SameTimes c (c.prepareRecord record receivedAt).1 := by
  rw [Impl.prepareRecord_fst]
  unfold Impl.observeRecord
  simp only [hconf]
  exact ⟨rfl, rfl, rfl⟩

/-! ## Generations -/

/-- A generation is numbered as the worker of its records is. -/
structure Ledger.Numbered (L : Ledger) : Prop where
  current : L.saved = none → L.data.generation = L.created.length
  saved : ∀ d, L.saved = some d → d.generation = L.created.length
  runs : ∀ r ∈ L.history.records, r.run ≤ L.created.length

theorem Ledger.Numbered.init : ({} : Ledger).Numbered where
  current _ := rfl
  saved d hd := by cases hd
  runs r hr := by cases hr

theorem Ledger.Numbered.update {L : Ledger} (h : L.Numbered) {f : Handled → Handled}
    (hf : ∀ r, (f r).run = r.run) : ∀ r ∈ (L.history.update f).records, r.run ≤ L.created.length := by
  have hruns := h.runs
  unfold History.update
  cases hrecords : L.history.records with
  | nil => simp
  | cons r rest =>
    rw [hrecords] at hruns
    rintro r' (_ | ⟨_, hr'⟩)
    · rw [hf]
      exact hruns r List.mem_cons_self
    · exact hruns r' (List.mem_cons_of_mem _ hr')

theorem Ledger.Numbered.move {config : Config} {L L' : Ledger} (hsound : L.Sound) (h : L.Numbered)
    (hmove : L.Move config L') : L'.Numbered := by
  cases hmove with
  | stay => exact h
  | «begin» hsaved _ =>
    exact ⟨fun hnone => (by cases hnone), fun d hd => by cases hd; exact h.current hsaved, h.runs⟩
  | create w hsaved =>
    refine ⟨fun _ => ?_, fun d hd => (by cases hd), fun r hr => (h.runs r hr).trans (Nat.le_succ _)⟩
    rw [(hsound.saved _ hsaved).1, Data.next, h.saved _ hsaved, List.length_cons]
  | restore hsaved => exact ⟨fun _ => h.saved _ hsaved, fun d hd => (by cases hd), h.runs⟩
  | configure => exact ⟨h.current, h.saved, h.runs⟩
  | handle r _ _ _ _ hrun _ =>
    refine ⟨h.current, h.saved, ?_⟩
    rintro r' (_ | ⟨_, hr'⟩)
    · exact hrun.le
    · exact h.runs r' hr'
  | skip => exact ⟨h.current, h.saved, h.runs⟩
  | call | «return» | throw | fail | deliver =>
    exact ⟨h.current, h.saved, h.update fun _ => rfl⟩

/-! ## The invariant -/

/-- What a thread at `p` finds: stamps and clock in order, and every window that is or may become the
current one. -/
structure InTime (c : Impl) (p : Pc) (stamps : List Stamp) (clock : TimePoint) : Prop where
  sorted : stamps.Pairwise fun a b => b.receivedAt ≤ a.receivedAt
  past : ∀ a ∈ stamps, a.receivedAt ≤ clock
  current : Windows stamps c.generation c.receiveTimes c.deliveryTimes clock
  pending : ∀ receivedAt, p.observing = some receivedAt →
    receivedAt ≤ clock ∧ ∀ a ∈ stamps, a.receivedAt ≤ receivedAt
  saved : ∀ saved, p.held = some saved →
    Windows stamps saved.generation saved.receiveTimes saved.deliveryTimes clock

section

variable {c c' : Impl} {p q : Pc} {stamps stamps' : List Stamp} {clock clock' : TimePoint}

/-- The windows move, and the thread goes on, on the same stamps. -/
theorem InTime.move (h : InTime c p stamps clock) (hclock : clock ≤ clock')
    (hcurrent : Windows stamps c'.generation c'.receiveTimes c'.deliveryTimes clock')
    (hpending : ∀ receivedAt, q.observing = some receivedAt →
      p.observing = some receivedAt ∨ clock ≤ receivedAt ∧ receivedAt ≤ clock')
    (hsaved : ∀ saved, q.held = some saved → p.held = some saved ∨
      Windows stamps saved.generation saved.receiveTimes saved.deliveryTimes clock) :
    InTime c' q stamps clock' where
  sorted := h.sorted
  past a ha := (h.past a ha).trans hclock
  current := hcurrent
  pending receivedAt hq := by
    rcases hpending receivedAt hq with hp | ⟨hafter, hbefore⟩
    · obtain ⟨hle, hlast⟩ := h.pending receivedAt hp
      exact ⟨hle.trans hclock, hlast⟩
    · exact ⟨hbefore, fun a ha => (h.past a ha).trans hafter⟩
  saved saved hq := by
    rcases hsaved saved hq with hp | hwindows
    · exact (h.saved saved hp).later hclock
    · exact hwindows.later hclock

/-- A thread that has nothing in hand. -/
theorem InTime.idle (h : InTime c p stamps clock) (hobserving : q.observing = none)
    (hheld : q.held = none) : InTime c q stamps clock :=
  ⟨h.sorted, h.past, h.current, fun _ hq => by simp [hobserving] at hq,
    fun _ hq => by simp [hheld] at hq⟩

/-- Another thread has moved the windows. -/
theorem InTime.other (h : InTime c p stamps clock) (hmoved : InTime c' q stamps clock')
    (hclock : clock ≤ clock') : InTime c' p stamps clock' :=
  h.move hclock hmoved.current (fun _ => .inl) fun _ => .inl

theorem SameTimes.windows (h : SameTimes c c')
    (hcurrent : Windows stamps c.generation c.receiveTimes c.deliveryTimes clock) :
    Windows stamps c'.generation c'.receiveTimes c'.deliveryTimes clock := by
  rw [h.generation, h.receiveTimes, h.deliveryTimes]
  exact hcurrent

end

/-- What the history says to a thread. -/
structure Backed (p : Pc) (s : Shared) (h : History) : Prop where
  number : p.entering = true → p.saved = none → s.impl.generation = s.created.length
  runs : ∀ r ∈ h.records, r.run ≤ s.created.length
  hand : ∀ phase sample, p.phase = some (phase, sample) → ∃ r rest, h.records = r :: rest ∧
    r.run = s.created.length ∧ r.sample = sample ∧ r.fate = .offered

theorem Recorded.backed {config : Config} {s : System} {h : History} (hrecorded : Recorded config (s, h))
    (t : Tid) : Backed (s.threads t).pc s.shared h := by
  obtain ⟨L, hof, hsound, hnumbered⟩ := hrecorded.invariant Ledger.Numbered.init
    fun _ _ hsound hnumbered hmove => hnumbered.move hsound hmove
  have hhistory : h = L.history := hof.history
  have hcreated : s.shared.created = L.created := hof.created
  refine ⟨fun hentering hsaved => ?_, fun r hr => ?_, fun phase sample hphase => ?_⟩
  · have hnone : L.saved = none := by
      by_contra hsome
      obtain ⟨d, hd⟩ := Option.ne_none_iff_exists'.mp hsome
      obtain ⟨u, hu⟩ := (hof.saved d).mp hd
      have hsame := hrecorded.reachable.owner_unique
        (Pc.owning_of_saved (p := (s.threads u).pc) (by rw [hu]; simp)) (Pc.owning_of_entering hentering)
      rw [hsame, hsaved] at hu
      cases hu
    rw [hcreated, ← hnumbered.current hnone, ← hof.data]
    rfl
  · rw [hcreated]
    exact hnumbered.runs r (hhistory ▸ hr)
  · obtain ⟨r, rest, hrecords, hhand, -⟩ :=
      hsound.pending t phase sample ((hof.pending t phase sample).mpr hphase)
    rw [hcreated, hhistory]
    exact ⟨r, rest, hrecords, hhand.run, hhand.sample, hhand.offered⟩

section

variable {p : Pc} {t : Tid} {choice : Choice} {s : Shared} {e : Effect Shared Pc} {h : History}
  {clock : TimePoint}

/-- A generation begins, and the windows of the previous one are saved. -/
theorem data_inTime {ctx : Ctx} {callback : SampleCallback} {saved : Saved}
    (hin : InTime s.impl (.start ctx callback (.data saved)) h.stamps clock)
    (hbacked : Backed (.start ctx callback (.data saved)) s h)
    (hf : (Pc.start ctx callback (.data saved)).action t choice s = some e) :
    InTime e.shared.impl e.next h.stamps clock := by
  cases hf
  have hnumber := hbacked.number rfl rfl
  refine hin.move le_rfl (Windows.fresh fun a ha hrun => ?_) (fun _ hq => (by cases hq)) fun _ hq => ?_
  · obtain ⟨r, hr, rfl⟩ := List.mem_map.mp ha
    have hle := hbacked.runs r hr
    rw [← hnumber] at hle
    exact absurd hle (by rw [show r.run = _ from hrun]; exact Nat.not_succ_le_self _)
  · cases hq
    exact .inr hin.current

/-- `start` gives up, and the saved windows are the current ones again. -/
theorem rollbackData_inTime {ctx : Ctx} {callback : SampleCallback} {saved : Saved}
    (hin : InTime s.impl (.start ctx callback (.rollbackData saved)) h.stamps clock)
    (hf : (Pc.start ctx callback (.rollbackData saved)).action t choice s = some e) :
    InTime e.shared.impl e.next h.stamps clock := by
  cases hf
  exact hin.move le_rfl (hin.saved saved rfl) (fun _ hq => (by cases hq)) fun _ hq => (by cases hq)

/-- A record is accounted. -/
theorem observe_inTime {l : Loop} {record : RawRecord} {receivedAt : TimePoint}
    (hin : InTime s.impl (.run (.observe l record receivedAt)) h.stamps clock)
    (hbacked : Backed (.run (.observe l record receivedAt)) s h)
    (hf : (Pc.run (.observe l record receivedAt)).action t choice s = some e) :
    InTime e.shared.impl e.next ((Pc.run (.observe l record receivedAt)).record t choice s h).stamps
      clock := by
  obtain ⟨hclock, hlast⟩ := hin.pending receivedAt rfl
  have hobserving : e.next.observing = none := by
    by_contra hsome
    obtain ⟨time, htime⟩ := Option.ne_none_iff_exists'.mp hsome
    obtain ⟨_, _, heq, -⟩ := action_observing hf htime
    cases heq
  have hheld : e.next.held = none := by
    by_contra hsome
    obtain ⟨saved, hsaved⟩ := Option.ne_none_iff_exists'.mp hsome
    rcases action_held hf hsaved with heq | ⟨⟨_, _, _, heq⟩, -⟩ <;> cases heq
  have himpl : e.shared.impl = (s.impl.prepareRecord record receivedAt).1 := by
    have hrun : runStep (.observe l record receivedAt) t choice s = some e := hf
    rcases runStep_cases hrun with ⟨_, _, heq, -⟩ | ⟨impl, sessions, next, hstep, rfl⟩
    · cases heq
    · simp only [RunPc.step, RunPc.stepOpen, RunPc.stepLoop, RunPc.stepClose] at hstep
      grind
  cases hconf : s.impl.health.sensorConfiguration with
  | none =>
    have hrecord : (Pc.run (.observe l record receivedAt)).record t choice s h = h := by
      simp only [Pc.record, hconf]
    rw [hrecord, himpl]
    exact (hin.move le_rfl ((prepareRecord_times_none hconf record receivedAt).windows hin.current)
      (fun _ => .inl) fun _ => .inl).idle hobserving hheld
  | some configuration =>
    have hnumber := hbacked.number rfl rfl
    have hstamps : ((Pc.run (.observe l record receivedAt)).record t choice s h).stamps =
        ⟨s.impl.generation, receivedAt, false⟩ :: h.stamps := by
      have hfate := (s.impl.handled_fresh t s.created.length record receivedAt configuration).delivered
      simp only [Pc.record, hconf, History.stamps, List.map_cons, Handled.stamp,
        beq_eq_false_iff_ne.mpr hfate]
      rw [hnumber]
      rfl
    obtain ⟨hreceive, hdelivery, hgeneration⟩ := prepareRecord_times hconf record receivedAt
    rw [hstamps]
    refine ⟨List.pairwise_cons.mpr ⟨hlast, hin.sorted⟩, ?_, ?_, fun _ hq => by simp [hobserving] at hq,
      fun _ hq => by simp [hheld] at hq⟩
    · rintro a (_ | ⟨_, ha⟩)
      · exact hclock
      · exact hin.past a ha
    · rw [himpl, hgeneration, hreceive, hdelivery]
      exact hin.current.receive_push hlast hclock

/-- The sample of a record is delivered. -/
theorem deliver_inTime {k : Invocation} (hin : InTime s.impl (.run (.deliver k)) h.stamps clock)
    (hbacked : Backed (.run (.deliver k)) s h) (hf : (Pc.run (.deliver k)).action t choice s = some e) :
    InTime e.shared.impl e.next ((Pc.run (.deliver k)).record t choice s h).stamps clock := by
  have hnumber := hbacked.number rfl rfl
  obtain ⟨r, rest, hrecords, hrun, hsample, hfate⟩ := hbacked.hand _ _ rfl
  have htime : k.sample.receivedAt = r.receivedAt := by
    rw [← hsample]
    rfl
  have hbefore : h.stamps = ⟨s.impl.generation, r.receivedAt, false⟩ :: rest.map Handled.stamp := by
    rw [History.stamps, hrecords, List.map_cons, Handled.stamp, hrun, hfate, hnumber]
    rfl
  have hafter : ((Pc.run (.deliver k)).record t choice s h).stamps =
      ⟨s.impl.generation, r.receivedAt, true⟩ :: rest.map Handled.stamp := by
    rw [Pc.record, History.update, History.stamps, hrecords, List.modifyHead_cons, List.map_cons,
      Handled.stamp, hnumber, ← hrun]
    rfl
  obtain ⟨hsorted, hpast, hcurrent, -, -⟩ := hin
  rw [hbefore] at hsorted hpast hcurrent
  rw [hafter]
  obtain ⟨hlast, hsorted⟩ := List.pairwise_cons.mp hsorted
  have hclock : r.receivedAt ≤ clock := hpast _ List.mem_cons_self
  have hstep : runStep (.deliver k) t choice s = some e := hf
  rcases runStep_cases hstep with ⟨_, _, heq, -⟩ | ⟨impl, sessions, next, hstep, rfl⟩
  · cases heq
  cases hstep
  refine ⟨List.pairwise_cons.mpr ⟨hlast, hsorted⟩, ?_, ?_, fun _ hq => (by cases hq),
    fun _ hq => (by cases hq)⟩
  · rintro a (_ | ⟨_, ha⟩)
    · exact hclock
    · exact hpast a (List.mem_cons_of_mem _ ha)
  · have htimes : (s.impl.deliverSample k.sample).deliveryTimes =
        pruneRateWindow (s.impl.deliveryTimes ++ [r.receivedAt]) r.receivedAt := by
      rw [← htime]
      rfl
    change Windows _ s.impl.generation s.impl.receiveTimes (s.impl.deliverSample k.sample).deliveryTimes
      clock
    rw [htimes]
    exact hcurrent.delivery_push hlast hclock

/-- **The thread that acts keeps every window.** -/
theorem action_inTime (hin : InTime s.impl p h.stamps clock) (hbacked : Backed p s h)
    (hf : p.action t choice s = some e) (hreading : ∀ now ∈ p.reading choice, clock ≤ now) :
    InTime e.shared.impl e.next (p.record t choice s h).stamps ((p.reading choice).getD clock) := by
  cases hmoves : p.movesTimes with
  | false =>
    have hsame := (action_times hf hmoves).windows hin.current
    have hobserve : p.observing = none := by
      cases p with
      | run pc => cases pc <;> first | rfl | cases hmoves
      | _ => rfl
    have hstamps : (p.record t choice s h).stamps = h.stamps := by
      refine record_stamps hobserve (fun k heq => ?_) fun k what heq r hr => ?_
      · rw [heq] at hmoves
        cases hmoves
      · obtain ⟨r', rest, hrecords, -, -, hfate⟩ := hbacked.hand .threw k.sample (by rw [heq]; rfl)
        rw [hrecords] at hr
        cases hr
        rw [hfate]
        exact fun heq => by cases heq
    have hclock : clock ≤ (p.reading choice).getD clock := by
      cases hread : p.reading choice with
      | none => exact le_rfl
      | some now => exact hreading now (by rw [hread]; rfl)
    rw [hstamps]
    refine hin.move hclock (hsame.later hclock) (fun receivedAt hq => .inr ?_) fun saved hq => ?_
    · obtain ⟨l, record, rfl, rfl⟩ := action_observing hf hq
      exact ⟨hclock, le_rfl⟩
    · rcases action_held hf hq with hp | ⟨⟨_, _, _, rfl⟩, -⟩
      · exact .inl hp
      · cases hmoves
  | true =>
    cases p with
    | start ctx callback pc =>
      cases pc with
      | data saved => exact data_inTime hin hbacked hf
      | rollbackData saved => exact rollbackData_inTime hin hf
      | _ => cases hmoves
    | run pc =>
      cases pc with
      | observe l record receivedAt => exact observe_inTime hin hbacked hf
      | deliver k => exact deliver_inTime hin hbacked hf
      | _ => cases hmoves
    | query ctx q =>
      cases q with
      | health now =>
        cases hf
        have hclock : clock ≤ now := hreading now rfl
        have hnone : ctx.resume.observing = none ∧ ctx.resume.held = none := by
          cases ctx <;> exact ⟨rfl, rfl⟩
        exact (hin.move hclock ((hin.current.later hclock).prune le_rfl) (fun _ => .inl)
          fun _ => .inl).idle hnone.1 hnone.2
      | _ => cases hmoves
    | _ => cases hmoves

end

/-! ## Every run -/

theorem Pc.owning_of_observing {p : Pc} (h : p.observing ≠ none) : p.owning = true := by
  cases p with
  | run pc => cases pc <;> first | rfl | exact absurd rfl h
  | _ => exact absurd rfl h

theorem Pc.owning_of_held {p : Pc} (h : p.held ≠ none) : p.owning = true := by
  refine Pc.owning_of_saved ?_
  rw [p.saved_eq_held]
  exact fun hnone => h (Option.map_eq_none_iff.mp hnone)

/-- Every thread of a client on such a clock is in time. -/
def Clocked.InTime (x : Clocked) : Prop :=
  ∀ t, Client.InTime x.1.1.shared.impl (x.1.1.threads t).pc x.1.2.stamps x.2

theorem Clocked.InTime.step {config : Config} {x x' : Clocked} {i : Input}
    (hrecorded : Recorded config x.1) (h : x.InTime) (hstep : TimedStep x i x') : x'.InTime := by
  obtain ⟨⟨s, past⟩, clock⟩ := x
  obtain ⟨⟨s', past'⟩, clock'⟩ := x'
  obtain ⟨t, move⟩ := i
  obtain ⟨hreading, ⟨hnext, hpast⟩, hclock⟩ := hstep
  change ∀ now ∈ s.reading ⟨t, move⟩, clock ≤ now at hreading
  change Step s ⟨t, move⟩ s' at hnext
  change past' = recordHistory s ⟨t, move⟩ past at hpast
  change clock' = (s.reading ⟨t, move⟩).getD clock at hclock
  change ∀ u, Client.InTime s.shared.impl (s.threads u).pc past.stamps clock at h
  intro u
  change Client.InTime s'.shared.impl (s'.threads u).pc past'.stamps clock'
  have hle : clock ≤ clock' := by
    rw [hclock]
    cases hread : s.reading ⟨t, move⟩ with
    | none => exact le_rfl
    | some now => exact hreading now (by rw [hread]; rfl)
  by_cases hact : ∃ takes f, (s.threads t).pc.instr = .act takes f
  · obtain ⟨takes, f, hinstr⟩ := hact
    obtain ⟨choice, e, hmove, hf, hshared, hpc, hothers⟩ :=
      hrecorded.reachable.consistent.step_act hnext hinstr
    obtain ⟨-, rfl⟩ := Pc.instr_act hinstr
    change move = .go choice at hmove
    subst hmove
    replace hpast : past' = (s.threads t).pc.record t choice s.shared past := hpast
    replace hclock : clock' = ((s.threads t).pc.reading choice).getD clock := hclock
    have hmoved := action_inTime (h t) (hrecorded.backed t) hf hreading
    rw [← hpast, ← hclock] at hmoved
    by_cases hut : u = t
    · subst hut
      rw [hpc, hshared]
      exact hmoved
    · rw [hshared]
      rcases hothers u hut with hsame | ⟨-, hspawned⟩
      · rw [hsame]
        cases hentering : (s.threads t).pc.entering with
        | false =>
          rw [hpast, record_quiet hentering] at hmoved ⊢
          exact (h u).other hmoved hle
        | true =>
          -- one thread at a time works on the records
          have howns : (s.threads t).pc.owning = true := Pc.owning_of_entering hentering
          refine hmoved.idle ?_ ?_
          · by_contra hsome
            exact hut (hrecorded.reachable.owner_unique (Pc.owning_of_observing hsome) howns)
          · by_contra hsome
            exact hut (hrecorded.reachable.owner_unique (Pc.owning_of_held hsome) howns)
      · rw [spawned_run hf hspawned]
        exact hmoved.idle rfl rfl
  · have hsame : past' = past := by
      have hentering : (s.threads t).pc.entering = false := by
        by_contra htrue
        exact hact ⟨_, _, Pc.instr_of_entering (Bool.eq_true_of_not_eq_false htrue)⟩
      rw [hpast]
      unfold recordHistory
      split
      · exact record_quiet hentering past
      · rfl
    have hkept : Client.InTime s'.shared.impl (s.threads u).pc past'.stamps clock' := by
      rw [hsame, (shared_of_not_act hnext hact).1]
      exact (h u).move hle ((h u).current.later hle) (fun _ => .inl) fun _ => .inl
    refine point_of_not_act (P := fun p => Client.InTime s'.shared.impl p past'.stamps clock') hnext hact
      (fun p q hpass hp => ?_) (fun _ _ _ hp => hp.idle rfl rfl) (fun _ _ _ hp => hp.idle rfl rfl) hkept
    obtain ⟨hobserving, hheld⟩ := passes_times hpass
    exact hp.idle hobserving hheld

theorem Timed.inTime {config : Config} {start : TimePoint} {x : Clocked} (h : Timed config start x) :
    x.InTime := by
  refine Library.Reachable.invariant (I := Clocked.InTime) (fun t => ?_)
    (fun _ _ _ hreach hin hstep => hin.step (Timed.recorded hreach) hstep) h
  refine ⟨.nil, fun a ha => (by cases ha), Windows.fresh fun a ha => (by cases ha), ?_, ?_⟩
  · intro receivedAt hp
    by_cases ht : t = 0 <;> simp [System.init, ht, Pc.observing] at hp
  · intro saved hp
    by_cases ht : t = 0 <;> simp [System.init, ht, Pc.held] at hp

/-! ## The rates -/

theorem countP_receptions (h : History) (generation : Nat) (now : TimePoint) :
    ((receptions h.stamps generation).countP fun time => now - time ≤ ticksPerSecond) =
      h.records.countP fun r => r.run = generation ∧ now - r.receivedAt ≤ ticksPerSecond := by
  rw [receptions, History.stamps, List.countP_reverse, List.countP_map, List.countP_filter, List.countP_map]
  refine List.countP_congr fun r _ => ?_
  simp only [Function.comp_apply, Bool.and_eq_true, decide_eq_true_eq]
  exact and_comm

theorem countP_deliveries (h : History) (generation : Nat) (now : TimePoint) :
    ((deliveries h.stamps generation).countP fun time => now - time ≤ ticksPerSecond) =
      h.records.countP fun r =>
        (r.run = generation ∧ r.fate = .delivered) ∧ now - r.receivedAt ≤ ticksPerSecond := by
  rw [deliveries, History.stamps, List.countP_reverse, List.countP_map, List.countP_filter,
    List.countP_map]
  refine List.countP_congr fun r _ => ?_
  simp only [Function.comp_apply, Bool.and_eq_true, decide_eq_true_eq]
  rw [show r.stamp.delivered = (r.fate == .delivered) from rfl, beq_iff_eq]
  exact and_comm

/-- The rates of `health()`, and the queues that they are read from.  The records since the last
`start` are those of the current generation. -/
structure ExactRates (s : System) (h : History) (clock : TimePoint) : Prop where
  receiveRate : ∀ now, clock ≤ now → (s.shared.impl.healthAt now).2.receiveRateHz =
    h.records.countP fun r =>
      r.run = s.shared.impl.generation ∧ now - r.receivedAt ≤ ticksPerSecond
  deliveryRate : ∀ now, clock ≤ now → (s.shared.impl.healthAt now).2.deliveryRateHz =
    h.records.countP fun r =>
      (r.run = s.shared.impl.generation ∧ r.fate = .delivered) ∧ now - r.receivedAt ≤ ticksPerSecond
  /-- Every worker has its generation, and a `start` in progress the next one. -/
  started : (∀ t, (s.threads t).pc.held = none) → s.shared.impl.generation = s.shared.created.length
  starting : (∃ t, (s.threads t).pc.held ≠ none) →
    s.shared.impl.generation = s.shared.created.length + 1
  sorted : s.shared.impl.receiveTimes.Pairwise (· ≤ ·) ∧ s.shared.impl.deliveryTimes.Pairwise (· ≤ ·)
  /-- What a later window counts is still there. -/
  kept : ∀ now, clock ≤ now → ∀ r ∈ h.records, r.run = s.shared.impl.generation →
    now - r.receivedAt ≤ ticksPerSecond → r.receivedAt ∈ s.shared.impl.receiveTimes ∧
      (r.fate = .delivered → r.receivedAt ∈ s.shared.impl.deliveryTimes)

theorem Recorded.generation {config : Config} {s : System} {h : History}
    (hrecorded : Recorded config (s, h)) :
    ((∀ t, (s.threads t).pc.held = none) → s.shared.impl.generation = s.shared.created.length) ∧
      ((∃ t, (s.threads t).pc.held ≠ none) →
        s.shared.impl.generation = s.shared.created.length + 1) := by
  obtain ⟨L, hof, hsound, hnumbered⟩ := hrecorded.invariant Ledger.Numbered.init
    fun _ _ hsound hnumbered hmove => hnumbered.move hsound hmove
  have hgeneration : s.shared.impl.generation = L.data.generation := by
    rw [← hof.data]
    rfl
  have hcreated : s.shared.created = L.created := hof.created
  rw [hgeneration, hcreated]
  constructor
  · intro hnone
    refine hnumbered.current (Option.eq_none_iff_forall_ne_some.mpr fun d hd => ?_)
    obtain ⟨t, ht⟩ := (hof.saved d).mp hd
    have hsaved : (s.threads t).pc.saved = none := by rw [Pc.saved_eq_held, hnone t, Option.map_none]
    rw [hsaved] at ht
    cases ht
  · rintro ⟨t, ht⟩
    obtain ⟨saved, hheld⟩ := Option.ne_none_iff_exists'.mp ht
    have hd : L.saved = some saved.data :=
      (hof.saved _).mpr ⟨t, by rw [Pc.saved_eq_held, hheld, Option.map_some]⟩
    rw [(hsound.saved _ hd).1, Data.next, hnumbered.saved _ hd]

/-- In every interleaving of records and `health()` on a clock that does not go back, the rates count
the records of the last second, and those whose sample was delivered. -/
theorem rates_exact {config : Config} {start : TimePoint} {x : Clocked} (h : Timed config start x) :
    ExactRates x.1.1 x.1.2 x.2 := by
  obtain ⟨hstarted, hstarting⟩ := h.recorded.generation
  have hwindows := (h.inTime 0).current
  refine ⟨fun now hnow => ?_, fun now hnow => ?_, hstarted, hstarting,
    ⟨hwindows.receive.sorted_times, hwindows.delivery.sorted_times⟩, fun now hnow r hr hrun hlast => ?_⟩
  · rw [← countP_receptions, ← hwindows.receive.length_prune hnow]
    rfl
  · rw [← countP_deliveries, ← hwindows.delivery.length_prune hnow]
    rfl
  · have hmem : r.stamp ∈ x.1.2.stamps := List.mem_map_of_mem hr
    have hin : decide (now - r.receivedAt ≤ ticksPerSecond) = true := decide_eq_true hlast
    have hreceived := hwindows.receive.within_eq hnow
    have hdelivered := hwindows.delivery.within_eq hnow
    constructor
    · have hall : r.receivedAt ∈ Library.Window.within ticksPerSecond
          (receptions x.1.2.stamps x.1.1.shared.impl.generation) now :=
        List.mem_filter.mpr ⟨mem_receptions.mpr ⟨r.stamp, hmem, hrun, rfl⟩, hin⟩
      rw [hreceived] at hall
      exact (List.mem_filter.mp hall).1
    · intro hfate
      have hall : r.receivedAt ∈ Library.Window.within ticksPerSecond
          (deliveries x.1.2.stamps x.1.1.shared.impl.generation) now :=
        List.mem_filter.mpr ⟨mem_deliveries.mpr ⟨r.stamp, hmem, ⟨hrun, by simp [Handled.stamp, hfate]⟩, rfl⟩,
          hin⟩
      rw [hdelivered] at hall
      exact (List.mem_filter.mp hall).1

/-- A record is dated, thread 3 asks for the rates, and the record is accounted and delivered. -/
def lateRun : List Input :=
  openRun ++ [go 2, go 2 (.reading 1), go 2 (.received datagram), go 2, go 2 (.reading 2),
    go 3 (.call (.query (.health 5))), go 3, go 2, go 2, go 2 .returned, go 2]

theorem late_record_counted : ∃ x, Timed unitConfig 0 x ∧
    ((x.1.1.shared.impl.healthAt 5).2.receiveRateHz, (x.1.1.shared.impl.healthAt 5).2.deliveryRateHz) =
      (1, 1) ∧ ExactRates x.1.1 x.1.2 x.2 := by
  have hrun : ((Library.execute (Library.restrictNext
      (Library.trackedNext (Library.trackedNext program.next recordHistory)
        fun x i clock => (System.reading x.1 i).getD clock)
      fun x i => ∀ now ∈ System.reading x.1.1 i, x.2 ≤ now) ((System.init unitConfig, {}), 0) lateRun).map
        fun x => decide (((x.1.1.shared.impl.healthAt 5).2.receiveRateHz,
          (x.1.1.shared.impl.healthAt 5).2.deliveryRateHz) = (1, 1))) = some true := by
    decide +kernel
  obtain ⟨x, hruns, hx⟩ := Library.exists_runs_of_execute hrun
  have htimed : Timed unitConfig 0 x := by
    refine ⟨lateRun, hruns.mono fun y i y' hstep => ?_⟩
    obtain ⟨hreading, hnext⟩ := Library.restrictNext_restrict hstep
    obtain ⟨hrecord, hclock⟩ := Library.trackedNext_tracked hnext
    exact ⟨hreading, Library.trackedNext_tracked hrecord, hclock⟩
  exact ⟨x, htimed, of_decide_eq_true hx, rates_exact htimed⟩

end NetFT.Client
