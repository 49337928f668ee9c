/-
# NetFT.Client.Delivery — which records reach the callback, over a client's life.

A life is a sequence of starts, sessions and handled records (`LifeEvent`); `Life` is the client
together with what the events were.  The sensor counts with unbounded numbers: FT numbers increase
over its life, RDT numbers within a session, and the network loses, duplicates and reorders.

* `Life.Inv` relates both trackers, the rate limiter's clock and the configuration to the history.
  The RDT baseline is the newest number of the session.  The FT baseline may lag: the restart
  heuristic takes two late low numbers for a restart and moves the baseline back to one of them, but
  never out of the window of `2 ^ 30` behind the newest.
* `Life.Inv.passes_iff`: a record reaches the callback exactly when it is the newest so far, in both
  numbers, its status allows it, and the rate limit does.
* `withinPeriod_near`: the limit compares doubles, which is exact but for a relative error of 2⁻⁵⁰.
* **`delivery_law`**: that holds in every life of a client, and the delivered records are in order.
  `early_record_delivered`: a record can pass before the period is over, by as much as doubles round.
-/
import NetFT.Client.HandleRecord

namespace NetFT.Client

set_option autoImplicit false

open Library (Double)

/-! ## The sensor -/

/-- Everything a sensor emits over its life, record `e` in session `session e`, with true numbers. -/
structure Emitter where
  session : ℕ → ℕ
  rdt : ℕ → ℕ
  ft : ℕ → ℕ
  status : ℕ → UInt32
  force : ℕ → Int × Int × Int
  torque : ℕ → Int × Int × Int

namespace Emitter

def record (sensor : Emitter) (e : ℕ) : RawRecord :=
  .numbered (sensor.rdt e) (sensor.ft e) (sensor.status e) (sensor.force e) (sensor.torque e)

/-- The sensor does not restart: FT numbers increase over its life, RDT numbers within each session;
counts are 32-bit. -/
structure Lawful (sensor : Emitter) : Prop where
  session : Monotone sensor.session
  ft : StrictMono sensor.ft
  rdt : ∀ e e', sensor.session e = sensor.session e' → e < e' → sensor.rdt e < sensor.rdt e'
  inRange : ∀ e, (sensor.record e).InRange

end Emitter

/-! ## A client's life -/

inductive LifeEvent where
  /-- `start` forgets the last delivery and begins a generation. -/
  | start (callback : SampleCallback)
  /-- A session opens with a validated configuration. -/
  | session (configuration : SensorConfiguration)
  /-- The session's loop handles the record `e` of the sensor. -/
  | record (e : ℕ) (receivedAt : TimePoint) (result : CallbackResult)

/-- A client and its history: the number of sessions, the records handled in the current one and in
all, those passed to the callback (newest first), and when a callback last succeeded since `start`. -/
structure Life where
  impl : Impl
  sessions : ℕ := 0
  session : List ℕ := []
  handled : List ℕ := []
  delivered : List ℕ := []
  lastSuccess : Option TimePoint := none

/-- `handle_record` gets as far as invoking the callback. -/
def Impl.passes (c : Impl) (record : RawRecord) (receivedAt : TimePoint) : Bool :=
  match (c.prepareRecord record receivedAt).2 with
  | .invoke _ _ => true
  | _ => false

theorem Impl.prepareRecord_invoke {c c' : Impl} {record : RawRecord} {receivedAt : TimePoint}
    {sample : Sample} {outcome : Option SessionResult}
    (h : c.prepareRecord record receivedAt = (c', .invoke sample outcome)) :
    sample.receivedAt = receivedAt := by
  unfold prepareRecord at h
  split at h
  · simp at h
  simp only at h
  split_ifs at h
  · simp at h
  · simp at h
  · simp only [Prod.mk.injEq, Prepared.invoke.injEq] at h
    rw [← h.2.1]
    rfl

/-- The callback, if one is installed, returns. -/
def Impl.succeeds (c : Impl) (result : CallbackResult) : Bool :=
  c.callback.isNone || result == .returned

/-- The rate limiter's clock moves to every sample whose callback succeeds. -/
theorem Impl.handleRecord_lastDeliveryAt (c : Impl) (record : RawRecord) (receivedAt : TimePoint)
    (result : CallbackResult) :
    (c.handleRecord record receivedAt result).1.lastDeliveryAt =
      if c.passes record receivedAt && c.succeeds result then receivedAt else c.lastDeliveryAt := by
  have hlast := (c.observeRecord_trackers record receivedAt).2.2
  obtain ⟨_, _, _, _, _, hframe⟩ := c.observeRecord_frame record receivedAt
  have hcallback : (c.observeRecord record receivedAt).1.callback = c.callback := by rw [hframe]
  rw [← prepareRecord_fst] at hlast hcallback
  unfold handleRecord passes succeeds
  cases hcase : c.prepareRecord record receivedAt with
  | mk c' prepared =>
    rw [hcase] at hlast hcallback
    simp only at hlast hcallback
    cases prepared with
    | raised what => simpa using hlast
    | done outcome => simpa using hlast
    | invoke sample outcome =>
      have hreceived := prepareRecord_invoke hcase
      simp only [hcallback, finishRecord]
      cases c.callback with
      | none => simpa [deliverSample] using hreceived
      | some callback =>
        cases result with
        | returned => simpa [deliverSample] using hreceived
        | threw what => simpa [recordCallbackError] using hlast

namespace Life

def step (sensor : Emitter) (life : Life) : LifeEvent → Life
  | .start callback =>
    { life with
      impl := { life.impl.clearLastDelivery.beginGeneration with callback }
      lastSuccess := none }
  | .session configuration =>
    { life with
      impl := (life.impl.applyConfiguration configuration).resetSequences
      sessions := life.sessions + 1
      session := [] }
  | .record e receivedAt result =>
    let c := life.impl.clearMalformed
    let passes := c.passes (sensor.record e) receivedAt
    { life with
      impl := (c.handleRecord (sensor.record e) receivedAt result).1
      session := e :: life.session
      handled := e :: life.handled
      delivered := if passes then e :: life.delivered else life.delivered
      lastSuccess := if passes && c.succeeds result then some receivedAt else life.lastSuccess }

end Life

/-- `e` is less than `2 ^ 30` away from the newest of the records seen so far. -/
def NearNewest (number : ℕ → ℕ) (seen : List ℕ) (e : ℕ) : Prop :=
  ∀ m ∈ seen, (∀ j ∈ seen, number j ≤ number m) →
    number e < number m + 2 ^ 30 ∧ number m < number e + 2 ^ 30

/-- The events a life may go on with. -/
def Admissible (sensor : Emitter) (life : Life) : LifeEvent → Prop
  | .start _ => True
  | .session configuration => configuration.calibration.Valid
  | .record e receivedAt _ =>
    0 < life.sessions ∧ sensor.session e = life.sessions ∧ 0 < receivedAt ∧
      NearNewest sensor.rdt life.session e ∧ NearNewest sensor.ft life.handled e

/-- The lives of a client with configuration `config`. -/
inductive Lives (sensor : Emitter) (config : Config) : Life → Prop
  | init : Lives sensor config { impl := Impl.init config }
  | step {life : Life} {event : LifeEvent} :
      Lives sensor config life → Admissible sensor life event →
      Lives sensor config (life.step sensor event)

/-! ## The invariant -/

/-- `m` is the newest of the records seen. -/
def IsNewest (seen : List ℕ) (m : ℕ) : Prop := m ∈ seen ∧ ∀ j ∈ seen, j ≤ m

structure Life.Inv (sensor : Emitter) (config : Config) (life : Life) : Prop where
  config : life.impl.config = config
  configuration : 0 < life.sessions → ∃ configuration,
    life.impl.health.sensorConfiguration = some configuration ∧ configuration.calibration.Valid
  lastDelivery : life.impl.lastDeliveryAt = life.lastSuccess.getD 0
  positive : ∀ t, life.lastSuccess = some t → 0 < t
  /-- The records of the current session are those handled in it. -/
  session : ∀ j, j ∈ life.session ↔ j ∈ life.handled ∧ sensor.session j = life.sessions
  sessions : ∀ j ∈ life.handled, sensor.session j ≤ life.sessions
  rdtFresh : life.session = [] → life.impl.rdtSequence.hasLast = false
  rdt : ∀ m, IsNewest life.session m → life.impl.rdtSequence.Newest (sensor.rdt m)
  ftFresh : life.handled = [] → life.impl.ftSequence.hasLast = false
  ft : ∀ m, IsNewest life.handled m → life.impl.ftSequence.Within (2 ^ 30) (sensor.ft m)
  delivered : life.delivered.Pairwise (· > ·) ∧ life.delivered ⊆ life.handled

theorem exists_isNewest {seen : List ℕ} (h : seen ≠ []) : ∃ m, IsNewest seen m := by
  induction seen with
  | nil => exact absurd rfl h
  | cons e seen ih =>
    by_cases hnil : seen = []
    · subst hnil
      exact ⟨e, List.mem_singleton.mpr rfl, fun j hj => (List.mem_singleton.mp hj).le⟩
    · obtain ⟨m, hmem, hle⟩ := ih hnil
      rcases Nat.le_total e m with hem | hme
      · exact ⟨m, List.mem_cons_of_mem e hmem, fun j hj => by
          rcases List.mem_cons.mp hj with rfl | hj
          exacts [hem, hle j hj]⟩
      · exact ⟨e, List.mem_cons_self, fun j hj => by
          rcases List.mem_cons.mp hj with rfl | hj
          exacts [le_refl _, (hle j hj).trans hme]⟩

/-- The newest of the records once `e` is among them. -/
theorem IsNewest.cons {seen : List ℕ} {e m : ℕ} (h : IsNewest (e :: seen) m) :
    (m = e ∧ ∀ j ∈ seen, j ≤ e) ∨ (IsNewest seen m ∧ e ≤ m) := by
  obtain ⟨hmem, hle⟩ := h
  have htail : ∀ j ∈ seen, j ≤ m := fun j hj => hle j (List.mem_cons_of_mem e hj)
  rcases List.mem_cons.mp hmem with rfl | hmem
  · exact .inl ⟨rfl, htail⟩
  · exact .inr ⟨⟨hmem, htail⟩, hle e List.mem_cons_self⟩

/-! ## Both trackers on one more record -/

section Observe

variable {sensor : Emitter} {config : Config} {life : Life} {e : ℕ}

/-- Within the current session the RDT numbers are ordered like the records. -/
theorem Life.Inv.rdt_lt (h : life.Inv sensor config) (hlawful : sensor.Lawful)
    (hsession : sensor.session e = life.sessions) {j : ℕ} (hj : j ∈ life.session) :
    (j < e → sensor.rdt j < sensor.rdt e) ∧ (e < j → sensor.rdt e < sensor.rdt j) := by
  have hjsession := ((h.session j).mp hj).2
  exact ⟨hlawful.rdt j e (hjsession.trans hsession.symm),
    hlawful.rdt e j (hsession.trans hjsession.symm)⟩

theorem Life.Inv.rdt_observe (h : life.Inv sensor config) (hlawful : sensor.Lawful)
    (hsession : sensor.session e = life.sessions) (hnear : NearNewest sensor.rdt life.session e) :
    ((life.impl.rdtSequence.observe (UInt32.ofNat (sensor.rdt e))).1.kind.dropped = false ↔
        ∀ j ∈ life.session, j < e) ∧
      ∀ m, IsNewest (e :: life.session) m →
        (life.impl.rdtSequence.observe (UInt32.ofNat (sensor.rdt e))).2.Newest (sensor.rdt m) := by
  by_cases hnil : life.session = []
  · rw [RdtSequenceTracker.observe_fresh (h.rdtFresh hnil)]
    refine ⟨by simp [hnil, SequenceKind.dropped], fun m hm => ?_⟩
    rw [hnil] at hm
    obtain rfl := List.mem_singleton.mp hm.1
    exact ⟨rfl, rfl⟩
  obtain ⟨m, hm⟩ := exists_isNewest hnil
  have hbase := h.rdt m hm
  have hle : ∀ j ∈ life.session, sensor.rdt j ≤ sensor.rdt m := fun j hj => by
    rcases Nat.lt_or_eq_of_le (hm.2 j hj) with hlt | rfl
    · exact (hlawful.rdt j m (((h.session j).mp hj).2.trans ((h.session m).mp hm.1).2.symm) hlt).le
    · exact le_refl _
  obtain ⟨hahead, hbehind⟩ := hnear m hm.1 hle
  rcases Nat.lt_or_ge m e with hnew | hlate
  · have hlt := (h.rdt_lt hlawful hsession hm.1).1 hnew
    obtain ⟨hkind, hnext⟩ := RdtSequenceTracker.observe_newest hbase hlt (by omega)
    refine ⟨by simp only [hkind, true_iff]; exact fun j hj => (hm.2 j hj).trans_lt hnew,
      fun m' hm' => ?_⟩
    rcases hm'.cons with ⟨rfl, -⟩ | ⟨hold, hem⟩
    · exact hnext
    · exact absurd (hm.2 m' hold.1) (by omega)
  · have hge : sensor.rdt e ≤ sensor.rdt m := by
      rcases Nat.lt_or_eq_of_le hlate with hlt | rfl
      · exact ((h.rdt_lt hlawful hsession hm.1).2 hlt).le
      · exact le_refl _
    obtain ⟨hkind, hkeep⟩ := RdtSequenceTracker.observe_late hbase hge (by omega)
    have hold : ¬ ∀ j ∈ life.session, j < e := fun hall => absurd (hall m hm.1) (not_lt.mpr hlate)
    refine ⟨by simpa only [hkind, Bool.true_eq_false, false_iff] using hold, fun m' hm' => ?_⟩
    rw [hkeep]
    rcases hm'.cons with ⟨rfl, hall⟩ | ⟨hold, -⟩
    · have hmm : m = m' := le_antisymm (hall m hm.1) hlate
      exact hmm ▸ hbase
    · exact h.rdt m' hold

theorem Life.Inv.ft_observe (h : life.Inv sensor config) (hlawful : sensor.Lawful)
    (hnear : NearNewest sensor.ft life.handled e) :
    ((∀ j ∈ life.handled, j < e) →
        (life.impl.ftSequence.observe (UInt32.ofNat (sensor.ft e))).1.discontinuity = false) ∧
      ∀ m, IsNewest (e :: life.handled) m →
        (life.impl.ftSequence.observe (UInt32.ofNat (sensor.ft e))).2.Within (2 ^ 30)
          (sensor.ft m) := by
  by_cases hnil : life.handled = []
  · rw [FtSequenceTracker.observe_fresh (h.ftFresh hnil)]
    refine ⟨fun _ => rfl, fun m hm => ?_⟩
    rw [hnil] at hm
    obtain rfl := List.mem_singleton.mp hm.1
    exact ⟨sensor.ft m, ⟨rfl, rfl⟩, le_refl _, by omega⟩
  obtain ⟨m, hm⟩ := exists_isNewest hnil
  have hwithin := h.ft m hm
  have hle : ∀ j ∈ life.handled, sensor.ft j ≤ sensor.ft m := fun j hj =>
    hlawful.ft.monotone (hm.2 j hj)
  obtain ⟨hahead, hbehind⟩ := hnear m hm.1 hle
  rcases Nat.lt_or_ge m e with hnew | hlate
  · obtain ⟨hkind, hnext⟩ := hwithin.observe_newest (by norm_num) (hlawful.ft hnew) hahead
    refine ⟨fun _ => by rw [hkind]; rfl, fun m' hm' => ?_⟩
    rcases hm'.cons with ⟨rfl, -⟩ | ⟨hold, hem⟩
    · exact hnext
    · exact absurd (hm.2 m' hold.1) (by omega)
  · have hkeep := hwithin.observe_late (hlawful.ft.monotone hlate) hbehind
    refine ⟨fun hall => absurd (hall m hm.1) (by omega), fun m' hm' => ?_⟩
    rcases hm'.cons with ⟨rfl, hall⟩ | ⟨hold, -⟩
    · have hmm : m = m' := le_antisymm (hall m hm.1) hlate
      exact hmm ▸ hkeep
    · have hmm : m' = m := le_antisymm (hm.2 m' hold.1) (hold.2 m hm.1)
      exact hmm ▸ hkeep

/-- New in the session means new in the client's life: an older record belongs to an older session,
or was emitted in this one. -/
theorem Life.Inv.newest_of_session (h : life.Inv sensor config) (hlawful : sensor.Lawful)
    (hsession : sensor.session e = life.sessions) (hnew : ∀ j ∈ life.session, j < e) :
    ∀ j ∈ life.handled, j < e := by
  intro j hj
  by_contra hle
  have hmono := hlawful.session (not_lt.mp hle)
  have hjsession : sensor.session j = life.sessions := by
    have := h.sessions j hj
    omega
  exact hle (hnew j ((h.session j).mpr ⟨hj, hjsession⟩))

/-! ## Which records pass -/

/-- A period has passed since the last success, which is decided in doubles. -/
def RateAllows (config : Config) (life : Life) (receivedAt : TimePoint) : Prop :=
  0 < config.sampleRateLimitHz → ∀ t, life.lastSuccess = some t →
    withinPeriod (receivedAt - t) config.sampleRateLimitHz = false

/-- The rate limit withholds a record that comes less than a period after the last success. -/
theorem Life.Inv.rateLimited_iff (h : life.Inv sensor config) (receivedAt : TimePoint) :
    rateLimited config life.impl.lastDeliveryAt receivedAt = false ↔ RateAllows config life receivedAt := by
  rw [rateLimited, h.lastDelivery, RateAllows]
  cases hlast : life.lastSuccess with
  | none => simp
  | some t =>
    have hpos := h.positive t hlast
    have hne : t ≠ 0 := by
      rintro rfl
      exact lt_irrefl _ hpos
    by_cases hrate : 0 < config.sampleRateLimitHz
    · simp [hrate, hne]
    · simp [hrate]

/-- What it takes for record `e` to reach the callback. -/
structure Passes (sensor : Emitter) (config : Config) (life : Life) (e : ℕ)
    (receivedAt : TimePoint) : Prop where
  rdt : ∀ j ∈ life.session, sensor.rdt j < sensor.rdt e
  ft : ∀ j ∈ life.handled, sensor.ft j < sensor.ft e
  status : classifyStatus (sensor.status e) ≠ .Error ∨ config.deliverSamplesWithErrorStatus = true
  rate : RateAllows config life receivedAt

theorem Life.Inv.passes_iff (h : life.Inv sensor config) (hlawful : sensor.Lawful)
    {receivedAt : TimePoint} {result : CallbackResult}
    (hnext : Admissible sensor life (.record e receivedAt result)) :
    life.impl.clearMalformed.passes (sensor.record e) receivedAt = true ↔
      Passes sensor config life e receivedAt := by
  obtain ⟨hopen, hsession, -, hrdtNear, hftNear⟩ := hnext
  obtain ⟨configuration, hconf, hvalid⟩ := h.configuration hopen
  have hconf' : life.impl.clearMalformed.health.sensorConfiguration = some configuration := hconf
  have hprepare := Impl.prepareRecord_spec hconf' hvalid (hlawful.inRange e) receivedAt
  have hpasses : life.impl.clearMalformed.passes (sensor.record e) receivedAt = true ↔
      life.impl.clearMalformed.delivers (sensor.record e) receivedAt = true := by
    rw [Impl.passes, hprepare]
    split_ifs with hdeliver <;> simp [hdeliver]
  obtain ⟨hrdt, -⟩ := h.rdt_observe hlawful hsession hrdtNear
  obtain ⟨hft, -⟩ := h.ft_observe hlawful hftNear
  rw [hpasses, Impl.delivers, verdict_deliver]
  change ((!(life.impl.rdtSequence.observe (UInt32.ofNat (sensor.rdt e))).1.kind.dropped &&
    !(life.impl.ftSequence.observe (UInt32.ofNat (sensor.ft e))).1.discontinuity &&
    (classifyStatus (sensor.status e) != .Error ||
      life.impl.config.deliverSamplesWithErrorStatus)) &&
    !rateLimited life.impl.config life.impl.lastDeliveryAt receivedAt) = true ↔ _
  simp only [Bool.and_eq_true, Bool.not_eq_true', hrdt, h.rateLimited_iff, h.config,
    Bool.or_eq_true, bne_iff_ne]
  constructor
  · rintro ⟨⟨⟨hnew, -⟩, hstatus⟩, hrate⟩
    exact ⟨fun j hj => (h.rdt_lt hlawful hsession hj).1 (hnew j hj),
      fun j hj => hlawful.ft (h.newest_of_session hlawful hsession hnew j hj), hstatus, hrate⟩
  · rintro ⟨-, hftNew, hstatus, hrate⟩
    have hnew : ∀ j ∈ life.handled, j < e := fun j hj => hlawful.ft.lt_iff_lt.mp (hftNew j hj)
    exact ⟨⟨⟨fun j hj => hnew j ((h.session j).mp hj).1, hft hnew⟩, hstatus⟩, hrate⟩

end Observe

/-! ## The invariant holds along every life -/

theorem Life.Inv.init (sensor : Emitter) (config : Config) :
    Life.Inv sensor config { impl := Impl.init config } where
  config := rfl
  configuration h := absurd h (lt_irrefl 0)
  lastDelivery := rfl
  positive t h := by simp at h
  session j := by simp
  sessions j hj := by simp at hj
  rdtFresh _ := rfl
  rdt m hm := absurd hm.1 (by simp)
  ftFresh _ := rfl
  ft m hm := absurd hm.1 (by simp)
  delivered := by simp

section Step

variable {sensor : Emitter} {config : Config} {life : Life}

theorem Life.Inv.start (h : life.Inv sensor config) (callback : SampleCallback) :
    (life.step sensor (.start callback)).Inv sensor config where
  config := h.config
  configuration := h.configuration
  lastDelivery := rfl
  positive t ht := by simp [Life.step] at ht
  session := h.session
  sessions := h.sessions
  rdtFresh := h.rdtFresh
  rdt := h.rdt
  ftFresh := h.ftFresh
  ft := h.ft
  delivered := h.delivered

/-- A new session forgets the RDT baseline and keeps the FT baseline. -/
theorem Life.Inv.openSession (h : life.Inv sensor config) {configuration : SensorConfiguration}
    (hvalid : configuration.calibration.Valid) :
    (life.step sensor (.session configuration)).Inv sensor config := by
  obtain ⟨_, _, happly⟩ := life.impl.applyConfiguration_frame configuration
  refine ⟨?_, fun _ => ?_, ?_, h.positive, fun j => ?_, fun j hj => ?_, fun _ => rfl,
    fun m hm => absurd hm.1 (by simp [Life.step]), ?_, ?_, h.delivered⟩ <;>
    simp only [Life.step, happly]
  · exact h.config
  · exact ⟨_, rfl, hvalid⟩
  · exact h.lastDelivery
  · refine ⟨fun hj => absurd hj (by simp), fun ⟨hj, hsession⟩ => ?_⟩
    exact absurd (h.sessions j hj) (by omega)
  · exact (h.sessions j hj).trans (Nat.le_succ _)
  · exact h.ftFresh
  · exact fun m hm => (h.ft m hm).beginSession

/-- A handled record extends the history by itself. -/
theorem Life.Inv.record (h : life.Inv sensor config) (hlawful : sensor.Lawful) {e : ℕ}
    {receivedAt : TimePoint} {result : CallbackResult}
    (hnext : Admissible sensor life (.record e receivedAt result)) :
    (life.step sensor (.record e receivedAt result)).Inv sensor config := by
  have hpasses := h.passes_iff hlawful hnext
  obtain ⟨hopen, hsession, hreceived, hrdtNear, hftNear⟩ := hnext
  have hhealth := life.impl.clearMalformed.handleRecord_sameSession (sensor.record e) receivedAt result
  obtain ⟨hrdt, hft⟩ :=
    life.impl.clearMalformed.handleRecord_trackers (sensor.record e) receivedAt result
  have hrdtInv := (h.rdt_observe hlawful hsession hrdtNear).2
  have hftInv := (h.ft_observe hlawful hftNear).2
  refine ⟨?_, fun _ => ?_, ?_, ?_, fun j => ?_, fun j hj => ?_, fun hnil => ?_, fun m hm => ?_,
    fun hnil => ?_, fun m hm => ?_, ?_⟩
  · exact (life.impl.clearMalformed.handleRecord_config _ _ _).trans h.config
  · obtain ⟨configuration, hconf, hvalid⟩ := h.configuration hopen
    exact ⟨configuration, hhealth.sensorConfiguration.trans hconf, hvalid⟩
  · simp only [Life.step, Impl.handleRecord_lastDeliveryAt]
    split_ifs
    · rfl
    · exact h.lastDelivery
  · intro t ht
    simp only [Life.step] at ht
    split_ifs at ht
    · simp only [Option.some.injEq] at ht
      exact ht ▸ hreceived
    · exact h.positive t ht
  · simp only [Life.step, List.mem_cons]
    constructor
    · rintro (rfl | hj)
      · exact ⟨.inl rfl, hsession⟩
      · exact ⟨.inr ((h.session j).mp hj).1, ((h.session j).mp hj).2⟩
    · rintro ⟨rfl | hj, hjsession⟩
      · exact .inl rfl
      · exact .inr ((h.session j).mpr ⟨hj, hjsession⟩)
  · simp only [Life.step, List.mem_cons] at hj ⊢
    rcases hj with rfl | hj
    · exact hsession.le
    · exact h.sessions j hj
  · simp [Life.step] at hnil
  · simp only [Life.step, hrdt]
    exact hrdtInv m hm
  · simp [Life.step] at hnil
  · simp only [Life.step, hft]
    exact hftInv m hm
  · simp only [Life.step]
    split_ifs with hpass
    · have hnew := (hpasses.mp hpass).ft
      refine ⟨List.pairwise_cons.mpr ⟨fun j hj => ?_, h.delivered.1⟩, fun j hj => ?_⟩
      · exact hlawful.ft.lt_iff_lt.mp (hnew j (h.delivered.2 hj))
      · exact List.mem_cons.mpr ((List.mem_cons.mp hj).imp_right fun hj => h.delivered.2 hj)
    · exact ⟨h.delivered.1, fun j hj => List.mem_cons_of_mem e (h.delivered.2 hj)⟩

theorem Lives.inv (hlawful : sensor.Lawful) (h : Lives sensor config life) :
    life.Inv sensor config := by
  induction h with
  | init => exact .init sensor config
  | @step life event _ hnext ih =>
    cases event with
    | start callback => exact ih.start callback
    | session configuration => exact ih.openSession hnext
    | record e receivedAt result => exact ih.record hlawful hnext

end Step

/-! ## The period in exact time -/

/-- `periods` periods have passed since the last success, in exact time. -/
def Spaced (periods : ℚ) (config : Config) (life : Life) (receivedAt : TimePoint) : Prop :=
  0 < config.sampleRateLimitHz → ∀ t, life.lastSuccess = some t →
    periods / config.sampleRateLimitHz ≤ ((receivedAt - t : Ticks) : ℚ) / ticksPerSecond

/-- The period as a double is near the exact one. -/
theorem samplePeriod_near {rate : ℚ} (hlow : 1 / 2 ^ 100 ≤ rate) (hhigh : rate ≤ 2 ^ 100) :
    ∃ p, samplePeriod rate = .finite p ∧
      1 / rate * ticksPerSecond * (1 - 1 / 2 ^ 53) ^ 2 ≤ p ∧ p ≤ 1 / rate * ticksPerSecond * (1 + 1 / 2 ^ 53) ^ 2 := by
  have hpos : 0 < rate := lt_of_lt_of_le (by norm_num) hlow
  have hsmall : 1 / 2 ^ 100 ≤ 1 / rate := one_div_le_one_div_of_le hpos hhigh
  have hlarge : 1 / rate ≤ 2 ^ 100 := by
    rw [div_le_iff₀ hpos]
    linarith
  have hticks : (ticksPerSecond : ℚ) = 10 ^ 9 := by norm_num [ticksPerSecond]
  have hleast : (1 : ℚ) / 2 ^ 1022 ≤ 1 / 2 ^ 100 :=
    one_div_le_one_div_of_le (by norm_num) (pow_le_pow_right₀ (by norm_num) (by norm_num))
  have hmost : (2 : ℚ) ^ 200 ≤ 2 ^ 1023 := pow_le_pow_right₀ (by norm_num) (by norm_num)
  -- first the division, then the conversion to nanoseconds
  obtain ⟨y, hy, hylow, hyhigh⟩ := Double.ofRat_near (hleast.trans hsmall)
    (le_trans (by linarith) hmost)
  obtain ⟨p, hp, hplow, hphigh⟩ := Double.ofRat_near (q := y * ticksPerSecond)
    (hleast.trans (by rw [hticks]; linarith)) (le_trans (by rw [hticks]; linarith) hmost)
  refine ⟨p, ?_, ?_, ?_⟩
  · rw [samplePeriod, Double.div, if_pos hpos.ne', hy, Double.mul, hp]
  · rw [hticks] at hplow ⊢
    linarith
  · rw [hticks] at hphigh ⊢
    linarith

/-- The clock reading as a double is near the exact one. -/
theorem ofRat_ticks_near {elapsed : Ticks} (hlow : 0 ≤ elapsed) (hhigh : elapsed ≤ maxTicks) :
    ∃ v, Double.ofRat elapsed = .finite v ∧
      (elapsed : ℚ) * (1 - 1 / 2 ^ 53) ≤ v ∧ v ≤ (elapsed : ℚ) * (1 + 1 / 2 ^ 53) := by
  rcases hlow.eq_or_lt with rfl | hpos
  · exact ⟨0, by decide +kernel, by norm_num, by norm_num⟩
  · have hone : (1 : ℚ) ≤ elapsed := by exact_mod_cast hpos
    have hmax : (elapsed : ℚ) ≤ maxTicks := by exact_mod_cast hhigh
    have hmost : (2 : ℚ) ^ 64 ≤ 2 ^ 1023 := pow_le_pow_right₀ (by norm_num) (by norm_num)
    have hbelow : (maxTicks : ℚ) ≤ 2 ^ 64 := by norm_num [maxTicks]
    exact Double.ofRat_near ((one_div_le_one_div_of_le one_pos (one_le_pow₀ (by norm_num))).trans (by linarith))
      ((hmax.trans hbelow).trans hmost)

/-- **The limit in doubles is the limit in exact time**, but for a relative error of 2⁻⁵⁰. -/
theorem withinPeriod_near {elapsed : Ticks} {rate : ℚ} (hlow : 1 / 2 ^ 100 ≤ rate) (hhigh : rate ≤ 2 ^ 100)
    (hpast : 0 ≤ elapsed) (hmax : elapsed ≤ maxTicks) :
    (withinPeriod elapsed rate = false → (1 - 1 / 2 ^ 50) / rate ≤ (elapsed : ℚ) / ticksPerSecond) ∧
      ((1 + 1 / 2 ^ 50) / rate ≤ (elapsed : ℚ) / ticksPerSecond → withinPeriod elapsed rate = false) := by
  have hpos : 0 < rate := lt_of_lt_of_le (by norm_num) hlow
  obtain ⟨p, hp, hplow, hphigh⟩ := samplePeriod_near hlow hhigh
  obtain ⟨v, hv, hvlow, hvhigh⟩ := ofRat_ticks_near hpast hmax
  have hticks : (0 : ℚ) < ticksPerSecond := by norm_num [ticksPerSecond]
  have hperiod : 0 < 1 / rate * ticksPerSecond := mul_pos (one_div_pos.mpr hpos) hticks
  have helapsed : (0 : ℚ) ≤ elapsed := by exact_mod_cast hpast
  rw [withinPeriod, hp, hv, Double.lt, decide_eq_false_iff_not, not_lt, le_div_iff₀ hticks,
    le_div_iff₀ hticks, div_eq_mul_one_div (1 - 1 / 2 ^ 50), div_eq_mul_one_div (1 + 1 / 2 ^ 50), mul_assoc,
    mul_assoc]
  -- the period is rounded twice and the reading once, each by a factor of 1 ± 2⁻⁵³
  generalize 1 / rate * (ticksPerSecond : ℚ) = period at *
  constructor
  · intro hle
    nlinarith
  · intro hle
    nlinarith

/-! ## The law of delivery -/

/-- **Exactly the right records are delivered, in order**: in every life of a client, the next record
reaches the callback, as the sample scaled from it, exactly when it is the newest in both numbers, its
status allows it and the rate limit does, which is the one in exact time but for the rounding; and the FT
numbers of the samples passed so far increase. -/
theorem delivery_law {sensor : Emitter} {config : Config} {life : Life} (hlawful : sensor.Lawful)
    (hlife : Lives sensor config life) :
    (∀ e receivedAt result, Admissible sensor life (.record e receivedAt result) →
      ((∃ configuration outcome, life.impl.health.sensorConfiguration = some configuration ∧
          (life.impl.clearMalformed.prepareRecord (sensor.record e) receivedAt).2 =
            .invoke (sampleOf (sensor.record e) configuration receivedAt) outcome) ↔
        Passes sensor config life e receivedAt)) ∧
    (∀ receivedAt, 1 / 2 ^ 100 ≤ config.sampleRateLimitHz → config.sampleRateLimitHz ≤ 2 ^ 100 →
      (∀ t, life.lastSuccess = some t → 0 ≤ receivedAt - t ∧ receivedAt - t ≤ maxTicks) →
      (RateAllows config life receivedAt → Spaced (1 - 1 / 2 ^ 50) config life receivedAt) ∧
        (Spaced (1 + 1 / 2 ^ 50) config life receivedAt → RateAllows config life receivedAt)) ∧
    life.delivered.Pairwise (fun newer older => sensor.ft older < sensor.ft newer) := by
  have hinv := hlife.inv hlawful
  refine ⟨fun e receivedAt result hnext => ?_, fun receivedAt hlow hhigh hclock => ?_, ?_⟩
  · obtain ⟨configuration, hconf, hvalid⟩ := hinv.configuration hnext.1
    have hprepare := Impl.prepareRecord_spec (c := life.impl.clearMalformed) hconf hvalid
      (hlawful.inRange e) receivedAt
    rw [← hinv.passes_iff hlawful hnext, Impl.passes, hprepare]
    constructor
    · rintro ⟨_, outcome, -, hinvoke⟩
      rw [hinvoke]
    · intro hpasses
      have hdeliver : life.impl.clearMalformed.delivers (sensor.record e) receivedAt = true := by
        by_contra hnot
        simp [hnot] at hpasses
      exact ⟨configuration, _, hconf, if_pos hdeliver⟩
  · constructor
    · intro hallows hrate t ht
      exact (withinPeriod_near hlow hhigh (hclock t ht).1 (hclock t ht).2).1 (hallows hrate t ht)
    · intro hspaced hrate t ht
      exact (withinPeriod_near hlow hhigh (hclock t ht).1 (hclock t ht).2).2 (hspaced hrate t ht)
  · exact hinv.delivered.1.imp fun h => hlawful.ft h

/-- A sensor that wraps in its second record: both numbers run from `2 ^ 32 - 1`. -/
def wrappingEmitter : Emitter :=
  { session := fun _ => 1, rdt := fun e => e + 4294967295, ft := fun e => e + 4294967295,
    status := fun _ => 0, force := fun _ => (0, 0, 0), torque := fun _ => (0, 0, 0) }

theorem wrappingEmitter_lawful : wrappingEmitter.Lawful where
  session := fun _ _ _ => le_refl _
  ft := fun e e' h => by
    simp only [wrappingEmitter]
    omega
  rdt := fun e e' _ h => by
    simp only [wrappingEmitter]
    omega
  inRange := fun e v hv => by
    simp only [Emitter.record, wrappingEmitter, RawRecord.numbered, List.mem_cons,
      List.not_mem_nil, or_false, or_self] at hv
    subst hv
    decide

/-- A session with the first record of the sensor. -/
def wrappedLife (config : Config) : Life :=
  (({ impl := Impl.init config } : Life).step wrappingEmitter
    (.session { calibration := ⟨1000000, 1000000, .Newton, .NewtonMeter⟩ })).step wrappingEmitter
    (.record 0 1000 .returned)

theorem wrappedLife_lives (config : Config) : Lives wrappingEmitter config (wrappedLife config) :=
  .step (.step .init (Calibration.valid_of_validate (by decide +kernel)))
    ⟨Nat.one_pos, rfl, by decide, fun m hm => absurd hm (by simp [Life.step]),
      fun m hm => absurd hm (by simp [Life.step])⟩

theorem wrappedLife_admissible (config : Config) {receivedAt : TimePoint} (h : 0 < receivedAt) :
    Admissible wrappingEmitter (wrappedLife config) (.record 1 receivedAt .returned) := by
  have hseen : ∀ m ∈ [0], wrappingEmitter.rdt 1 < wrappingEmitter.rdt m + 2 ^ 30 ∧
      wrappingEmitter.rdt m < wrappingEmitter.rdt 1 + 2 ^ 30 := by
    intro m hm
    obtain rfl := List.mem_singleton.mp hm
    simp only [wrappingEmitter]
    omega
  exact ⟨Nat.one_pos, rfl, h, fun m hm _ => hseen m hm, fun m hm _ => hseen m hm⟩

/-- The second record, sent as number zero, passes after the first. -/
theorem wrapped_record_delivered :
    ∃ life, Lives wrappingEmitter {} life ∧ life.delivered = [0] ∧
      ∃ configuration outcome, life.impl.health.sensorConfiguration = some configuration ∧
        (life.impl.clearMalformed.prepareRecord (wrappingEmitter.record 1) 2000).2 =
          .invoke (sampleOf (wrappingEmitter.record 1) configuration 2000) outcome := by
  have hnewer : ∀ j ∈ [0], wrappingEmitter.rdt j < wrappingEmitter.rdt 1 := by
    intro j hj
    obtain rfl := List.mem_singleton.mp hj
    simp only [wrappingEmitter]
    omega
  refine ⟨_, wrappedLife_lives {}, by decide +kernel, ?_⟩
  exact ((delivery_law wrappingEmitter_lawful (wrappedLife_lives {})).1 1 2000 .returned
    (wrappedLife_admissible {} (by decide))).mpr ⟨hnewer, hnewer, .inl (by decide), fun h => absurd h (by decide)⟩

/-! ## Records that are early in exact time -/

/-- The second record of `wrappingEmitter` is delivered at that time, too early for a valid configuration. -/
def DeliversEarly (config : Config) (receivedAt : TimePoint) : Prop :=
  config.validate 0 = .ok () ∧
  ∃ life, Lives wrappingEmitter config life ∧
    Admissible wrappingEmitter life (.record 1 receivedAt .returned) ∧
    (∃ configuration outcome, life.impl.health.sensorConfiguration = some configuration ∧
      (life.impl.clearMalformed.prepareRecord (wrappingEmitter.record 1) receivedAt).2 =
        .invoke (sampleOf (wrappingEmitter.record 1) configuration receivedAt) outcome) ∧
    ¬ Spaced 1 config life receivedAt

/-- It is delivered where the comparison of doubles lets it pass. -/
theorem deliversEarly_of_delivers {config : Config} {receivedAt : TimePoint} (hvalid : config.validate 0 = .ok ())
    (hpos : 0 < receivedAt)
    (hdeliver : (wrappedLife config).impl.clearMalformed.delivers (wrappingEmitter.record 1) receivedAt = true)
    (hearly : ¬ Spaced 1 config (wrappedLife config) receivedAt) : DeliversEarly config receivedAt := by
  have hlife := wrappedLife_lives config
  have hnext := wrappedLife_admissible config hpos
  obtain ⟨configuration, hconf, hcalibration⟩ :=
    (hlife.inv wrappingEmitter_lawful).configuration hnext.1
  have hprepare := Impl.prepareRecord_spec (c := (wrappedLife config).impl.clearMalformed) hconf hcalibration
    (wrappingEmitter_lawful.inRange 1) receivedAt
  exact ⟨hvalid, _, hlife, hnext,
    ⟨configuration, _, hconf, (congrArg Prod.snd hprepare).trans (if_pos hdeliver)⟩, hearly⟩

/-- The double nearest to 10⁹/1199982 Hz; its period is a little more than 1199982 ns, and rounds to that. -/
def roundedRate : Config := { sampleRateLimitHz := 458136716957421 / 549755813888 }

/-- A sample every 2³⁰ s: the doubles at that number of nanoseconds lie 128 ns apart. -/
def slowRate : Config := { sampleRateLimitHz := 1 / 2 ^ 30 }

/-- The second record is delivered 1199982 ns after the first, and 60 ns before the 2³⁰ s are over. -/
theorem early_record_delivered :
    wrappingEmitter.Lawful ∧ DeliversEarly roundedRate (1000 + 1199982) ∧
      DeliversEarly slowRate (1000 + (2 ^ 30 * 10 ^ 9 - 60)) := by
  refine ⟨wrappingEmitter_lawful, ?_, ?_⟩
  · refine deliversEarly_of_delivers (by decide +kernel) (by norm_num) (by decide +kernel) fun h => ?_
    have hearly := h (by norm_num [roundedRate]) 1000 (by decide +kernel)
    norm_num [roundedRate, ticksPerSecond] at hearly
  · refine deliversEarly_of_delivers (by decide +kernel) (by norm_num) (by decide +kernel) fun h => ?_
    have hearly := h (by norm_num [slowRate]) 1000 (by decide +kernel)
    norm_num [slowRate, ticksPerSecond] at hearly

end NetFT.Client
