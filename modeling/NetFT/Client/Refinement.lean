/-
# NetFT.Client.Refinement — the worker that nobody interrupts runs the sequential model.

`Explained` says for every control point of the worker which prefix of the sequential model leads there:
`Opening`, `Passing`, `Closing` and `Finishing` are the points of one session, of one pass, between two
sessions and after the last, each with its step lemma.  Together with `NetFT.Client.Sequential`,

* **`worker_refines_session`**: at the points that both models have, the worker is where the sequential
  model says, and wherever the sequential model says, it can come.
-/
import NetFT.Client.Sequential

namespace NetFT.Client

set_option autoImplicit false

open Library (Runs restrict)
open Library.Threads (Tid Program)
open Relation (ReflTransGen)

/-! ## Before the loop -/

/-- Discovery can end with this configuration. -/
def Impl.Discovers (c : Impl) (configuration : SensorConfiguration) : Prop :=
  ∃ discovery, configurationForSession c.config discovery = .ok configuration

/-- The session that begins in `c` can end so before its loop. -/
def Impl.Opens (c : Impl) (result : LoopResult) : Prop :=
  ∃ input : SessionInput, input.Clocked ∧ c.openSession input = result

/-- The control points of `receive_session` before its loop, for a session that begins in `c`. -/
inductive Opening (c : Impl) (b : Seconds) : RunPc → Impl → Prop where
  | connecting : Opening c b (.connecting b) c
  | stopping1 : Opening c b (.stopping1 b) (c.setState .Connecting)
  | discover : Opening c b (.discover b) (c.setState .Connecting)
  | discoverFailed {what : String} :
      c.Opens (.ended (c.setState .Connecting) { result := .SensorConfiguration, message := what }) →
      Opening c b (.discoverFailed b what) (c.setState .Connecting)
  | apply {configuration : SensorConfiguration} : c.Discovers configuration →
      Opening c b (.apply b configuration) (c.setState .Connecting)
  | stopping2 {configuration : SensorConfiguration} : c.Discovers configuration →
      Opening c b (.stopping2 b) ((c.setState .Connecting).applyConfiguration configuration)
  | connect {configuration : SensorConfiguration} : c.Discovers configuration →
      Opening c b (.connect b) ((c.setState .Connecting).applyConfiguration configuration)
  | command {configuration : SensorConfiguration} : c.Discovers configuration →
      Opening c b (.command b)
        ((c.setState .Connecting).applyConfiguration configuration).connectTransport
  | send {configuration : SensorConfiguration} : c.Discovers configuration →
      Opening c b (.send b)
        ((c.setState .Connecting).applyConfiguration configuration).connectTransport
  | sendFailed {what : String} {c' : Impl} : c'.stopping = false →
      c.Opens (.ended c' { result := .Socket, message := what }) → Opening c b (.sendFailed b what) c'
  | reset {configuration : SensorConfiguration} : c.Discovers configuration →
      Opening c b (.reset b)
        (((c.setState .Connecting).applyConfiguration configuration).connectTransport.setSessionStarted
          true)
  | deadline {configuration : SensorConfiguration} : c.Discovers configuration →
      Opening c b (.deadline b)
        (((c.setState .Connecting).applyConfiguration configuration).connectTransport.setSessionStarted
          true).resetSequences

/-- A part of a session that can end with `P` has ended, and the worker stands behind it. -/
def Arrives (P : LoopResult → Prop) (b : Seconds) (pc : RunPc) (c : Impl) : Prop :=
  ∃ result, P result ∧ pc = result.pc b ∧ c = result.impl

section

variable {c c' c₁ : Impl} {b : Seconds} {pc pc₁ : RunPc} {wire wire₁ : Wire}

theorem Alone.action (h : Alone ⟨pc, c, wire⟩ ⟨pc₁, c₁, wire₁⟩) (hpass : pc.passes = none) :
    ∃ choice, choice.Own ∧ pc.step choice c wire = some (c₁, wire₁, pc₁) := by
  cases h with
  | act choice hown hstep => exact ⟨choice, hown, hstep⟩
  | pass hpasses =>
    rw [hpass] at hpasses
    cases hpasses

/-- Nor does a worker that goes on from a notify or a wait do anything else. -/
theorem Alone.passing {next : RunPc} (h : Alone ⟨pc, c, wire⟩ ⟨pc₁, c₁, wire₁⟩)
    (hpass : pc.passes = some next) : pc₁ = next ∧ c₁ = c := by
  cases h with
  | act choice _ hstep => cases pc <;> cases hpass <;> cases hstep
  | pass hpasses =>
    rw [hpass] at hpasses
    exact ⟨(Option.some.inj hpasses).symm, rfl⟩

/-- The result of the opening, once the configuration is there. -/
theorem Impl.Discovers.opens {configuration : SensorConfiguration} (h : c.Discovers configuration)
    (hstop : c.stopping = false) (connect send : Except String Unit) {openedAt : TimePoint}
    (hclock : 0 < openedAt) :
    c.Opens (match connect with
      | .error what => .ended ((c.setState .Connecting).applyConfiguration configuration)
          { result := .Socket, message := what }
      | .ok () =>
        match send with
        | .error what =>
          .ended ((c.setState .Connecting).applyConfiguration configuration).connectTransport
            { result := .Socket, message := what }
        | .ok () =>
          let c := (((c.setState .Connecting).applyConfiguration
            configuration).connectTransport.setSessionStarted true).resetSequences
          match checkedDeadline openedAt c.config.receiveTimeout with
          | .error what => .raised c what
          | .ok deadline => .next { impl := c, deadline, receivedValidRecord := false }) := by
  obtain ⟨discovery, hconf⟩ := h
  refine ⟨{ discovery, connect, send, openedAt, passes := [], backoffAt := 1 },
    ⟨hclock, by simp, by norm_num⟩, ?_⟩
  simp only [Impl.openSession, show (c.setState .Connecting).stopping = false from hstop,
    Bool.false_eq_true, if_false]
  rw [show (c.setState .Connecting).config = c.config from rfl]
  generalize configurationForSession c.config discovery = answer at hconf ⊢
  cases hconf
  rfl

theorem Opening.discovered (hstop : c.stopping = false) (discovery : Except String SensorConfiguration)
    (heq : (match configurationForSession c.config discovery with
      | .ok configuration => (c.setState .Connecting, wire, RunPc.apply b configuration)
      | .error what => (c.setState .Connecting, wire, RunPc.discoverFailed b what)) =
        (c₁, wire₁, pc₁)) :
    Opening c b pc₁ c₁ := by
  cases hconf : configurationForSession c.config discovery with
  | ok configuration =>
    rw [hconf] at heq
    cases heq
    exact .apply ⟨discovery, hconf⟩
  | error what =>
    rw [hconf] at heq
    cases heq
    refine .discoverFailed ⟨{ discovery, openedAt := 1, passes := [], backoffAt := 1 },
      ⟨by norm_num, by simp, by norm_num⟩, ?_⟩
    simp only [Impl.openSession, show (c.setState .Connecting).stopping = false from hstop,
      Bool.false_eq_true, if_false]
    rw [show (c.setState .Connecting).config = c.config from rfl, hconf]

theorem Opening.step (h : Opening c b pc c') (hgoing : c.Going)
    (halone : Alone ⟨pc, c', wire⟩ ⟨pc₁, c₁, wire₁⟩) : Opening c b pc₁ c₁ ∨ Arrives c.Opens b pc₁ c₁ := by
  have happly : ∀ configuration,
      ((c.setState .Connecting).applyConfiguration configuration).stopping = false :=
    fun configuration => (SameControl.applyConfiguration _ configuration).stopping.trans hgoing.1
  obtain ⟨choice, hown, hstep⟩ := halone.action (by cases h <;> rfl)
  cases h with
  | connecting =>
    cases hstep
    exact .inl .stopping1
  | stopping1 =>
    cases hstep
    rw [if_neg (by simp [show (c.setState .Connecting).stopping = false from hgoing.1])]
    exact .inl .discover
  | discover =>
    cases choice with
    | configuration configuration =>
      exact .inl (.discovered hgoing.1 (.ok configuration) (Option.some.inj hstep))
    | fail what => exact .inl (.discovered hgoing.1 (.error what) (Option.some.inj hstep))
    | _ => cases hstep
  | discoverFailed hopens =>
    cases hstep
    rw [RunPc.endSession, show (c.setState .Connecting).stopping = false from hgoing.1,
      if_neg Bool.false_ne_true]
    exact .inr ⟨_, hopens, rfl, rfl⟩
  | apply hfound =>
    cases hstep
    exact .inl (.stopping2 hfound)
  | @stopping2 configuration hfound =>
    cases hstep
    rw [happly configuration, if_neg Bool.false_ne_true]
    exact .inl (.connect hfound)
  | @connect configuration hfound =>
    cases choice with
    | proceed =>
      cases hstep
      exact .inl (.command hfound)
    | fail what =>
      cases hstep
      exact .inl (.sendFailed (happly configuration)
        (hfound.opens hgoing.1 (.error what) (.ok ()) one_pos))
    | _ => cases hstep
  | @command configuration hfound =>
    cases hstep
    rw [show ((c.setState .Connecting).applyConfiguration configuration).connectTransport.stopping = false
      from happly configuration, if_neg Bool.false_ne_true]
    exact .inl (.send hfound)
  | @send configuration hfound =>
    simp only [RunPc.step, RunPc.stepOpen] at hstep
    cases hsend : sendResult
        ((c.setState .Connecting).applyConfiguration configuration).connectTransport choice with
    | ok _ =>
      rw [hsend] at hstep
      cases hstep
      exact .inl (.reset hfound)
    | error what =>
      rw [hsend] at hstep
      cases hstep
      exact .inl (.sendFailed (happly configuration)
        (hfound.opens hgoing.1 (.ok ()) (.error what) one_pos))
  | @sendFailed what _ hstop hopens =>
    cases hstep
    rw [RunPc.endSession, hstop, if_neg Bool.false_ne_true]
    exact .inr ⟨_, hopens, rfl, rfl⟩
  | @reset configuration hfound =>
    cases hstep
    exact .inl (.deadline hfound)
  | @deadline configuration hfound =>
    cases choice with
    | reading now =>
      have hopens := hfound.opens hgoing.1 (.ok ()) (.ok ()) hown
      simp only [RunPc.step, RunPc.stepOpen] at hstep
      simp only at hopens
      cases hlimit : checkedDeadline now (((c.setState .Connecting).applyConfiguration
          configuration).connectTransport.setSessionStarted true).resetSequences.config.receiveTimeout with
      | ok limit =>
        rw [hlimit] at hstep hopens
        cases hstep
        exact .inr ⟨_, hopens, rfl, rfl⟩
      | error what =>
        rw [hlimit] at hstep hopens
        cases hstep
        exact .inr ⟨_, hopens, rfl, rfl⟩
    | _ => cases hstep

end

/-! ## A pass of the loop -/

/-- A pass from `s` can end so. -/
def LoopState.Passes (s : LoopState) (result : LoopResult) : Prop :=
  ∃ p : Pass, p.Clocked ∧ loopStep s p = result

/-- A pass from `s` has read a record, and handles it. -/
def LoopState.Handles (s : LoopState) (limit : TimePoint) (record : RawRecord)
    (receivedAt : TimePoint) : Prop :=
  ∀ result, s.Passes (recordResult limit (s.impl.clearMalformed.handleRecord record receivedAt result))

/-- The control points of a pass from `s`. -/
inductive Passing (s : LoopState) (b : Seconds) : RunPc → Impl → Prop where
  | check : Passing s b (.check ⟨b, s.deadline, s.receivedValidRecord⟩) s.impl
  | clock : Passing s b (.clock ⟨b, s.deadline, s.receivedValidRecord⟩) s.impl
  | timeout :
      s.Passes (.ended s.impl.countTimeout
        { result := .Timeout, receivedValidRecord := s.receivedValidRecord }) →
      Passing s b (.timeout ⟨b, s.deadline, s.receivedValidRecord⟩) s.impl
  | receive {now : TimePoint} {ticks : Ticks} : 0 < now → ¬ s.deadline ≤ now →
      checkedDuration (Ticks.toSeconds (s.deadline - now)) = .ok ticks →
      Passing s b (.receive ⟨b, s.deadline, s.receivedValidRecord⟩) s.impl
  | receiveFailed {what : String} :
      s.Passes (.ended s.impl
        { result := .Socket, message := what, receivedValidRecord := s.receivedValidRecord }) →
      Passing s b (.receiveFailed ⟨b, s.deadline, s.receivedValidRecord⟩ what) s.impl
  | received {data : List UInt8} :
      (data = [] → s.Passes (.ended s.impl.countTimeout
        { result := .Timeout, receivedValidRecord := s.receivedValidRecord })) →
      (data ≠ [] → ∀ receivedAt result, 0 < receivedAt →
        s.Passes (datagramStep s data receivedAt result)) →
      Passing s b (.received ⟨b, s.deadline, s.receivedValidRecord⟩ data) s.impl
  | malformed {data : List UInt8} {what : String} : decodeRecord data = .error what →
      (∀ receivedAt result, 0 < receivedAt → s.Passes (datagramStep s data receivedAt result)) →
      Passing s b (.malformed ⟨b, s.deadline, s.receivedValidRecord⟩) s.impl
  | wellFormed {data : List UInt8} {record : RawRecord} : decodeRecord data = .ok record →
      (∀ receivedAt result, 0 < receivedAt → s.Passes (datagramStep s data receivedAt result)) →
      Passing s b (.wellFormed ⟨b, s.deadline, s.receivedValidRecord⟩ record) s.impl
  | observe {limit receivedAt : TimePoint} {record : RawRecord} : s.Handles limit record receivedAt → Passing s b (.observe ⟨b, limit, true⟩ record receivedAt) s.impl.clearMalformed
  | invoke {limit receivedAt : TimePoint} {record : RawRecord} {c : Impl} {sample : Sample}
      {outcome : Option SessionResult} : s.Handles limit record receivedAt →
      s.impl.clearMalformed.prepareRecord record receivedAt = (c, .invoke sample outcome) →
      Passing s b (.invoke ⟨⟨b, limit, true⟩, sample, outcome⟩) c
  | inCallback {limit receivedAt : TimePoint} {record : RawRecord} {c : Impl} {sample : Sample}
      {outcome : Option SessionResult} : s.Handles limit record receivedAt →
      s.impl.clearMalformed.prepareRecord record receivedAt = (c, .invoke sample outcome) →
      c.callback.isSome = true → Passing s b (.inCallback ⟨⟨b, limit, true⟩, sample, outcome⟩) c
  | callbackThrew {limit : TimePoint} {c : Impl} {sample : Sample} {outcome : Option SessionResult}
      {what : Option String} : s.Passes (recordResult limit
        (c.recordCallbackError (what.getD "sample callback failed"),
          .ok (callbackFailureOutcome c.config outcome))) →
      Passing s b (.callbackThrew ⟨⟨b, limit, true⟩, sample, outcome⟩ what) c
  | deliver {limit : TimePoint} {c : Impl} {sample : Sample} {outcome : Option SessionResult} :
      s.Passes (recordResult limit (c.deliverSample sample, .ok outcome)) →
      Passing s b (.deliver ⟨⟨b, limit, true⟩, sample, outcome⟩) c
  | deliveredFirst {limit : TimePoint} {c : Impl} {sample : Sample} {outcome : Option SessionResult} :
      s.Passes (recordResult limit (c, .ok outcome)) →
      Passing s b (.deliveredFirst ⟨⟨b, limit, true⟩, sample, outcome⟩) c
  | deliveredLifecycle {limit : TimePoint} {c : Impl} {sample : Sample}
      {outcome : Option SessionResult} :
      s.Passes (recordResult limit (c, .ok outcome)) →
      Passing s b (.deliveredLifecycle ⟨⟨b, limit, true⟩, sample, outcome⟩) c

section

variable {s : LoopState} {b : Seconds} {c c₁ : Impl} {pc pc₁ : RunPc} {wire wire₁ : Wire}

/-- Whatever a `receive` can return, it can return in a pass whose wait can be converted. -/
theorem exists_reception {timeout ticks : Ticks} (h : checkedDuration (Ticks.toSeconds timeout) = .ok ticks)
    (outcome : PollOutcome) :
    ∃ reception : Reception, receive (Ticks.toSeconds timeout) reception = pollBytes outcome := by
  let reception : Reception := { startedAt := 0, outcome, returnedAt := 0 }
  have hlimit : reception.limit timeout = .ok (0 + ticks) := by
    rw [Reception.limit, checkedDeadline, h]
    exact if_neg (by linarith [checkedDuration_lt h, show reception.startedAt = 0 from rfl])
  have hintime : reception.InTime timeout := ⟨_, hlimit, by simp [reception]⟩
  exact ⟨reception, receive_inTime hintime⟩

theorem LoopState.passes_timeout (s : LoopState) {now : TimePoint} (hnow : 0 < now) (hlate : s.deadline ≤ now) :
    s.Passes (.ended s.impl.countTimeout
      { result := .Timeout, receivedValidRecord := s.receivedValidRecord }) := by
  refine ⟨{ now, reception := ⟨0, [], .expired, 0⟩, receivedAt := 1 }, ⟨hnow, one_pos⟩, ?_⟩
  rw [loopStep, if_pos hlate]

theorem LoopState.passes_failed (s : LoopState) {now : TimePoint} (hnow : 0 < now)
    (hbefore : ¬ s.deadline ≤ now) {reception : Reception} {what : String}
    (hreceive : receive (Ticks.toSeconds (s.deadline - now)) reception = .error what) :
    s.Passes (.ended s.impl
      { result := .Socket, message := what, receivedValidRecord := s.receivedValidRecord }) := by
  refine ⟨{ now, reception, receivedAt := 1 }, ⟨hnow, one_pos⟩, ?_⟩
  simp only [loopStep, if_neg hbefore]
  rw [hreceive]

theorem LoopState.passes_received (s : LoopState) {now : TimePoint} (hnow : 0 < now)
    (hbefore : ¬ s.deadline ≤ now) {ticks : Ticks}
    (hduration : checkedDuration (Ticks.toSeconds (s.deadline - now)) = .ok ticks) {data : List UInt8}
    (hdata : data ≠ []) {receivedAt : TimePoint} (hreceived : 0 < receivedAt) (result : CallbackResult) :
    s.Passes (datagramStep s data receivedAt result) := by
  obtain ⟨reception, hreceive⟩ := exists_reception hduration (.ready (.received data))
  refine ⟨{ now, reception, receivedAt, result }, ⟨hnow, hreceived⟩, ?_⟩
  simp only [loopStep, if_neg hbefore]
  rw [hreceive]
  cases data with
  | nil => exact absurd rfl hdata
  | cons byte data => rfl

theorem LoopState.passes_empty (s : LoopState) {now : TimePoint} (hnow : 0 < now)
    (hbefore : ¬ s.deadline ≤ now) {ticks : Ticks}
    (hduration : checkedDuration (Ticks.toSeconds (s.deadline - now)) = .ok ticks) :
    s.Passes (.ended s.impl.countTimeout
      { result := .Timeout, receivedValidRecord := s.receivedValidRecord }) := by
  obtain ⟨reception, hreceive⟩ := exists_reception hduration (.ready (.received []))
  refine ⟨{ now, reception, receivedAt := 1 }, ⟨hnow, one_pos⟩, ?_⟩
  simp only [loopStep, if_neg hbefore]
  rw [hreceive]
  rfl

/-- The datagram branch, for a record. -/
theorem datagramStep_record {data : List UInt8} {record : RawRecord} (hdecode : decodeRecord data = .ok record)
    {receivedAt limit : TimePoint}
    (hlimit : checkedDeadline receivedAt s.impl.clearMalformed.config.receiveTimeout = .ok limit)
    (result : CallbackResult) :
    datagramStep s data receivedAt result =
      recordResult limit (s.impl.clearMalformed.handleRecord record receivedAt result) := by
  simp only [datagramStep, hdecode, hlimit]
  generalize s.impl.clearMalformed.handleRecord record receivedAt result = handled
  obtain ⟨c₁, what | _ | outcome⟩ := handled <;> rfl

theorem arrives_afterRecord {limit : TimePoint} {outcome : Option SessionResult}
    (hpasses : s.Passes (recordResult limit (c, .ok outcome))) :
    Arrives s.Passes b (RunPc.afterRecord ⟨b, limit, true⟩ outcome) c := by
  cases outcome with
  | none => exact ⟨_, hpasses, rfl, rfl⟩
  | some result => exact ⟨_, hpasses, rfl, rfl⟩

/-- What is known of the end of an invocation: how the record is handled. -/
theorem handleRecord_invoke {record : RawRecord} {receivedAt : TimePoint} {sample : Sample}
    {outcome : Option SessionResult}
    (hprepare : c.prepareRecord record receivedAt = (c₁, .invoke sample outcome)) (result : CallbackResult) :
    c.handleRecord record receivedAt result =
      ((c₁.finishRecord sample outcome (if c₁.callback.isSome then result else .returned)).1,
        .ok (c₁.finishRecord sample outcome (if c₁.callback.isSome then result else .returned)).2) := by
  rw [Impl.handleRecord, hprepare]

theorem Passing.step (h : Passing s b pc c) (hstop : s.impl.stopping = false)
    (halone : Alone ⟨pc, c, wire⟩ ⟨pc₁, c₁, wire₁⟩) :
    Passing s b pc₁ c₁ ∨ Arrives s.Passes b pc₁ c₁ := by
  cases h with
  | check =>
    obtain ⟨choice, hown, hstep⟩ := halone.action rfl
    cases hstep
    rw [hstop, if_neg Bool.false_ne_true]
    exact .inl .clock
  | clock =>
    obtain ⟨choice, hown, hstep⟩ := halone.action rfl
    cases choice with
    | reading now =>
      cases hstep
      by_cases hlate : s.deadline ≤ now
      · rw [if_pos hlate]
        exact .inl (.timeout (s.passes_timeout hown hlate))
      · rw [if_neg hlate]
        cases hduration : checkedDuration (Ticks.toSeconds (s.deadline - now)) with
        | ok ticks => exact .inl (.receive hown hlate hduration)
        | error what =>
          exact .inl (.receiveFailed (s.passes_failed hown hlate
            (receive_of_error (r := { startedAt := 0, outcome := .expired, returnedAt := 0 }) hduration)))
    | _ => cases hstep
  | timeout hpasses =>
    obtain ⟨choice, hown, hstep⟩ := halone.action rfl
    cases hstep
    rw [hstop, if_neg Bool.false_ne_true, RunPc.endSession, hstop, if_neg Bool.false_ne_true]
    exact .inr ⟨_, hpasses, rfl, rfl⟩
  | receive hnow hbefore hduration =>
    obtain ⟨choice, hown, hstep⟩ := halone.action rfl
    cases choice with
    | received data =>
      cases hstep
      refine .inl (.received (fun _ => s.passes_empty hnow hbefore hduration) ?_)
      exact fun hdata receivedAt result hreceived =>
        s.passes_received hnow hbefore hduration hdata hreceived result
    | fail what =>
      cases hstep
      obtain ⟨reception, hreceive⟩ := exists_reception hduration (.failed what)
      exact .inl (.receiveFailed (s.passes_failed hnow hbefore hreceive))
    | _ => cases hstep
  | receiveFailed hpasses =>
    obtain ⟨choice, hown, hstep⟩ := halone.action rfl
    cases hstep
    rw [RunPc.endSession, hstop, if_neg Bool.false_ne_true]
    exact .inr ⟨_, hpasses, rfl, rfl⟩
  | @received data hempty hdatagram =>
    obtain ⟨choice, hown, hstep⟩ := halone.action rfl
    cases hstep
    rw [hstop, if_neg Bool.false_ne_true]
    by_cases hdata : data = []
    · rw [if_pos hdata]
      exact .inl (.timeout (hempty hdata))
    · rw [if_neg hdata]
      cases hdecode : decodeRecord data with
      | error what => exact .inl (.malformed hdecode (hdatagram hdata))
      | ok record => exact .inl (.wellFormed hdecode (hdatagram hdata))
  | @malformed data what hdecode hdatagram =>
    obtain ⟨choice, hown, hstep⟩ := halone.action rfl
    cases hstep
    have hpasses := hdatagram 1 .returned one_pos
    simp only [datagramStep, hdecode] at hpasses
    by_cases hstorm : s.impl.countMalformed.malformedStorm = true
    · rw [if_pos hstorm] at hpasses ⊢
      exact .inr ⟨_, hpasses, rfl, rfl⟩
    · rw [if_neg hstorm] at hpasses ⊢
      exact .inr ⟨_, hpasses, rfl, rfl⟩
  | @wellFormed data record hdecode hdatagram =>
    obtain ⟨choice, hown, hstep⟩ := halone.action rfl
    cases choice with
    | reading now =>
      simp only [RunPc.step, RunPc.stepOpen, RunPc.stepLoop] at hstep
      cases hdeadline : checkedDeadline now s.impl.clearMalformed.config.receiveTimeout with
      | ok limit =>
        rw [hdeadline] at hstep
        cases hstep
        refine .inl (.observe fun result => ?_)
        rw [← datagramStep_record hdecode hdeadline]
        exact hdatagram now result hown
      | error what =>
        rw [hdeadline] at hstep
        cases hstep
        have hpasses := hdatagram now .returned hown
        simp only [datagramStep, hdecode, hdeadline] at hpasses
        exact .inr ⟨_, hpasses, rfl, rfl⟩
    | _ => cases hstep
  | @observe limit receivedAt record hhandles =>
    obtain ⟨choice, hown, hstep⟩ := halone.action rfl
    simp only [RunPc.step, RunPc.stepOpen, RunPc.stepLoop] at hstep
    cases hprepare : s.impl.clearMalformed.prepareRecord record receivedAt with
    | mk c₂ prepared =>
      have hpasses := hhandles .returned
      rw [Impl.handleRecord, hprepare] at hpasses
      cases prepared with
      | raised what =>
        rw [hprepare] at hstep
        cases hstep
        exact .inr ⟨_, hpasses, rfl, rfl⟩
      | done outcome =>
        rw [hprepare] at hstep
        cases hstep
        exact .inr (arrives_afterRecord hpasses)
      | invoke sample outcome =>
        rw [hprepare] at hstep
        cases hstep
        exact .inl (.invoke hhandles hprepare)
  | @invoke limit receivedAt record _ sample outcome hhandles hprepare =>
    obtain ⟨choice, hown, hstep⟩ := halone.action rfl
    cases hstep
    by_cases hcallback : c.callback.isSome = true
    · rw [if_pos hcallback]
      exact .inl (.inCallback hhandles hprepare hcallback)
    · rw [if_neg hcallback]
      have hpasses := hhandles .returned
      rw [handleRecord_invoke hprepare, if_neg hcallback] at hpasses
      exact .inl (.deliver hpasses)
  | @inCallback limit receivedAt record _ sample outcome hhandles hprepare hcallback =>
    obtain ⟨choice, hown, hstep⟩ := halone.action rfl
    cases choice with
    | returned =>
      cases hstep
      have hpasses := hhandles .returned
      rw [handleRecord_invoke hprepare, if_pos hcallback] at hpasses
      exact .inl (.deliver hpasses)
    | threw what =>
      cases hstep
      have hpasses := hhandles (.threw what)
      rw [handleRecord_invoke hprepare, if_pos hcallback] at hpasses
      exact .inl (.callbackThrew hpasses)
    | _ => cases hstep
  | callbackThrew hpasses =>
    obtain ⟨choice, hown, hstep⟩ := halone.action rfl
    cases hstep
    exact .inr (arrives_afterRecord hpasses)
  | deliver hpasses =>
    obtain ⟨choice, hown, hstep⟩ := halone.action rfl
    cases hstep
    exact .inl (.deliveredFirst hpasses)
  | deliveredFirst hpasses =>
    obtain ⟨rfl, rfl⟩ := halone.passing rfl
    exact .inl (.deliveredLifecycle hpasses)
  | deliveredLifecycle hpasses =>
    obtain ⟨rfl, rfl⟩ := halone.passing rfl
    exact .inr (arrives_afterRecord hpasses)

end

/-! ## Between two sessions, and after the last -/

/-- The control points of `run` between two sessions, for a session that has ended in `c`. -/
inductive Closing (c : Impl) (b : Seconds) (outcome : SessionOutcome) : RunPc → Impl → Prop where
  | close : Closing c b outcome (.close b outcome) c
  | settle : Closing c b outcome (.settle b outcome) c.closeSession
  | enterBackoff : c.config.recoveryPolicy ≠ .FailStop →
      Closing c b outcome (.enterBackoff (outcome.delay c b) outcome.withMessage.message) c.closeSession
  | backoffLock : c.config.recoveryPolicy ≠ .FailStop →
      Closing c b outcome (.backoffLock (outcome.delay c b))
        (c.closeSession.enterBackoff outcome.withMessage.message)
  | backoffWait {now limit : TimePoint} : c.config.recoveryPolicy ≠ .FailStop → 0 < now →
      checkedDeadline now (outcome.delay c b) = .ok limit →
      Closing c b outcome (.backoffWait (outcome.delay c b))
        (c.closeSession.enterBackoff outcome.withMessage.message)
  | backoffDone {now limit : TimePoint} : c.config.recoveryPolicy ≠ .FailStop → 0 < now →
      checkedDeadline now (outcome.delay c b) = .ok limit →
      Closing c b outcome (.backoffDone (outcome.delay c b))
        (c.closeSession.enterBackoff outcome.withMessage.message)

/-- Where the worker goes on from between two sessions: to the next, or to its end. -/
inductive AfterClosing (c : Impl) (b : Seconds) (outcome : SessionOutcome) : RunPc → Impl → Prop where
  | loop {now limit : TimePoint} : c.config.recoveryPolicy ≠ .FailStop → 0 < now →
      checkedDeadline now (outcome.delay c b) = .ok limit →
      AfterClosing c b outcome (.loop (min (outcome.delay c b * 2) c.config.reconnectMaxDelay))
        (c.closeSession.enterBackoff outcome.withMessage.message)
  | raised {now : TimePoint} {what : String} : c.config.recoveryPolicy ≠ .FailStop → 0 < now →
      checkedDeadline now (outcome.delay c b) = .error what →
      AfterClosing c b outcome (.raised what) (c.closeSession.enterBackoff outcome.withMessage.message)
  | publish : c.config.recoveryPolicy = .FailStop →
      AfterClosing c b outcome (.publish (faultFor outcome.result) outcome.withMessage.message)
        c.closeSession

/-- The control points of the end of a run that has latched a fault in `c`. -/
inductive Finishing (c : Impl) : RunPc → Impl → Prop where
  | publishNotifyFirst : Finishing c .publishNotifyFirst c
  | publishNotifyLifecycle : Finishing c .publishNotifyLifecycle c
  | finishClose : Finishing c .finishClose c
  | finishExited : Finishing c .finishExited c.closeSession
  | finishFaulted : Finishing c .finishFaulted { c.closeSession with workerExited := true }
  | finishNotifyFirst : Finishing c .finishNotifyFirst { c.closeSession with workerExited := true }
  | finishNotifyLifecycle :
      Finishing c .finishNotifyLifecycle { c.closeSession with workerExited := true }
  | ended : Finishing c .ended { c.closeSession with workerExited := true }

section

variable {c c' c₁ : Impl} {b : Seconds} {outcome : SessionOutcome} {pc pc₁ : RunPc} {wire wire₁ : Wire}

theorem Closing.step (h : Closing c b outcome pc c') (hgoing : c.Going) (hresult : outcome.result ≠ .Stopped)
    (halone : Alone ⟨pc, c', wire⟩ ⟨pc₁, c₁, wire₁⟩) :
    Closing c b outcome pc₁ c₁ ∨ AfterClosing c b outcome pc₁ c₁ := by
  have hstop : c.closeSession.stopping = false := hgoing.1
  cases h with
  | close =>
    obtain ⟨choice, hown, hstep⟩ := halone.action rfl
    cases hstep
    exact .inl .settle
  | settle =>
    obtain ⟨choice, hown, hstep⟩ := halone.action rfl
    cases hstep
    have hvalid : outcome.withMessage.receivedValidRecord = outcome.receivedValidRecord := by
      unfold SessionOutcome.withMessage
      split_ifs <;> rfl
    rw [SessionOutcome.withMessage_result, hstop, hvalid]
    by_cases hpolicy : c.config.recoveryPolicy = .FailStop
    · rw [if_pos ⟨hresult, hpolicy⟩]
      exact .inr (.publish hpolicy)
    · rw [if_neg (fun hboth => hpolicy hboth.2), if_neg (by simpa using hresult)]
      exact .inl (.enterBackoff hpolicy)
  | enterBackoff hpolicy =>
    obtain ⟨choice, hown, hstep⟩ := halone.action rfl
    cases hstep
    exact .inl (.backoffLock hpolicy)
  | backoffLock hpolicy =>
    obtain ⟨choice, hown, hstep⟩ := halone.action rfl
    cases choice with
    | reading now =>
      simp only [RunPc.step, RunPc.stepOpen, RunPc.stepLoop, RunPc.stepClose] at hstep
      cases hlimit : checkedDeadline now (outcome.delay c b) with
      | ok limit =>
        rw [hlimit] at hstep
        cases hstep
        exact .inl (.backoffWait hpolicy hown hlimit)
      | error what =>
        rw [hlimit] at hstep
        cases hstep
        exact .inr (.raised hpolicy hown hlimit)
    | _ => cases hstep
  | backoffWait hpolicy hnow hlimit =>
    obtain ⟨rfl, rfl⟩ := halone.passing rfl
    exact .inl (.backoffDone hpolicy hnow hlimit)
  | backoffDone hpolicy hnow hlimit =>
    obtain ⟨choice, hown, hstep⟩ := halone.action rfl
    cases hstep
    exact .inr (.loop hpolicy hnow hlimit)

theorem Finishing.step (h : Finishing c pc c') (hfault : c.faultLatch ≠ .None)
    (halone : Alone ⟨pc, c', wire⟩ ⟨pc₁, c₁, wire₁⟩) : Finishing c pc₁ c₁ := by
  cases h with
  | publishNotifyFirst =>
    obtain ⟨rfl, rfl⟩ := halone.passing rfl
    exact .publishNotifyLifecycle
  | publishNotifyLifecycle =>
    obtain ⟨rfl, rfl⟩ := halone.passing rfl
    exact .finishClose
  | finishClose =>
    obtain ⟨choice, hown, hstep⟩ := halone.action rfl
    cases hstep
    exact .finishExited
  | finishExited =>
    obtain ⟨choice, hown, hstep⟩ := halone.action rfl
    cases hstep
    exact .finishFaulted
  | finishFaulted =>
    obtain ⟨choice, hown, hstep⟩ := halone.action rfl
    cases hstep
    have hfaulted : ({ c.closeSession with workerExited := true } : Impl).faulted = true :=
      Impl.closeSession_faulted hfault
    rw [if_pos hfaulted]
    exact .finishNotifyFirst
  | finishNotifyFirst =>
    obtain ⟨rfl, rfl⟩ := halone.passing rfl
    exact .finishNotifyLifecycle
  | finishNotifyLifecycle =>
    obtain ⟨rfl, rfl⟩ := halone.passing rfl
    exact .ended
  | ended =>
    obtain ⟨choice, hown, hstep⟩ := halone.action rfl
    cases hstep

end

/-! ## What the sequential model makes of its parts -/

section

variable {c c' : Impl} {b : Seconds} {input : SessionInput}

/-- A session that ends before its loop, with no stop request, was not stopped. -/
theorem openSession_result {outcome : SessionOutcome} (h : c.stopping = false)
    (hopen : c.openSession input = .ended c' outcome) : outcome.result ≠ .Stopped := by
  unfold Impl.openSession at hopen
  simp only [show (c.setState .Connecting).stopping = false from h, Bool.false_eq_true, if_false] at hopen
  split at hopen
  · cases hopen
    simp
  split at hopen
  · cases hopen
    simp
  split at hopen
  · cases hopen
    simp
  split at hopen <;> cases hopen

/-- No pass ends with a stop request. -/
theorem loopStep_result {s : LoopState} {p : Pass} {outcome : SessionOutcome}
    (h : loopStep s p = .ended c' outcome) : outcome.result ≠ .Stopped := by
  unfold loopStep at h
  simp only at h
  split_ifs at h
  · cases h
    simp
  split at h
  · cases h
    simp
  · cases h
    simp
  unfold datagramStep at h
  split at h
  · simp only at h
    split_ifs at h
    cases h
    simp
  simp only at h
  split at h
  · cases h
  split at h
  · cases h
  · rename_i outcome' hhandled
    cases h
    have hmem := Impl.handleRecord_outcome_mem hhandled
    intro hresult
    simp only at hresult
    subst hresult
    simp [recordOutcomes] at hmem
  · cases h

theorem Accepts.snoc {s s₁ s' : LoopState} {ps : List Pass} {p : Pass} (h : Accepts s ps s₁)
    (hstep : loopStep s₁ p = .next s') : Accepts s (ps ++ [p]) s' := by
  induction h with
  | nil s => exact .cons hstep (.nil s')
  | cons hfirst _ ih => exact .cons hfirst (ih hstep)

end

/-! ## The whole run -/

/-- Which part of the sequential model has led the worker here, from the state `c₀`. -/
inductive Explained (c₀ : Impl) (b₀ : Seconds) : RunPc → Impl → Prop
  | loop {pre : List SessionInput} {c : Impl} {b : Seconds} : Sessions c₀ b₀ pre c b →
      Explained c₀ b₀ (.loop b) c
  | opening {pre : List SessionInput} {c c' : Impl} {b : Seconds} {pc : RunPc} :
      Sessions c₀ b₀ pre c b → Opening c b pc c' → Explained c₀ b₀ pc c'
  | passing {pre : List SessionInput} {c c' : Impl} {b : Seconds} {pc : RunPc} {input : SessionInput}
      {s₀ s : LoopState} : Sessions c₀ b₀ pre c b → input.Clocked → c.openSession input = .next s₀ →
      Accepts s₀ input.passes s → Passing s b pc c' → Explained c₀ b₀ pc c'
  | closing {pre : List SessionInput} {c c' c'' : Impl} {b : Seconds} {pc : RunPc}
      {input : SessionInput} {outcome : SessionOutcome} : Sessions c₀ b₀ pre c b → input.Clocked →
      c.receiveSession input = (c', .ok outcome) → outcome.result ≠ .Stopped →
      Closing c' b outcome pc c'' → Explained c₀ b₀ pc c''
  | raised {pre : List SessionInput} {c c' : Impl} {b : Seconds} {input : SessionInput}
      {what : String} : Sessions c₀ b₀ pre c b → input.Clocked → c'.Going →
      (c.runLoop b [input]).1 = c'.setFault .Socket what → Explained c₀ b₀ (.raised what) c'
  | publish {pre : List SessionInput} {c c' : Impl} {b : Seconds} {input : SessionInput}
      {code : FaultCode} {message : String} : Sessions c₀ b₀ pre c b → input.Clocked → c'.Going →
      code ≠ .None → (c.runLoop b [input]).1 = c'.setFault code message →
      Explained c₀ b₀ (.publish code message) c'
  | finishing {pre : List SessionInput} {c c' : Impl} {b : Seconds} {pc : RunPc}
      {input : SessionInput} : Sessions c₀ b₀ pre c b → input.Clocked →
      (c.runLoop b [input]).1.faultLatch ≠ .None → Finishing (c.runLoop b [input]).1 pc c' →
      Explained c₀ b₀ pc c'

section

variable {c₀ c c' c₁ : Impl} {b₀ b : Seconds} {pc pc₁ : RunPc} {wire wire₁ : Wire}
  {pre : List SessionInput} {input : SessionInput}

/-- `receive_session` has ended. -/
theorem Explained.ended {ended : Except String SessionOutcome} (hpre : Sessions c₀ b₀ pre c b)
    (hgoing : c.Going) (hclock : input.Clocked) (hsession : c.receiveSession input = (c', ended))
    (hresult : ∀ outcome, ended = .ok outcome → outcome.result ≠ .Stopped) :
    Explained c₀ b₀ (endPc b ended) c' := by
  cases ended with
  | ok outcome => exact .closing hpre hclock hsession (hresult outcome rfl) .close
  | error what =>
    exact .raised hpre hclock (hgoing.receiveSession hsession) (by rw [runLoop_raised hgoing hsession])

/-- The part before the loop has ended. -/
theorem Explained.opened (hpre : Sessions c₀ b₀ pre c b) (hgoing : c.Going)
    (h : Arrives c.Opens b pc c') : Explained c₀ b₀ pc c' := by
  obtain ⟨result, ⟨input, hclock, hopen⟩, rfl, rfl⟩ := h
  cases result with
  | next s =>
    -- the passes of this input are not the ones that the worker will make
    have hclock' : ({ input with passes := [] } : SessionInput).Clocked :=
      ⟨hclock.openedAt, by simp, hclock.backoffAt⟩
    exact .passing hpre hclock' hopen (.nil s) .check
  | ended c' outcome =>
    have hsession : c.receiveSession input = (c', .ok outcome) := by rw [Impl.receiveSession, hopen]
    exact Explained.ended hpre hgoing hclock hsession fun o ho => by
      cases ho
      exact openSession_result hgoing.1 hopen
  | raised c' what =>
    have hsession : c.receiveSession input = (c', .error what) := by rw [Impl.receiveSession, hopen]
    exact Explained.ended hpre hgoing hclock hsession fun o ho => by cases ho

/-- A pass has ended. -/
theorem Explained.passed {s₀ s : LoopState} (hpre : Sessions c₀ b₀ pre c b) (hgoing : c.Going)
    (hclock : input.Clocked) (hopen : c.openSession input = .next s₀)
    (haccepts : Accepts s₀ input.passes s) (h : Arrives s.Passes b pc c') : Explained c₀ b₀ pc c' := by
  obtain ⟨result, ⟨p, hp, hstep⟩, rfl, rfl⟩ := h
  let longer : SessionInput := { input with passes := input.passes ++ [p] }
  have hlonger : longer.Clocked := by
    refine ⟨hclock.openedAt, fun q hq => ?_, hclock.backoffAt⟩
    rcases List.mem_append.mp hq with hq | hq
    · exact hclock.passes q hq
    · rwa [List.mem_singleton.mp hq]
  have hopen' : c.openSession longer = .next s₀ := hopen
  have hsession : c.receiveSession longer = receiveLoop s [p] := by
    rw [Impl.receiveSession, hopen']
    exact receiveLoop_accepts haccepts [p]
  cases result with
  | next s' => exact .passing hpre hlonger hopen' (haccepts.snoc hstep) .check
  | ended c' outcome =>
    refine Explained.ended hpre hgoing hlonger (hsession.trans (by rw [receiveLoop, hstep])) ?_
    rintro _ ⟨⟩
    exact loopStep_result hstep
  | raised c' what =>
    refine Explained.ended hpre hgoing hlonger (hsession.trans (by rw [receiveLoop, hstep])) ?_
    rintro _ ⟨⟩

/-- The worker comes from between two sessions. -/
theorem Explained.closed {outcome : SessionOutcome} {c'' : Impl} (hpre : Sessions c₀ b₀ pre c b)
    (hgoing : c.Going) (hclock : input.Clocked) (hsession : c.receiveSession input = (c', .ok outcome))
    (hresult : outcome.result ≠ .Stopped) (h : AfterClosing c' b outcome pc c'') :
    Explained c₀ b₀ pc c'' := by
  have hgoing' := hgoing.receiveSession hsession
  -- the clock reading before the delay is the one that the worker made
  have hreading : ∀ now, c.receiveSession { input with backoffAt := now } = (c', .ok outcome) :=
    fun _ => hsession
  have hread : ∀ now, 0 < now → ({ input with backoffAt := now } : SessionInput).Clocked :=
    fun _ hnow => ⟨hclock.openedAt, hclock.passes, hnow⟩
  cases h with
  | @loop now limit hpolicy hnow hlimit =>
    exact .loop (.snoc hpre hgoing (hread now hnow) (hreading now) hresult hpolicy hlimit)
  | @raised now what hpolicy hnow hlimit =>
    refine .raised hpre (hread now hnow) (hgoing'.enterBackoff _) ?_
    rw [runLoop_session hgoing (hreading now) hresult, if_neg hpolicy, hlimit]
  | publish hpolicy =>
    refine .publish hpre hclock hgoing' ?_ (by rw [runLoop_session hgoing hsession hresult, if_pos hpolicy])
    intro hnone
    cases hcode : outcome.result <;> rw [hcode] at hnone <;>
      first | exact hresult hcode | cases hnone

/-- `set_fault` is done. -/
theorem Explained.published {code : FaultCode} {message : String} (hpre : Sessions c₀ b₀ pre c b)
    (hclock : input.Clocked) (hgoing : c'.Going) (hcode : code ≠ .None)
    (hrun : (c.runLoop b [input]).1 = c'.setFault code message) :
    Explained c₀ b₀ .publishNotifyFirst (c'.setFault code message) := by
  have hfault : (c.runLoop b [input]).1.faultLatch ≠ .None := by
    rw [hrun, Impl.setFault, Impl.publishFault, if_pos hgoing.2]
    exact hcode
  rw [← hrun]
  exact .finishing hpre hclock hfault .publishNotifyFirst

/-- **What the worker does, the sequential model explains.** -/
theorem Explained.step (h : Explained c₀ b₀ pc c) (h₀ : c₀.Going)
    (halone : Alone ⟨pc, c, wire⟩ ⟨pc₁, c₁, wire₁⟩) : Explained c₀ b₀ pc₁ c₁ := by
  cases h with
  | loop hpre =>
    have hgoing := hpre.going h₀
    obtain ⟨choice, hown, hstep⟩ := halone.action rfl
    cases hstep
    rw [if_neg (by rw [hgoing.not_over]; exact Bool.false_ne_true)]
    exact .opening hpre .connecting
  | opening hpre hopening =>
    rcases hopening.step (hpre.going h₀) halone with hnext | harrives
    · exact .opening hpre hnext
    · exact .opened hpre (hpre.going h₀) harrives
  | @passing _ c₂ _ _ _ input s₀ s hpre hclock hopen haccepts hpassing =>
    have hgoing := hpre.going h₀
    have hstop : s.impl.stopping = false := by
      have hsame := SameControl.openSession c₂ input
      rw [hopen] at hsame
      exact ((SameControl.accepts haccepts).stopping.trans hsame.stopping).trans hgoing.1
    rcases hpassing.step hstop halone with
      hnext | harrives
    · exact .passing hpre hclock hopen haccepts hnext
    · exact .passed hpre hgoing hclock hopen haccepts harrives
  | closing hpre hclock hsession hresult hclosing =>
    have hgoing := hpre.going h₀
    rcases hclosing.step (hgoing.receiveSession hsession) hresult halone with hnext | hafter
    · exact .closing hpre hclock hsession hresult hnext
    · exact .closed hpre hgoing hclock hsession hresult hafter
  | raised hpre hclock hgoing hrun =>
    obtain ⟨choice, hown, hstep⟩ := halone.action rfl
    cases hstep
    rw [hgoing.1, if_neg Bool.false_ne_true]
    exact .publish hpre hclock hgoing (by simp) hrun
  | publish hpre hclock hgoing hcode hrun =>
    obtain ⟨choice, hown, hstep⟩ := halone.action rfl
    cases hstep
    exact .published hpre hclock hgoing hcode hrun
  | finishing hpre hclock hfault hfinishing =>
    exact .finishing hpre hclock hfault (hfinishing.step hfault halone)

theorem Explained.run {x y : Alone.State} (h : ReflTransGen Alone x y) (h₀ : c₀.Going)
    (hx : Explained c₀ b₀ x.pc x.impl) : Explained c₀ b₀ y.pc y.impl := by
  induction h with
  | refl => exact hx
  | tail _ hstep ih => exact ih.step h₀ hstep

end

/-! ## The two models -/

/-- What the sequential model says of the control points that it has too: a run that begins in `c₀`
comes to `pc` with `c`. -/
inductive Sequential (c₀ : Impl) (b₀ : Seconds) : RunPc → Impl → Prop
  | loop {pre : List SessionInput} {c : Impl} {b : Seconds} : Sessions c₀ b₀ pre c b →
      Sequential c₀ b₀ (.loop b) c
  | check {pre : List SessionInput} {c : Impl} {b : Seconds} {input : SessionInput}
      {s₀ s : LoopState} : Sessions c₀ b₀ pre c b → input.Clocked → c.openSession input = .next s₀ →
      Accepts s₀ input.passes s →
      Sequential c₀ b₀ (.check ⟨b, s.deadline, s.receivedValidRecord⟩) s.impl
  | close {pre : List SessionInput} {c c' : Impl} {b : Seconds} {input : SessionInput}
      {outcome : SessionOutcome} : Sessions c₀ b₀ pre c b → input.Clocked →
      c.receiveSession input = (c', .ok outcome) → outcome.result ≠ .Stopped →
      Sequential c₀ b₀ (.close b outcome) c'
  | ended {inputs : List SessionInput} : (∀ input ∈ inputs, input.Clocked) →
      (c₀.runLoop b₀ inputs).1.faultLatch ≠ .None →
      Sequential c₀ b₀ .ended (c₀.runLoop b₀ inputs).1.finishSession

/-- The control points that both models have: before a session, before a pass, after a session, and the
end. -/
def RunPc.Common : RunPc → Prop
  | .loop _ | .check _ | .close _ _ | .ended => True
  | _ => False

section

variable {c₀ c : Impl} {b₀ b : Seconds} {pc : RunPc}

theorem Sessions.clocked {pre : List SessionInput} (h : Sessions c₀ b₀ pre c b) :
    ∀ input ∈ pre, input.Clocked := by
  induction h with
  | nil => simp
  | snoc _ _ hclock _ _ _ _ ih =>
    intro input hmem
    rcases List.mem_append.mp hmem with hmem | hmem
    · exact ih input hmem
    · rwa [List.mem_singleton.mp hmem]

theorem Explained.sequential (h : Explained c₀ b₀ pc c) (hcommon : pc.Common) :
    Sequential c₀ b₀ pc c := by
  cases h with
  | loop hpre => exact .loop hpre
  | opening _ hopening => cases hopening <;> cases hcommon
  | passing hpre hclock hopen haccepts hpassing =>
    cases hpassing with
    | check => exact .check hpre hclock hopen haccepts
    | _ => cases hcommon
  | closing hpre hclock hsession hresult hclosing =>
    cases hclosing with
    | close => exact .close hpre hclock hsession hresult
    | _ => cases hcommon
  | raised => cases hcommon
  | publish => cases hcommon
  | @finishing pre c₁ _ b _ input hpre hclock hfault hfinishing =>
    cases hfinishing with
    | ended =>
      rw [← finishSession_of_fault hfault, ← hpre.runLoop [input]]
      rw [← hpre.runLoop [input]] at hfault
      refine .ended (fun i hi => ?_) hfault
      rcases List.mem_append.mp hi with hi | hi
      · exact hpre.clocked i hi
      · rwa [List.mem_singleton.mp hi]
    | _ => cases hcommon

/-- Where a run ends with a fault: its sessions before the last, and the last. -/
theorem exists_lastSession {inputs : List SessionInput} (h₀ : c₀.Going)
    (hclock : ∀ input ∈ inputs, input.Clocked) (hfault : (c₀.runLoop b₀ inputs).1.faultLatch ≠ .None) :
    ∃ pre c b input, Sessions c₀ b₀ pre c b ∧ input.Clocked ∧
      (c.runLoop b [input]).1 = (c₀.runLoop b₀ inputs).1 := by
  suffices h : ∀ rest pre c b, Sessions c₀ b₀ pre c b → (∀ input ∈ rest, input.Clocked) →
      (c.runLoop b rest).1.faultLatch ≠ .None →
      ∃ pre' c' b' input, Sessions c₀ b₀ pre' c' b' ∧ input.Clocked ∧
        (c'.runLoop b' [input]).1 = (c.runLoop b rest).1 from h inputs [] c₀ b₀ .nil hclock hfault
  intro rest
  induction rest with
  | nil =>
    intro pre c b hpre _ hnone
    exact absurd (hpre.going h₀).2 hnone
  | cons input rest ih =>
    intro pre c b hpre hclock hfault
    have hgoing := hpre.going h₀
    have hinput := hclock input List.mem_cons_self
    cases hsession : c.receiveSession input with
    | mk c' ended =>
      cases ended with
      | error what =>
        refine ⟨pre, c, b, input, hpre, hinput, ?_⟩
        rw [runLoop_raised hgoing hsession, runLoop_raised hgoing hsession]
      | ok outcome =>
        by_cases hresult : outcome.result = .Stopped
        · -- a session that was stopped is the last, with or without more inputs
          refine ⟨pre, c, b, input, hpre, hinput, ?_⟩
          rw [Impl.runLoop, Impl.runLoop, hgoing.not_over]
          simp only [Bool.false_eq_true, if_false, hsession, SessionOutcome.withMessage_result, hresult,
            ne_eq, not_true_eq_false, false_and, true_or, if_true]
        rw [runLoop_session hgoing hsession hresult] at hfault ⊢
        by_cases hpolicy : c'.config.recoveryPolicy = .FailStop
        · refine ⟨pre, c, b, input, hpre, hinput, ?_⟩
          rw [runLoop_session hgoing hsession hresult, if_pos hpolicy, if_pos hpolicy]
        rw [if_neg hpolicy] at hfault ⊢
        cases hlimit : checkedDeadline input.backoffAt (outcome.delay c' b) with
        | error what =>
          refine ⟨pre, c, b, input, hpre, hinput, ?_⟩
          rw [runLoop_session hgoing hsession hresult, if_neg hpolicy, hlimit]
        | ok limit =>
          rw [hlimit] at hfault
          exact ih _ _ _ (.snoc hpre hgoing hinput hsession hresult hpolicy hlimit)
            (fun i hi => hclock i (List.mem_cons_of_mem input hi)) hfault

theorem Sequential.comes (h : Sequential c₀ b₀ pc c) (h₀ : c₀.Going) : Comes (.loop b₀) c₀ pc c := by
  cases h with
  | loop hpre => exact comes_sessions hpre
  | check hpre hclock hopen haccepts =>
    exact (comes_sessions hpre).trans
      (comes_open (hpre.going h₀) hclock.openedAt hclock.passes hopen haccepts).2
  | close hpre hclock hsession hresult =>
    refine (comes_sessions hpre).trans (comes_receiveSession (hpre.going h₀) hclock hsession ?_)
    rintro _ ⟨⟩
    exact hresult
  | ended hclock hfault =>
    obtain ⟨pre, c, b, input, hpre, hinput, hrun⟩ := exists_lastSession h₀ hclock hfault
    rw [← hrun] at hfault ⊢
    exact ((comes_sessions hpre).trans (comes_lastSession (hpre.going h₀) hinput hfault)).trans
      (comes_finish hfault)

end

section

variable {config : Config} {s s' : System} {w : Tid} {pc : RunPc} {b₀ : Seconds}

/-- A run in which the worker alone moves, seen as moves of the worker. -/
theorem alone_of_runs {is : List Input} (h : Runs (restrict Step fun _ i => OwnInput w i) s is s')
    (hreach : s.Reachable config) (hpc : (s.threads w).pc = .run pc) :
    ∃ pc', (s'.threads w).pc = .run pc' ∧ ReflTransGen Alone (s.worker pc) (s'.worker pc') := by
  induction h generalizing pc with
  | nil s => exact ⟨pc, hpc, .refl⟩
  | cons hstep _ ih =>
    obtain ⟨pc₁, hpc₁, hfirst⟩ := alone_of_step hreach.consistent hstep.2 hstep.1 hpc
    obtain ⟨pc', hpc', hrest⟩ := ih (Library.Reachable.snoc hreach hstep.2) hpc₁
    exact ⟨pc', hpc', hfirst.trans hrest⟩

/-- Moves of the worker, as a run in which it alone moves. -/
theorem runs_of_alone {x : Alone.State} (h : ReflTransGen Alone (s.worker pc) x)
    (hsolo : Program.Solo s w) (hpc : (s.threads w).pc = .run pc) :
    ∃ is s', Runs (restrict Step fun _ i => OwnInput w i) s is s' ∧ Program.Solo s' w ∧
      (s'.threads w).pc = .run x.pc ∧ s'.worker x.pc = x := by
  induction h with
  | refl => exact ⟨[], s, .nil s, hsolo, hpc, rfl⟩
  | tail _ hstep ih =>
    obtain ⟨is, s₁, hruns, hsolo₁, hpc₁, hworker⟩ := ih
    rw [← hworker] at hstep
    obtain ⟨js, s', hruns', hsolo', hpc', hworker'⟩ := hstep.exists_runs hsolo₁ hpc₁
    exact ⟨is ++ js, s', hruns.append hruns', hsolo', hpc', hworker'⟩

/-- **The worker that nobody interrupts runs the sequential model.**  From the head of `run`, with no stop
request, no fault and no mutex in other hands, the runs in which it alone moves bring it before a session,
before a pass, after a session or to its end with exactly the states that `runLoop` and
`receiveSession` pass through. -/
theorem worker_refines_session (hreach : s.Reachable config) (hsolo : Program.Solo s w)
    (hpc : (s.threads w).pc = .run (.loop b₀)) (hgoing : s.shared.impl.Going) (hcommon : pc.Common)
    (c : Impl) :
    (∃ is s', Runs (restrict Step fun _ i => OwnInput w i) s is s' ∧ (s'.threads w).pc = .run pc ∧
      s'.shared.impl = c) ↔ Sequential s.shared.impl b₀ pc c := by
  constructor
  · rintro ⟨is, s', hruns, hpc', rfl⟩
    obtain ⟨pc', hpc'', halone⟩ := alone_of_runs hruns hreach hpc
    have hexplained : Explained s.shared.impl b₀ pc' s'.shared.impl :=
      Explained.run halone hgoing (.loop .nil)
    rw [hpc''] at hpc'
    cases hpc'
    exact hexplained.sequential hcommon
  · intro h
    obtain ⟨wire', halone⟩ := h.comes hgoing s.shared.sessions
    obtain ⟨is, s', hruns, -, hpc', hworker⟩ := runs_of_alone halone hsolo hpc
    exact ⟨is, s', hruns, hpc', congrArg Alone.State.impl hworker⟩

end

theorem worker_refines_session_discoveryFails : ∃ (s : System) (is : List Input) (s' : System),
    s.Reachable failStopConfig ∧ Runs (restrict Step fun _ i => OwnInput 2 i) s is s' ∧
      (s'.threads 2).pc = .run .ended ∧ s'.shared.impl.faultLatch = .SensorConfiguration := by
  let input : SessionInput :=
    { discovery := .error "no route to host", openedAt := 1, passes := [], backoffAt := 1 }
  have hrun : ((Library.execute program.next (System.init failStopConfig) startRun).map fun s =>
      decide ((s.threads 2).pc = .run (.loop failStopConfig.reconnectInitialDelay) ∧
        (s.threads 2).mode = .running ∧
        (∀ m ∈ [Mutex.lifecycle, .command, .record, .data], s.owner m = none) ∧
        s.shared.impl.stopping = false ∧ s.shared.impl.faultLatch = .None ∧
        (s.shared.impl.runLoop failStopConfig.reconnectInitialDelay [input]).1.finishSession.faultLatch =
          .SensorConfiguration)) = some true := by
    decide +kernel
  obtain ⟨s, hruns, hs⟩ := Library.exists_runs_of_execute hrun
  obtain ⟨hpc, hmode, hfree, hstop, hlatch, hfault⟩ := of_decide_eq_true hs
  have hreach : System.Reachable failStopConfig s := ⟨_, hruns⟩
  have hsolo : Program.Solo s 2 := ⟨hmode, fun m => .inl (hfree m (by cases m <;> simp))⟩
  have hclock : input.Clocked := ⟨one_pos, by simp [input], one_pos⟩
  have hclocks : ∀ i ∈ [input], i.Clocked := by simpa using hclock
  have hcommon : RunPc.ended.Common := trivial
  obtain ⟨is, s', hown, hended, himpl⟩ :=
    (worker_refines_session hreach hsolo hpc ⟨hstop, hlatch⟩ hcommon _).mpr
      (Sequential.ended hclocks (by
        rw [← Impl.finishSession_faultLatch, hfault]
        simp))
  exact ⟨s, is, s', hreach, hown, hended, himpl ▸ hfault⟩

end NetFT.Client
