/-
# NetFT.Client.Timeout — when a session may end with Timeout.

The loop keeps `deadline = last well-formed record + receive_timeout` (`InSession.deadline`), so a
Timeout decided at the deadline check is sound.  A Timeout decided because `receive` returned zero
bytes is sound only if the zero came from the deadline: an empty datagram and an interrupted `recv`
return zero as well, a wait of more than `maxInt` milliseconds is clipped, and after an interrupted
`poll` the deadline of the call counts, which rounding may have put before the session's.

* `TimeoutsSound` is what a session should keep, `early_not_timeoutsSound` has two that do not.
* **`timeoutsSound_iff_undisturbed`**: the sessions that keep it are those without such a pass.
-/
import NetFT.Client.Session

namespace NetFT.Client

/-! ## The datagrams of a session -/

/-- The datagram that `recv` reads in a pass. -/
def Pass.datagram (p : Pass) : Option (List UInt8) :=
  match p.reception.outcome with
  | .ready (.received data) => some data
  | _ => none

theorem outcome_of_datagram {p : Pass} {data : List UInt8} (h : p.datagram = some data) :
    p.reception.outcome = .ready (.received data) := by
  unfold Pass.datagram at h
  split at h
  · rename_i data' hout
    simp only [Option.some.injEq] at h
    rw [hout, h]
  · exact absurd h (by simp)

def Pass.wellFormed (p : Pass) : Bool := p.datagram.any fun data => (decodeRecord data).isOk

/-- The later of the start of the session and the arrival of its last well-formed record. -/
def lastArrival (openedAt : TimePoint) (ps : List Pass) : TimePoint :=
  ps.foldl (fun last p => if p.wellFormed then p.receivedAt else last) openedAt

/-- When a pass that times out does so: at its deadline check, or when `receive` returns. -/
def Pass.endedAt (deadline : TimePoint) (p : Pass) : TimePoint :=
  if deadline ≤ p.now then p.now else p.reception.returnedAt

/-- What clock and kernel promise in every pass of the session: time does not run backward, and a
poll expires only after its timeout. -/
def Promises (c : Impl) (input : SessionInput) : Prop :=
  ∀ pre s p, InSession c input pre s p →
    p.now ≤ p.reception.startedAt ∧ p.reception.PollSound (s.deadline - p.now)

def LoopResult.timedOut : LoopResult → Prop
  | .ended _ outcome => outcome.result = .Timeout
  | _ => False

/-- **Timeouts are sound** in a session: a pass that ends it with Timeout, or counts one, does so at
least `receive_timeout` after the last well-formed record or the start; a datagram never ends it with
Timeout, and one of the wrong length is counted as malformed. -/
structure TimeoutsSound (c : Impl) (input : SessionInput) : Prop where
  silence : ∀ pre s p, InSession c input pre s p →
    ((loopStep s p).timedOut ∨
      (loopStep s p).impl.health.timeoutCount ≠ s.impl.health.timeoutCount) →
    ∃ ticks, checkedDuration c.config.receiveTimeout = .ok ticks ∧
      lastArrival input.openedAt pre + ticks ≤ p.endedAt s.deadline
  datagram : ∀ pre s p data, InSession c input pre s p → p.now < s.deadline →
    p.reception.InTime (s.deadline - p.now) → p.datagram = some data →
    ¬ (loopStep s p).timedOut ∧
      (data.length ≠ 36 →
        (loopStep s p).impl.health.malformedCount = s.impl.health.malformedCount + 1)
  session : ∀ c' outcome, c.receiveSession input = (c', outcome) →
    ((∃ o, outcome = .ok o ∧ o.result = .Timeout) ∨
      c'.health.timeoutCount ≠ c.health.timeoutCount) →
    ∃ pre s p, InSession c input pre s p ∧ (loopStep s p).timedOut

/-! ## One pass -/

variable {s s' : LoopState} {p : Pass}

/-- A pass that continues received a datagram; a well-formed one moves the deadline. -/
theorem loopStep_next (h : loopStep s p = .next s') :
    s'.impl.config = s.impl.config ∧
      s'.impl.health.timeoutCount = s.impl.health.timeoutCount ∧
      ∀ ticks, checkedDuration s.impl.config.receiveTimeout = .ok ticks →
        s'.deadline = if p.wellFormed then p.receivedAt + ticks else s.deadline := by
  simp only [loopStep] at h
  split_ifs at h with hnow
  split at h
  · exact absurd h (by simp)
  · exact absurd h (by simp)
  rename_i data hne hreceive
  have hdatagram : p.datagram = some data := by
    simp only [Pass.datagram, receive_eq_ok hreceive hne]
  simp only [datagramStep] at h
  split at h
  · rename_i what hdecode
    have hbad : p.wellFormed = false := by
      simp [Pass.wellFormed, hdatagram, hdecode, Except.isOk, Except.toBool]
    split_ifs at h
    simp only [LoopResult.next.injEq] at h
    subst h
    exact ⟨rfl, rfl, fun ticks _ => by simp [hbad]⟩
  · rename_i record hdecode
    have hgood : p.wellFormed = true := by
      simp [Pass.wellFormed, hdatagram, hdecode, Except.isOk, Except.toBool]
    split at h
    · exact absurd h (by simp)
    rename_i deadline hdeadline
    have hsame := s.impl.clearMalformed.handleRecord_sameSession record p.receivedAt p.result
    have hconfig := s.impl.clearMalformed.handleRecord_config record p.receivedAt p.result
    split at h
    · exact absurd h (by simp)
    · exact absurd h (by simp)
    rename_i c hhandle
    rw [hhandle] at hsame hconfig
    simp only [LoopResult.next.injEq] at h
    subst h
    refine ⟨hconfig, hsame.timeoutCount, fun ticks hticks => ?_⟩
    obtain ⟨ticks', hticks', hsum⟩ := checkedDeadline_eq hdeadline
    rw [show s.impl.clearMalformed.config = s.impl.config from rfl, hticks] at hticks'
    cases hticks'
    simpa [hgood] using hsum

/-- A pass that counts a timeout ends the session with Timeout. -/
theorem loopStep_timeoutCount
    (h : (loopStep s p).impl.health.timeoutCount ≠ s.impl.health.timeoutCount) :
    (loopStep s p).timedOut := by
  revert h
  simp only [loopStep]
  split_ifs with hnow
  · exact fun _ => rfl
  split
  · exact fun h => absurd rfl h
  · exact fun _ => rfl
  rename_i data _ _
  simp only [datagramStep]
  split
  · split_ifs
    · exact fun h => absurd rfl h
    · exact fun h => absurd rfl h
  · rename_i record _
    split
    · exact fun h => absurd rfl h
    have hsame := s.impl.clearMalformed.handleRecord_sameSession record p.receivedAt p.result
    split <;> rename_i hhandle <;> rw [hhandle] at hsame <;>
      exact fun h => absurd hsame.timeoutCount h

/-! ## The deadline along a session -/

theorem Accepts.deadline {ps : List Pass} (h : Accepts s ps s') {ticks : Ticks} {last : TimePoint}
    (hticks : checkedDuration s.impl.config.receiveTimeout = .ok ticks)
    (hdeadline : s.deadline = last + ticks) :
    s'.impl.config = s.impl.config ∧ s'.deadline = lastArrival last ps + ticks := by
  induction h generalizing last with
  | nil s => exact ⟨rfl, hdeadline⟩
  | @cons s s₁ s' p ps hstep _ ih =>
    obtain ⟨hconfig, -, hnext⟩ := loopStep_next hstep
    have hnext := hnext ticks hticks
    obtain ⟨hconfig', hlast⟩ :=
      @ih (if p.wellFormed then p.receivedAt else last) (by rw [hconfig, hticks])
        (by rw [hnext]; split_ifs <;> simp [hdeadline])
    exact ⟨hconfig'.trans hconfig, hlast⟩

theorem Accepts.timeoutCount {ps : List Pass} (h : Accepts s ps s') :
    s'.impl.health.timeoutCount = s.impl.health.timeoutCount := by
  induction h with
  | nil s => rfl
  | cons hstep _ ih => exact ih.trans (loopStep_next hstep).2.1

/-- Opening a session counts no timeout and does not end with one; its loop starts with
`receive_timeout` to go. -/
theorem openSession_spec (c : Impl) (input : SessionInput) :
    (c.openSession input).impl.health.timeoutCount = c.health.timeoutCount ∧
      ¬ (c.openSession input).timedOut ∧
      ∀ s, c.openSession input = .next s → s.impl.config = c.config ∧
        ∃ ticks, checkedDuration c.config.receiveTimeout = .ok ticks ∧
          s.deadline = input.openedAt + ticks := by
  simp only [Impl.openSession]
  split_ifs
  · simp [LoopResult.impl, LoopResult.timedOut, Impl.setState]
  split
  · simp [LoopResult.impl, LoopResult.timedOut, Impl.setState]
  rename_i configuration _
  obtain ⟨_, _, happly⟩ := (c.setState .Connecting).applyConfiguration_frame configuration
  rw [happly]
  split
  · exact ⟨rfl, by simp [LoopResult.timedOut], by simp⟩
  split
  · exact ⟨rfl, by simp [LoopResult.timedOut], by simp⟩
  split
  · exact ⟨rfl, by simp [LoopResult.timedOut], by simp⟩
  rename_i deadline hdeadline
  refine ⟨rfl, by simp [LoopResult.timedOut], ?_⟩
  simp only [LoopResult.next.injEq]
  rintro s rfl
  exact ⟨rfl, checkedDeadline_eq hdeadline⟩

/-- At every pass of a session the deadline is `receive_timeout` after the last arrival. -/
theorem InSession.deadline {c : Impl} {input : SessionInput} {pre : List Pass}
    (h : InSession c input pre s p) :
    ∃ ticks, checkedDuration c.config.receiveTimeout = .ok ticks ∧
      s.deadline = lastArrival input.openedAt pre + ticks := by
  obtain ⟨s₀, hopen, hacc⟩ := h.reached
  obtain ⟨hconfig, ticks, hticks, hdeadline⟩ := (openSession_spec c input).2.2 s₀ hopen
  exact ⟨ticks, hticks, (hacc.deadline (by rw [hconfig, hticks]) hdeadline).2⟩

/-! ## When a session keeps its timeouts sound -/

/-- A pass whose receive does not come back early with nothing: no empty datagram, and before the deadline
neither an interrupted `recv`, nor a `poll` that was given too little, nor an interrupted one past the
deadline of the call. -/
structure Pass.Undisturbed (deadline : TimePoint) (p : Pass) : Prop where
  datagram : p.reception.InTime (deadline - p.now) → p.reception.outcome ≠ .ready (.received [])
  recv : p.reception.InTime (deadline - p.now) → p.reception.outcome = .ready .interrupted →
    deadline ≤ p.reception.returnedAt
  poll : p.reception.InTime (deadline - p.now) → p.reception.outcome = .expired →
    p.reception.Clipped (deadline - p.now) ∨ p.reception.Shortened (deadline - p.now) →
    deadline ≤ p.reception.returnedAt
  interrupt : p.reception.Late (deadline - p.now) → deadline ≤ p.reception.returnedAt

/-- Every receive of the session is undisturbed. -/
def Undisturbed (c : Impl) (input : SessionInput) : Prop :=
  ∀ pre s p, InSession c input pre s p → p.now < s.deadline → p.Undisturbed s.deadline

/-- A pass times out at its deadline check, or because `receive` returned nothing. -/
theorem loopStep_timedOut_iff : (loopStep s p).timedOut ↔
    s.deadline ≤ p.now ∨
      receive (Ticks.toSeconds (s.deadline - p.now)) p.reception = .ok [] := by
  simp only [loopStep]
  split_ifs with hnow
  · simp [hnow, LoopResult.timedOut]
  split
  · rename_i hreceive
    simp [hnow, hreceive, LoopResult.timedOut]
  · rename_i hreceive
    simp [hreceive, LoopResult.timedOut]
  rename_i data hne hreceive
  have hne : data ≠ [] := hne
  simp only [hnow, hreceive, false_or, Except.ok.injEq, hne, iff_false, datagramStep]
  split
  · split_ifs <;> simp [LoopResult.timedOut]
  split
  · simp [LoopResult.timedOut]
  rename_i record _ _ _ _
  split
  · simp [LoopResult.timedOut]
  · rename_i hhandle
    have hmem := Impl.handleRecord_outcome_mem hhandle
    simp only [LoopResult.timedOut]
    rintro rfl
    exact absurd hmem (by decide)
  · simp [LoopResult.timedOut]

/-- A datagram that `receive` returns never times a session out, and one of the wrong length is
counted, unless it is empty. -/
theorem loopStep_datagram {data : List UInt8} (hnow : p.now < s.deadline)
    (hreceive : receive (Ticks.toSeconds (s.deadline - p.now)) p.reception = .ok data)
    (hdata : data ≠ []) :
    ¬ (loopStep s p).timedOut ∧
      (data.length ≠ 36 →
        (loopStep s p).impl.health.malformedCount = s.impl.health.malformedCount + 1) := by
  refine ⟨fun h => ?_, fun hlength => ?_⟩
  · rcases loopStep_timedOut_iff.mp h with hlate | hnil
    · exact absurd hlate (not_le.mpr hnow)
    · rw [hreceive, Except.ok.injEq] at hnil
      exact hdata hnil
  · have hdecode : ∃ what, decodeRecord data = .error what := ⟨_, by rw [decodeRecord, if_pos hlength]⟩
    obtain ⟨what, hdecode⟩ := hdecode
    simp only [loopStep, if_neg (not_le.mpr hnow), hreceive, datagramStep, hdecode]
    split_ifs <;> rfl

/-- A session that times out, or counts a timeout, does so in one of its passes. -/
theorem receiveSession_timedOut {c c' : Impl} {input : SessionInput}
    {outcome : Except String SessionOutcome} (h : c.receiveSession input = (c', outcome))
    (htimeout : (∃ o, outcome = .ok o ∧ o.result = .Timeout) ∨
      c'.health.timeoutCount ≠ c.health.timeoutCount) :
    ∃ pre s p, InSession c input pre s p ∧ (loopStep s p).timedOut := by
  obtain ⟨hcount, hnot, -⟩ := openSession_spec c input
  unfold Impl.receiveSession at h
  cases hopen : c.openSession input with
  | ended c₁ o =>
    rw [hopen] at hcount hnot
    simp only [hopen, Prod.mk.injEq] at h
    obtain ⟨rfl, rfl⟩ := h
    rcases htimeout with ⟨o', ho', hresult⟩ | hne
    · cases ho'
      exact absurd hresult hnot
    · exact absurd hcount hne
  | raised c₁ what =>
    rw [hopen] at hcount
    simp only [hopen, Prod.mk.injEq] at h
    obtain ⟨rfl, rfl⟩ := h
    rcases htimeout with ⟨o', ho', -⟩ | hne
    · cases ho'
    · exact absurd hcount hne
  | next s₀ =>
    rw [hopen] at hcount
    simp only [hopen] at h
    rcases receiveLoop_cases h with ⟨s, hacc, rfl, rfl⟩ | ⟨pre, p, rest, s, hpasses, hacc, hlast⟩
    · rcases htimeout with ⟨o', ho', hresult⟩ | hne
      · cases ho'
        cases hresult
      · exact absurd (hacc.timeoutCount.trans hcount) hne
    · refine ⟨pre, s, p, ⟨⟨rest, hpasses⟩, s₀, hopen, hacc⟩, ?_⟩
      rcases htimeout with ⟨o', ho', hresult⟩ | hne
      · rcases hlast with ⟨o, rfl, hstep⟩ | ⟨what, rfl, -⟩
        · cases ho'
          rw [hstep]
          exact hresult
        · cases ho'
      · apply loopStep_timeoutCount
        have himpl : (loopStep s p).impl = c' := by
          rcases hlast with ⟨_, -, hstep⟩ | ⟨_, -, hstep⟩ <;> rw [hstep] <;> rfl
        rw [himpl, hacc.timeoutCount]
        exact fun heq => hne (heq.trans hcount)

/-- A pass that times out although its receive is undisturbed does so at the deadline. -/
theorem endedAt_of_timedOut (htimeout : (loopStep s p).timedOut)
    (hclock : p.now ≤ p.reception.startedAt) (hpoll : p.reception.PollSound (s.deadline - p.now))
    (hundisturbed : p.now < s.deadline → p.Undisturbed s.deadline) :
    s.deadline ≤ p.endedAt s.deadline := by
  unfold Pass.endedAt
  split_ifs with hnow
  · exact hnow
  have hgood := hundisturbed (not_le.mp hnow)
  have hnil := (loopStep_timedOut_iff.mp htimeout).resolve_left hnow
  rcases receive_nil_cases hnil (by linarith) hpoll with hlate | hpast | ⟨hintime, hcases⟩
  · linarith
  · exact hgood.interrupt hpast
  · rcases hcases with hempty | hintr | ⟨hexp, hless⟩
    · exact absurd hempty (hgood.datagram hintime)
    · exact hgood.recv hintime hintr
    · exact hgood.poll hintime hexp hless

/-- **A session keeps its timeouts sound exactly when no receive comes back early with nothing.** -/
theorem timeoutsSound_iff_undisturbed {c : Impl} {input : SessionInput}
    (hpromises : Promises c input) : TimeoutsSound c input ↔ Undisturbed c input := by
  constructor
  · intro hsound pre s p hin hnow
    -- a receive that returns nothing times the pass out, so the pass must end at the deadline
    have hended : receive (Ticks.toSeconds (s.deadline - p.now)) p.reception = .ok [] →
        s.deadline ≤ p.reception.returnedAt := by
      intro hnil
      obtain ⟨ticks, hticks, hdeadline⟩ := hin.deadline
      obtain ⟨ticks', hticks', hend⟩ := hsound.silence pre s p hin (.inl (loopStep_timedOut_iff.mpr (.inr hnil)))
      rw [hticks, Except.ok.injEq] at hticks'
      subst hticks'
      rw [← hdeadline] at hend
      simpa [Pass.endedAt, not_le.mpr hnow] using hend
    refine ⟨fun hintime hempty => ?_, fun hintime hintr => ?_, fun hintime hexp _ => ?_, fun hlate => ?_⟩
    · have hdatagram : p.datagram = some [] := by rw [Pass.datagram, hempty]
      exact (hsound.datagram pre s p [] hin hnow hintime hdatagram).1
        (loopStep_timedOut_iff.mpr (.inr (by rw [receive_inTime hintime, hempty]; rfl)))
    · exact hended (by rw [receive_inTime hintime, hintr]; rfl)
    · exact hended (by rw [receive_inTime hintime, hexp]; rfl)
    · exact hended (receive_late hlate)
  · intro hundisturbed
    refine ⟨fun pre s p hin hcount => ?_, fun pre s p data hin hnow hintime hdatagram => ?_,
      fun c' outcome h htimeout => receiveSession_timedOut h htimeout⟩
    · have htimeout : (loopStep s p).timedOut := hcount.elim id loopStep_timeoutCount
      obtain ⟨ticks, hticks, hdeadline⟩ := hin.deadline
      obtain ⟨hclock, hpoll⟩ := hpromises pre s p hin
      refine ⟨ticks, hticks, ?_⟩
      rw [← hdeadline]
      exact endedAt_of_timedOut htimeout hclock hpoll (hundisturbed pre s p hin)
    · have hout := outcome_of_datagram hdatagram
      refine loopStep_datagram hnow (by rw [receive_inTime hintime, hout]; rfl) ?_
      rintro rfl
      exact (hundisturbed pre s p hin hnow).datagram hintime hout

/-! ## A session that ends early -/

/-- An empty datagram arrives 1 µs into a session that may wait 100 ms. -/
def emptyDatagramInput : SessionInput :=
  { discovery := .error ""
    openedAt := 1000
    passes :=
      [{ now := 1000
         reception := { startedAt := 1000, outcome := .ready (.received []), returnedAt := 2000 }
         receivedAt := 2000 }] }

def overriddenClient : Impl :=
  Impl.init { calibrationOverride := some ⟨1000000, 1000000, .Newton, .NewtonMeter⟩ }

/-- A session of one pass, which times out early although its poll did not expire. -/
theorem not_timeoutsSound_of_single {c : Impl} {input : SessionInput} {p : Pass} {o : SessionOutcome}
    (ticks : Ticks) (hpasses : input.passes = [p]) (hrun : (c.receiveSession input).2 = .ok o)
    (hresult : o.result = .Timeout) (hticks : checkedDuration c.config.receiveTimeout = .ok ticks)
    (hclock : p.now ≤ p.reception.startedAt) (hanswered : p.reception.outcome ≠ .expired)
    (hnow : p.now < input.openedAt + ticks)
    (hearly : p.reception.returnedAt < input.openedAt + ticks) :
    Promises c input ∧ ¬ TimeoutsSound c input := by
  constructor
  · intro pre s q hin
    obtain ⟨rfl, rfl⟩ := hin.of_single hpasses
    exact ⟨hclock, fun hexpired => absurd hexpired hanswered⟩
  · intro hsound
    obtain ⟨pre, s, q, hin, htimedOut⟩ :=
      hsound.session (c.receiveSession input).1 (.ok o) (Prod.ext rfl hrun) (.inl ⟨o, rfl, hresult⟩)
    obtain ⟨ticks₁, hticks₁, hsilence⟩ := hsound.silence pre s q hin (.inl htimedOut)
    obtain ⟨ticks₂, hticks₂, hdeadline⟩ := hin.deadline
    obtain ⟨rfl, rfl⟩ := hin.of_single hpasses
    rw [hticks, Except.ok.injEq] at hticks₁ hticks₂
    subst hticks₁ hticks₂
    rw [hdeadline, lastArrival, List.foldl_nil] at hsilence
    rw [Pass.endedAt, if_neg (not_le.mpr hnow)] at hsilence
    exact absurd hsilence (not_le.mpr hearly)

/-- A signal interrupts the `poll` a nanosecond before the 100 ms are over.  What was left at the check of the
deadline is 99999906 ns, and 99999905 ns once it has been through a double. -/
def earlyInterruptInput : SessionInput :=
  { discovery := .error ""
    openedAt := 1000
    passes :=
      [{ now := 1094
         reception :=
          { startedAt := 1094, interrupts := [100000999], outcome := .failed "", returnedAt := 100000999 }
         receivedAt := 0 }] }

theorem early_not_timeoutsSound :
    (Promises overriddenClient emptyDatagramInput ∧ ¬ TimeoutsSound overriddenClient emptyDatagramInput) ∧
      Promises overriddenClient earlyInterruptInput ∧ ¬ TimeoutsSound overriddenClient earlyInterruptInput := by
  constructor
  · exact not_timeoutsSound_of_single (o := { result := .Timeout }) 100000000 rfl (by decide +kernel) rfl
      (by decide +kernel) (by decide) (by decide) (by decide) (by decide)
  · exact not_timeoutsSound_of_single (o := { result := .Timeout }) 100000000 rfl (by decide +kernel) rfl
      (by decide +kernel) (by decide) (by decide) (by decide) (by decide)

/-- A silent sensor: the poll expires after the 100 ms it was given. -/
def silentSensorInput : SessionInput :=
  { discovery := .error ""
    openedAt := 1000
    passes :=
      [{ now := 1000
         reception := { startedAt := 1000, outcome := .expired, returnedAt := 100001000 }
         receivedAt := 0 }] }

theorem silentSensor_timeoutsSound :
    Promises overriddenClient silentSensorInput ∧
      TimeoutsSound overriddenClient silentSensorInput := by
  have hvalue : checkedDuration overriddenClient.config.receiveTimeout = .ok 100000000 := by
    decide +kernel
  have hin : ∀ pre s p, InSession overriddenClient silentSensorInput pre s p →
      p ∈ silentSensorInput.passes ∧ s.deadline = 100001000 := by
    intro pre s p hin
    obtain ⟨ticks, hticks, hdeadline⟩ := hin.deadline
    obtain ⟨rfl, rfl⟩ := hin.of_single rfl
    rw [hvalue, Except.ok.injEq] at hticks
    subst hticks
    exact ⟨List.mem_singleton.mpr rfl, hdeadline⟩
  have hpromises : Promises overriddenClient silentSensorInput := by
    intro pre s p h
    obtain ⟨hmem, hdeadline⟩ := hin pre s p h
    obtain rfl := List.mem_singleton.mp hmem
    rw [hdeadline]
    refine ⟨by decide, fun _ limit _ => ?_⟩
    show (1000 : Int) + timeoutMilliseconds (Ticks.toSeconds 100000000) * ticksPerMillisecond ≤ 100001000
    decide +kernel
  refine ⟨hpromises, (timeoutsSound_iff_undisturbed hpromises).mpr fun pre s p h _ => ?_⟩
  obtain ⟨hmem, hdeadline⟩ := hin pre s p h
  obtain rfl := List.mem_singleton.mp hmem
  rw [hdeadline]
  exact ⟨by simp, by simp, fun _ _ _ => by decide, fun _ => by decide⟩

end NetFT.Client
