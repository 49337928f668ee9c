/-
# NetFT.Ros.EventWindow — which evaluation reports an event.

An event is a counter that has grown.  The evaluator brings its counters up to date in every evaluation
but that of a snapshot with a fault, so what such a snapshot already showed is new once more to the
next one without a fault.

* `settled_of_quiet`: where no counter grows in a snapshot with a fault, the evaluator remembers the
  counters of the last snapshot.
* **`soundReports_iff`**: exactly then every report belongs to its own window, whatever comes next.
-/
import NetFT.Ros.Evaluator

namespace NetFT.Ros

set_option autoImplicit false

open Library

/-! ## Windows -/

instance : Preorder Counters where
  le a b := a.lost ≤ b.lost ∧ a.deviceError ≤ b.deviceError ∧ a.timeout ≤ b.timeout ∧
    a.malformed ≤ b.malformed ∧ a.ftStall ≤ b.ftStall ∧ a.ftBackward ≤ b.ftBackward ∧
    a.ftRestart ≤ b.ftRestart ∧ a.callbackError ≤ b.callbackError
  le_refl a := ⟨le_rfl, le_rfl, le_rfl, le_rfl, le_rfl, le_rfl, le_rfl, le_rfl⟩
  le_trans a b c h h' := ⟨h.1.trans h'.1, h.2.1.trans h'.2.1, h.2.2.1.trans h'.2.2.1,
    h.2.2.2.1.trans h'.2.2.2.1, h.2.2.2.2.1.trans h'.2.2.2.2.1, h.2.2.2.2.2.1.trans h'.2.2.2.2.2.1,
    h.2.2.2.2.2.2.1.trans h'.2.2.2.2.2.2.1, h.2.2.2.2.2.2.2.trans h'.2.2.2.2.2.2.2⟩

theorem Counters.zero_le (c : Counters) : ({} : Counters) ≤ c :=
  ⟨Nat.zero_le _, Nat.zero_le _, Nat.zero_le _, Nat.zero_le _, Nat.zero_le _, Nat.zero_le _,
    Nat.zero_le _, Nat.zero_le _⟩

/-- The counters of later snapshots are not smaller. -/
def NonDecreasing (history : List Snapshot) : Prop :=
  history.Pairwise fun earlier later => earlier.counters ≤ later.counters

/-- The counters of the last snapshot, zero if there is none. -/
def lastCounters (history : List Snapshot) : Counters :=
  match history.getLast? with
  | none => {}
  | some snapshot => snapshot.counters

/-- An event is reported only if its counter has grown since the last snapshot. -/
def SoundReport (rates : RateSettings) (history : List Snapshot) (snapshot : Snapshot) : Prop :=
  ∀ (event : Condition) least counter, event.counter = some (least, counter) →
    (nextReport rates history snapshot).logKey = event.logKey →
    counter (lastCounters history) + least ≤ counter snapshot.counters

/-- No counter grows in a snapshot with a fault. -/
def FaultsQuiet (history : List Snapshot) : Prop :=
  ∀ pre snapshot, pre ++ [snapshot] <+: history → snapshot.faulted = true →
    snapshot.counters = lastCounters pre

/-- The evaluator remembers the counters of the last snapshot. -/
def Settled (history : List Snapshot) : Prop := remembered history = lastCounters history

theorem lastCounters_concat (history : List Snapshot) (snapshot : Snapshot) :
    lastCounters (history ++ [snapshot]) = snapshot.counters := by
  unfold lastCounters
  rw [List.getLast?_concat]

section

variable {rates : RateSettings} {history pre : List Snapshot} {snapshot : Snapshot}

theorem NonDecreasing.of_prefix (h : NonDecreasing history) (hpre : pre <+: history) :
    NonDecreasing pre :=
  List.Pairwise.sublist hpre.sublist h

theorem NonDecreasing.lastCounters_le (h : NonDecreasing (history ++ [snapshot])) :
    lastCounters history ≤ snapshot.counters := by
  unfold lastCounters
  cases hlast : history.getLast? with
  | none => exact Counters.zero_le _
  | some earlier =>
    exact (List.pairwise_append.mp h).2.2 earlier (List.mem_of_getLast? hlast) snapshot
      List.mem_cons_self

/-- Every snapshot has at most the counters of the last one. -/
theorem NonDecreasing.le_lastCounters (h : NonDecreasing history) {earlier : Snapshot}
    (hmem : earlier ∈ history) : earlier.counters ≤ lastCounters history := by
  induction history using List.reverseRecOn with
  | nil => cases hmem
  | append_singleton history snapshot _ =>
    rw [lastCounters_concat]
    rcases List.mem_append.mp hmem with hmem | hmem
    · exact (List.pairwise_append.mp h).2.2 earlier hmem snapshot List.mem_cons_self
    · rw [List.mem_singleton.mp hmem]

theorem NonDecreasing.concat (h : NonDecreasing history)
    (hle : lastCounters history ≤ snapshot.counters) : NonDecreasing (history ++ [snapshot]) := by
  refine List.pairwise_append.mpr ⟨h, List.pairwise_singleton _ _, fun earlier hmem later hlater => ?_⟩
  rw [List.mem_singleton.mp hlater]
  exact (h.le_lastCounters hmem).trans hle

/-- The evaluator remembers no more than the last snapshot had. -/
theorem NonDecreasing.remembered_le (h : NonDecreasing history) :
    remembered history ≤ lastCounters history := by
  induction history using List.reverseRecOn with
  | nil => exact le_rfl
  | append_singleton history snapshot ih =>
    rw [remembered_concat, lastCounters_concat]
    split_ifs
    · exact (ih (h.of_prefix (List.prefix_append _ _))).trans h.lastCounters_le
    · exact le_rfl

theorem Settled.concat_of_not_faulted (h : snapshot.faulted = false) :
    Settled (history ++ [snapshot]) := by
  unfold Settled
  rw [remembered_concat, lastCounters_concat, h]
  rfl

theorem Settled.concat_faulted_iff (h : Settled history) (hfault : snapshot.faulted = true) :
    Settled (history ++ [snapshot]) ↔ snapshot.counters = lastCounters history := by
  unfold Settled
  rw [remembered_concat, lastCounters_concat, hfault, if_pos rfl, h, eq_comm]

theorem faultsQuiet_concat : FaultsQuiet (history ++ [snapshot]) ↔
    FaultsQuiet history ∧ (snapshot.faulted = true → snapshot.counters = lastCounters history) := by
  constructor
  · intro h
    exact ⟨fun pre s hpre => h pre s (hpre.trans (List.prefix_append _ _)),
      fun hfault => h history snapshot List.prefix_rfl hfault⟩
  · rintro ⟨h, hlast⟩ pre s hpre hfault
    rcases List.prefix_concat_iff.mp hpre with heq | hpre
    · obtain ⟨rfl, rfl⟩ := List.concat_inj.mp (by simpa using heq)
      exact hlast hfault
    · exact h pre s hpre hfault

theorem settled_of_quiet (h : FaultsQuiet history) : Settled history := by
  induction history using List.reverseRecOn with
  | nil => rfl
  | append_singleton history snapshot ih =>
    obtain ⟨hbefore, hlast⟩ := faultsQuiet_concat.mp h
    cases hfault : snapshot.faulted with
    | false => exact Settled.concat_of_not_faulted hfault
    | true => exact ((ih hbefore).concat_faulted_iff hfault).mpr (hlast hfault)

/-! ## Settled evaluators -/

theorem Condition.logKey_injective : Function.Injective Condition.logKey := by
  intro a b h
  revert h
  cases a <;> cases b <;> first
    | exact fun _ => rfl
    | exact fun h => absurd h (by decide)

theorem Condition.logKey_ne_healthy (c : Condition) : c.logKey ≠ "healthy" := by
  cases c <;> decide

/-- A report with the key of an event is that of the event. -/
theorem holds_of_logKey {event : Condition}
    (hkey : (nextReport rates history snapshot).logKey = event.logKey) :
    event.Holds rates (remembered history) snapshot := by
  rcases nextReport_reports rates history snapshot with ⟨-, hhealthy, -⟩ | ⟨c, hc, -, hkey', -⟩
  · exact absurd (hkey.symm.trans hhealthy) event.logKey_ne_healthy
  · rwa [← Condition.logKey_injective (hkey'.symm.trans hkey)]

theorem Settled.soundReport (h : Settled history) (rates : RateSettings) (snapshot : Snapshot) :
    SoundReport rates history snapshot := by
  intro event least counter hcounter hkey
  have hholds := holds_of_logKey hkey
  unfold Condition.Holds at hholds
  rw [hcounter, h] at hholds
  exact hholds.2

/-! ## What an unsettled evaluator reports -/

/-- A snapshot without a condition of its own. -/
def streamingSnapshot (counters : Counters) : Snapshot where
  health :=
    { state := .Streaming
      lostCount := counters.lost
      deviceErrorCount := counters.deviceError
      timeoutCount := counters.timeout
      malformedCount := counters.malformed
      ftStallCount := counters.ftStall
      ftBackwardCount := counters.ftBackward
      ftRestartCount := counters.ftRestart
      callbackErrorCount := counters.callbackError }
  receiveRateHz := .nan

/-- What is reported of it is an event. -/
theorem counter_of_holds {base counters : Counters} {c : Condition}
    (h : c.Holds rates base (streamingSnapshot counters)) :
    ∃ least counter, c.counter = some (least, counter) ∧ counter base + least ≤ counter counters := by
  cases c with
  | faulted => exact absurd h (by rintro (h | h) <;> simp [streamingSnapshot] at h)
  | backoff | stopped | deviceError | connecting | conditionLatch => cases h
  | receiveRate => exact absurd h (by rintro (h | h) <;> simp [streamingSnapshot] at h)
  | deviceErrorEvent | receiveTimeout | malformedStorm | ftStall | ftBackward | ftRestart | packetLoss
  | callbackError => exact ⟨_, _, rfl, h.2⟩

/-- A report of it that is not healthy names an event. -/
theorem event_of_streaming {counters : Counters} {event : Condition}
    (h : event.Holds rates (remembered history) (streamingSnapshot counters)) :
    ∃ (c : Condition) (least : Nat) (counter : Counters → Nat), c.counter = some (least, counter) ∧
      counter (remembered history) + least ≤ counter counters ∧
      (nextReport rates history (streamingSnapshot counters)).logKey = c.logKey := by
  rcases nextReport_reports rates history (streamingSnapshot counters) with
    ⟨-, -, hnone⟩ | ⟨c, hc, -, hkey, -⟩
  · exact absurd h (hnone event)
  · obtain ⟨least, counter, hcounter, hle⟩ := counter_of_holds hc
    exact ⟨c, least, counter, hcounter, hle, hkey⟩

/-- The counters of the last snapshot, with a storm if the malformed ones have grown. -/
def stormCounters (base last : Counters) : Counters :=
  { last with
    malformed := if base.malformed < last.malformed then max last.malformed (base.malformed + 10)
      else last.malformed }

/-- A counter of a snapshot with a fault that has grown is an event of the next one. -/
theorem exists_event {base last : Counters} (hle : base ≤ last) (hne : base ≠ last) :
    ∃ event : Condition,
      event.Holds rates base (streamingSnapshot (stormCounters base last)) := by
  by_contra hnone
  have hsmall : ∀ {c : Condition} {least : Nat} {counter : Counters → Nat},
      c.counter = some (least, counter) →
      ¬ counter base + least ≤ counter (stormCounters base last) := by
    intro c least counter hc hgrown
    refine hnone ⟨c, ?_⟩
    unfold Condition.Holds
    rw [hc]
    exact ⟨rfl, hgrown⟩
  obtain ⟨hlost, hdevice, htimeout, hmalformed, hstall, hback, hrestart, hcallback⟩ := hle
  have hkept : ∀ {c : Condition} {counter : Counters → Nat}, c.counter = some (1, counter) →
      counter (stormCounters base last) ≤ counter base := by
    intro c counter hc
    have := hsmall hc
    omega
  have hstorm : ¬ base.malformed < last.malformed := by
    intro hlt
    refine hsmall (c := .malformedStorm) rfl ?_
    simp only [stormCounters, if_pos hlt]
    omega
  refine hne (Counters.ext ?_ ?_ ?_ ?_ ?_ ?_ ?_ ?_)
  · exact le_antisymm hlost (hkept (c := .packetLoss) rfl)
  · exact le_antisymm hdevice (hkept (c := .deviceErrorEvent) rfl)
  · exact le_antisymm htimeout (hkept (c := .receiveTimeout) rfl)
  · exact le_antisymm hmalformed (not_lt.mp hstorm)
  · exact le_antisymm hstall (hkept (c := .ftStall) rfl)
  · exact le_antisymm hback (hkept (c := .ftBackward) rfl)
  · exact le_antisymm hrestart (hkept (c := .ftRestart) rfl)
  · exact le_antisymm hcallback (hkept (c := .callbackError) rfl)

/-- Something that a snapshot with a fault showed is reported again. -/
theorem exists_unsound (rates : RateSettings) (hle : remembered history ≤ lastCounters history)
    (h : ¬ Settled history) :
    ∃ counters, lastCounters history ≤ counters ∧
      ¬ SoundReport rates history (streamingSnapshot counters) := by
  refine ⟨stormCounters (remembered history) (lastCounters history), ?_, fun hsound => ?_⟩
  · refine ⟨le_rfl, le_rfl, le_rfl, ?_, le_rfl, le_rfl, le_rfl, le_rfl⟩
    simp only [stormCounters]
    split_ifs <;> omega
  obtain ⟨event, hholds⟩ := exists_event hle h
  obtain ⟨c, least, counter, hcounter, hgrown, hkey⟩ := event_of_streaming hholds
  -- no counter has grown by as much since the last snapshot
  have hwindow : counter (lastCounters history) + least ≤
      counter (stormCounters (remembered history) (lastCounters history)) :=
    hsound c least counter hcounter hkey
  cases c with
  | faulted | backoff | stopped | deviceError | connecting | conditionLatch | receiveRate =>
    cases hcounter
  | malformedStorm =>
    cases hcounter
    simp only [stormCounters] at hgrown hwindow
    split_ifs at hgrown hwindow <;> omega
  | deviceErrorEvent | receiveTimeout | ftStall | ftBackward | ftRestart | packetLoss
  | callbackError =>
    cases hcounter
    exact absurd hwindow (by simp [stormCounters])

end

/-! ## Runs -/

/-- **Every event belongs to one window exactly if no counter grows in a snapshot with a fault.** -/
theorem soundReports_iff (rates : RateSettings) {history : List Snapshot}
    (hmono : NonDecreasing history) :
    (∀ pre snapshot, pre <+: history → NonDecreasing (pre ++ [snapshot]) →
        SoundReport rates pre snapshot) ↔
      FaultsQuiet history := by
  constructor
  · intro hsound
    have hsettled : ∀ pre, pre <+: history → Settled pre := by
      intro pre hpre
      by_contra hnot
      have hmono' := hmono.of_prefix hpre
      obtain ⟨counters, hle, hunsound⟩ := exists_unsound rates hmono'.remembered_le hnot
      exact hunsound (hsound pre _ hpre (hmono'.concat hle))
    intro pre snapshot hpre hfault
    exact ((hsettled pre ((List.prefix_append _ _).trans hpre)).concat_faulted_iff hfault).mp
      (hsettled _ hpre)
  · intro hquiet pre snapshot hpre _
    exact (settled_of_quiet fun pre' s hpre' => hquiet pre' s (hpre'.trans hpre)).soundReport rates
      snapshot

/-- The default settings of the ROS adapters. -/
def defaultRates : RateSettings where
  expectedRdtRate := 2000
  rateTolerance := 1 / 5
  expected_pos := by norm_num
  tolerance_nonneg := by norm_num
  tolerance_le_one := by norm_num

/-- A client after a receive timeout, latched as its fault. -/
def timedOut : Snapshot where
  health := { state := .Faulted, faultCode := .Timeout, timeoutCount := 1 }

/-- The same client after the next `start()`, which keeps the counters. -/
def restarted : Snapshot where
  health := { state := .Streaming, timeoutCount := 1 }

/-- A later start has failed at the sensor's configuration, which no counter counts. -/
def misconfigured : Snapshot where
  health := { state := .Faulted, faultCode := .SensorConfiguration, timeoutCount := 1 }

/-- The one after it streams again. -/
def recovered : Snapshot where
  health := { state := .Streaming, timeoutCount := 1, receiveRateHz := 2000 }

theorem recovered_quiet : FaultsQuiet [restarted, misconfigured, recovered] := by
  have hnone : FaultsQuiet [] := fun pre s hpre => absurd (List.prefix_nil.mp hpre) (by simp)
  have hrestarted : FaultsQuiet ([] ++ [restarted]) := faultsQuiet_concat.mpr ⟨hnone, by decide⟩
  have hmisconfigured : FaultsQuiet ([restarted] ++ [misconfigured]) :=
    faultsQuiet_concat.mpr ⟨hrestarted, fun _ => rfl⟩
  have hrecovered : FaultsQuiet ([restarted, misconfigured] ++ [recovered]) :=
    faultsQuiet_concat.mpr ⟨hmisconfigured, by decide⟩
  exact hrecovered

theorem recovered_nonDecreasing : NonDecreasing [restarted, misconfigured, recovered] := by
  have hrestarted : NonDecreasing [restarted] := List.pairwise_singleton _ _
  have hmisconfigured : NonDecreasing ([restarted] ++ [misconfigured]) := hrestarted.concat (le_of_eq rfl)
  have hrecovered : NonDecreasing ([restarted, misconfigured] ++ [recovered]) :=
    hmisconfigured.concat (le_of_eq rfl)
  exact hrecovered

/-- A fault that grows no counter leaves every report to its own window: after the recovery the timeout
is not reported again. -/
theorem soundReports_recovered :
    (∀ pre snapshot, pre <+: [restarted, misconfigured, recovered] → NonDecreasing (pre ++ [snapshot]) →
        SoundReport defaultRates pre snapshot) ∧
      (nextReport defaultRates [] restarted).logKey = "receive_timeout" ∧
      (nextReport defaultRates [restarted] misconfigured).logKey = "faulted" ∧
      (nextReport defaultRates [restarted, misconfigured] recovered).logKey = "healthy" :=
  ⟨(soundReports_iff defaultRates recovered_nonDecreasing).mpr recovered_quiet, by decide +kernel,
    by decide +kernel, by decide +kernel⟩

/-- The timeout is reported after the restart, as one since the last diagnostic. -/
theorem timeout_reported_again : NonDecreasing [timedOut, restarted] ∧
    (nextReport defaultRates [] timedOut).logKey = "faulted" ∧
    (nextReport defaultRates [timedOut] restarted).logKey = "receive_timeout" ∧
    ¬ ∀ rates history snapshot, NonDecreasing (history ++ [snapshot]) →
      SoundReport rates history snapshot := by
  have hmono : NonDecreasing [timedOut, restarted] :=
    List.pairwise_pair.mpr ⟨le_rfl, le_rfl, le_rfl, le_rfl, le_rfl, le_rfl, le_rfl, le_rfl⟩
  refine ⟨hmono, rfl, rfl, fun hall => ?_⟩
  exact absurd (hall defaultRates [timedOut] restarted hmono .receiveTimeout 1 Counters.timeout rfl rfl)
    (by decide)

end NetFT.Ros
