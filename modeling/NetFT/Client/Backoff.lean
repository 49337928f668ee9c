/-
# NetFT.Client.Backoff — the delays of a Reconnect run.

`run` resets its delay after a session that received a well-formed record, awaits it, and doubles it up
to the limit.  Whether a record was received is what `receive_session` reports at each of its exits.

* `receiveSession_received`: the report is right at every exit.
* `runLoop_of_ends`, `runLoop_of_not_ends`: what one session contributes to the run.
* **`backoff_closedForm`**: the delay after the `i`-th session, in terms of the latest one with a record.
-/
import NetFT.Client.Survival
import NetFT.Library.Backoff

namespace NetFT.Client

set_option autoImplicit false

open Library (Backoff.delays Backoff.delays_getElem)

/-! ## Sessions with a record -/

/-- The pass receives a well-formed record. -/
def Receives (s : LoopState) (p : Pass) : Prop :=
  p.now < s.deadline ∧ ∃ data record,
    receive (Ticks.toSeconds (s.deadline - p.now)) p.reception = .ok data ∧ decodeRecord data = .ok record

/-- A pass of the session does. -/
def ReceivesRecord (c : Impl) (input : SessionInput) : Prop :=
  ∃ pre s p, InSession c input pre s p ∧ Receives s p

/-- The session ends with an outcome, and not for a stop request. -/
def EndsSession (c : Impl) (input : SessionInput) : Prop :=
  ∃ c' outcome, c.receiveSession input = (c', .ok outcome) ∧ outcome.result ≠ .Stopped

section

variable {s s' : LoopState} {p : Pass} {c c' : Impl} {input : SessionInput} {outcome : SessionOutcome}

/-- One pass reports its record. -/
theorem loopStep_received (s : LoopState) (p : Pass) :
    (∀ s', loopStep s p = .next s' →
      (s'.receivedValidRecord = true ↔ s.receivedValidRecord = true ∨ Receives s p)) ∧
    ∀ c o, loopStep s p = .ended c o →
      (o.receivedValidRecord = true ↔ s.receivedValidRecord = true ∨ Receives s p) := by
  have hnot : ¬ Receives s p → ∀ {b : Bool}, b = s.receivedValidRecord →
      (b = true ↔ s.receivedValidRecord = true ∨ Receives s p) := by
    rintro hno b rfl
    exact (or_iff_left hno).symm
  have hyes : Receives s p → (true = true ↔ s.receivedValidRecord = true ∨ Receives s p) :=
    fun h => iff_of_true rfl (.inr h)
  unfold loopStep
  simp only
  split_ifs with hnow
  · have hno : ¬ Receives s p := fun h => not_lt.mpr hnow h.1
    exact ⟨fun s' h => (by cases h), fun c o h => (by cases h; exact hnot hno rfl)⟩
  split
  · rename_i what hreceive
    have hno : ¬ Receives s p := by
      rintro ⟨-, data, record, hdata, -⟩
      rw [hreceive] at hdata
      cases hdata
    exact ⟨fun s' h => (by cases h), fun c o h => (by cases h; exact hnot hno rfl)⟩
  · rename_i hreceive
    have hno : ¬ Receives s p := by
      rintro ⟨-, data, record, hdata, hdecode⟩
      rw [hreceive] at hdata
      cases hdata
      simp [decodeRecord] at hdecode
    exact ⟨fun s' h => (by cases h), fun c o h => (by cases h; exact hnot hno rfl)⟩
  rename_i data hne hreceive
  cases hdecode : decodeRecord data with
  | error what =>
    have hno : ¬ Receives s p := by
      rintro ⟨-, data', record, hdata, hdecode'⟩
      rw [hreceive] at hdata
      cases hdata
      rw [hdecode] at hdecode'
      cases hdecode'
    simp only [datagramStep, hdecode]
    split_ifs
    · exact ⟨fun s' h => (by cases h), fun c o h => (by cases h; exact hnot hno rfl)⟩
    · exact ⟨fun s' h => (by cases h; exact hnot hno rfl), fun c o h => (by cases h)⟩
  | ok record =>
    have hreceives : Receives s p := ⟨not_le.mp hnow, data, record, hreceive, hdecode⟩
    simp only [datagramStep, hdecode]
    split
    · exact ⟨fun s' h => (by cases h), fun c o h => (by cases h)⟩
    split
    · exact ⟨fun s' h => (by cases h), fun c o h => (by cases h)⟩
    · exact ⟨fun s' h => (by cases h), fun c o h => (by cases h; exact hyes hreceives)⟩
    · exact ⟨fun s' h => (by cases h; exact hyes hreceives), fun c o h => (by cases h)⟩

/-- So do the passes of an open session. -/
theorem Accepts.received {ps : List Pass} (h : Accepts s ps s') :
    s'.receivedValidRecord = true ↔ s.receivedValidRecord = true ∨
      ∃ pre p rest s₁, ps = pre ++ p :: rest ∧ Accepts s pre s₁ ∧ Receives s₁ p := by
  induction h with
  | nil s => simp
  | @cons s s₁ s' p ps hstep hacc ih =>
    rw [ih, (loopStep_received s p).1 s₁ hstep]
    constructor
    · rintro ((hs | hp) | ⟨pre, q, rest, s₂, rfl, hpre, hq⟩)
      · exact .inl hs
      · exact .inr ⟨[], p, ps, s, rfl, .nil s, hp⟩
      · exact .inr ⟨p :: pre, q, rest, s₂, rfl, .cons hstep hpre, hq⟩
    · rintro (hs | ⟨pre, q, rest, s₂, heq, hpre, hq⟩)
      · exact .inl (.inl hs)
      cases hpre with
      | nil =>
        obtain ⟨rfl, rfl⟩ : p = q ∧ ps = rest := by simpa using heq
        exact .inl (.inr hq)
      | @cons _ s₃ _ p' pre hstep' hpre =>
        obtain ⟨rfl, rfl⟩ : p = p' ∧ ps = pre ++ q :: rest := by simpa using heq
        rw [hstep] at hstep'
        cases hstep'
        exact .inr ⟨pre, q, rest, s₂, rfl, hpre, hq⟩

theorem Accepts.unique {s₁ s₂ : LoopState} {ps : List Pass} (h : Accepts s ps s₁)
    (h' : Accepts s ps s₂) : s₁ = s₂ := by
  induction h with
  | nil s =>
    cases h'
    rfl
  | cons hstep _ ih =>
    cases h' with
    | cons hstep' hacc' =>
      rw [hstep] at hstep'
      cases hstep'
      exact ih hacc'

/-- A session does not go on after the pass that ends it. -/
theorem Accepts.length_le {s₀ s₁ : LoopState} {pre pre' rest rest' : List Pass} {p' : Pass}
    (h : Accepts s₀ pre s) (hended : ∀ s', loopStep s p ≠ .next s') (h' : Accepts s₀ pre' s₁)
    (hpasses : pre ++ p :: rest = pre' ++ p' :: rest') : pre'.length ≤ pre.length := by
  induction h generalizing pre' with
  | nil s =>
    cases h' with
    | nil => exact le_rfl
    | cons hstep _ =>
      simp only [List.nil_append, List.cons_append, List.cons.injEq] at hpasses
      rw [← hpasses.1] at hstep
      exact absurd hstep (hended _)
  | cons hstep _ ih =>
    cases h' with
    | nil => exact Nat.zero_le _
    | cons hstep' hacc' =>
      simp only [List.cons_append, List.cons.injEq] at hpasses
      rw [← hpasses.1, hstep] at hstep'
      cases hstep'
      exact Nat.succ_le_succ (ih hended hacc' hpasses.2)

theorem openSession_received (c : Impl) (input : SessionInput) :
    (∀ s, c.openSession input = .next s → s.receivedValidRecord = false) ∧
      ∀ c' o, c.openSession input = .ended c' o → o.receivedValidRecord = false := by
  unfold Impl.openSession
  simp only
  split_ifs
  · exact ⟨fun s h => (by cases h), fun c' o h => (by cases h; rfl)⟩
  repeat' split
  all_goals exact ⟨fun s h => (by cases h; try rfl), fun c' o h => (by cases h; try rfl)⟩

/-- **`receive_session` reports a record exactly if it has received one.** -/
theorem receiveSession_received (h : c.receiveSession input = (c', .ok outcome)) :
    outcome.receivedValidRecord = true ↔ ReceivesRecord c input := by
  have hopened : ∀ {s₀ : LoopState}, c.openSession input = .next s₀ →
      (s₀.receivedValidRecord = true ↔ False) := by
    intro s₀ hopen
    rw [(openSession_received c input).1 s₀ hopen]
    simp
  rcases receiveSession_cases h with (⟨o, heq, hended⟩ | ⟨what, heq, -⟩) |
    ⟨s₀, s, hopen, hacc, -, heq⟩ | ⟨pre, s, p, hin, ⟨o, heq, hended⟩ | ⟨what, heq, -⟩⟩
  · cases heq
    rw [(openSession_received c input).2 _ _ hended]
    refine iff_of_false (by simp) ?_
    rintro ⟨pre, s, p, hin, -⟩
    obtain ⟨s₀, hopen, -⟩ := hin.reached
    rw [hended] at hopen
    cases hopen
  · cases heq
  · cases heq
    rw [show ({ receivedValidRecord := s.receivedValidRecord } : SessionOutcome).receivedValidRecord =
      s.receivedValidRecord from rfl, hacc.received, hopened hopen, false_or]
    constructor
    · rintro ⟨pre, p, rest, s₁, hpasses, hpre, hreceives⟩
      exact ⟨pre, s₁, p, ⟨⟨rest, hpasses⟩, s₀, hopen, hpre⟩, hreceives⟩
    · rintro ⟨pre, s₁, p, ⟨⟨rest, hpasses⟩, s₂, hopen', hpre⟩, hreceives⟩
      rw [hopen] at hopen'
      cases hopen'
      exact ⟨pre, p, rest, s₁, hpasses, hpre, hreceives⟩
  · cases heq
    obtain ⟨⟨rest, hpasses⟩, s₀, hopen, hacc⟩ := hin
    rw [(loopStep_received s p).2 _ _ hended, hacc.received, hopened hopen, false_or]
    constructor
    · rintro (⟨pre', q, rest', s₁, rfl, hpre, hreceives⟩ | hreceives)
      · refine ⟨pre', s₁, q, ⟨⟨rest' ++ p :: rest, ?_⟩, s₀, hopen, hpre⟩, hreceives⟩
        rw [hpasses, List.append_assoc, List.cons_append]
      · exact ⟨pre, s, p, ⟨⟨rest, hpasses⟩, s₀, hopen, hacc⟩, hreceives⟩
    · rintro ⟨pre', s₁, q, ⟨⟨rest', hpasses'⟩, s₂, hopen', hpre⟩, hreceives⟩
      rw [hopen] at hopen'
      cases hopen'
      rw [hpasses] at hpasses'
      have hle := hacc.length_le (fun s' hnext => by rw [hended] at hnext; cases hnext) hpre hpasses'
      -- the pass with the record is the last one, or an earlier one
      rcases List.append_eq_append_iff.mp hpasses' with ⟨more, hmore, htail⟩ | ⟨more, hmore, htail⟩
      · have hnil : more = [] := by
          rw [hmore, List.length_append] at hle
          exact List.eq_nil_of_length_eq_zero (by omega)
        subst hnil
        rw [List.append_nil] at hmore
        subst hmore
        simp only [List.nil_append, List.cons.injEq] at htail
        obtain ⟨rfl, -⟩ := htail
        rw [hacc.unique hpre]
        exact .inr hreceives
      · cases more with
        | nil =>
          rw [List.append_nil] at hmore
          subst hmore
          simp only [List.nil_append, List.cons.injEq] at htail
          obtain ⟨rfl, -⟩ := htail
          rw [hacc.unique hpre]
          exact .inr hreceives
        | cons r more =>
          simp only [List.cons_append, List.cons.injEq] at htail
          obtain ⟨rfl, -⟩ := htail
          exact .inl ⟨pre', q, more, s₁, hmore, hpre, hreceives⟩
  · cases heq

end

/-! ## The count -/

section

variable {c c' : Impl} {s s' : LoopState} {p : Pass}

/-- Only `run` counts reconnects. -/
def SameCount (c c' : Impl) : Prop := c'.health.reconnectCount = c.health.reconnectCount

theorem SameCount.datagramStep (s : LoopState) (data : List UInt8) (receivedAt : TimePoint)
    (result : CallbackResult) : SameCount s.impl (datagramStep s data receivedAt result).impl := by
  unfold Client.datagramStep
  simp only
  split
  · split_ifs <;> rfl
  · rename_i record _
    split
    · rfl
    have h := (s.impl.clearMalformed.handleRecord_sameSession record receivedAt result).reconnectCount
    split <;> rename_i heq <;> rw [heq] at h <;> exact h

theorem SameCount.loopStep (s : LoopState) (p : Pass) : SameCount s.impl (loopStep s p).impl := by
  unfold Client.loopStep
  simp only
  split_ifs
  · rfl
  split
  · rfl
  · rfl
  · exact SameCount.datagramStep s _ p.receivedAt p.result

theorem SameCount.accepts {ps : List Pass} (h : Accepts s ps s') : SameCount s.impl s'.impl := by
  induction h with
  | nil s => rfl
  | @cons s s₁ s' p ps hstep _ ih =>
    have hloop := SameCount.loopStep s p
    rw [hstep] at hloop
    exact ih.trans hloop

theorem SameCount.openSession (c : Impl) (input : SessionInput) :
    SameCount c (c.openSession input).impl := by
  unfold Impl.openSession
  simp only
  split_ifs
  · rfl
  split
  · rfl
  rename_i configuration _
  obtain ⟨_, _, hframe⟩ := (c.setState .Connecting).applyConfiguration_frame configuration
  rw [hframe]
  repeat' split
  all_goals rfl

theorem SameCount.receiveSession (c : Impl) (input : SessionInput) :
    SameCount c (c.receiveSession input).1 := by
  have hopen := SameCount.openSession c input
  rcases receiveSession_cases (Prod.eta (c.receiveSession input)).symm with
    (⟨o, -, hended⟩ | ⟨what, -, hended⟩) | ⟨s₀, s, hnext, hacc, heq, -⟩ |
    ⟨pre, s, p, ⟨-, s₀, hnext, hacc⟩, hlast⟩
  · rw [hended] at hopen
    exact hopen
  · rw [hended] at hopen
    exact hopen
  · rw [hnext] at hopen
    rw [heq]
    exact (SameCount.accepts hacc).trans hopen
  · rw [hnext] at hopen
    have hstep := SameCount.loopStep s p
    rcases hlast with ⟨_, -, heq⟩ | ⟨_, -, heq⟩ <;> rw [heq] at hstep <;>
      exact hstep.trans ((SameCount.accepts hacc).trans hopen)

end

/-! ## One session of the run -/

/-- The state in which `run` awaits the delay after the session. -/
def Impl.reconnected (c : Impl) (input : SessionInput) : Impl :=
  match c.receiveSession input with
  | (c, .ok outcome) => c.closeSession.enterBackoff outcome.withMessage.message
  | (c, .error _) => c

/-- The state after some of the sessions. -/
def Impl.after (c : Impl) (inputs : List SessionInput) : Impl := inputs.foldl Impl.reconnected c

/-- What `receive_session` reports. -/
def Impl.reports (c : Impl) (input : SessionInput) : Bool :=
  match c.receiveSession input with
  | (_, .ok outcome) => outcome.receivedValidRecord
  | (_, .error _) => false

/-- A run under Reconnect goes on. -/
structure Reconnects (c : Impl) : Prop where
  policy : c.config.recoveryPolicy = .Reconnect
  stopping : c.stopping = false
  fault : c.faultLatch = .None

section

variable {c : Impl} {input : SessionInput}

theorem EndsSession.reports (h : EndsSession c input) :
    c.reports input = true ↔ ReceivesRecord c input := by
  obtain ⟨c', outcome, hreceive, -⟩ := h
  rw [← receiveSession_received hreceive, Impl.reports, hreceive]

theorem SameControl.reconnected (c : Impl) (input : SessionInput) :
    SameControl c (c.reconnected input) := by
  have h := SameControl.receiveSession c input
  unfold Impl.reconnected
  split <;> rename_i heq <;> rw [heq] at h
  · exact ⟨h.config, h.callback, h.stopping, h.faultLatch⟩
  · exact h

theorem Reconnects.reconnected (h : Reconnects c) (input : SessionInput) :
    Reconnects (c.reconnected input) := by
  have hsame := SameControl.reconnected c input
  exact ⟨by rw [hsame.config]; exact h.policy, hsame.stopping.trans h.stopping,
    hsame.faultLatch.trans h.fault⟩

theorem EndsSession.reconnectCount (h : EndsSession c input) :
    (c.reconnected input).health.reconnectCount = c.health.reconnectCount + 1 := by
  obtain ⟨c', outcome, hreceive, -⟩ := h
  have hsame := SameCount.receiveSession c input
  rw [hreceive] at hsame
  rw [Impl.reconnected, hreceive]
  exact congrArg (· + 1) hsame

/-- The session does not end: it is stopped, or the clock cannot represent one of its deadlines. -/
theorem runLoop_of_not_ends (h : Reconnects c) (hends : ¬ EndsSession c input) (delay : Seconds)
    (inputs : List SessionInput) :
    (c.runLoop delay (input :: inputs)).2 = [] ∧
      (c.runLoop delay (input :: inputs)).1.health.reconnectCount = c.health.reconnectCount := by
  have hcontrol := SameControl.receiveSession c input
  have hcount := SameCount.receiveSession c input
  have hopen : (c.stopping || c.faulted) = false := by
    rw [h.stopping, Impl.faulted, h.fault]
    rfl
  rw [Impl.runLoop, if_neg (by rw [hopen]; exact Bool.false_ne_true)]
  rcases hreceive : c.receiveSession input with ⟨c', what | outcome⟩
  · rw [hreceive] at hcontrol hcount
    simp only [true_and]
    rw [if_neg (by rw [hcontrol.stopping, h.stopping]; exact Bool.false_ne_true), Impl.setFault,
      Impl.publishFault]
    split_ifs <;> exact hcount
  · rw [hreceive] at hcount
    have hstopped : outcome.result = .Stopped := by
      by_contra hne
      exact hends ⟨c', outcome, hreceive, hne⟩
    simp only [SessionOutcome.withMessage_result, hstopped, ne_eq, not_true_eq_false, false_and,
      if_false, true_or, if_true, true_and]
    exact hcount

/-- **One session of the run**: its delay is awaited, and the run goes on with the doubled one, or the
clock cannot represent the end of the delay. -/
theorem runLoop_of_ends (h : Reconnects c) (hends : EndsSession c input) (current : Seconds)
    (inputs : List SessionInput) {delay : Seconds}
    (hdelay : delay = if c.reports input then c.config.reconnectInitialDelay else current) :
    (∃ what, checkedDeadline input.backoffAt delay = .error what ∧
      (c.runLoop current (input :: inputs)).2 = [] ∧
      (c.runLoop current (input :: inputs)).1.health.reconnectCount = c.health.reconnectCount + 1) ∨
    c.runLoop current (input :: inputs) =
      (((c.reconnected input).runLoop (min (delay * 2) c.config.reconnectMaxDelay) inputs).1,
        delay ::
          ((c.reconnected input).runLoop (min (delay * 2) c.config.reconnectMaxDelay) inputs).2) := by
  have hcontrol := SameControl.receiveSession c input
  have hcount := hends.reconnectCount
  obtain ⟨c', outcome, hreceive, hne⟩ := hends
  have hopen : (c.stopping || c.faulted) = false := by
    rw [h.stopping, Impl.faulted, h.fault]
    rfl
  rw [hreceive] at hcontrol
  have hreconnected :
      c.reconnected input = c'.closeSession.enterBackoff outcome.withMessage.message := by
    rw [Impl.reconnected, hreceive]
  have hreports : c.reports input = outcome.withMessage.receivedValidRecord := by
    rw [Impl.reports, hreceive, SessionOutcome.withMessage]
    split_ifs <;> rfl
  have hconfig : c'.closeSession.config = c.config := hcontrol.config
  have hstopping : c'.closeSession.stopping = false := hcontrol.stopping.trans h.stopping
  have hstopping' : (c.reconnected input).stopping = false := (h.reconnected input).stopping
  have hconfig' : (c.reconnected input).config = c.config := (SameControl.reconnected c input).config
  rw [hreports] at hdelay
  rw [Impl.runLoop, if_neg (by rw [hopen]; exact Bool.false_ne_true), hreceive]
  simp only
  rw [if_neg (by rw [hconfig, h.policy]; simp), if_neg (by rw [hstopping]; simpa using hne), hconfig,
    ← hdelay, ← hreconnected]
  cases hdeadline : checkedDeadline input.backoffAt delay with
  | error what =>
    refine .inl ⟨what, rfl, rfl, ?_⟩
    simp only
    rw [if_neg (by rw [hstopping']; exact Bool.false_ne_true), Impl.setFault, Impl.publishFault]
    split_ifs <;> exact hcount
  | ok _ =>
    simp only
    rw [hconfig']
    exact .inr rfl

end

/-! ## The run -/

/-- Which sessions report a record. -/
def Impl.reported (c : Impl) : List SessionInput → List Bool
  | [] => []
  | input :: inputs => c.reports input :: (c.reconnected input).reported inputs

/-- Session `k` of the run ends with an outcome. -/
def EndsAt (c : Impl) (inputs : List SessionInput) (k : ℕ) : Prop :=
  ∃ input, inputs[k]? = some input ∧ EndsSession (c.after (inputs.take k)) input

/-- Session `k` of the run receives a well-formed record. -/
def ReceivesAt (c : Impl) (inputs : List SessionInput) (k : ℕ) : Prop :=
  ∃ input, inputs[k]? = some input ∧ ReceivesRecord (c.after (inputs.take k)) input

section

variable {c : Impl} {input : SessionInput} {inputs : List SessionInput} {k : ℕ}

theorem endsAt_zero : EndsAt c (input :: inputs) 0 ↔ EndsSession c input := by
  simp [EndsAt, Impl.after]

theorem endsAt_succ :
    EndsAt c (input :: inputs) (k + 1) ↔ EndsAt (c.reconnected input) inputs k := by
  simp [EndsAt, Impl.after]

theorem reported_getElem (c : Impl) (inputs : List SessionInput) (k : ℕ) :
    (c.reported inputs)[k]? = inputs[k]?.map (c.after (inputs.take k)).reports := by
  induction inputs generalizing c k with
  | nil => rfl
  | cons input inputs ih =>
    cases k with
    | zero => rfl
    | succ k => exact ih (c.reconnected input) k

/-- A session that ended is reported right. -/
theorem EndsAt.reported (h : EndsAt c inputs k) :
    (c.reported inputs)[k]? = some true ↔ ReceivesAt c inputs k := by
  obtain ⟨input, hinput, hends⟩ := h
  rw [reported_getElem, hinput, Option.map_some, Option.some_inj, hends.reports]
  constructor
  · intro hreceives
    exact ⟨input, hinput, hreceives⟩
  · rintro ⟨input', hinput', hreceives⟩
    rw [hinput] at hinput'
    cases hinput'
    exact hreceives

/-- What a run awaits: a prefix of the delays that the reports prescribe, one after every session that
ended, the last one only if the clock can represent its end. -/
theorem runLoop_awaits (h : Reconnects c) (current : Seconds) (inputs : List SessionInput) :
    let run := c.runLoop current inputs
    run.2 <+: Backoff.delays c.config.reconnectInitialDelay c.config.reconnectMaxDelay current
      (c.reported inputs) ∧
    (∀ k < run.2.length, EndsAt c inputs k) ∧
    ((¬ EndsAt c inputs run.2.length ∧
        run.1.health.reconnectCount = c.health.reconnectCount + run.2.length) ∨
      EndsAt c inputs run.2.length ∧
        run.1.health.reconnectCount = c.health.reconnectCount + (run.2.length + 1) ∧
        ∃ input delay what, inputs[run.2.length]? = some input ∧
          (Backoff.delays c.config.reconnectInitialDelay c.config.reconnectMaxDelay current
            (c.reported inputs))[run.2.length]? = some delay ∧
          checkedDeadline input.backoffAt delay = .error what) := by
  induction inputs generalizing c current with
  | nil =>
    refine ⟨List.nil_prefix, fun k hk => absurd hk (Nat.not_lt_zero k), .inl ⟨?_, rfl⟩⟩
    rintro ⟨input, hinput, -⟩
    cases hinput
  | cons input inputs ih =>
    simp only
    by_cases hends : EndsSession c input
    · rcases runLoop_of_ends h hends current inputs rfl with ⟨what, hdeadline, hnone, hcount⟩ | hrun
      · rw [hnone, List.length_nil, endsAt_zero]
        exact ⟨List.nil_prefix, fun k hk => absurd hk (Nat.not_lt_zero k),
          .inr ⟨hends, hcount, input, _, what, rfl, rfl, hdeadline⟩⟩
      · have hconfig : (c.reconnected input).config = c.config :=
          (SameControl.reconnected c input).config
        obtain ⟨hdelays, hended, hlast⟩ := ih (h.reconnected input)
          (min ((if c.reports input then c.config.reconnectInitialDelay else current) * 2)
            c.config.reconnectMaxDelay)
        rw [hconfig] at hdelays hlast
        rw [hends.reconnectCount] at hlast
        rw [hrun]
        simp only [List.length_cons, endsAt_succ, List.getElem?_cons_succ, Impl.reported,
          Backoff.delays]
        refine ⟨List.cons_prefix_cons.mpr ⟨rfl, hdelays⟩, fun k hk => ?_, ?_⟩
        · cases k with
          | zero => exact endsAt_zero.mpr hends
          | succ k => exact endsAt_succ.mpr (hended k (Nat.lt_of_succ_lt_succ hk))
        · rcases hlast with ⟨hnot, hcount⟩ | ⟨hlast, hcount, hunrepresented⟩
          · exact .inl ⟨hnot, by rw [hcount]; omega⟩
          · exact .inr ⟨hlast, by rw [hcount]; omega, hunrepresented⟩
    · obtain ⟨hnone, hcount⟩ := runLoop_of_not_ends h hends current inputs
      rw [hnone, List.length_nil, endsAt_zero]
      exact ⟨List.nil_prefix, fun k hk => absurd hk (Nat.not_lt_zero k), .inl ⟨hends, hcount⟩⟩

end

/-! ## The closed form -/

/-- Session `j` is the latest one up to session `i` that received a record, or the first one. -/
def ResetAt (c : Impl) (inputs : List SessionInput) (i j : ℕ) : Prop :=
  j ≤ i ∧ (ReceivesAt c inputs j ∨ j = 0) ∧ ∀ k, j < k → k ≤ i → ¬ ReceivesAt c inputs k

/-- **What a Reconnect run promises of its delays.** -/
structure ReconnectDelays (c : Impl) (inputs : List SessionInput) : Prop where
  delay : ∀ i delay, (c.runLoop c.config.reconnectInitialDelay inputs).2[i]? = some delay →
    ∃ j, ResetAt c inputs i j ∧
      delay = min c.config.reconnectMaxDelay (c.config.reconnectInitialDelay * 2 ^ (i - j))
  bounded : ∀ delay ∈ (c.runLoop c.config.reconnectInitialDelay inputs).2,
    c.config.reconnectInitialDelay ≤ delay ∧ delay ≤ c.config.reconnectMaxDelay
  /-- The count grows by the number of sessions that ended: those awaited, and the last one if it did. -/
  counted : ∃ n, (c.run inputs).health.reconnectCount = c.health.reconnectCount + n ∧
    ∀ k, k < n ↔ k ≤ (c.runLoop c.config.reconnectInitialDelay inputs).2.length ∧ EndsAt c inputs k
  /-- A delay is awaited after every session that ended, unless the clock cannot represent its end. -/
  awaited : ∀ k ≤ (c.runLoop c.config.reconnectInitialDelay inputs).2.length, EndsAt c inputs k →
    k < (c.runLoop c.config.reconnectInitialDelay inputs).2.length ∨
      ∃ input j what, inputs[k]? = some input ∧ ResetAt c inputs k j ∧
        checkedDeadline input.backoffAt
          (min c.config.reconnectMaxDelay (c.config.reconnectInitialDelay * 2 ^ (k - j))) = .error what

theorem Impl.finishSession_reconnectCount (c : Impl) :
    c.finishSession.health.reconnectCount = c.health.reconnectCount := by
  unfold finishSession
  simp only
  split_ifs <;> rfl

/-- **Reconnect backoff is bounded and exponential, and a session with a record resets it.** -/
theorem backoff_closedForm {c : Impl} {now : TimePoint} (hvalid : c.config.validate now = .ok ())
    (h : Reconnects c) (inputs : List SessionInput) : ReconnectDelays c inputs := by
  obtain ⟨hpositive, hle⟩ := Config.delays_of_validate hvalid
  obtain ⟨hdelays, hended, hlast⟩ := runLoop_awaits h c.config.reconnectInitialDelay inputs
  -- a prescribed delay has the closed form, if the sessions up to it ended
  have hclosed : ∀ i delay, (∀ k ≤ i, EndsAt c inputs k) →
      (Backoff.delays c.config.reconnectInitialDelay c.config.reconnectMaxDelay
        c.config.reconnectInitialDelay (c.reported inputs))[i]? = some delay →
      ∃ j, ResetAt c inputs i j ∧
        delay = min c.config.reconnectMaxDelay (c.config.reconnectInitialDelay * 2 ^ (i - j)) := by
    intro i delay hends hi
    have hreports : ∀ k ≤ i, (c.reported inputs)[k]? = some true ↔ ReceivesAt c inputs k :=
      fun k hk => (hends k hk).reported
    rcases Backoff.delays_getElem hle (hpositive.le.trans hle) hle hi with
      ⟨j, ⟨hji, hreset, hlatest⟩, heq⟩ | ⟨hnone, heq⟩
    · refine ⟨j, ⟨hji, .inl ((hreports j hji).mp hreset), fun k hjk hki hreceives => ?_⟩, heq⟩
      exact hlatest k hjk hki ((hreports k hki).mpr hreceives)
    · refine ⟨0, ⟨Nat.zero_le i, .inr rfl, fun k _ hki hreceives => ?_⟩, heq⟩
      exact hnone k hki ((hreports k hki).mpr hreceives)
  have hdelay : ∀ i delay, (c.runLoop c.config.reconnectInitialDelay inputs).2[i]? = some delay →
      ∃ j, ResetAt c inputs i j ∧
        delay = min c.config.reconnectMaxDelay (c.config.reconnectInitialDelay * 2 ^ (i - j)) := by
    intro i delay hi
    obtain ⟨hlt, heq⟩ := List.getElem?_eq_some_iff.mp hi
    refine hclosed i delay (fun k hk => hended k (lt_of_le_of_lt hk hlt)) ?_
    rw [List.prefix_iff_getElem?.mp hdelays i hlt, heq]
  refine ⟨hdelay, fun delay hmem => ?_, ?_, fun k hk hends => ?_⟩
  · obtain ⟨i, hi⟩ := List.mem_iff_getElem?.mp hmem
    obtain ⟨j, -, rfl⟩ := hdelay i delay hi
    have hpow : (1 : ℚ) ≤ 2 ^ (i - j) := one_le_pow₀ one_le_two
    exact ⟨le_min hle (le_mul_of_one_le_right hpositive.le hpow), min_le_left _ _⟩
  · rw [Impl.run, Impl.finishSession_reconnectCount]
    rcases hlast with ⟨hnot, hcount⟩ | ⟨hends, hcount, -⟩
    · refine ⟨_, hcount, fun k => ⟨fun hk => ⟨hk.le, hended k hk⟩, ?_⟩⟩
      rintro ⟨hk, hends⟩
      refine lt_of_le_of_ne hk ?_
      rintro rfl
      exact hnot hends
    · refine ⟨_, hcount, fun k => ⟨fun hk => ⟨Nat.lt_succ_iff.mp hk, ?_⟩, fun hk => Nat.lt_succ_of_le hk.1⟩⟩
      rcases Nat.lt_succ_iff_lt_or_eq.mp hk with hk | rfl
      · exact hended k hk
      · exact hends
  · rcases hk.lt_or_eq with hk | rfl
    · exact .inl hk
    · rcases hlast with ⟨hnot, -⟩ | ⟨-, -, input, delay, what, hinput, hdelay, hunrepresented⟩
      · exact absurd hends hnot
      · obtain ⟨j, hreset, rfl⟩ := hclosed _ delay
          (fun k hk => hk.lt_or_eq.elim (hended k) fun heq => heq ▸ hends) hdelay
        exact .inr ⟨input, j, what, hinput, hreset, hunrepresented⟩

/-- Two sessions without a record, one with a serious record, and one without. -/
def interruptedInputs : List SessionInput :=
  let unreachable := { oneRecordInput 0 with connect := .error "connect failed" }
  [unreachable, unreachable, oneRecordInput 0x80000001, unreachable]

theorem interruptedInputs_delays :
    (toleratingClient.runLoop (1 / 4) interruptedInputs).2 = [1 / 4, 1 / 2, 1 / 4, 1 / 2] ∧
      ReconnectDelays toleratingClient interruptedInputs :=
  ⟨by decide +kernel,
    backoff_closedForm (show toleratingClient.config.validate 0 = .ok () by decide +kernel)
      ⟨rfl, rfl, rfl⟩ interruptedInputs⟩

end NetFT.Client
