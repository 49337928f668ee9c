/-
# NetFT.Client.Bracketed — the grammar of the commands of a session.

A session begins with StartRealtime, goes on with groups of `bias`, and ends with at most one
StopStreaming.

* `Bracketed` is the grammar, and `Progress.next` its automaton, which also wants a SetSoftwareBias to
  follow a check that allows it.
* **`shape_of_progressOf`**: a session that the automaton accepts has the shape of its progress.
-/
import NetFT.Client.Machine

namespace NetFT.Client

set_option autoImplicit false

/-! ## The grammar -/

/-- What the check of `bias` has to find. -/
def BiasCheck.allows (found : BiasCheck) : Bool :=
  found.sessionStarted && !found.stopping && !found.faulted && found.state == .Streaming

/-- A call of `bias`: its second command follows unless the first one was not sent. -/
inductive BiasGroup : List Attempt → Prop where
  | failed {bias : Attempt} : bias.command = .SetSoftwareBias → bias.sent = false → BiasGroup [bias]
  | restarted {bias start : Attempt} : bias.command = .SetSoftwareBias → bias.sent = true →
      start.command = .StartRealtime → BiasGroup [bias, start]

/-- A whole session. -/
inductive Bracketed : List Attempt → Prop where
  | mk {start : Attempt} {groups : List (List Attempt)} {stops : List Attempt} :
      start.command = .StartRealtime → (∀ group ∈ groups, BiasGroup group) →
      (∀ stop ∈ stops, stop.command = .StopStreaming) → stops.length ≤ 1 →
      Bracketed (start :: groups.flatten ++ stops)

/-! ## The automaton -/

/-- How far a session has come. -/
inductive Progress where
  | silent | streaming | biasing | ended
  deriving DecidableEq, Repr

/-- What may be sent next; a bias only if it was checked. -/
def Progress.next (progress : Progress) (a : Attempt) : Option Progress :=
  match progress, a.command with
  | .silent, .StartRealtime => some (if a.sent then .streaming else .ended)
  | .streaming, .SetSoftwareBias =>
    if a.check.any BiasCheck.allows then some (if a.sent then .biasing else .streaming) else none
  | .biasing, .StartRealtime => some .streaming
  | .streaming, .StopStreaming => some .ended
  | _, _ => none

/-- The progress after the attempts of a session, if each was allowed. -/
def progressOf (session : List Attempt) : Option Progress := session.foldlM Progress.next .silent

/-- No group is half sent, and the session is not open. -/
def Progress.atRest : Progress → Bool
  | .silent | .ended => true
  | .streaming | .biasing => false

section

variable {session : List Attempt} {a : Attempt} {p q : Progress}

theorem progressOf_nil : progressOf [] = some .silent := rfl

/-- One more attempt. -/
theorem progressOf_append_eq_some : progressOf (session ++ [a]) = some q ↔
    ∃ p, progressOf session = some p ∧ p.next a = some q := by
  rw [progressOf, List.foldlM_append]
  simp only [List.foldlM_cons, List.foldlM_nil, bind_pure]
  exact Option.bind_eq_some_iff

/-- What a step of the automaton reads. -/
theorem Progress.next_cases (h : p.next a = some q) :
    (p = .silent ∧ a.command = .StartRealtime ∧ q = if a.sent then .streaming else .ended) ∨
    (p = .streaming ∧ a.command = .SetSoftwareBias ∧ a.check.any BiasCheck.allows = true ∧
      q = if a.sent then .biasing else .streaming) ∨
    (p = .biasing ∧ a.command = .StartRealtime ∧ q = .streaming) ∨
    (p = .streaming ∧ a.command = .StopStreaming ∧ q = .ended) := by
  unfold Progress.next at h
  split at h <;> simp_all

/-! ## Sessions have the shape of their progress -/

/-- An open session: it was started, and every group is whole. -/
inductive Streams : List Attempt → Prop where
  | mk {start : Attempt} {groups : List (List Attempt)} : start.command = .StartRealtime →
      start.sent = true → (∀ group ∈ groups, BiasGroup group) → Streams (start :: groups.flatten)

/-- Where a session is, as a list. -/
def Progress.Shape : Progress → List Attempt → Prop
  | .silent, session => session = []
  | .streaming, session => Streams session
  | .biasing, session => ∃ earlier bias, session = earlier ++ [bias] ∧ Streams earlier ∧
      bias.command = .SetSoftwareBias ∧ bias.sent = true
  | .ended, session => (∃ start, session = [start] ∧ start.command = .StartRealtime ∧ start.sent = false) ∨
      ∃ earlier stop, session = earlier ++ [stop] ∧ Streams earlier ∧ stop.command = .StopStreaming

/-- Another bias of a session that streams. -/
theorem Streams.group {group : List Attempt} (h : Streams session) (hgroup : BiasGroup group) :
    Streams (session ++ group) := by
  obtain @⟨start, groups, hstart, hsent, hgroups⟩ := h
  have hflat : start :: groups.flatten ++ group = start :: (groups ++ [group]).flatten := by simp
  rw [hflat]
  refine .mk hstart hsent fun g hg => ?_
  rcases List.mem_append.mp hg with hg | hg
  · exact hgroups g hg
  · rw [List.mem_singleton.mp hg]
    exact hgroup

/-- **An attempt that is allowed keeps the shape.** -/
theorem Progress.Shape.next (h : p.Shape session) (hnext : p.next a = some q) :
    q.Shape (session ++ [a]) := by
  rcases Progress.next_cases hnext with ⟨rfl, hcommand, rfl⟩ | ⟨rfl, hcommand, -, rfl⟩ |
    ⟨rfl, hcommand, rfl⟩ | ⟨rfl, hcommand, rfl⟩
  · obtain rfl : session = [] := h
    cases hsent : a.sent with
    | true => exact @Streams.mk a [] hcommand hsent (by simp)
    | false => exact .inl ⟨a, rfl, hcommand, hsent⟩
  · cases hsent : a.sent with
    | true => exact ⟨session, a, rfl, h, hcommand, hsent⟩
    | false => exact Streams.group h (.failed hcommand hsent)
  · obtain ⟨earlier, bias, rfl, hearlier, hbias, hsent⟩ := h
    have hgroup := Streams.group hearlier (.restarted hbias hsent hcommand)
    rwa [List.append_assoc]
  · exact .inr ⟨session, a, rfl, h, hcommand⟩

/-- Every session that was allowed has the shape of its progress. -/
theorem shape_of_progressOf (h : progressOf session = some p) : p.Shape session := by
  induction session using List.reverseRecOn generalizing p with
  | nil =>
    cases h
    exact rfl
  | append_singleton session a ih =>
    obtain ⟨p', hbefore, hnext⟩ := progressOf_append_eq_some.mp h
    exact (ih hbefore).next hnext

/-- A session can be completed. -/
theorem Progress.Shape.exists_bracketed (h : p.Shape session) : ∃ rest, Bracketed (session ++ rest) := by
  have hstreams : ∀ {earlier stops : List Attempt}, Streams earlier →
      (∀ stop ∈ stops, stop.command = .StopStreaming) → stops.length ≤ 1 →
      Bracketed (earlier ++ stops) := by
    rintro _ _ ⟨hstart, -, hgroups⟩ hstops hlength
    exact .mk hstart hgroups hstops hlength
  let restart : Attempt := { command := .StartRealtime, sent := false }
  cases p with
  | silent =>
    obtain rfl : session = [] := h
    have hsession : Bracketed [restart] :=
      @Bracketed.mk restart [] [] rfl (by simp) (by simp) (Nat.zero_le 1)
    exact ⟨[restart], hsession⟩
  | streaming => exact ⟨[], hstreams h (by simp) (Nat.zero_le 1)⟩
  | biasing =>
    obtain ⟨earlier, bias, rfl, hearlier, hbias, hsent⟩ := h
    have hgroup : BiasGroup [bias, restart] := .restarted hbias hsent rfl
    have hsession : Bracketed (earlier ++ [bias, restart] ++ []) :=
      hstreams (hearlier.group hgroup) (by simp) (Nat.zero_le 1)
    exact ⟨[restart], by simpa using hsession⟩
  | ended =>
    rcases h with ⟨start, rfl, hstart, -⟩ | ⟨earlier, stop, rfl, hearlier, hstop⟩
    · have hsession : Bracketed [start] :=
        @Bracketed.mk start [] [] hstart (by simp) (by simp) (Nat.zero_le 1)
      exact ⟨[], hsession⟩
    · have hsession : Bracketed (earlier ++ [stop]) := hstreams hearlier (by simpa using hstop) le_rfl
      exact ⟨[], by simpa using hsession⟩

/-- A session that streams has not sent Stop. -/
theorem Streams.no_stop (h : Streams session) :
    session.countP (·.command = .StopStreaming) = 0 := by
  obtain ⟨hstart, -, hgroups⟩ := h
  rw [List.countP_eq_zero]
  rintro a (_ | ⟨_, ha⟩)
  · simp [hstart]
  · obtain ⟨group, hgroup, ha⟩ := List.mem_flatten.mp ha
    cases hgroups group hgroup with
    | failed hbias _ =>
      rw [List.mem_singleton.mp ha]
      simp [hbias]
    | restarted hbias _ hrestart =>
      rcases List.mem_pair.mp ha with rfl | rfl
      · simp [hbias]
      · simp [hrestart]

/-- A session at rest was stopped exactly once if it was started at all. -/
theorem Progress.Shape.stopped_once (h : p.Shape session) (hrest : p.atRest = true)
    (hstarted : ∃ a ∈ session, a.command = .StartRealtime ∧ a.sent = true) :
    session.countP (·.command = .StopStreaming) = 1 := by
  cases p with
  | silent =>
    obtain rfl : session = [] := h
    simp at hstarted
  | ended =>
    rcases h with ⟨start, rfl, -, hsent⟩ | ⟨earlier, stop, rfl, hearlier, hstop⟩
    · simp [hsent] at hstarted
    · rw [List.countP_append, hearlier.no_stop]
      simp [hstop]
  | streaming | biasing => cases hrest

/-- Nothing follows a StopStreaming. -/
theorem nothing_after_stop {before after : List Attempt} {stop : Attempt}
    (h : progressOf (before ++ stop :: after) = some p) (hstop : stop.command = .StopStreaming) :
    after = [] := by
  cases after with
  | nil => rfl
  | cons next after =>
    have hsplit : before ++ stop :: next :: after = before ++ [stop] ++ [next] ++ after := by simp
    rw [hsplit, progressOf, List.foldlM_append] at h
    obtain ⟨q, hq, -⟩ := Option.bind_eq_some_iff.mp h
    obtain ⟨q', hq', hnext⟩ := progressOf_append_eq_some.mp hq
    obtain ⟨q'', -, hlast⟩ := progressOf_append_eq_some.mp hq'
    have hover : q' = .ended := by
      rcases Progress.next_cases hlast with ⟨-, hcommand, -⟩ | ⟨-, hcommand, -⟩ | ⟨-, hcommand, -⟩ |
        ⟨-, -, hover⟩
      all_goals first
        | exact hover
        | simp [hstop] at hcommand
    rw [hover] at hnext
    cases hnext

/-- Every SetSoftwareBias follows a check that allows it. -/
theorem checked_of_progressOf (h : progressOf session = some p) :
    ∀ a ∈ session, a.command = .SetSoftwareBias → a.check.any BiasCheck.allows = true := by
  induction session using List.reverseRecOn generalizing p with
  | nil => exact fun a ha => by cases ha
  | append_singleton session b ih =>
    obtain ⟨p', hbefore, hnext⟩ := progressOf_append_eq_some.mp h
    intro a ha hbias
    rcases List.mem_append.mp ha with ha | ha
    · exact ih hbefore a ha hbias
    · rw [List.mem_singleton.mp ha] at hbias ⊢
      rcases Progress.next_cases hnext with ⟨-, hcommand, -⟩ | ⟨-, -, hcheck, -⟩ | ⟨-, hcommand, -⟩ |
        ⟨-, hcommand, -⟩
      all_goals first
        | exact hcheck
        | simp [hbias] at hcommand

end

/-! ## The wire -/

namespace Wire

/-- The session since the last `connect`. -/
def current (wire : Wire) : List Attempt := wire.headD []

/-- The progress of the current session. -/
def progress (wire : Wire) : Option Progress := progressOf wire.current

variable (wire : Wire) (a : Attempt)

@[simp] theorem connect_current : wire.connect.current = [] := rfl

@[simp] theorem connect_progress : wire.connect.progress = some .silent := rfl

@[simp] theorem connect_tail : wire.connect.tail = wire := rfl

@[simp] theorem attempt_current : (wire.attempt a).current = wire.current ++ [a] := by
  cases wire <;> rfl

variable {wire a} {p q : Progress}

/-- An attempt advances the current session. -/
theorem attempt_progress (h : wire.progress = some p) (hnext : p.next a = some q) :
    (wire.attempt a).progress = some q := by
  rw [progress, attempt_current]
  exact progressOf_append_eq_some.mpr ⟨p, h, hnext⟩

theorem attempt_inj {b : Attempt} (h : wire.attempt a = wire.attempt b) : a = b := by
  have hcurrent := congrArg current h
  rw [attempt_current, attempt_current] at hcurrent
  exact List.head_eq_of_cons_eq (List.append_cancel_left hcurrent)

theorem attempt_ne : wire.attempt a ≠ wire := by
  intro h
  have hcurrent := congrArg (List.length ∘ current) h
  simp at hcurrent

theorem connect_ne_attempt : wire.connect ≠ wire.attempt a := by
  intro h
  have hcurrent := congrArg current h
  simp at hcurrent

/-- A session is the current one, or one before it. -/
theorem mem_cases {session : List Attempt} (h : session ∈ wire) :
    session = wire.current ∨ session ∈ wire.tail := by
  cases wire with
  | nil => cases h
  | cons current earlier => exact List.mem_cons.mp h

end Wire

end NetFT.Client
