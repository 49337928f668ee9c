/-
# NetFT.Client.Lifecycle — where the handle of the worker is.

The lifecycle of the worker, without the data it works on: `Lifecycle` holds the handle (`worker_`, or a
local variable of `start` or `stop`), the fields that guard it, who is in a call of the client and who
destroys it.  `Lifecycle.Move` and `Lifecycle.LockedMove` are all that threads can do to it, the latter
only under `lifecycle_mutex_`.

* `Lawful` is the invariant: there is at most one handle, it belongs to a worker that was created and
  is not joined, and every other worker is joined.
* `Knows` lists what a thread may rely on between two of its steps; `Knows.In.move` and
  `Knows.In.lockedMove` say that the moves of other threads do not take it away.
-/
import NetFT.Client.Steps

namespace NetFT.Client

set_option autoImplicit false

open Library.Threads (Tid)

/-! ## The lifecycle -/

/-- The handles and calls of a client, without what it does. -/
structure Lifecycle where
  worker : Option Tid
  active : Option Tid
  joining : Bool
  exited : Bool
  busy : List Tid
  destroyer : Option Tid
  pending : Bool
  freed : Bool
  handover : Option (Tid × Option Tid)
  created : List Tid
  joined : List (Tid × Tid)

/-- The lifecycle of a client. -/
def Shared.lifecycle (s : Shared) : Lifecycle where
  worker := s.impl.worker
  active := s.impl.activeWorkerId
  joining := s.impl.joining
  exited := s.impl.workerExited
  busy := s.busy
  destroyer := s.destroyer
  pending := s.pending
  freed := s.freed
  handover := s.handover
  created := s.created
  joined := s.joined

namespace Lifecycle

/-- The handle of worker `w` is somewhere. -/
def Handle (l : Lifecycle) (w : Tid) : Prop := l.worker = some w ∨ ∃ j, l.handover = some (j, some w)

/-- No handle is anywhere. -/
def Vacant (l : Lifecycle) : Prop := l.worker = none ∧ l.handover = none

/-- Thread `t` runs as the worker, and has not said that it exits. -/
def Live (l : Lifecycle) (t : Tid) : Prop := l.Handle t ∧ l.active = some t ∧ l.exited = false

/-- Thread `t` is in a call of the client. -/
def Using (l : Lifecycle) (t : Tid) : Prop := t ∈ l.busy ∧ l.destroyer = none

/-- Thread `t` destroys the client. -/
def Destroying (l : Lifecycle) (t : Tid) : Prop :=
  l.destroyer = some t ∧ l.pending = false ∧ l.freed = false

/-- What holds of every lifecycle that is reached. -/
structure Lawful (l : Lifecycle) : Prop where
  joining_iff : l.joining = true ↔ l.handover ≠ none
  exclusive : l.worker ≠ none → l.handover = none
  handle : ∀ w, l.Handle w → w ∈ l.created ∧ w ∉ l.joined.map Prod.snd
  accounted : ∀ w ∈ l.created, w ∈ l.joined.map Prod.snd ∨ l.Handle w
  joined_created : ∀ w ∈ l.joined.map Prod.snd, w ∈ l.created
  once : (l.joined.map Prod.snd).Nodup
  others : ∀ jw ∈ l.joined, jw.1 ≠ jw.2
  active : ∀ w, l.active = some w → w ∈ l.created
  undestroyed : l.destroyer = none → l.pending = false ∧ l.freed = false
  freed : l.freed = true → l.Vacant ∧ l.pending = false

/-- There is one handle. -/
theorem Lawful.unique {l : Lifecycle} (h : l.Lawful) {a b : Tid} (ha : l.Handle a) (hb : l.Handle b) :
    a = b := by
  have := h.exclusive
  grind [Handle]

/-! ## Moves -/

/-- What thread `t` does to the lifecycle without a lock. -/
inductive Move (t : Tid) (l : Lifecycle) : Lifecycle → Prop where
  | stay : Move t l l
  | enter : l.destroyer = none → Move t l { l with busy := t :: l.busy }
  | leave : Move t l { l with busy := l.busy.erase t }
  | destroy : l.destroyer = none → l.busy = [] → Move t l { l with destroyer := some t }
  | enqueue : l.Destroying t → Move t l { l with pending := true }
  | dequeue : l.pending = true → Move t l { l with pending := false, destroyer := some t }
  | free : l.Destroying t → l.Vacant → Move t l { l with freed := true }
  | exit : l.Live t → Move t l { l with exited := true }

/-- What thread `t` does to the lifecycle under `lifecycle_mutex_`. -/
inductive LockedMove (t : Tid) (l : Lifecycle) : Lifecycle → Prop where
  | take {w : Tid} : l.joining = false → l.worker = some w → w ≠ t →
      LockedMove t l { l with worker := none, joining := true, handover := some (t, some w) }
  | clear : l.handover = some (t, none) →
      LockedMove t l { l with active := none, joining := false, handover := none }
  | setExited (exited : Bool) : l.Vacant → LockedMove t l { l with exited }
  | create {w : Tid} : l.Vacant → l.destroyer = none → w ∉ l.created →
      LockedMove t l { l with worker := some w, active := some w, created := w :: l.created }

/-- Thread `t` joins worker `w`. -/
def join (l : Lifecycle) (t w : Tid) : Lifecycle :=
  { l with handover := some (t, none), joined := (t, w) :: l.joined }

variable {l l' : Lifecycle} {t u w : Tid}

/-- The moves keep the laws. -/
theorem Lawful.move (h : l.Lawful) (hmove : Move t l l') : l'.Lawful := by
  have hundestroyed := h.undestroyed
  cases hmove with
  | stay | enter | leave | exit =>
    exact ⟨h.joining_iff, h.exclusive, h.handle, h.accounted, h.joined_created, h.once, h.others,
      h.active, hundestroyed, h.freed⟩
  | destroy _ _ =>
    exact ⟨h.joining_iff, h.exclusive, h.handle, h.accounted, h.joined_created, h.once, h.others,
      h.active, by rintro ⟨⟩, h.freed⟩
  | enqueue hdestroying =>
    obtain ⟨hdestroyer, -, hfreed⟩ := hdestroying
    exact ⟨h.joining_iff, h.exclusive, h.handle, h.accounted, h.joined_created, h.once, h.others,
      h.active, fun hnone => absurd (hdestroyer.symm.trans hnone) (by simp),
      fun hyes => absurd (hfreed.symm.trans hyes) (by simp)⟩
  | dequeue _ =>
    exact ⟨h.joining_iff, h.exclusive, h.handle, h.accounted, h.joined_created, h.once, h.others,
      h.active, by rintro ⟨⟩, fun hfreed => ⟨(h.freed hfreed).1, rfl⟩⟩
  | free hdestroying hvacant =>
    obtain ⟨hdestroyer, hpending, -⟩ := hdestroying
    exact ⟨h.joining_iff, h.exclusive, h.handle, h.accounted, h.joined_created, h.once, h.others,
      h.active, fun hnone => absurd (hdestroyer.symm.trans hnone) (by simp),
      fun _ => ⟨hvacant, hpending⟩⟩

/-- So do those under the lifecycle mutex. -/
theorem Lawful.lockedMove (h : l.Lawful) (hmove : LockedMove t l l') : l'.Lawful := by
  cases hmove with
  | @take w hjoining hworker hne =>
    have hhandover : l.handover = none := h.exclusive (by simp [hworker])
    refine ⟨by simp, fun hc => absurd rfl hc, ?_, ?_, h.joined_created, h.once, h.others, h.active,
      h.undestroyed, fun hfreed => ?_⟩
    · rintro v (hnone | ⟨j, hj⟩)
      · cases hnone
      · cases hj
        exact h.handle w (.inl hworker)
    · refine fun v hv => (h.accounted v hv).imp_right ?_
      rintro (hv' | ⟨j, hj⟩)
      · rw [hworker] at hv'
        exact .inr ⟨t, by rw [hv']⟩
      · rw [hhandover] at hj
        cases hj
    · rw [(h.freed hfreed).1.1] at hworker
      cases hworker
  | clear hhandover =>
    refine ⟨by simp, fun _ => rfl, ?_, ?_, h.joined_created, h.once, h.others, by rintro w ⟨⟩,
      h.undestroyed, fun hfreed => ?_⟩
    · rintro v (hworker | ⟨j, hj⟩)
      · exact h.handle v (.inl hworker)
      · cases hj
    · refine fun v hv => (h.accounted v hv).imp_right ?_
      rintro (hworker | ⟨j, hj⟩)
      · exact .inl hworker
      · rw [hhandover] at hj
        cases hj
    · rw [(h.freed hfreed).1.2] at hhandover
      cases hhandover
  | setExited exited _ =>
    exact ⟨h.joining_iff, h.exclusive, h.handle, h.accounted, h.joined_created, h.once, h.others,
      h.active, h.undestroyed, h.freed⟩
  | @create w hvacant hdestroyer hnew =>
    have hnone : ∀ v, ¬ l.Handle v := by
      rintro v (hworker | ⟨j, hj⟩)
      · rw [hvacant.1] at hworker
        cases hworker
      · rw [hvacant.2] at hj
        cases hj
    refine ⟨h.joining_iff, fun _ => hvacant.2, ?_, ?_,
      fun v hv => List.mem_cons_of_mem _ (h.joined_created v hv), h.once, h.others, ?_, h.undestroyed,
      fun hfreed => ?_⟩
    · rintro v (hv | ⟨j, hj⟩)
      · cases hv
        exact ⟨List.mem_cons_self, fun hjoined => hnew (h.joined_created w hjoined)⟩
      · exact absurd (.inr ⟨j, hj⟩) (hnone v)
    · intro v hv
      rcases List.mem_cons.mp hv with rfl | hold
      · exact .inr (.inl rfl)
      · exact .inl ((h.accounted v hold).resolve_right (hnone v))
    · rintro v ⟨⟩
      exact List.mem_cons_self
    · exact absurd ((h.undestroyed hdestroyer).2.symm.trans hfreed) (by simp)

/-- So does the join. -/
theorem Lawful.join (h : l.Lawful) (hhandover : l.handover = some (t, some w)) (hne : w ≠ t) :
    (l.join t w).Lawful := by
  obtain ⟨h₁, h₂, h₃, h₄, h₅, h₆, h₇, h₈, h₉, h₁₀⟩ := h
  have hhandle := h₃ w (.inr ⟨t, hhandover⟩)
  constructor <;> grind [Lifecycle.join, Handle, Vacant]

/-! ## What the moves of other threads leave alone -/

/-- A handle stays over the moves of others. -/
theorem Handle.move (h : l.Handle w) (hmove : Move t l l') : l'.Handle w := by
  cases hmove <;> exact h

theorem Handle.lockedMove (h : l.Handle w) (hlawful : l.Lawful) (hmove : LockedMove t l l') :
    l'.Handle w := by
  have := hlawful.exclusive
  cases hmove <;> grind [Handle, Vacant]

theorem Handle.join (h : l.Handle w) (hlawful : l.Lawful) (hhandover : l.handover = some (t, some u))
    (hne : w ≠ u) : (l.join t u).Handle w :=
  absurd (hlawful.unique h (.inr ⟨t, hhandover⟩)) hne

/-- The worker stays live over the moves of others. -/
theorem Live.move (h : l.Live u) (hlawful : l.Lawful) (hmove : Move t l l') (hne : u ≠ t) :
    l'.Live u := by
  obtain ⟨hhandle, hactive, hexited⟩ := h
  refine ⟨hhandle.move hmove, ?_⟩
  cases hmove with
  | exit hlive => exact absurd (hlawful.unique hhandle hlive.1) hne
  | _ => exact ⟨hactive, hexited⟩

theorem Live.lockedMove (h : l.Live u) (hlawful : l.Lawful) (hmove : LockedMove t l l') :
    l'.Live u := by
  obtain ⟨hhandle, hactive, hexited⟩ := h
  refine ⟨hhandle.lockedMove hlawful hmove, ?_⟩
  have := hlawful.exclusive
  cases hmove <;> grind [Handle, Vacant]

theorem Live.join (h : l.Live w) (hlawful : l.Lawful) (hhandover : l.handover = some (t, some u))
    (hne : w ≠ u) : (l.join t u).Live w :=
  ⟨h.1.join hlawful hhandover hne, h.2⟩

/-- A call goes on over the moves of others. -/
theorem Using.move (h : l.Using u) (hmove : Move t l l') (hlawful : l.Lawful) (hne : u ≠ t) :
    l'.Using u := by
  have := hlawful.undestroyed
  cases hmove <;> grind [Using, Destroying]

/-- So does a destructor. -/
theorem Destroying.move (h : l.Destroying u) (hmove : Move t l l') (hne : u ≠ t) :
    l'.Destroying u := by
  cases hmove <;> grind [Destroying]

/-- The moves under the lifecycle mutex begin and end no call. -/
theorem LockedMove.busy (hmove : LockedMove t l l') :
    l'.busy = l.busy ∧ l'.destroyer = l.destroyer ∧ l'.pending = l.pending ∧ l'.freed = l.freed := by
  cases hmove <;> exact ⟨rfl, rfl, rfl, rfl⟩

theorem Using.lockedMove (h : l.Using u) (hmove : LockedMove t l l') : l'.Using u := by
  obtain ⟨hbusy, hdestroyer, -, -⟩ := hmove.busy
  exact ⟨hbusy ▸ h.1, hdestroyer ▸ h.2⟩

theorem Destroying.lockedMove (h : l.Destroying u) (hmove : LockedMove t l l') : l'.Destroying u := by
  obtain ⟨-, hdestroyer, hpending, hfreed⟩ := hmove.busy
  exact ⟨hdestroyer ▸ h.1, hpending ▸ h.2.1, hfreed ▸ h.2.2⟩

/-! ## What a thread may rely on -/

/-- What a thread knows of the handle where it stands. -/
inductive Knows where
  | nothing
  | notJoining
  | vacant
  /-- `start` is about to create the worker. -/
  | opened
  /-- The thread is about to join `w`. -/
  | holding (w : Tid)
  | hasJoined
  /-- The destructor's `stop` is over. -/
  | gone

namespace Knows

/-- What it means to know something of the handle. -/
def In (k : Knows) (t : Tid) (l : Lifecycle) : Prop :=
  match k with
  | .nothing => True
  | .notJoining => l.joining = false
  | .vacant => l.Vacant
  | .opened => l.Vacant ∧ l.exited = false
  | .holding w => l.handover = some (t, some w) ∧ w ≠ t
  | .hasJoined => l.handover = some (t, none)
  | .gone => l.Vacant ∧ l.destroyer = some t

/-- Knowledge that lasts only while the thread holds `lifecycle_mutex_`. -/
def NeedsLock : Knows → Prop
  | .notJoining | .vacant | .opened => True
  | _ => False

variable {k : Knows}

/-- A move of another thread leaves what is known. -/
theorem In.move (h : k.In u l) (hmove : Move t l l') (hdestroying : k = .gone → l.pending = false) :
    k.In u l' := by
  cases hmove with
  | exit hlive =>
    cases k with
    | opened =>
      rcases hlive.1 with hworker | ⟨j, hhandover⟩
      · simp [h.1.1] at hworker
      · simp [h.1.2] at hhandover
    | _ => exact h
  | dequeue hpending =>
    cases k with
    | gone => simp [hdestroying rfl] at hpending
    | _ => exact h
  | destroy hdestroyer _ =>
    cases k with
    | gone => exact absurd h.2 (by simp [hdestroyer])
    | _ => exact h
  | _ => exact h

/-- So does one under the lifecycle mutex of what is known without it. -/
theorem In.lockedMove (h : k.In u l) (hlawful : l.Lawful) (hmove : LockedMove t l l') (hne : u ≠ t)
    (hlock : ¬ k.NeedsLock) : k.In u l' := by
  obtain ⟨hjoining, hexclusive, -⟩ := hlawful
  cases k <;> cases hmove <;> grind [In, NeedsLock, Vacant]

/-- A join leaves it too. -/
theorem In.join (h : k.In u l) (hlawful : l.Lawful) (hhandover : l.handover = some (t, some w))
    (hne : u ≠ t) : k.In u (l.join t w) := by
  obtain ⟨hjoining, hexclusive, -⟩ := hlawful
  cases k <;> grind [In, Vacant, Lifecycle.join]

end Knows

end Lifecycle

end NetFT.Client
