/-
# NetFT.Client.Ownership — one thread at a time works on the data of the client.

A thread owns the data while it is the worker, or while it is in `start` or `stop` and knows that no
worker is alive.

* `System.Reachable.lifecycle_step`: every step of the system is a step of the lifecycle.
* `System.Reachable.latest_worker`: the worker whose handle is anywhere is the one created last.
* **`System.Reachable.owner_unique`**: no two threads own the data.
-/
import NetFT.Client.WorkerSafety

namespace NetFT.Client

set_option autoImplicit false

open Library (Runs)
open Library.Threads (Tid Effect Program Sys)
open Lifecycle (Move LockedMove)

/-! ## Steps of the lifecycle -/

namespace System.Reachable

variable {config : Config} {s s' : System} {i : Input} {t u w : Tid}

theorem step (h : s.Reachable config) (hstep : Step s i s') : s'.Reachable config := h.snoc hstep

/-- A thread that a step starts was not created before. -/
theorem not_created_of_fresh (h : s.Reachable config)
    (hfresh : (s.threads u).pc.isOutside = true) : u ∉ s.shared.created := by
  have hstanding := (h.placed u).standing
  cases hpc : (s.threads u).pc with
  | outside =>
    rw [hpc] at hstanding
    exact hstanding
  | _ => simp [hpc, Pc.isOutside] at hfresh

/-- **Every step is a move of the lifecycle**, or a join. -/
theorem lifecycle_step (h : s.Reachable config) (hstep : Step s i s') :
    Move i.tid s.shared.lifecycle s'.shared.lifecycle ∨
      LockedMove i.tid s.shared.lifecycle s'.shared.lifecycle ∨
      ∃ w, s.shared.lifecycle.handover = some (i.tid, some w) ∧ w ≠ i.tid ∧
        s'.shared.lifecycle = s.shared.lifecycle.join i.tid w := by
  have hact : ∀ {takes f choice e}, (s.threads i.tid).pc.instr = .act takes f →
      f i.tid choice s.shared = some e →
      (∀ child entry, e.spawned = some (child, entry) → child ∉ s.shared.created ∧ child ≠ i.tid) →
      Move i.tid s.shared.lifecycle e.shared.lifecycle ∨
        LockedMove i.tid s.shared.lifecycle e.shared.lifecycle := fun hinstr hf hchild =>
    (act_lifecycle hinstr hf (h.placed i.tid) h.lawful hchild).move.imp_right And.left
  cases program.step_cases hstep with
  | act _ hinstr hf _ _ hspawned =>
    rcases hact hinstr hf (fun child entry hchild => by simp [hspawned] at hchild) with hmove | hmove
    · exact .inl hmove
    · exact .inr (.inl hmove)
  | spawn _ hinstr hf _ _ hspawned hne hfresh _ =>
    rcases hact hinstr hf (fun child' entry' heq => by
      rw [hspawned] at heq
      cases heq
      exact ⟨h.not_created_of_fresh hfresh, hne⟩) with hmove | hmove
    · exact .inl hmove
    · exact .inr (.inl hmove)
  | join _ hinstr _ _ =>
    obtain ⟨hhandover, hne⟩ := handover_of_join hinstr (h.placed i.tid)
    obtain ⟨rfl, -⟩ := Pc.instr_join hinstr
    exact .inr (.inr ⟨_, hhandover, hne, rfl⟩)
  | _ => exact .inl .stay

/-- The worker that has not been joined was created last. -/
theorem latest_worker (h : s.Reachable config) (hhandle : s.shared.lifecycle.Handle w) :
    s.shared.created.head? = some w := by
  suffices hall : ∀ w, s.shared.lifecycle.Handle w → s.shared.created.head? = some w from hall w hhandle
  refine Library.Reachable.invariant
    (I := fun s => ∀ w, s.shared.lifecycle.Handle w → s.shared.created.head? = some w) ?_ ?_ h
  · rintro w (hworker | ⟨j, hhandover⟩)
    · cases hworker
    · cases hhandover
  · intro s i s' hreach hinv hstep w hhandle
    replace hreach : s.Reachable config := hreach
    have hcreated : ∀ s : System, s.shared.created = s.shared.lifecycle.created := fun _ => rfl
    rw [hcreated] at hinv ⊢
    rcases hreach.lifecycle_step hstep with hmove | hmove | ⟨v, hhandover, hne, hjoin⟩
    · generalize s'.shared.lifecycle = l' at hmove hhandle ⊢
      cases hmove <;> exact hinv w hhandle
    · generalize s'.shared.lifecycle = l' at hmove hhandle ⊢
      have hexclusive := hreach.lawful.exclusive
      cases hmove <;> grind [Lifecycle.Handle, Lifecycle.Vacant]
    · rw [hjoin] at hhandle ⊢
      rcases hhandle with hworker | ⟨j, hother⟩
      · exact hinv w (.inl hworker)
      · cases hother

end System.Reachable

/-! ## Owners -/

/-- No worker is alive. -/
def Lifecycle.Knows.unoccupied : Lifecycle.Knows → Bool
  | .vacant | .opened | .hasJoined => true
  | _ => false

/-- The thread is the worker, or has the client for itself. -/
def Pc.owning (p : Pc) : Bool := p.isWorker || p.knows.unoccupied

namespace System.Reachable

variable {config : Config} {s : System} {t u : Tid}

/-- What a thread that has the client for itself relies on: there is no handle, and it holds
`lifecycle_mutex_`, or it has joined the worker and not said so yet. -/
theorem unoccupied_cases (h : s.Reachable config) (ht : (s.threads t).pc.knows.unoccupied = true) :
    (s.shared.lifecycle.Vacant ∧ .lifecycle ∈ program.held (s.threads t)) ∨
      s.shared.lifecycle.handover = some (t, none) := by
  have hknows := (h.placed t).knows
  have hheld : (s.threads t).pc.knows.NeedsLock → .lifecycle ∈ program.held (s.threads t) := by
    intro hneeds
    obtain ⟨hholds, hwait⟩ := Pc.holds_of_needsLock hneeds
    have hrun : (s.threads t).mode = .running := by
      by_contra hmode
      simp [h.consistent.parked t hmode] at hwait
    rw [Program.held, hrun]
    exact hholds
  revert ht hknows hheld
  cases (s.threads t).pc.knows with
  | vacant => exact fun _ hknows hheld => .inl ⟨hknows, hheld ⟨⟩⟩
  | opened => exact fun _ hknows hheld => .inl ⟨hknows.1, hheld ⟨⟩⟩
  | hasJoined => exact fun _ hknows _ => .inr hknows
  | _ => exact fun ht => by cases ht

theorem noWorker_of_unoccupied (h : s.Reachable config)
    (ht : (s.threads t).pc.knows.unoccupied = true) : s.NoWorker := by
  rcases h.unoccupied_cases ht with ⟨hvacant, -⟩ | hhandover
  · exact h.noWorker_of_vacant hvacant.1 fun j w heq => by
      rw [show s.shared.handover = none from hvacant.2] at heq
      cases heq
  · have hworker : s.shared.impl.worker = none := by
      by_contra hsome
      have hnone := h.lawful.exclusive hsome
      rw [hhandover] at hnone
      cases hnone
    refine h.noWorker_of_vacant hworker fun j w heq => ?_
    rw [show s.shared.handover = some (t, none) from hhandover] at heq
    cases heq

/-- **At most one thread owns the data.** -/
theorem owner_unique (h : s.Reachable config) (ht : (s.threads t).pc.owning = true)
    (hu : (s.threads u).pc.owning = true) : t = u := by
  rw [Pc.owning, Bool.or_eq_true] at ht hu
  rcases ht with ht | ht <;> rcases hu with hu | hu
  · exact h.workerSafe.one t u ht hu
  · exact absurd ht (h.noWorker_of_unoccupied hu t)
  · exact absurd hu (h.noWorker_of_unoccupied ht u)
  · rcases h.unoccupied_cases ht with ⟨hvacant, hheld⟩ | hhandover <;>
      rcases h.unoccupied_cases hu with ⟨hvacant', hheld'⟩ | hhandover'
    · exact h.consistent.exclusive hheld hheld'
    · rw [hvacant.2] at hhandover'
      cases hhandover'
    · rw [hvacant'.2] at hhandover
      cases hhandover
    · rw [hhandover] at hhandover'
      cases hhandover'
      rfl

end System.Reachable

end NetFT.Client
