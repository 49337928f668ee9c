/-
# NetFT.Client.DeferredDestroyer — clients that are destroyed from their own callbacks (`client.cpp`).

`~Client` in a callback runs on the worker that it would have to join.  It hands the client to the thread of
`DeferredDestroyer`, which the first such call creates: `enqueue` pushes under the mutex and notifies after
it, `run` waits, pops, stops (which joins the client's worker) and frees.  The model has a thread for the
worker of every client, any number of them, and thread 0 for the destroyer.

* `Queued` is the invariant: what was enqueued is what was freed, the client at hand, and the queue, in order;
  a sleeping destroyer with work has a notify coming.
* `exists_freed`: with a client waiting, the destroyer and the workers it waits for bring one more to an end.
* **`destroyed_inOrder`**: every client is freed at most once, in the order of the calls, after its worker has
  ended, and no wake-up is lost: all that wait can be freed without a spurious one.
-/
import NetFT.Library.Wakeup

namespace NetFT.DeferredDestroyer

set_option autoImplicit false

open Library (Runs Reachable stepOf)
open Library.Threads

/-! ## The program -/

/-- The destroyer's queue. -/
structure Shared where
  /-- The instance, with its thread, is there. -/
  constructed : Bool := false
  pending : List Tid := []
  /-- The clients pushed and freed so far; the program reads neither. -/
  enqueued : List Tid := []
  freed : List Tid := []
  deriving DecidableEq, Repr

/-- The worker of a client in its session, in `~Client` and behind it; the destroyer's thread. -/
inductive Pc where
  | running
  | destroying
  | acquiring
  | enqueueing
  | notifying
  | leaving
  | ended
  | unborn
  | looping
  | waiting
  | popping
  | stopping (client : Tid)
  deriving DecidableEq, Repr

/-- What a callback does, or that the client is stopped from outside. -/
inductive Choice where
  | destroy
  | finish
  deriving DecidableEq, Repr, Inhabited

namespace Pc

/-- What a thread does at each control point. -/
def instr : Pc → Instr Shared Pc Unit Unit Choice
  | .running => .act [] fun _ choice s =>
    match choice with
    | .destroy => some { shared := s, next := .destroying }
    | .finish => some { shared := s, next := .ended }
  -- `impl_->stop()` on the worker itself only requests the end
  | .destroying => .act [] fun _ _ s => some { shared := s, next := .acquiring }
  -- `deferred_destroyer()`, a static local
  | .acquiring => .act [] fun _ _ s =>
    if s.constructed then some { shared := s, next := .enqueueing }
    else some { shared := { s with constructed := true }, next := .enqueueing,
                spawned := some (0, .looping) }
  | .enqueueing => .act [()] fun t _ s =>
    some { shared := { s with pending := s.pending ++ [t], enqueued := s.enqueued ++ [t] },
           next := .notifying }
  | .notifying => .notify () .leaving
  | .leaving => .act [] fun _ _ s => some { shared := s, next := .ended }
  | .ended | .unborn => .act [] fun _ _ _ => none
  | .looping => .act [] fun _ _ s => some { shared := s, next := .waiting }
  | .waiting => .wait () (fun s => !s.pending.isEmpty) .popping none
  | .popping => .act [] fun _ _ s =>
    match s.pending with
    | [] => none
    | client :: rest => some { shared := { s with pending := rest }, next := .stopping client }
  -- `value->stop()` joins the worker, and the end of the scope frees the client
  | .stopping client => .join client (fun _ s => { s with freed := s.freed ++ [client] }) .looping

/-- The mutex is held at two points of the destroyer. -/
def holds : Pc → List Unit
  | .waiting | .popping => [()]
  | _ => []

end Pc

/-- The program of the clients and the destroyer. -/
def program : Program Shared Pc Unit Unit Choice where
  instr := Pc.instr
  holds := Pc.holds
  fresh p := p = .unborn
  ended p := p = .ended
  fresh_holds p h := by
    rw [of_decide_eq_true h]
    rfl

abbrev System := Sys Shared Pc Unit

/-- Every client streams; the destroyer is not there yet. -/
def System.init : System where
  shared := {}
  owner _ := none
  threads t := { pc := if t = 0 then .unborn else .running }

abbrev Step : System → Input Choice → System → Prop := program.step

/-! ## What is where -/

namespace Pc

/-- The destroyer's thread. -/
def destroys : Pc → Bool
  | .unborn | .looping | .waiting | .popping | .stopping _ => true
  | _ => false

/-- A client that has been pushed. -/
def pushed : Pc → Bool
  | .notifying | .leaving | .ended => true
  | _ => false

/-- The client that the destroyer has taken. -/
def hand : Pc → List Tid
  | .stopping client => [client]
  | _ => []

end Pc

/-- The queue and the threads fit together. -/
structure Queued (s : System) : Prop where
  consistent : program.Consistent s
  destroys : ∀ t, (s.threads t).pc.destroys = true ↔ t = 0
  unborn : (s.threads 0).pc = .unborn → s.shared.constructed = false ∧ s.shared.enqueued = []
  born : s.shared.constructed = false → (s.threads 0).pc = .unborn
  built : ∀ t, (s.threads t).pc = .enqueueing → s.shared.constructed = true
  order : s.shared.enqueued = s.shared.freed ++ (s.threads 0).pc.hand ++ s.shared.pending
  once : s.shared.enqueued.Nodup
  pushed : ∀ t ∈ s.shared.enqueued, (s.threads t).pc.pushed = true
  enqueued : ∀ t, (s.threads t).pc = .notifying ∨ (s.threads t).pc = .leaving → t ∈ s.shared.enqueued
  freed : ∀ t ∈ s.shared.freed, (s.threads t).pc = .ended
  taking : (s.threads 0).pc = .popping → s.shared.pending ≠ []
  window : (s.threads 0).mode = .window → s.shared.pending = []
  announced : (s.threads 0).mode = .blocked → s.shared.pending ≠ [] → ∃ t, (s.threads t).pc = .notifying

/-! ## Every step -/

/-- A move of a client's worker that changes nothing else. -/
inductive Local (s : System) : Pc → Pc → Prop where
  | destroy : Local s .running .destroying
  | finish : Local s .running .ended
  | stop : Local s .destroying .acquiring
  | found : s.shared.constructed = true → Local s .acquiring .enqueueing
  | leave : Local s .leaving .ended

/-- What a step can be. -/
inductive Event (s : System) (t : Tid) : System → Prop where
  | client {q : Pc} : Local s (s.threads t).pc q → Event s t (program.goto s t q)
  | construct : (s.threads t).pc = .acquiring → s.shared.constructed = false → 0 ≠ t →
      (s.threads 0).pc = .unborn →
      Event s t (Sys.setThread { program.goto s t .enqueueing with
        shared := { s.shared with constructed := true } } 0 { pc := .looping })
  | lock : (s.threads t).pc = .looping → Event s t (program.goto s t .waiting)
  | push : (s.threads t).pc = .enqueueing → s.Available t [()] →
      Event s t { program.goto s t .notifying with
        shared := { s.shared with pending := s.shared.pending ++ [t], enqueued := s.shared.enqueued ++ [t] } }
  | notify : (s.threads t).pc = .notifying → Event s t (program.goto (program.wakeAll s ()) t .leaving)
  | pass : (s.threads t).pc = .waiting → s.shared.pending ≠ [] → Event s t (program.goto s t .popping)
  | check : (s.threads t).pc = .waiting → s.shared.pending = [] → Event s t (s.setMode t .window)
  | pop {client : Tid} {rest : List Tid} : (s.threads t).pc = .popping →
      s.shared.pending = client :: rest →
      Event s t { program.goto s t (.stopping client) with shared := { s.shared with pending := rest } }
  | join {client : Tid} : (s.threads t).pc = .stopping client → (s.threads client).pc = .ended →
      Event s t { program.goto s t .looping with
        shared := { s.shared with freed := s.shared.freed ++ [client] } }
  | block : (s.threads t).pc = .waiting → (s.threads t).mode = .window →
      Event s t ((s.relock t []).setMode t .blocked)
  | wake : (s.threads t).pc = .waiting → Event s t (s.setMode t .woken)
  | resume : (s.threads t).pc = .waiting → Event s t (program.goto s t .waiting)

theorem pc_of_waits {p : Pc} (h : program.waits p = true) : p = .waiting := by
  cases p <;> first | rfl | cases h

/-- Every step is one of the events. -/
theorem event_of_step {s s' : System} {i : Input Choice} (hc : program.Consistent s) (h : Step s i s') :
    Event s i.tid s' := by
  have hwaiting : (s.threads i.tid).mode ≠ .running → (s.threads i.tid).pc = .waiting :=
    fun hmode => pc_of_waits (hc.parked _ hmode)
  cases program.step_cases h with
  | @act takes f choice e hmode hinstr hf hfree _ hspawned =>
    cases hpc : (s.threads i.tid).pc with
    | running =>
      rw [hpc] at hinstr
      cases hinstr
      cases choice with
      | destroy =>
        cases hf
        exact .client (by rw [hpc]; exact .destroy)
      | finish =>
        cases hf
        exact .client (by rw [hpc]; exact .finish)
    | destroying =>
      rw [hpc] at hinstr
      cases hinstr
      cases hf
      exact .client (by rw [hpc]; exact .stop)
    | acquiring =>
      rw [hpc] at hinstr
      cases hinstr
      simp only at hf
      split_ifs at hf with hconstructed <;> cases hf
      · exact .client (by rw [hpc]; exact .found hconstructed)
      · cases hspawned
    | enqueueing =>
      rw [hpc] at hinstr
      cases hinstr
      cases hf
      exact .push hpc hfree
    | leaving =>
      rw [hpc] at hinstr
      cases hinstr
      cases hf
      exact .client (by rw [hpc]; exact .leave)
    | looping =>
      rw [hpc] at hinstr
      cases hinstr
      cases hf
      exact .lock hpc
    | popping =>
      rw [hpc] at hinstr
      cases hinstr
      simp only at hf
      split at hf
      · cases hf
      · rename_i client rest hpending
        cases hf
        exact .pop hpc hpending
    | ended | unborn =>
      rw [hpc] at hinstr
      cases hinstr
      cases hf
    | notifying | waiting | stopping client =>
      rw [hpc] at hinstr
      cases hinstr
  | @spawn takes f choice e child entry hmode hinstr hf hfree _ hspawned hchild hunborn _ =>
    cases hpc : (s.threads i.tid).pc with
    | acquiring =>
      rw [hpc] at hinstr
      cases hinstr
      simp only at hf
      split_ifs at hf with hconstructed <;> cases hf
      · cases hspawned
      · cases hspawned
        exact .construct hpc (by simpa using hconstructed) hchild (of_decide_eq_true hunborn)
    | running =>
      rw [hpc] at hinstr
      cases hinstr
      cases choice <;> cases hf <;> cases hspawned
    | popping =>
      rw [hpc] at hinstr
      cases hinstr
      simp only at hf
      split at hf <;> cases hf
      cases hspawned
    | destroying | enqueueing | leaving | looping =>
      rw [hpc] at hinstr
      cases hinstr
      cases hf
      cases hspawned
    | ended | unborn =>
      rw [hpc] at hinstr
      cases hinstr
      cases hf
    | notifying | waiting | stopping client =>
      rw [hpc] at hinstr
      cases hinstr
  | @notify c q hmode hinstr _ =>
    cases hpc : (s.threads i.tid).pc <;> rw [hpc] at hinstr <;> cases hinstr
    exact .notify hpc
  | @pass c ready q timeout hmode hinstr hready _ =>
    cases hpc : (s.threads i.tid).pc <;> rw [hpc] at hinstr <;> cases hinstr
    exact .pass hpc (by simpa using hready)
  | @check c ready q timeout hmode hinstr hready =>
    cases hpc : (s.threads i.tid).pc <;> rw [hpc] at hinstr <;> cases hinstr
    exact .check hpc (by simpa using hready)
  | @join child f q hmode hinstr hended _ =>
    cases hpc : (s.threads i.tid).pc <;> rw [hpc] at hinstr <;> cases hinstr
    exact .join hpc (of_decide_eq_true hended)
  | block hmode => exact .block (hwaiting (by simp [hmode])) hmode
  | wake hmode => exact .wake (hwaiting (by simp [hmode]))
  | @expire c ready p q hmode hinstr _ =>
    cases hpc : (s.threads i.tid).pc <;> rw [hpc] at hinstr <;> cases hinstr
  | resume hmode _ =>
    have hpc := hwaiting (by simp [hmode])
    rw [hpc]
    exact .resume hpc

/-! ## The queue -/

/-- Clients are not thread 0. -/
theorem Queued.ne_zero {s : System} {t : Tid} (h : Queued s) (hpc : (s.threads t).pc.destroys = false) :
    0 ≠ t := by
  rintro rfl
  rw [(h.destroys 0).mpr rfl] at hpc
  cases hpc

theorem Queued.eq_zero {s : System} {t : Tid} (h : Queued s) (hpc : (s.threads t).pc.destroys = true) :
    t = 0 := (h.destroys t).mp hpc

/-- A client's worker goes on, and nothing else happens. -/
theorem Queued.client {s s' : System} {t : Tid} {q : Pc} (h : Queued s) (hc : program.Consistent s')
    (hpc : (s.threads t).pc.destroys = false) (hq : q.destroys = false)
    (hself : (s'.threads t).pc = q) (hothers : ∀ u, u ≠ t → s'.threads u = s.threads u)
    (hshared : s'.shared = s.shared) (hbuilt : q = .enqueueing → s.shared.constructed = true)
    (hpushed : (s.threads t).pc.pushed = true → q.pushed = true)
    (henqueued : q = .notifying ∨ q = .leaving → t ∈ s.shared.enqueued)
    (hended : (s.threads t).pc ≠ .ended)
    (hannounced : (s.threads t).pc = .notifying → (s.threads 0).mode ≠ .blocked) : Queued s' := by
  have hzero := hothers 0 (h.ne_zero hpc)
  have hpcs : ∀ u, (s'.threads u).pc = if u = t then q else (s.threads u).pc := by
    intro u
    split_ifs with hu
    · rw [hu, hself]
    · rw [hothers u hu]
  constructor
  · exact hc
  · intro u
    rw [hpcs]
    split_ifs with hu
    · rw [hq, hu]
      exact ⟨nofun, fun heq => absurd heq.symm (h.ne_zero hpc)⟩
    · exact h.destroys u
  · rw [hzero, hshared]
    exact h.unborn
  · rw [hzero, hshared]
    exact h.born
  · intro u hu
    rw [hpcs] at hu
    rw [hshared]
    split_ifs at hu
    · exact hbuilt hu
    · exact h.built u hu
  · rw [hzero, hshared]
    exact h.order
  · rw [hshared]
    exact h.once
  · intro u hu
    rw [hshared] at hu
    rw [hpcs]
    split_ifs with heq
    · exact hpushed (h.pushed t (heq ▸ hu))
    · exact h.pushed u hu
  · intro u hu
    rw [hpcs] at hu
    rw [hshared]
    split_ifs at hu with heq
    · exact heq ▸ henqueued hu
    · exact h.enqueued u hu
  · intro u hu
    rw [hshared] at hu
    rw [hpcs]
    split_ifs with heq
    · exact absurd (h.freed t (heq ▸ hu)) hended
    · exact h.freed u hu
  · rw [hzero, hshared]
    exact h.taking
  · rw [hzero, hshared]
    exact h.window
  · rw [hzero, hshared]
    intro hmode hpending
    obtain ⟨u, hu⟩ := h.announced hmode hpending
    refine ⟨u, ?_⟩
    rw [hpcs, if_neg ?_]
    · exact hu
    · rintro rfl
      exact hannounced hu hmode

/-- The destroyer's thread goes on. -/
theorem Queued.destroyer {s s' : System} (h : Queued s) (hc : program.Consistent s')
    (hborn : (s.threads 0).pc ≠ .unborn) (hpc : (s'.threads 0).pc.destroys = true)
    (hborn' : (s'.threads 0).pc ≠ .unborn) (hothers : ∀ u, u ≠ 0 → s'.threads u = s.threads u)
    (hconstructed : s'.shared.constructed = s.shared.constructed)
    (henqueued : s'.shared.enqueued = s.shared.enqueued)
    (horder : s.shared.enqueued = s'.shared.freed ++ (s'.threads 0).pc.hand ++ s'.shared.pending)
    (hfreed : ∀ t ∈ s'.shared.freed, (s.threads t).pc = .ended)
    (htaking : (s'.threads 0).pc = .popping → s'.shared.pending ≠ [])
    (hsleep : (s'.threads 0).mode = .window ∨ (s'.threads 0).mode = .blocked → s'.shared.pending = []) :
    Queued s' := by
  -- The other threads are clients, and stand where they stood.
  have hclient : ∀ u, (s.threads u).pc.destroys = false → s'.threads u = s.threads u := by
    intro u hu
    exact hothers u (h.ne_zero hu).symm
  have hback : ∀ u, (s'.threads u).pc.destroys = false → s'.threads u = s.threads u := by
    intro u hu
    apply hothers u
    rintro rfl
    rw [hpc] at hu
    cases hu
  constructor
  · exact hc
  · intro u
    by_cases hu : u = 0
    · subst hu
      exact ⟨fun _ => rfl, fun _ => hpc⟩
    · rw [hothers u hu]
      exact h.destroys u
  · exact fun hunborn => absurd hunborn hborn'
  · exact fun hnone => absurd (h.born (hconstructed ▸ hnone)) hborn
  · intro u hu
    rw [hconstructed]
    rw [hback u (by rw [hu]; rfl)] at hu
    exact h.built u hu
  · rw [henqueued]
    exact horder
  · rw [henqueued]
    exact h.once
  · intro u hu
    rw [henqueued] at hu
    have hpushed := h.pushed u hu
    rw [hclient u (by cases hp : (s.threads u).pc <;> rw [hp] at hpushed <;> first | rfl | cases hpushed)]
    exact hpushed
  · intro u hu
    rw [henqueued]
    rw [hback u (by rcases hu with hu | hu <;> rw [hu] <;> rfl)] at hu
    exact h.enqueued u hu
  · intro u hu
    have hended := hfreed u hu
    rw [hclient u (by rw [hended]; rfl)]
    exact hended
  · exact htaking
  · exact fun hwindow => hsleep (.inl hwindow)
  · exact fun hblocked hpending => absurd (hsleep (.inr hblocked)) hpending

/-- Only the destroyer waits, and it is woken. -/
theorem Queued.wakeAll_awake {s : System} (h : Queued s) :
    ((program.wakeAll s ()).threads 0).mode ≠ .blocked := by
  simp only [Program.wakeAll]
  split_ifs with hblocked
  · intro hmode
    cases hmode
  · intro hmode
    refine hblocked ⟨hmode, ?_⟩
    rw [pc_of_waits (h.consistent.parked 0 (by simp [hmode]))]
    rfl

/-- A notification leaves the queue. -/
theorem Queued.wakeAll {s : System} (h : Queued s) : Queued (program.wakeAll s ()) := by
  have hpc : ∀ u, ((program.wakeAll s ()).threads u).pc = (s.threads u).pc := fun u => Program.wakeAll_pc
  have hwindow : ((program.wakeAll s ()).threads 0).mode = .window → (s.threads 0).mode = .window := by
    simp only [Program.wakeAll]
    split_ifs with hblocked
    · intro hmode
      cases hmode
    · exact id
  constructor
  · exact h.consistent.wakeAll ()
  · intro u
    rw [hpc]
    exact h.destroys u
  · rw [hpc]
    exact h.unborn
  · rw [hpc]
    exact h.born
  · intro u
    rw [hpc]
    exact h.built u
  · rw [hpc]
    exact h.order
  · exact h.once
  · intro u
    rw [hpc]
    exact h.pushed u
  · intro u
    rw [hpc]
    exact h.enqueued u
  · intro u
    rw [hpc]
    exact h.freed u
  · rw [hpc]
    exact h.taking
  · exact fun hmode => h.window (hwindow hmode)
  · exact fun hblocked => absurd hblocked h.wakeAll_awake

/-- `enqueue` adds a client at the end. -/
theorem Queued.push {s : System} {t : Tid} (h : Queued s) (hpc : (s.threads t).pc = .enqueueing)
    (hfree : s.Available t [()]) {s' : System} (hc : program.Consistent s')
    (hself : (s'.threads t).pc = .notifying) (hothers : ∀ u, u ≠ t → s'.threads u = s.threads u)
    (hshared : s'.shared = { s.shared with
      pending := s.shared.pending ++ [t], enqueued := s.shared.enqueued ++ [t] }) : Queued s' := by
  have hne : 0 ≠ t := h.ne_zero (by rw [hpc]; rfl)
  have hzero := hothers 0 hne
  have hnew : t ∉ s.shared.enqueued := by
    intro hmem
    have hpushed := h.pushed t hmem
    rw [hpc] at hpushed
    cases hpushed
  have hpcs : ∀ u, (s'.threads u).pc = if u = t then .notifying else (s.threads u).pc := by
    intro u
    split_ifs with hu
    · rw [hu, hself]
    · rw [hothers u hu]
  -- The destroyer does not hold the mutex, so it is in no window.
  have hwindow : (s.threads 0).mode ≠ .window := by
    intro hmode
    refine h.consistent.not_held_of_available hfree hne (m := ()) ?_ (List.mem_singleton_self ())
    rw [Program.held, hmode, pc_of_waits (h.consistent.parked 0 (by simp [hmode]))]
    exact List.mem_singleton_self ()
  constructor
  · exact hc
  · intro u
    rw [hpcs]
    split_ifs with hu
    · exact ⟨fun hfalse => absurd hfalse Bool.false_ne_true, fun heq => absurd (heq.symm.trans hu) hne⟩
    · exact h.destroys u
  · rw [hzero, hshared]
    intro hunborn
    have hbuilt := h.built t hpc
    rw [(h.unborn hunborn).1] at hbuilt
    cases hbuilt
  · rw [hzero, hshared]
    exact h.born
  · intro u hu
    rw [hpcs] at hu
    rw [hshared]
    split_ifs at hu
    exact h.built u hu
  · rw [hzero, hshared]
    show s.shared.enqueued ++ [t] = _
    rw [h.order, List.append_assoc]
  · rw [hshared]
    show (s.shared.enqueued ++ [t]).Nodup
    rw [List.nodup_append]
    refine ⟨h.once, List.pairwise_singleton _ t, fun u hu v hv heq => hnew ?_⟩
    rwa [heq, List.mem_singleton.mp hv] at hu
  · intro u hu
    rw [hshared] at hu
    rw [hpcs]
    split_ifs with heq
    · rfl
    · exact h.pushed u ((List.mem_append.mp hu).resolve_right fun hlast => heq (List.mem_singleton.mp hlast))
  · intro u hu
    rw [hpcs] at hu
    rw [hshared]
    split_ifs at hu with heq
    · rw [heq]
      exact List.mem_append_right _ (List.mem_singleton_self t)
    · exact List.mem_append_left _ (h.enqueued u hu)
  · intro u hu
    rw [hshared] at hu
    have hended := h.freed u hu
    rw [hothers u (by rintro rfl; rw [hpc] at hended; cases hended)]
    exact hended
  · rw [hzero, hshared]
    exact fun _ => List.append_ne_nil_of_right_ne_nil _ (List.cons_ne_nil t [])
  · rw [hzero]
    exact fun hmode => absurd hmode hwindow
  · exact fun _ _ => ⟨t, hself⟩

/-- The first client constructs the destroyer. -/
theorem Queued.construct {s s' : System} {t : Tid} (h : Queued s) (hpc : (s.threads t).pc = .acquiring)
    (hunborn : (s.threads 0).pc = .unborn) (hc : program.Consistent s')
    (hself : (s'.threads t).pc = .enqueueing) (hzero : s'.threads 0 = { pc := .looping })
    (hothers : ∀ u, u ≠ 0 → u ≠ t → s'.threads u = s.threads u)
    (hshared : s'.shared = { s.shared with constructed := true }) : Queued s' := by
  have hne : t ≠ 0 := (h.ne_zero (by rw [hpc]; rfl)).symm
  have hempty := (h.unborn hunborn).2
  have hnothing := h.order
  rw [hempty, hunborn] at hnothing
  have hpending : s.shared.freed = [] ∧ s.shared.pending = [] := by
    have hboth := List.append_eq_nil_iff.mp hnothing.symm
    exact ⟨(List.append_eq_nil_iff.mp hboth.1).1, hboth.2⟩
  constructor
  · exact hc
  · intro u
    by_cases hu : u = 0
    · subst hu
      rw [hzero]
      exact ⟨fun _ => rfl, fun _ => rfl⟩
    · by_cases hut : u = t
      · subst hut
        rw [hself]
        exact ⟨nofun, fun heq => absurd heq hu⟩
      · rw [hothers u hu hut]
        exact h.destroys u
  · rw [hzero]
    nofun
  · rw [hshared]
    nofun
  · intro u _
    rw [hshared]
  · rw [hzero, hshared]
    show s.shared.enqueued = s.shared.freed ++ [] ++ s.shared.pending
    rw [hempty, hpending.1, hpending.2]
    rfl
  · rw [hshared]
    exact h.once
  · rw [hshared]
    show ∀ u ∈ s.shared.enqueued, _
    rw [hempty]
    nofun
  · intro u hu
    have hold : s'.threads u = s.threads u := by
      apply hothers u
      · rintro rfl
        rw [hzero] at hu
        rcases hu with hu | hu <;> cases hu
      · rintro rfl
        rw [hself] at hu
        rcases hu with hu | hu <;> cases hu
    rw [hold] at hu
    rw [hshared]
    exact h.enqueued u hu
  · rw [hshared]
    show ∀ u ∈ s.shared.freed, _
    rw [hpending.1]
    nofun
  · rw [hzero]
    nofun
  · rw [hzero]
    nofun
  · rw [hzero]
    nofun

/-- **Every step keeps the queue in order.** -/
theorem Queued.step {s s' : System} {i : Input Choice} (h : Queued s) (hstep : Step s i s') : Queued s' := by
  have hc := h.consistent.step hstep
  have hevent := event_of_step h.consistent hstep
  generalize i.tid = t at hevent
  have hself : ∀ q, ((program.goto s t q).threads t) = { pc := q } := fun q => Program.goto_threads_self
  have hothers : ∀ q u, u ≠ t → (program.goto s t q).threads u = s.threads u :=
    fun q u hu => Program.goto_threads_of_ne hu
  cases hevent with
  | @client q hlocal =>
    have hmoves : ∀ p, (s.threads t).pc = p → p.destroys = false → p ≠ .notifying → p ≠ .ended →
        q.destroys = false → (q = .enqueueing → s.shared.constructed = true) →
        (p.pushed = true → q.pushed = true) → (q ≠ .notifying ∧ q ≠ .leaving) →
        Queued (program.goto s t q) := by
      intro p hpc hp hnotify hended hq hbuilt hpushed hinside
      exact h.client hc (hpc ▸ hp) hq (congrArg Thread.pc (hself q)) (hothers q) rfl hbuilt (hpc ▸ hpushed)
        (fun hin => (hin.elim hinside.1 hinside.2).elim) (hpc ▸ hended) fun heq => absurd (hpc ▸ heq) hnotify
    generalize hpc : (s.threads t).pc = p at hlocal
    cases hlocal with
    | found hbuilt => exact hmoves _ hpc rfl nofun nofun rfl (fun _ => hbuilt) nofun ⟨nofun, nofun⟩
    | leave => exact hmoves _ hpc rfl nofun nofun rfl nofun (fun _ => rfl) ⟨nofun, nofun⟩
    | _ => exact hmoves _ hpc rfl nofun nofun rfl nofun nofun ⟨nofun, nofun⟩
  | construct hpc hnot hne hunborn =>
    let threads := Function.update (program.goto s t .enqueueing).threads 0 { pc := .looping }
    have hzero : threads 0 = { pc := .looping } := Function.update_self ..
    have hrest : ∀ u, u ≠ 0 → threads u = (program.goto s t .enqueueing).threads u :=
      fun u hu => Function.update_of_ne hu _ _
    refine h.construct hpc hunborn hc ?_ hzero (fun u hu hut => (hrest u hu).trans (hothers _ u hut)) rfl
    exact congrArg Thread.pc ((hrest t hne.symm).trans (hself _))
  | push hpc hfree => exact h.push hpc hfree hc (congrArg Thread.pc (hself _)) (hothers _) rfl
  | notify hpc =>
    have hwoken := h.wakeAll
    have hpc' : ((program.wakeAll s ()).threads t).pc = .notifying := by
      rw [Program.wakeAll_pc]
      exact hpc
    exact hwoken.client hc (by rw [hpc']; rfl) rfl (congrArg Thread.pc Program.goto_threads_self)
      (fun u hu => Program.goto_threads_of_ne hu) rfl nofun (fun _ => rfl)
      (fun _ => h.enqueued t (.inl hpc)) (by rw [hpc']; nofun) fun _ => h.wakeAll_awake
  | lock hpc =>
    obtain rfl := h.eq_zero (by rw [hpc]; rfl)
    have hzero := hself .waiting
    refine h.destroyer hc (by rw [hpc]; nofun) (by rw [hzero]; rfl) (by rw [hzero]; nofun) (hothers _)
      rfl rfl ?_ h.freed (by rw [hzero]; nofun) (by rw [hzero]; nofun)
    rw [hzero, h.order, hpc]
    rfl
  | pass hpc hpending =>
    obtain rfl := h.eq_zero (by rw [hpc]; rfl)
    have hzero := hself .popping
    refine h.destroyer hc (by rw [hpc]; nofun) (by rw [hzero]; rfl) (by rw [hzero]; nofun) (hothers _)
      rfl rfl ?_ h.freed (fun _ => hpending) (by rw [hzero]; nofun)
    rw [hzero, h.order, hpc]
    rfl
  | check hpc hpending =>
    obtain rfl := h.eq_zero (by rw [hpc]; rfl)
    have hpc' : ((s.setMode 0 .window).threads 0).pc = .waiting := Program.setMode_pc.trans hpc
    refine h.destroyer hc (by rw [hpc]; nofun) (by rw [hpc']; rfl) (by rw [hpc']; nofun)
      (fun u hu => Function.update_of_ne hu _ _) rfl rfl ?_ h.freed (by rw [hpc']; nofun) fun _ => hpending
    rw [hpc', h.order, hpc]
    rfl
  | @pop client rest hpc hpending =>
    obtain rfl := h.eq_zero (by rw [hpc]; rfl)
    have hzero := hself (.stopping client)
    refine h.destroyer hc (by rw [hpc]; nofun) (by rw [hzero]; rfl) (by rw [hzero]; nofun) (hothers _)
      rfl rfl ?_ h.freed (by rw [hzero]; nofun) (by rw [hzero]; nofun)
    rw [hzero, h.order, hpc, hpending]
    show s.shared.freed ++ [] ++ client :: rest = s.shared.freed ++ [client] ++ rest
    rw [List.append_nil, List.append_assoc]
    rfl
  | @join client hpc hended =>
    obtain rfl := h.eq_zero (by rw [hpc]; rfl)
    have hzero := hself .looping
    refine h.destroyer hc (by rw [hpc]; nofun) (by rw [hzero]; rfl) (by rw [hzero]; nofun) (hothers _)
      rfl rfl ?_ (fun u hu => ?_) (by rw [hzero]; nofun) (by rw [hzero]; nofun)
    · rw [hzero, h.order, hpc]
      show s.shared.freed ++ [client] ++ s.shared.pending = s.shared.freed ++ [client] ++ [] ++ s.shared.pending
      rw [List.append_nil]
    · rcases List.mem_append.mp hu with hold | hlast
      · exact h.freed u hold
      · rw [List.mem_singleton.mp hlast]
        exact hended
  | block hpc hmode =>
    obtain rfl := h.eq_zero (by rw [hpc]; rfl)
    have hpc' : (((s.relock 0 []).setMode 0 .blocked).threads 0).pc = .waiting := Program.setMode_pc.trans hpc
    refine h.destroyer hc (by rw [hpc]; nofun) (by rw [hpc']; rfl) (by rw [hpc']; nofun)
      (fun u hu => Function.update_of_ne hu _ _) rfl rfl ?_ h.freed (by rw [hpc']; nofun)
      fun _ => h.window hmode
    rw [hpc', h.order, hpc]
    rfl
  | wake hpc =>
    obtain rfl := h.eq_zero (by rw [hpc]; rfl)
    have hpc' : ((s.setMode 0 .woken).threads 0).pc = .waiting := Program.setMode_pc.trans hpc
    have hmode : ((s.setMode 0 .woken).threads 0).mode = .woken :=
      congrArg Thread.mode (Function.update_self 0 _ s.threads)
    refine h.destroyer hc (by rw [hpc]; nofun) (by rw [hpc']; rfl) (by rw [hpc']; nofun)
      (fun u hu => Function.update_of_ne hu _ _) rfl rfl ?_ h.freed (by rw [hpc']; nofun)
      (by rw [hmode]; nofun)
    rw [hpc', h.order, hpc]
    rfl
  | resume hpc =>
    obtain rfl := h.eq_zero (by rw [hpc]; rfl)
    have hzero := hself .waiting
    refine h.destroyer hc (by rw [hpc]; nofun) (by rw [hzero]; rfl) (by rw [hzero]; nofun) (hothers _)
      rfl rfl ?_ h.freed (by rw [hzero]; nofun) (by rw [hzero]; nofun)
    rw [hzero, h.order, hpc]
    rfl

/-- At the beginning nobody has come. -/
theorem queued_init : Queued System.init where
  consistent := .init (fun _ => rfl) (fun _ => rfl) fun t => by
    by_cases ht : t = 0 <;> simp [System.init, ht] <;> rfl
  destroys t := by
    by_cases ht : t = 0 <;> simp [System.init, ht, Pc.destroys]
  unborn _ := ⟨rfl, rfl⟩
  born _ := rfl
  built t h := by
    by_cases ht : t = 0 <;> simp [System.init, ht] at h
  order := rfl
  once := List.nodup_nil
  pushed := nofun
  enqueued t h := by
    by_cases ht : t = 0 <;> simp [System.init, ht] at h
  freed := nofun
  taking := nofun
  window := nofun
  announced := nofun

theorem queued_of_reachable {s : System} (h : Reachable Step System.init s) : Queued s :=
  h.invariant (I := Queued) queued_init fun _ _ _ _ hs hstep => hs.step hstep

/-! ## Nobody waits forever -/

/-- Steps without a spurious wake-up, in which nothing is pushed. -/
def Leads (s s' : System) : Prop :=
  ∃ is, Runs Step s is s' ∧ (∀ i ∈ is, i.move ≠ .wake) ∧ s'.shared.enqueued = s.shared.enqueued

theorem Leads.refl (s : System) : Leads s s := ⟨[], .nil s, nofun, rfl⟩

/-- What is led on leads on. -/
theorem Leads.trans {s s₁ s' : System} (h : Leads s s₁) (h' : Leads s₁ s') : Leads s s' := by
  obtain ⟨is, hruns, hquiet, hsame⟩ := h
  obtain ⟨js, hruns', hquiet', hsame'⟩ := h'
  refine ⟨is ++ js, hruns.append hruns', fun i hi => ?_, hsame'.trans hsame⟩
  exact (List.mem_append.mp hi).elim (hquiet i) (hquiet' i)

theorem Leads.step {s s' : System} {t : Tid} {move : Move Choice} (h : Step s ⟨t, move⟩ s')
    (hmove : move ≠ .wake) (hsame : s'.shared.enqueued = s.shared.enqueued) : Leads s s' :=
  ⟨[⟨t, move⟩], .single h, by simpa using hmove, hsame⟩

theorem Leads.queued {s s' : System} (h : Leads s s') (hs : Queued s) : Queued s' := by
  obtain ⟨is, hruns, -, -⟩ := h
  exact hruns.invariant (I := Queued) (fun _ _ _ hs hstep => hs.step hstep) hs

namespace Queued

variable {s : System} {t client : Tid}

/-- Only the destroyer sleeps, at its wait. -/
theorem running (h : Queued s) (hpc : (s.threads t).pc ≠ .waiting) : (s.threads t).mode = .running := by
  by_contra hmode
  exact hpc (pc_of_waits (h.consistent.parked t hmode))

/-- Only the destroyer keeps the mutex from one step to the next. -/
theorem mutex (h : Queued s) : s.Available 0 [()] := by
  intro m _
  cases howner : s.owner m with
  | none => exact .inl rfl
  | some u =>
    refine .inr (congrArg some (h.eq_zero ?_))
    have hheld := (h.consistent.owned m u).mp howner
    unfold Program.held at hheld
    split at hheld
    · show (s.threads u).pc.destroys = true
      change m ∈ (s.threads u).pc.holds at hheld
      cases hpc : (s.threads u).pc <;> rw [hpc] at hheld <;> first | rfl | cases hheld
    · change m ∈ (s.threads u).pc.holds at hheld
      cases hpc : (s.threads u).pc <;> rw [hpc] at hheld <;> first | rfl | cases hheld
    · cases hheld
    · cases hheld

/-- A client can notify. -/
theorem step_notify (h : Queued s) (hpc : (s.threads t).pc = .notifying) :
    Step s ⟨t, .go default⟩ (program.goto (program.wakeAll s ()) t .leaving) := by
  have hmode := h.running (t := t) (by rw [hpc]; nofun)
  have hinstr : program.instr (s.threads t).pc = .notify () .leaving := by rw [hpc]; rfl
  have hfree : s.Available t (program.holds .leaving) := nofun
  simp only [Step, Program.step, stepOf, Program.next, hmode, hinstr, if_pos hfree]

/-- It can end its callback. -/
theorem step_leave (h : Queued s) (hpc : (s.threads t).pc = .leaving) :
    Step s ⟨t, .go default⟩ (program.goto s t .ended) := by
  have hmode := h.running (t := t) (by rw [hpc]; nofun)
  exact program.step_of_act hmode (congrArg program.instr hpc) rfl rfl ⟨nofun, nofun⟩

/-- A destroyer that was woken can go on. -/
theorem step_resume (h : Queued s) (hmode : (s.threads 0).mode = .woken) :
    Step s ⟨0, .resume⟩ (program.goto s 0 .waiting) := by
  have hpc := pc_of_waits (h.consistent.parked 0 (by simp [hmode]))
  have hfree : s.Available 0 (program.holds .waiting) := h.mutex
  simp only [Step, Program.step, stepOf, Program.next, hmode, hpc, if_pos hfree]

/-- It can pass its wait when there is a client. -/
theorem step_pass (h : Queued s) (hpc : (s.threads 0).pc = .waiting) (hmode : (s.threads 0).mode = .running)
    (hpending : s.shared.pending ≠ []) : Step s ⟨0, .go default⟩ (program.goto s 0 .popping) := by
  have hinstr : program.instr (s.threads 0).pc =
      .wait () (fun s => !s.pending.isEmpty) .popping none := by
    rw [hpc]
    rfl
  have hready : (!s.shared.pending.isEmpty) = true := by simpa using hpending
  have hfree : s.Available 0 (program.holds .popping) := h.mutex
  simp only [Step, Program.step, stepOf, Program.next, hmode, hinstr, hready, if_true, if_pos hfree]

/-- It can take the first client. -/
theorem step_pop (h : Queued s) (hpc : (s.threads 0).pc = .popping) {rest : List Tid}
    (hpending : s.shared.pending = client :: rest) :
    Step s ⟨0, .go default⟩
      { program.goto s 0 (.stopping client) with shared := { s.shared with pending := rest } } := by
  have hmode := h.running (t := 0) (by rw [hpc]; nofun)
  exact program.step_of_act (e := ⟨{ s.shared with pending := rest }, .stopping client, none⟩) hmode
    (congrArg program.instr hpc) (by simp only [hpending]) rfl ⟨nofun, nofun⟩

/-- It can join a worker that has ended, and free the client. -/
theorem step_join (h : Queued s) (hpc : (s.threads 0).pc = .stopping client)
    (hended : (s.threads client).pc = .ended) :
    Step s ⟨0, .go default⟩
      { program.goto s 0 .looping with shared := { s.shared with freed := s.shared.freed ++ [client] } } := by
  have hmode := h.running (t := 0) (by rw [hpc]; nofun)
  have hinstr : program.instr (s.threads 0).pc =
      .join client (fun _ s => { s with freed := s.freed ++ [client] }) .looping := by
    rw [hpc]
    rfl
  have hjoin : program.ended (s.threads client).pc = true ∧ s.Available 0 (program.holds .looping) :=
    ⟨by rw [hended]; rfl, nofun⟩
  simp only [Step, Program.step, stepOf, Program.next, hmode, hinstr, if_pos hjoin]

/-- It can come back to its wait. -/
theorem step_lock (h : Queued s) (hpc : (s.threads 0).pc = .looping) :
    Step s ⟨0, .go default⟩ (program.goto s 0 .waiting) := by
  have hmode := h.running (t := 0) (by rw [hpc]; nofun)
  exact program.step_of_act hmode (congrArg program.instr hpc) rfl rfl ⟨nofun, h.mutex⟩

/-- The destroyer takes the front of the queue, unless it has a client already. -/
theorem takes (h : Queued s) (hpending : s.shared.pending ≠ []) :
    ∃ s' client, Leads s s' ∧ (s'.threads 0).pc = .stopping client ∧ s'.shared.freed = s.shared.freed := by
  have hpopping : ∀ {s : System}, Queued s → (s.threads 0).pc = .popping →
      ∃ s' client, Leads s s' ∧ (s'.threads 0).pc = .stopping client ∧
        s'.shared.freed = s.shared.freed := by
    intro s h hpc
    obtain ⟨client, rest, hcons⟩ := List.exists_cons_of_ne_nil (h.taking hpc)
    exact ⟨_, client, .step (h.step_pop hpc hcons) nofun rfl,
      congrArg Thread.pc Program.goto_threads_self, rfl⟩
  have hwaiting : ∀ {s : System}, Queued s → (s.threads 0).pc = .waiting →
      (s.threads 0).mode = .running → s.shared.pending ≠ [] →
      ∃ s' client, Leads s s' ∧ (s'.threads 0).pc = .stopping client ∧
        s'.shared.freed = s.shared.freed := by
    intro s h hpc hmode hpending
    have hpass : Leads s (program.goto s 0 .popping) := .step (h.step_pass hpc hmode hpending) nofun rfl
    obtain ⟨s', client, hleads, hpc', hfreed⟩ :=
      hpopping (hpass.queued h) (congrArg Thread.pc Program.goto_threads_self)
    exact ⟨s', client, hpass.trans hleads, hpc', hfreed⟩
  have hwoken : ∀ {s : System}, Queued s → (s.threads 0).mode = .woken → s.shared.pending ≠ [] →
      ∃ s' client, Leads s s' ∧ (s'.threads 0).pc = .stopping client ∧
        s'.shared.freed = s.shared.freed := by
    intro s h hmode hpending
    have hresume : Leads s (program.goto s 0 .waiting) := .step (h.step_resume hmode) nofun rfl
    obtain ⟨s', client, hleads, hpc', hfreed⟩ := hwaiting (hresume.queued h)
      (congrArg Thread.pc Program.goto_threads_self) (congrArg Thread.mode Program.goto_threads_self) hpending
    exact ⟨s', client, hresume.trans hleads, hpc', hfreed⟩
  cases hmode : (s.threads 0).mode with
  | running =>
    have hdestroys := (h.destroys 0).mpr rfl
    cases hpc : (s.threads 0).pc with
    | looping =>
      have hlock : Leads s (program.goto s 0 .waiting) := .step (h.step_lock hpc) nofun rfl
      obtain ⟨s', client, hleads, hpc', hfreed⟩ := hwaiting (hlock.queued h)
        (congrArg Thread.pc Program.goto_threads_self) (congrArg Thread.mode Program.goto_threads_self) hpending
      exact ⟨s', client, hlock.trans hleads, hpc', hfreed⟩
    | waiting => exact hwaiting h hpc hmode hpending
    | popping => exact hpopping h hpc
    | stopping client => exact ⟨s, client, .refl s, hpc, rfl⟩
    | unborn =>
      have hnothing := h.order
      rw [(h.unborn hpc).2] at hnothing
      exact absurd (List.append_eq_nil_iff.mp hnothing.symm).2 hpending
    | _ =>
      rw [hpc] at hdestroys
      cases hdestroys
  | window => exact absurd (h.window hmode) hpending
  | woken => exact hwoken h hmode hpending
  | blocked =>
    -- the notify that is due wakes it
    obtain ⟨u, hu⟩ := h.announced hmode hpending
    have hne : 0 ≠ u := h.ne_zero (by rw [hu]; rfl)
    have hnotify : Leads s (program.goto (program.wakeAll s ()) u .leaving) :=
      .step (h.step_notify hu) nofun rfl
    have hmode' : ((program.goto (program.wakeAll s ()) u .leaving).threads 0).mode = .woken := by
      have hasleep : (s.threads 0).mode = .blocked ∧ program.waitsOn () (s.threads 0).pc = true :=
        ⟨hmode, by rw [pc_of_waits (h.consistent.parked 0 (by simp [hmode]))]; rfl⟩
      rw [Program.goto_threads_of_ne hne]
      simp only [Program.wakeAll, if_pos hasleep]
    obtain ⟨s', client, hleads, hpc', hfreed⟩ := hwoken (hnotify.queued h) hmode' hpending
    exact ⟨s', client, hnotify.trans hleads, hpc', hfreed⟩

/-- The worker that the destroyer joins comes to its end. -/
theorem ends (h : Queued s) (hpc : (s.threads 0).pc = .stopping client) :
    ∃ s', Leads s s' ∧ (s'.threads 0).pc = .stopping client ∧ (s'.threads client).pc = .ended ∧
      s'.shared.freed = s.shared.freed := by
  have hmem : client ∈ s.shared.enqueued := by
    rw [h.order, hpc]
    exact List.mem_append_left _ (List.mem_append_right _ (List.mem_singleton_self client))
  have hleaving : ∀ {s : System}, Queued s → (s.threads 0).pc = .stopping client →
      (s.threads client).pc = .leaving →
      ∃ s', Leads s s' ∧ (s'.threads 0).pc = .stopping client ∧ (s'.threads client).pc = .ended ∧
        s'.shared.freed = s.shared.freed := by
    intro s h hpc hclient
    have hne : 0 ≠ client := h.ne_zero (by rw [hclient]; rfl)
    refine ⟨_, .step (h.step_leave hclient) nofun rfl, ?_, congrArg Thread.pc Program.goto_threads_self, rfl⟩
    rw [Program.goto_threads_of_ne hne]
    exact hpc
  have hpushed := h.pushed client hmem
  cases hclient : (s.threads client).pc with
  | ended => exact ⟨s, .refl s, hpc, hclient, rfl⟩
  | leaving => exact hleaving h hpc hclient
  | notifying =>
    have hne : 0 ≠ client := h.ne_zero (by rw [hclient]; rfl)
    have hnotify : Leads s (program.goto (program.wakeAll s ()) client .leaving) :=
      .step (h.step_notify hclient) nofun rfl
    have hpc' : ((program.goto (program.wakeAll s ()) client .leaving).threads 0).pc = .stopping client := by
      rw [Program.goto_threads_of_ne hne, Program.wakeAll_pc]
      exact hpc
    obtain ⟨s', hleads, hrest⟩ := hleaving (hnotify.queued h) hpc' (congrArg Thread.pc Program.goto_threads_self)
    exact ⟨s', hnotify.trans hleads, hrest⟩
  | _ =>
    rw [hclient] at hpushed
    cases hpushed

end Queued

/-- **With a client waiting, one more is freed.** -/
theorem exists_freed {s : System} (h : Queued s) (hwaits : s.shared.freed ≠ s.shared.enqueued) :
    ∃ s' client, Leads s s' ∧ s'.shared.freed = s.shared.freed ++ [client] := by
  have htaken : ∃ s' client, Leads s s' ∧ (s'.threads 0).pc = .stopping client ∧
      s'.shared.freed = s.shared.freed := by
    cases hhand : (s.threads 0).pc.hand with
    | nil =>
      refine h.takes fun hempty => hwaits ?_
      rw [h.order, hhand, hempty, List.append_nil, List.append_nil]
    | cons client rest =>
      refine ⟨s, client, .refl s, ?_, rfl⟩
      cases hpc : (s.threads 0).pc <;> rw [hpc] at hhand <;> cases hhand
      rfl
  obtain ⟨s₁, client, htakes, hpc, hfreed⟩ := htaken
  obtain ⟨s₂, hends, hpc₂, hended, hfreed₂⟩ := (htakes.queued h).ends hpc
  have hqueued := hends.queued (htakes.queued h)
  refine ⟨_, client, (htakes.trans hends).trans (.step (hqueued.step_join hpc₂ hended) nofun rfl), ?_⟩
  show s₂.shared.freed ++ [client] = _
  rw [hfreed₂, hfreed]

/-- **Every client in the queue is freed**, without a spurious wakeup. -/
theorem drains {s : System} (h : Queued s) : ∃ s', Leads s s' ∧ s'.shared.freed = s.shared.enqueued := by
  -- by induction on the clients that are not freed yet
  generalize hleft : s.shared.enqueued.length - s.shared.freed.length = n
  induction n generalizing s with
  | zero =>
    refine ⟨s, .refl s, ?_⟩
    have hlength := congrArg List.length h.order
    rw [List.append_assoc, List.length_append] at hlength
    have hrest : (s.threads 0).pc.hand ++ s.shared.pending = [] := List.eq_nil_of_length_eq_zero (by omega)
    rw [h.order, List.append_assoc, hrest, List.append_nil]
  | succ n ih =>
    have hwaits : s.shared.freed ≠ s.shared.enqueued := by
      intro heq
      rw [heq] at hleft
      omega
    obtain ⟨s₁, client, hleads, hfreed⟩ := exists_freed h hwaits
    obtain ⟨is, -, -, hsame⟩ := id hleads
    obtain ⟨s', hleads', hall⟩ := ih (hleads.queued h) (by
      rw [hsame, hfreed, List.length_append, List.length_singleton]
      omega)
    exact ⟨s', hleads.trans hleads', hall.trans hsame⟩

/-- **Each client is freed once, in order, behind its worker, and none is forgotten**: what has been freed
begins the list of the calls, in which nobody stands twice; whoever is freed has ended; and from every state
steps without a spurious wake-up free all that have been handed over. -/
theorem destroyed_inOrder {s : System} (h : Reachable Step System.init s) :
    s.shared.enqueued = s.shared.freed ++ (s.threads 0).pc.hand ++ s.shared.pending ∧
      s.shared.enqueued.Nodup ∧ (∀ t ∈ s.shared.freed, (s.threads t).pc = .ended) ∧
      (∀ t, (s.threads t).pc = .notifying ∨ (s.threads t).pc = .leaving → t ∈ s.shared.enqueued) ∧
      ∃ is s', Runs Step s is s' ∧ (∀ i ∈ is, i.move ≠ .wake) ∧
        s'.shared.enqueued = s.shared.enqueued ∧ s'.shared.freed = s.shared.enqueued := by
  have hq := queued_of_reachable h
  obtain ⟨s', ⟨is, hruns, hquiet, hsame⟩, hall⟩ := drains hq
  exact ⟨hq.order, hq.once, hq.freed, hq.enqueued, is, s', hruns, hquiet, hsame, hall⟩

/-- Two clients are destroyed from their callbacks, while the destroyer that the first one created sleeps. -/
def twoClients : List (Input Choice) :=
  [⟨1, .go .destroy⟩, ⟨1, .go .destroy⟩, ⟨1, .go .destroy⟩, ⟨0, .go .destroy⟩, ⟨0, .go .destroy⟩, ⟨0, .block⟩,
    ⟨2, .go .destroy⟩, ⟨2, .go .destroy⟩, ⟨2, .go .destroy⟩, ⟨2, .go .destroy⟩, ⟨1, .go .destroy⟩,
    ⟨1, .go .destroy⟩, ⟨0, .resume⟩, ⟨0, .go .destroy⟩, ⟨0, .go .destroy⟩]

theorem destroyed_inOrder_twoClients :
    ∃ s, Reachable Step System.init s ∧ s.shared.enqueued = [2, 1] ∧ (s.threads 0).pc = .stopping 2 ∧
      ∃ is s', Runs Step s is s' ∧ (∀ i ∈ is, i.move ≠ .wake) ∧ s'.shared.freed = [2, 1] := by
  have hrun : (Library.execute program.next System.init twoClients).map (fun s =>
      decide (s.shared.enqueued = [2, 1] ∧ (s.threads 0).pc = .stopping 2)) = some true := by
    decide +kernel
  obtain ⟨s, hruns, hs⟩ := Library.exists_runs_of_execute hrun
  obtain ⟨henqueued, hpc⟩ := of_decide_eq_true hs
  obtain ⟨-, -, -, -, is, s', hdrains, hquiet, -, hfreed⟩ := destroyed_inOrder ⟨_, hruns⟩
  exact ⟨s, ⟨_, hruns⟩, henqueued, hpc, is, s', hdrains, hquiet, hfreed.trans henqueued⟩

end NetFT.DeferredDestroyer
