/-
# NetFT.Client.Ledger — the data of the client, without its threads.

A `Ledger` is what the data sections of `Client::Impl` keep together: the counters, the latest sample
and the generations, the copy that a `start` in progress would put back, and the record on its way
through the callback.  `Ledger.Move` lists what can happen to it.

* `Ledger.Of` relates a ledger to a state of the machine and its history.
* **`Ledger.Of.step`**: every step of the machine is a move of the ledger.  What the moves keep, every
  reachable state of the client has (`Recorded.invariant`).
-/
import NetFT.Client.History

namespace NetFT.Client

set_option autoImplicit false

open Library.Threads (Tid Effect Program Sys)

/-! ## The ledger -/

/-- Where the sample of a record is. -/
inductive Phase where
  | offered | called | threw | completed
  deriving DecidableEq, Repr

/-- What the books say: the data of the client, a `start` in progress, the record in hand and the past.
-/
structure Ledger where
  data : Data := {}
  /-- What the rollback of a `start` in progress would put back. -/
  saved : Option Data := none
  pending : Option (Tid × Phase × Sample) := none
  created : List Tid := []
  history : History := {}
  deriving DecidableEq, Repr

namespace Ledger

/-- How the books change. -/
inductive Move (config : Config) (L : Ledger) : Ledger → Prop where
  | stay : Move config L L
  | begin : L.saved = none → L.pending = none →
      Move config L { L with data := L.data.next, saved := some L.data }
  | create {d : Data} (w : Tid) : L.saved = some d →
      Move config L { L with saved := none, created := w :: L.created }
  | restore {d : Data} : L.saved = some d → Move config L { L with data := d, saved := none }
  | configure (configuration : SensorConfiguration) : L.saved = none → L.pending = none →
      Move config L
        { L with
          data := { L.data with counts := L.data.counts.configure configuration }
          history := { L.history with given := configuration :: L.history.given } }
  | handle (r : Handled) : L.saved = none → L.pending = none → r.Fresh config →
      L.created.head? = some r.worker → r.run = L.created.length →
      L.data.counts.configuration = some r.configuration →
      Move config L
        { L with
          data := { L.data with counts := L.data.counts.handle r }
          pending := if r.fate = .offered then some (r.worker, .offered, r.sample) else none
          history := { L.history with records := r :: L.history.records } }
  | call {t : Tid} {sample : Sample} : L.pending = some (t, .offered, sample) →
      Move config L
        { L with
          pending := some (t, .called, sample)
          history := L.history.update ({ · with passed := true }) }
  | skip {t : Tid} {sample : Sample} : L.pending = some (t, .offered, sample) →
      Move config L { L with pending := some (t, .completed, sample) }
  | return {t : Tid} {sample : Sample} : L.pending = some (t, .called, sample) →
      Move config L
        { L with
          pending := some (t, .completed, sample)
          history := L.history.update ({ · with ended := some .returned }) }
  | throw {t : Tid} {sample : Sample} (what : Option String) :
      L.pending = some (t, .called, sample) →
      Move config L
        { L with
          pending := some (t, .threw, sample)
          history := L.history.update ({ · with ended := some (.threw what) }) }
  | fail {t : Tid} {sample : Sample} : L.pending = some (t, .threw, sample) →
      Move config L
        { L with
          data := L.data.fail
          pending := none
          history := L.history.update ({ · with fate := .failed }) }
  | deliver {t : Tid} {sample : Sample} : L.pending = some (t, .completed, sample) →
      Move config L
        { L with
          data := L.data.deliver sample
          pending := none
          history := L.history.update ({ · with fate := .delivered }) }

end Ledger

/-! ## The ledger of a state -/

/-- A callback has the sample that called it. -/
def Ctx.phase : Ctx → Option (Phase × Sample)
  | .callback k => some (.called, k.sample)
  | .outside | .deferred => none

/-- Where the worker has the sample of its record. -/
def RunPc.phase : RunPc → Option (Phase × Sample)
  | .invoke k => some (.offered, k.sample)
  | .inCallback k => some (.called, k.sample)
  | .callbackThrew k _ => some (.threw, k.sample)
  | .deliver k => some (.completed, k.sample)
  | _ => none

/-- The data that a rollback would put back. -/
def StartPc.saved : StartPc → Option Data
  | .stopping saved | .exited saved | .create saved | .rollbackStopping saved | .rollbackExited saved
  | .rollbackRecord saved | .rollbackData saved => some saved.data
  | _ => none

namespace Pc

/-- The sample that a thread has in hand. -/
def phase : Pc → Option (Phase × Sample)
  | .outside | .deferred => none
  | .start ctx _ _ | .stop ctx _ _ | .bias ctx _ | .waitForFirstSample ctx _ | .query ctx _
  | .destroy ctx _ => ctx.phase
  | .run pc => pc.phase

/-- The data that a `start` in progress has saved. -/
def saved : Pc → Option Data
  | .start _ _ pc => pc.saved
  | _ => none

/-- The control points whose action moves the ledger. -/
def entering : Pc → Bool
  | .start _ _ (.data _) | .start _ _ (.create _) | .start _ _ (.rollbackData _) => true
  | .run (.apply _ _) | .run (.observe _ _ _) | .run (.invoke _) | .run (.inCallback _)
  | .run (.callbackThrew _ _) | .run (.deliver _) => true
  | _ => false

end Pc

/-- The ledger of a state: what the data holds, and what the one thread that owns it is at. -/
structure Ledger.Of (L : Ledger) (x : System × History) : Prop where
  data : x.1.shared.impl.data = L.data
  created : x.1.shared.created = L.created
  history : x.2 = L.history
  saved : ∀ d, L.saved = some d ↔ ∃ t, (x.1.threads t).pc.saved = some d
  pending : ∀ t phase sample,
    L.pending = some (t, phase, sample) ↔ (x.1.threads t).pc.phase = some (phase, sample)

/-! ## Steps that leave the ledger alone -/

@[simp] theorem Ctx.resume_phase (ctx : Ctx) : ctx.resume.phase = ctx.phase := by cases ctx <;> rfl

@[simp] theorem Ctx.resume_saved (ctx : Ctx) : ctx.resume.saved = none := by cases ctx <;> rfl

theorem RunPc.afterRecord_phase (l : Loop) (outcome : Option SessionResult) :
    (afterRecord l outcome).phase = none := by
  cases outcome <;> rfl

namespace Impl

variable (c : Impl)

@[simp] theorem setState_data (state : ClientState) : (c.setState state).data = c.data := rfl

@[simp] theorem countTimeout_data : c.countTimeout.data = c.data := rfl

@[simp] theorem countMalformed_data : c.countMalformed.data = c.data := rfl

@[simp] theorem clearMalformed_data : c.clearMalformed.data = c.data := rfl

@[simp] theorem enterBackoff_data (message : String) : (c.enterBackoff message).data = c.data := rfl

@[simp] theorem closeSession_data : c.closeSession.data = c.data := rfl

@[simp] theorem connectTransport_data : c.connectTransport.data = c.data := rfl

@[simp] theorem setSessionStarted_data (started : Bool) :
    (c.setSessionStarted started).data = c.data := rfl

@[simp] theorem resetSequences_data : c.resetSequences.data = c.data := rfl

@[simp] theorem healthAt_data (now : TimePoint) : (c.healthAt now).1.data = c.data := rfl

@[simp] theorem publishFault_data (code : FaultCode) (message : String) :
    (c.publishFault code message).data = c.data := by
  unfold publishFault
  split_ifs <;> rfl

@[simp] theorem setFault_data (code : FaultCode) (message : String) :
    (c.setFault code message).data = c.data := c.publishFault_data code message

end Impl

/-- The ledger does not see the action. -/
structure Quiet (p : Pc) (s : Shared) (e : Effect Shared Pc) : Prop where
  data : e.shared.impl.data = s.impl.data
  created : e.shared.created = s.created
  phase : e.next.phase = p.phase
  saved : e.next.saved = p.saved

section

variable {p : Pc} {t : Tid} {choice : Choice} {s : Shared} {e : Effect Shared Pc}

/-- The begin of a call leaves the books. -/
theorem beginCall_quiet {ctx : Ctx} {call : Call} (h : beginCall ctx t call s = some e) :
    e.shared.impl.data = s.impl.data ∧ e.shared.created = s.created ∧ e.next.phase = ctx.phase ∧
      e.next.saved = none := by
  cases call <;> simp only [beginCall] at h <;> split at h <;> first
    | cases h; exact ⟨rfl, rfl, rfl, rfl⟩
    | grind [Pc.phase, Pc.saved, StartPc.saved]

/-- So does the worker, except where it enters something. -/
theorem runStep_quiet {pc : RunPc} (h : runStep pc t choice s = some e)
    (hentering : (Pc.run pc).entering = false) : Quiet (.run pc) s e := by
  rcases runStep_cases h with ⟨k, call, rfl, -⟩ | ⟨impl, sessions, next, hstep, rfl⟩
  · cases hentering
  · have hafter := RunPc.afterRecord_phase
    suffices impl.data = s.impl.data ∧ next.phase = pc.phase from ⟨this.1, rfl, this.2, rfl⟩
    cases pc with
    | apply | observe | invoke | inCallback | callbackThrew | deliver => cases hentering
    | _ =>
      simp only [RunPc.step, RunPc.stepOpen, RunPc.stepLoop, RunPc.stepClose] at hstep
      grind [RunPc.phase, RunPc.endSession, Impl.setState_data, Impl.countTimeout_data,
        Impl.countMalformed_data, Impl.clearMalformed_data, Impl.enterBackoff_data,
        Impl.closeSession_data, Impl.connectTransport_data, Impl.setSessionStarted_data,
        Impl.resetSequences_data, Impl.setFault_data, Impl.data]

/-- Away from the entries an action leaves the ledger alone. -/
theorem action_quiet (h : p.action t choice s = some e) (hentering : p.entering = false) :
    Quiet p s e := by
  have hresume := Ctx.resume_phase
  have hresume' := Ctx.resume_saved
  have hleave : (s.leave t).impl = s.impl ∧ (s.leave t).created = s.created := ⟨rfl, rfl⟩
  have hpublish := Impl.publishFault_data
  have hstate := Impl.setState_data
  cases p with
  | start ctx callback pc =>
    cases pc with
    | data | create | rollbackData => cases hentering
    | _ =>
      simp only [Pc.action, startStep] at h
      constructor <;>
        grind [Pc.phase, Pc.saved, StartPc.saved, Impl.data, Impl.clearLastDelivery, Impl.resetFault]
  | stop ctx caller pc =>
    cases pc <;> cases caller <;> simp only [Pc.action, stopStep] at h <;> constructor <;>
      grind [Pc.phase, Pc.saved, Impl.data, Impl.setSessionStarted, Impl.shutdownTransport]
  | bias ctx pc =>
    cases pc <;> simp only [Pc.action, biasStep] at h <;> constructor <;>
      grind [Pc.phase, Pc.saved, Impl.data, Impl.resetRdtSequence]
  | waitForFirstSample ctx pc =>
    cases pc <;> simp only [Pc.action, waitStep] at h <;> constructor <;> grind [Pc.phase, Pc.saved]
  | query ctx q =>
    cases q <;> cases h <;> exact ⟨rfl, rfl, hresume ctx, hresume' ctx⟩
  | destroy ctx pc =>
    cases pc <;> simp only [Pc.action, destroyStep] at h <;> constructor <;> grind [Pc.phase, Pc.saved]
  | run pc => exact runStep_quiet h hentering
  | outside =>
    simp only [Pc.action, outsideStep] at h
    split at h
    · obtain ⟨hdata, hcreated, hphase, hsaved⟩ := beginCall_quiet h
      exact ⟨hdata, hcreated, hphase, hsaved⟩
    · exact absurd h (by simp)
  | deferred =>
    simp only [Pc.action, deferredStep] at h
    split_ifs at h
    cases h
    exact ⟨rfl, rfl, rfl, rfl⟩

/-- Away from the entries an action adds nothing to the history. -/
theorem record_quiet (hentering : p.entering = false) (h : History) :
    p.record t choice s h = h := by
  cases p with
  | run pc => cases pc <;> first | rfl | cases hentering
  | _ => rfl

/-- No action changes the configuration. -/
theorem action_config (h : p.action t choice s = some e) :
    e.shared.impl.config = s.impl.config := by
  cases p with
  | start ctx callback pc =>
    cases pc <;> simp only [Pc.action, startStep] at h <;>
      grind [Impl.clearLastDelivery, Impl.beginGeneration, Impl.restoreData, Impl.resetFault,
        Impl.publishFault, Shared.leave]
  | stop ctx caller pc =>
    cases pc <;> cases caller <;> simp only [Pc.action, stopStep] at h <;>
      grind [Impl.setSessionStarted, Impl.shutdownTransport, Impl.setState, Shared.leave]
  | run pc =>
    rcases runStep_cases h with ⟨k, call, rfl, hcall⟩ | ⟨impl, sessions, next, hstep, rfl⟩
    · rw [beginCall_impl hcall]
    · cases pc with
      | deliver => cases hstep; rfl
      | finishExited => cases hstep; rfl
      | publish code message =>
        cases hstep
        unfold Impl.setFault Impl.publishFault
        split_ifs <;> rfl
      | _ => exact (RunPc.step_frame hstep (by simp) (by simp) (by simp)).config
  | _ =>
    rcases action_impl h rfl with himpl | ⟨-, himpl⟩ | ⟨now, -, himpl⟩ <;> rw [himpl] <;> rfl

end

theorem System.Reachable.config {config : Config} {s : System} (h : s.Reachable config) :
    s.shared.impl.config = config := by
  refine Library.Reachable.invariant (I := fun s : System => s.shared.impl.config = config) rfl
    (fun s i s' _ hinv hstep => ?_) h
  rcases Program.step_shared hstep with hsame | ⟨takes, f, choice, e, hinstr, hf, hshared⟩ |
    ⟨child, f, q, hinstr, hshared⟩
  · rw [hsame, hinv]
  · obtain ⟨-, rfl⟩ := Pc.instr_act hinstr
    rw [hshared, action_config hf, hinv]
  · obtain ⟨rfl, -⟩ := Pc.instr_join hinstr
    rw [hshared]
    exact hinv

/-! ## Whose ledger it is -/

section

variable {p q : Pc} {s : Shared}

theorem Ctx.isCallback_of_phase {ctx : Ctx} (h : ctx.phase ≠ none) : ctx.isCallback = true := by
  cases ctx <;> first | rfl | exact absurd rfl h

theorem Pc.isWorker_of_phase (h : p.phase ≠ none) : p.isWorker = true := by
  cases p with
  | run pc => cases pc <;> first | rfl | exact absurd rfl h
  | start ctx _ _ | stop ctx _ _ | bias ctx _ | waitForFirstSample ctx _ | query ctx _
  | destroy ctx _ => exact Ctx.isCallback_of_phase h
  | _ => exact absurd rfl h

/-- Whoever has a sample in hand owns the client. -/
theorem Pc.owning_of_phase (h : p.phase ≠ none) : p.owning = true := by
  rw [owning, isWorker_of_phase h, Bool.true_or]

/-- Data to put back is kept while there is no worker. -/
theorem Pc.unoccupied_of_saved (h : p.saved ≠ none) : p.knows.unoccupied = true := by
  cases p with
  | start ctx callback pc => cases pc <;> first | rfl | exact absurd rfl h
  | _ => exact absurd rfl h

theorem Pc.owning_of_saved (h : p.saved ≠ none) : p.owning = true := by
  rw [owning, unoccupied_of_saved h, Bool.or_true]

theorem Pc.owning_of_entering (h : p.entering = true) : p.owning = true := by
  cases p with
  | start ctx callback pc =>
    cases pc with
    | data | create | rollbackData => exact Bool.or_true _
    | _ => cases h
  | run pc =>
    cases pc with
    | apply | observe | invoke | inCallback | callbackThrew | deliver => rfl
    | _ => cases h
  | _ => cases h

/-- A notify, or a wait that is over, moves no sample and no saved data. -/
theorem passes_quiet (h : program.Passes p q s) : q.phase = p.phase ∧ q.saved = p.saved := by
  cases goesOn_of_passes h with
  | deliveredLifecycle k => exact ⟨RunPc.afterRecord_phase _ _, rfl⟩
  | _ => exact ⟨rfl, rfl⟩

end

namespace Ledger.Of

variable {L L' : Ledger} {x x' : System × History} {t : Tid}

/-- Nothing that the ledger sees has changed. -/
theorem same (h : L.Of x) (hdata : x'.1.shared.impl.data = x.1.shared.impl.data)
    (hcreated : x'.1.shared.created = x.1.shared.created) (hhistory : x'.2 = x.2)
    (hpc : ∀ u, (x'.1.threads u).pc.phase = (x.1.threads u).pc.phase ∧
      (x'.1.threads u).pc.saved = (x.1.threads u).pc.saved) : L.Of x' where
  data := hdata.trans h.data
  created := hcreated.trans h.created
  history := hhistory.trans h.history
  saved d := by simp only [h.saved d, (hpc _).2]
  pending u phase sample := by rw [h.pending u phase sample, (hpc u).1]

/-- While one thread owns the data, the ledger is at what that thread is at. -/
theorem owner (h : L.Of x) (hothers : ∀ u, u ≠ t →
      (x.1.threads u).pc.phase = none ∧ (x.1.threads u).pc.saved = none) :
    L.saved = (x.1.threads t).pc.saved ∧
      L.pending = (x.1.threads t).pc.phase.map fun q => (t, q.1, q.2) := by
  constructor
  · refine Option.ext fun d => ⟨fun hd => ?_, fun hd => (h.saved d).mpr ⟨t, hd⟩⟩
    obtain ⟨u, hu⟩ := (h.saved d).mp hd
    by_cases hut : u = t
    · exact hut ▸ hu
    · simp [(hothers u hut).2] at hu
  · refine Option.ext fun ⟨u, phase, sample⟩ => ?_
    rw [Option.map_eq_some_iff]
    constructor
    · intro hpending
      have hu := (h.pending u phase sample).mp hpending
      by_cases hut : u = t
      · exact ⟨(phase, sample), hut ▸ hu, by rw [hut]⟩
      · simp [(hothers u hut).1] at hu
    · rintro ⟨q, hq, heq⟩
      cases heq
      exact (h.pending _ _ _).mpr hq

/-- One thread owns the client, so the books follow from where it stands. -/
theorem of_owner (hdata : x'.1.shared.impl.data = L'.data)
    (hcreated : x'.1.shared.created = L'.created) (hhistory : x'.2 = L'.history)
    (hothers : ∀ u, u ≠ t → (x'.1.threads u).pc.phase = none ∧ (x'.1.threads u).pc.saved = none)
    (hsaved : L'.saved = (x'.1.threads t).pc.saved)
    (hpending : L'.pending = (x'.1.threads t).pc.phase.map fun q => (t, q.1, q.2)) : L'.Of x' where
  data := hdata
  created := hcreated
  history := hhistory
  saved d := by
    rw [hsaved]
    refine ⟨fun hd => ⟨t, hd⟩, fun ⟨u, hu⟩ => ?_⟩
    by_cases hut : u = t
    · exact hut ▸ hu
    · simp [(hothers u hut).2] at hu
  pending u phase sample := by
    rw [hpending, Option.map_eq_some_iff]
    constructor
    · rintro ⟨q, hq, heq⟩
      cases heq
      exact hq
    · intro hu
      by_cases hut : u = t
      · exact ⟨(phase, sample), hut ▸ hu, by rw [hut]⟩
      · simp [(hothers u hut).1] at hu

end Ledger.Of

/-! ## The simulation -/

section

variable {config : Config} {L : Ledger} {x x' : System × History} {i : Input} {t : Tid}

/-- The other threads keep their samples and saved data while thread `t` acts. -/
theorem others_quiet {s s' : System} {choice : Choice} {e : Effect Shared Pc}
    (hf : (s.threads t).pc.action t choice s.shared = some e)
    (hpc : ∀ u, u ≠ t → (s'.threads u).pc = (s.threads u).pc ∨
      program.fresh (s.threads u).pc = true ∧ e.spawned = some (u, (s'.threads u).pc)) (u : Tid)
    (hu : u ≠ t) : (s'.threads u).pc.phase = (s.threads u).pc.phase ∧
      (s'.threads u).pc.saved = (s.threads u).pc.saved := by
  rcases hpc u hu with hsame | ⟨hfresh, hspawned⟩
  · rw [hsame]
    exact ⟨rfl, rfl⟩
  · have hbefore : (s.threads u).pc.phase = none ∧ (s.threads u).pc.saved = none := by
      revert hfresh
      cases (s.threads u).pc <;> first
        | exact fun _ => ⟨rfl, rfl⟩
        | exact fun h => absurd h (by simp [program, Pc.isOutside])
    have hafter : (s'.threads u).pc.phase = none ∧ (s'.threads u).pc.saved = none := by
      rw [spawned_run hf hspawned]
      exact ⟨rfl, rfl⟩
    rw [hbefore.1, hbefore.2]
    exact hafter

/-- A step of another kind than an action moves nothing. -/
theorem others_quiet_of_pass {s s' : System} (hstep : Step s i s')
    (hact : ∀ takes f, (s.threads i.tid).pc.instr ≠ .act takes f) (u : Tid) :
    (s'.threads u).pc.phase = (s.threads u).pc.phase ∧
      (s'.threads u).pc.saved = (s.threads u).pc.saved := by
  rcases Program.step_pc hstep u with hsame | ⟨rfl, takes, f, _, _, hinstr, -⟩ | ⟨-, hpass⟩ |
    ⟨-, child, f, hinstr⟩ | ⟨-, takes, f, _, _, hinstr, -⟩
  · rw [hsame]
    exact ⟨rfl, rfl⟩
  · exact absurd hinstr (hact takes f)
  · exact passes_quiet hpass
  · obtain ⟨-, ⟨_, _, hp, hq⟩ | ⟨_, _, hp, hq⟩⟩ := Pc.instr_join hinstr <;> rw [hp, hq] <;>
      exact ⟨rfl, rfl⟩
  · exact absurd hinstr (hact takes f)

theorem Pc.instr_of_entering {p : Pc} (h : p.entering = true) : p.instr = .act p.takes p.action := by
  cases p with
  | start ctx callback pc =>
    cases pc with
    | data | create | rollbackData => rfl
    | _ => cases h
  | run pc =>
    cases pc with
    | apply | observe | invoke | inCallback | callbackThrew | deliver => rfl
    | _ => cases h
  | _ => cases h

/-- What an action has to leave behind for `L'` to be the ledger. -/
structure Ledger.After (L' : Ledger) (t : Tid) (e : Effect Shared Pc) (h : History) : Prop where
  data : e.shared.impl.data = L'.data
  created : e.shared.created = L'.created
  history : h = L'.history
  saved : L'.saved = e.next.saved
  pending : L'.pending = e.next.phase.map fun q => (t, q.1, q.2)

/-- The worker goes on as its record was prepared. -/
theorem step_observe {l : Loop} {record : RawRecord} {receivedAt : TimePoint} {choice : Choice}
    {c impl : Impl} {wire sessions : Wire} {next : RunPc}
    (h : (RunPc.observe l record receivedAt).step choice c wire = some (impl, sessions, next)) :
    (c.prepareRecord record receivedAt).1 = impl ∧
      (match (c.prepareRecord record receivedAt).2 with
        | .raised what => RunPc.raised what
        | .done outcome => RunPc.afterRecord l outcome
        | .invoke sample outcome => .invoke ⟨l, sample, outcome⟩) = next := by
  simp only [RunPc.step, RunPc.stepOpen, RunPc.stepLoop, Option.none_or] at h
  split at h <;> rename_i hcase <;> cases h <;> rw [hcase] <;> exact ⟨rfl, rfl⟩

/-- The actions of the worker that move the ledger. -/
theorem worker_moves {pc : RunPc} {choice : Choice} {s : Shared} {e : Effect Shared Pc} {h : History}
    (hentering : (Pc.run pc).entering = true) (hf : runStep pc t choice s = some e)
    (hconfig : s.impl.config = config) (hlast : s.created.head? = some t)
    (hdata : s.impl.data = L.data) (hcreated : s.created = L.created) (hhistory : h = L.history)
    (hsaved : L.saved = none) (hpending : L.pending = pc.phase.map fun q => (t, q.1, q.2)) :
    ∃ L', L.Move config L' ∧ L'.After t e ((Pc.run pc).record t choice s h) := by
  subst hhistory hconfig
  cases pc with
  | apply b configuration =>
    rcases runStep_cases hf with ⟨_, _, heq, -⟩ | ⟨impl, sessions, next, hstep, rfl⟩
    · cases heq
    cases hstep
    refine ⟨_, .configure configuration hsaved hpending, ?_, hcreated, rfl, hsaved, hpending⟩
    rw [← hdata]
    exact s.impl.applyConfiguration_data configuration
  | observe l record receivedAt =>
    rcases runStep_cases hf with ⟨_, _, heq, -⟩ | ⟨impl, sessions, next, hstep, rfl⟩
    · cases heq
    obtain ⟨rfl, rfl⟩ := step_observe hstep
    cases hconf : s.impl.health.sensorConfiguration with
    | none =>
      -- nothing is counted, and the worker goes on to fail
      obtain ⟨hsame, what, hraised⟩ := s.impl.prepareRecord_none hconf record receivedAt
      refine ⟨L, .stay, hsame.trans hdata, hcreated, ?_, hsaved, ?_⟩
      · simp only [Pc.record, hconf]
      · simp only [hpending, hraised]
        rfl
    | some configuration =>
      have hcounts := s.impl.prepareRecord_data t s.created.length record receivedAt hconf
      have hfate := s.impl.prepareRecord_fate t s.created.length record receivedAt hconf
      refine ⟨_, .handle (s.impl.handled t s.created.length record receivedAt configuration) hsaved
        hpending (s.impl.handled_fresh t _ record receivedAt configuration) (hcreated ▸ hlast)
        (by rw [hcreated]; rfl) (by rw [← hdata]; exact hconf), ?_, hcreated, ?_, hsaved, ?_⟩
      · rw [← hdata]
        exact hcounts
      · simp only [Pc.record, hconf]
      · rcases hfate with ⟨hoffered, outcome, hinvoke⟩ | ⟨hother, outcome, hdone⟩
        · simp only [hoffered, hinvoke]
          rfl
        · simp only [if_neg hother, hdone, Pc.phase, RunPc.afterRecord_phase, Option.map_none]
  | invoke k =>
    rcases runStep_cases hf with ⟨_, _, heq, -⟩ | ⟨impl, sessions, next, hstep, rfl⟩
    · cases heq
    cases hstep
    cases hcallback : s.impl.callback.isSome with
    | true =>
      refine ⟨_, .call hpending, hdata, hcreated, ?_, hsaved, ?_⟩
      · simp only [Pc.record, hcallback, if_true]
      · simp only [if_true]
        rfl
    | false =>
      refine ⟨_, .skip hpending, hdata, hcreated, ?_, hsaved, ?_⟩
      · simp only [Pc.record, hcallback, Bool.false_eq_true, if_false]
      · simp only [Bool.false_eq_true, if_false]
        rfl
  | inCallback k =>
    cases choice with
    | call call =>
      obtain ⟨hdata', hcreated', hphase, hsaved'⟩ :=
        beginCall_quiet (show beginCall (.callback k) t call s = some e from hf)
      exact ⟨L, .stay, hdata'.trans hdata, hcreated'.trans hcreated, rfl, hsaved.trans hsaved'.symm, by
        rw [hphase]
        exact hpending⟩
    | returned =>
      cases hf
      exact ⟨_, .return hpending, hdata, hcreated, rfl, hsaved, rfl⟩
    | threw what =>
      cases hf
      exact ⟨_, .throw what hpending, hdata, hcreated, rfl, hsaved, rfl⟩
    | _ => cases hf
  | callbackThrew k what =>
    rcases runStep_cases hf with ⟨_, _, heq, -⟩ | ⟨impl, sessions, next, hstep, rfl⟩
    · cases heq
    cases hstep
    refine ⟨_, .fail hpending, ?_, hcreated, rfl, hsaved, ?_⟩
    · rw [← hdata]
      exact s.impl.recordCallbackError_data _
    · simp only [Pc.phase, RunPc.afterRecord_phase, Option.map_none]
  | deliver k =>
    rcases runStep_cases hf with ⟨_, _, heq, -⟩ | ⟨impl, sessions, next, hstep, rfl⟩
    · cases heq
    cases hstep
    refine ⟨_, .deliver hpending, ?_, hcreated, rfl, hsaved, rfl⟩
    rw [← hdata]
    exact s.impl.deliverSample_data k.sample
  | _ => cases hentering

/-- The actions of `start` that move the ledger. -/
theorem start_moves {ctx : Ctx} {callback : SampleCallback} {pc : StartPc} {choice : Choice}
    {s : Shared} {e : Effect Shared Pc} {h : History}
    (hentering : (Pc.start ctx callback pc).entering = true)
    (hf : startStep ctx callback pc t choice s = some e) (hphase : ctx.phase = none)
    (hdata : s.impl.data = L.data) (hcreated : s.created = L.created) (hhistory : h = L.history)
    (hsaved : L.saved = pc.saved) (hpending : L.pending = none) :
    ∃ L', L.Move config L' ∧
      L'.After t e ((Pc.start ctx callback pc).record t choice s h) := by
  have hnone : L.pending = ctx.phase.map fun q => (t, q.1, q.2) := by rw [hpending, hphase]; rfl
  cases pc with
  | data saved =>
    cases hf
    refine ⟨_, .begin hsaved hpending, ?_, hcreated, hhistory, ?_, hnone⟩
    · rw [← hdata]
      exact s.impl.beginGeneration_data
    · rw [← hdata]
      rfl
  | create saved =>
    rcases create_cases (t := t) hf with ⟨w, rfl⟩ | rfl
    · refine ⟨_, .create w hsaved, hdata, ?_, hhistory, rfl, hnone⟩
      rw [← hcreated]
    · exact ⟨L, .stay, hdata, hcreated, hhistory, hsaved, hnone⟩
  | rollbackData saved =>
    cases hf
    exact ⟨_, .restore hsaved, s.impl.restoreData_data saved, hcreated, hhistory, rfl, hnone⟩
  | _ => cases hentering

/-- **Every step of the client is a move of its ledger.** -/
theorem Ledger.Of.step (hof : L.Of x) (hreach : x.1.Reachable config) (hstep : RecordStep x i x') :
    ∃ L', L.Move config L' ∧ L'.Of x' := by
  obtain ⟨s, h⟩ := x
  obtain ⟨s', h'⟩ := x'
  obtain ⟨hnext, hhistory⟩ := hstep
  obtain ⟨t, move⟩ := i
  change Step s ⟨t, move⟩ s' at hnext
  change h' = recordHistory s ⟨t, move⟩ h at hhistory
  replace hreach : s.Reachable config := hreach
  cases hentering : (s.threads t).pc.entering with
  | false =>
    refine ⟨L, .stay, ?_⟩
    have hsame : h' = h := by
      rw [hhistory]
      unfold recordHistory
      split
      · exact record_quiet hentering h
      · rfl
    by_cases hact : ∃ takes f, (s.threads t).pc.instr = .act takes f
    · obtain ⟨takes, f, hinstr⟩ := hact
      obtain ⟨choice, e, -, hf, hshared, hpc, hothers⟩ := hreach.consistent.step_act hnext hinstr
      obtain ⟨-, rfl⟩ := Pc.instr_act hinstr
      have hquiet := action_quiet hf hentering
      refine hof.same (by rw [hshared]; exact hquiet.data) (by rw [hshared]; exact hquiet.created) hsame
        fun u => ?_
      by_cases hu : u = t
      · subst hu
        rw [hpc]
        exact ⟨hquiet.phase, hquiet.saved⟩
      · exact others_quiet hf hothers u hu
    · have hnot : ∀ takes f, (s.threads t).pc.instr ≠ .act takes f := fun takes f heq =>
        hact ⟨takes, f, heq⟩
      have hpc := others_quiet_of_pass hnext hnot
      rcases Program.step_shared hnext with hshared | ⟨takes, f, _, _, hinstr, -⟩ |
        ⟨child, f, q, hinstr, hshared⟩
      · exact hof.same (by rw [hshared]) (by rw [hshared]) hsame hpc
      · exact absurd hinstr (hnot takes f)
      · obtain ⟨rfl, -⟩ := Pc.instr_join hinstr
        exact hof.same (by rw [hshared]; rfl) (by rw [hshared]; rfl) hsame hpc
  | true =>
    have hinstr := Pc.instr_of_entering hentering
    obtain ⟨choice, e, hmove, hf, hshared, hpc, hothers⟩ := hreach.consistent.step_act hnext hinstr
    change move = .go choice at hmove
    subst hmove
    replace hhistory : h' = (s.threads t).pc.record t choice s.shared h := hhistory
    have hnone : ∀ u, u ≠ t → (s.threads u).pc.phase = none ∧ (s.threads u).pc.saved = none := by
      intro u hu
      have howns := Pc.owning_of_entering hentering
      constructor
      · by_contra hphase
        exact hu (hreach.owner_unique (Pc.owning_of_phase hphase) howns)
      · by_contra hsaved
        exact hu (hreach.owner_unique (Pc.owning_of_saved hsaved) howns)
    obtain ⟨hsaved, hpending⟩ := hof.owner hnone
    have hafter : ∀ u, u ≠ t → (s'.threads u).pc.phase = none ∧ (s'.threads u).pc.saved = none := by
      intro u hu
      obtain ⟨hphase', hsaved'⟩ := others_quiet hf hothers u hu
      rw [hphase', hsaved']
      exact hnone u hu
    suffices ∃ L', L.Move config L' ∧ L'.After t e ((s.threads t).pc.record t choice s.shared h) by
      obtain ⟨L', hmoves, hdata, hcreated, hrecord, hsaved', hpending'⟩ := this
      refine ⟨L', hmoves, .of_owner (t := t) (by rw [hshared]; exact hdata)
        (by rw [hshared]; exact hcreated) (hhistory.trans hrecord) hafter ?_ ?_⟩
      · rw [hpc]
        exact hsaved'
      · rw [hpc]
        exact hpending'
    cases hp : (s.threads t).pc with
    | run pc =>
      rw [hp] at hf hsaved hpending hentering
      have halive : s.Alive t := by
        cases pc with
        | apply | observe | invoke | inCallback | callbackThrew | deliver =>
          unfold System.Alive
          rw [hp]
          rfl
        | _ => cases hentering
      exact worker_moves hentering hf hreach.config (hreach.latest_worker (hreach.handle_of_alive halive))
        hof.data hof.created hof.history hsaved hpending
    | start ctx callback pc =>
      rw [hp] at hf hsaved hpending hentering
      have hworker : ctx.isCallback = false := by
        have hunoccupied : (s.threads t).pc.knows.unoccupied = true := by
          rw [hp]
          cases pc with
          | data | create | rollbackData => rfl
          | _ => cases hentering
        have hdead := hreach.noWorker_of_unoccupied hunoccupied t
        unfold System.Alive at hdead
        rw [hp] at hdead
        simpa [Pc.isWorker] using hdead
      have hphase : ctx.phase = none := by
        cases ctx <;> first | rfl | cases hworker
      replace hpending : L.pending = none := by
        rw [hpending]
        simp only [Pc.phase, hphase, Option.map_none]
      exact start_moves hentering hf hphase hof.data hof.created hof.history hsaved hpending
    | _ =>
      rw [hp] at hentering
      cases hentering

end

/-- The empty ledger is that of a constructed client. -/
theorem Ledger.Of.init (config : Config) : ({} : Ledger).Of (System.init config, {}) where
  data := rfl
  created := rfl
  history := rfl
  saved d := by
    refine ⟨fun h => (by cases h), fun ⟨t, ht⟩ => ?_⟩
    simp only [System.init] at ht
    split_ifs at ht <;> cases ht
  pending t phase sample := by
    refine ⟨fun h => (by cases h), fun ht => ?_⟩
    simp only [System.init] at ht
    split_ifs at ht <;> cases ht

/-! ## The record in hand -/

/-- Where the callback stands with the sample of a record. -/
def Handled.At (r : Handled) : Phase → Prop
  | .offered => r.passed = false ∧ r.ended = none
  | .called => r.passed = true ∧ r.ended = none
  | .threw => r.passed = true ∧ ∃ what, r.ended = some (.threw what)
  | .completed => r.passed = true → r.ended = some .returned

/-- The record whose sample is on its way is the newest one, of the worker created last. -/
structure Ledger.InHand (L : Ledger) (t : Tid) (phase : Phase) (sample : Sample) (r : Handled) : Prop
    where
  worker : r.worker = t
  last : L.created.head? = some t
  run : r.run = L.created.length
  sample : r.sample = sample
  offered : r.fate = .offered
  stage : r.At phase

namespace Ledger

/-- What holds of the books in every reachable state. -/
structure Sound (L : Ledger) : Prop where
  saved : ∀ d, L.saved = some d → L.data = d.next ∧ L.pending = none
  settled : L.pending = none → ∀ r ∈ L.history.records, r.fate ≠ .offered
  pending : ∀ t phase sample, L.pending = some (t, phase, sample) →
    ∃ r rest, L.history.records = r :: rest ∧ L.InHand t phase sample r ∧
      ∀ r ∈ rest, r.fate ≠ .offered

variable {config : Config} {L L' : Ledger}

/-- The record in hand moves on. -/
theorem Sound.advance (h : L.Sound) {t : Tid} {phase : Phase} {sample : Sample}
    (hpending : L.pending = some (t, phase, sample)) (f : Handled → Handled) :
    ∃ r rest, L.history.records = r :: rest ∧ L.InHand t phase sample r ∧
      (∀ r ∈ rest, r.fate ≠ .offered) ∧ (L.history.update f).records = f r :: rest := by
  obtain ⟨r, rest, hrecords, hhand, hrest⟩ := h.pending t phase sample hpending
  exact ⟨r, rest, hrecords, hhand, hrest, by simp [History.update, hrecords]⟩

/-- **Every move keeps the books sound.** -/
theorem Sound.move (h : L.Sound) (hmove : L.Move config L') : L'.Sound := by
  cases hmove with
  | stay => exact h
  | «begin» hsaved hpending =>
    exact ⟨fun d hd => by cases hd; exact ⟨rfl, hpending⟩, h.settled,
      fun t phase sample hp => by simp [hpending] at hp⟩
  | create w hsaved =>
    have hnone := (h.saved _ hsaved).2
    exact ⟨fun d hd => (by cases hd), h.settled, fun t phase sample hp => by simp [hnone] at hp⟩
  | restore hsaved =>
    have hnone := (h.saved _ hsaved).2
    exact ⟨fun d hd => (by cases hd), h.settled, fun t phase sample hp => by simp [hnone] at hp⟩
  | configure configuration hsaved hpending =>
    exact ⟨fun d hd => by simp [hsaved] at hd, h.settled,
      fun t phase sample hp => by simp [hpending] at hp⟩
  | handle r hsaved hpending hfresh hworker hrun _ =>
    refine ⟨fun d hd => by simp [hsaved] at hd, fun hnone => ?_, fun t phase sample hp => ?_⟩
    · by_cases hoffered : r.fate = .offered
      · simp [hoffered] at hnone
      · rintro r' (_ | ⟨_, hr'⟩)
        · exact hoffered
        · exact h.settled hpending r' hr'
    · by_cases hoffered : r.fate = .offered
      · simp only [hoffered, if_true, Option.some.injEq, Prod.mk.injEq] at hp
        obtain ⟨rfl, rfl, rfl⟩ := hp
        exact ⟨r, L.history.records, rfl,
          ⟨rfl, hworker, hrun, rfl, hoffered, hfresh.passed, hfresh.ended⟩, h.settled hpending⟩
      · simp [hoffered] at hp
  | call hpending =>
    obtain ⟨r, rest, -, hhand, hrest, hnew⟩ := h.advance hpending ({ · with passed := true })
    refine ⟨fun d hd => ?_, fun hnone => (by cases hnone), fun t phase sample hp => ?_⟩
    · simp [(h.saved d hd).2] at hpending
    · cases hp
      exact ⟨_, rest, hnew, ⟨hhand.worker, hhand.last, hhand.run, hhand.sample, hhand.offered,
        rfl, hhand.stage.2⟩, hrest⟩
  | skip hpending =>
    obtain ⟨r, rest, hrecords, hhand, hrest⟩ := h.pending _ _ _ hpending
    refine ⟨fun d hd => ?_, fun hnone => (by cases hnone), fun t phase sample hp => ?_⟩
    · simp [(h.saved d hd).2] at hpending
    · cases hp
      exact ⟨r, rest, hrecords, ⟨hhand.worker, hhand.last, hhand.run, hhand.sample, hhand.offered,
        fun hpassed => by simp [hhand.stage.1] at hpassed⟩, hrest⟩
  | «return» hpending =>
    obtain ⟨r, rest, -, hhand, hrest, hnew⟩ := h.advance hpending ({ · with ended := some .returned })
    refine ⟨fun d hd => ?_, fun hnone => (by cases hnone), fun t phase sample hp => ?_⟩
    · simp [(h.saved d hd).2] at hpending
    · cases hp
      exact ⟨_, rest, hnew, ⟨hhand.worker, hhand.last, hhand.run, hhand.sample, hhand.offered,
        fun _ => rfl⟩, hrest⟩
  | throw what hpending =>
    obtain ⟨r, rest, -, hhand, hrest, hnew⟩ :=
      h.advance hpending ({ · with ended := some (.threw what) })
    refine ⟨fun d hd => ?_, fun hnone => (by cases hnone), fun t phase sample hp => ?_⟩
    · simp [(h.saved d hd).2] at hpending
    · cases hp
      exact ⟨_, rest, hnew, ⟨hhand.worker, hhand.last, hhand.run, hhand.sample, hhand.offered,
        hhand.stage.1, what, rfl⟩, hrest⟩
  | fail hpending =>
    obtain ⟨r, rest, -, -, hrest, hnew⟩ := h.advance hpending ({ · with fate := .failed })
    refine ⟨fun d hd => ?_, fun _ => ?_, fun t phase sample hp => (by cases hp)⟩
    · simp [(h.saved d hd).2] at hpending
    · rw [hnew]
      rintro r' (_ | ⟨_, hr'⟩)
      · exact fun heq => by cases heq
      · exact hrest r' hr'
  | deliver hpending =>
    obtain ⟨r, rest, -, -, hrest, hnew⟩ := h.advance hpending ({ · with fate := .delivered })
    refine ⟨fun d hd => ?_, fun _ => ?_, fun t phase sample hp => (by cases hp)⟩
    · simp [(h.saved d hd).2] at hpending
    · rw [hnew]
      rintro r' (_ | ⟨_, hr'⟩)
      · exact fun heq => by cases heq
      · exact hrest r' hr'

theorem sound_init : ({} : Ledger).Sound where
  saved d hd := by cases hd
  settled _ r hr := by cases hr
  pending t phase sample hp := by cases hp

end Ledger

/-- **What every move of the ledger keeps, every reachable state of the client has.** -/
theorem Recorded.invariant {config : Config} {I : Ledger → Prop} (hinit : I {})
    (hmove : ∀ L L', L.Sound → I L → L.Move config L' → I L') {x : System × History}
    (h : Recorded config x) : ∃ L, L.Of x ∧ L.Sound ∧ I L := by
  refine Library.Reachable.invariant (I := fun x => ∃ L : Ledger, L.Of x ∧ L.Sound ∧ I L)
    ⟨{}, .init config, Ledger.sound_init, hinit⟩ ?_ h
  rintro x i x' hreach ⟨L, hof, hsound, hinv⟩ hstep
  obtain ⟨L', hmoves, hof'⟩ := hof.step (Recorded.reachable hreach) hstep
  exact ⟨L', hof', hsound.move hmoves, hmove L L' hsound hinv hmoves⟩

end NetFT.Client
