/-
# NetFT.Client.FirstSample — `wait_for_first_sample` attests a sample of the current run.

`start` begins a generation and, if it cannot create a worker, puts the previous one back together with
the sample that was delivered in it.  A waiter compares numbers only, across lock releases.

* `Attested` is what every data section keeps: the delivered generation is the current one exactly when
  there is a latest sample, and then the worker created last delivered it.
* `FalseResult` is why a call gives false; a call is followed from the capture of the generation to the
  evaluation of the predicate that ends its wait.
* **`firstSample_sound`**: a true result attests such a sample, and a false one has a reason.
-/
import NetFT.Client.Ledger

namespace NetFT.Client

set_option autoImplicit false

open Library (Runs restrict)
open Library.Threads (Tid Effect Program Sys)

/-! ## The invariant -/

/-- Worker `worker`, the one created last, handled the record and delivered its sample after that. -/
structure Handled.Attests (r : Handled) (created : List Tid) (sample : Sample) : Prop where
  sample : r.sample = sample
  fate : r.fate = .delivered
  completed : r.passed = true → r.ended = some .returned
  worker : created.head? = some r.worker
  run : r.run = created.length

structure Attested (created : List Tid) (records : List Handled) (d : Data) : Prop where
  started : created ≠ [] → d.generation ≠ 0
  delivered_iff : d.generation ≠ 0 →
    (d.deliveredGeneration = d.generation ↔ d.latest.isSome = true)
  latest : ∀ sample, d.latest = some sample → ∃ r ∈ records, r.Attests created sample

namespace Attested

variable {created : List Tid} {records rest : List Handled} {r : Handled} {d d' : Data}

theorem next (d : Data) : Attested created records d.next where
  started _ := by simp [Data.next]
  delivered_iff _ := by simp [Data.next]
  latest sample h := by cases h

theorem same (h : Attested created records d) (hlatest : d'.latest = d.latest)
    (hgeneration : d'.generation = d.generation)
    (hdelivered : d'.deliveredGeneration = d.deliveredGeneration) : Attested created records d' where
  started := by rw [hgeneration]; exact h.started
  delivered_iff := by rw [hgeneration, hdelivered, hlatest]; exact h.delivered_iff
  latest := by rw [hlatest]; exact h.latest

/-- Another record is no witness less. -/
theorem records_mono (h : Attested created records d) {records' : List Handled}
    (hrecords : ∀ r ∈ records, r.fate = .delivered → r ∈ records') :
    Attested created records' d where
  started := h.started
  delivered_iff := h.delivered_iff
  latest sample hsample := by
    obtain ⟨r, hr, hattests⟩ := h.latest sample hsample
    exact ⟨r, hrecords r hr hattests.fate, hattests⟩

/-- The record in hand is no witness yet. -/
theorem advance (h : Attested created (r :: rest) d) (hoffered : r.fate = .offered) (r' : Handled) :
    Attested created (r' :: rest) d :=
  h.records_mono fun r'' hr'' hfate => by
    rcases List.mem_cons.mp hr'' with rfl | hr''
    · simp [hoffered] at hfate
    · exact List.mem_cons_of_mem _ hr''

end Attested

structure Ledger.Attests (L : Ledger) : Prop where
  current : Attested L.created L.history.records L.data
  saved : ∀ d, L.saved = some d → Attested L.created L.history.records d

namespace Ledger.Attests

variable {config : Config} {L L' : Ledger}

/-- While a record is in hand there is nothing saved. -/
theorem of_pending (hsound : L.Sound) {t : Tid} {phase : Phase} {sample : Sample}
    (hpending : L.pending = some (t, phase, sample)) (hsaved : L'.saved = L.saved)
    (hcurrent : Attested L'.created L'.history.records L'.data) : L'.Attests where
  current := hcurrent
  saved d hd := by
    rw [hsaved] at hd
    simp [(hsound.saved d hd).2] at hpending

theorem move (hsound : L.Sound) (h : L.Attests) (hmove : L.Move config L') : L'.Attests := by
  cases hmove with
  | stay => exact h
  | «begin» hsaved hpending =>
    exact ⟨.next L.data, fun d hd => by cases hd; exact h.current⟩
  | create w hsaved =>
    -- the new generation has no sample yet
    refine ⟨?_, fun d hd => (by cases hd)⟩
    rw [(hsound.saved _ hsaved).1]
    exact .next _
  | restore hsaved => exact ⟨h.saved _ hsaved, fun d hd => (by cases hd)⟩
  | configure configuration hsaved hpending =>
    exact ⟨h.current.same rfl rfl rfl, fun d hd => by simp [hsaved] at hd⟩
  | handle r hsaved =>
    exact ⟨(h.current.records_mono fun r' hr' _ => List.mem_cons_of_mem _ hr').same rfl rfl rfl,
      fun d hd => by simp [hsaved] at hd⟩
  | call hpending =>
    obtain ⟨r, rest, hrecords, hhand, -, hnew⟩ := hsound.advance hpending ({ · with passed := true })
    refine of_pending hsound hpending rfl ?_
    rw [hnew]
    exact (hrecords ▸ h.current).advance hhand.offered _
  | skip hpending => exact of_pending hsound hpending rfl h.current
  | «return» hpending =>
    obtain ⟨r, rest, hrecords, hhand, -, hnew⟩ :=
      hsound.advance hpending ({ · with ended := some .returned })
    refine of_pending hsound hpending rfl ?_
    rw [hnew]
    exact (hrecords ▸ h.current).advance hhand.offered _
  | throw what hpending =>
    obtain ⟨r, rest, hrecords, hhand, -, hnew⟩ :=
      hsound.advance hpending ({ · with ended := some (.threw what) })
    refine of_pending hsound hpending rfl ?_
    rw [hnew]
    exact (hrecords ▸ h.current).advance hhand.offered _
  | fail hpending =>
    obtain ⟨r, rest, hrecords, hhand, -, hnew⟩ := hsound.advance hpending ({ · with fate := .failed })
    refine of_pending hsound hpending rfl ?_
    rw [hnew]
    exact ((hrecords ▸ h.current).advance hhand.offered _).same rfl rfl rfl
  | deliver hpending =>
    obtain ⟨r, rest, hrecords, hhand, -, hnew⟩ :=
      hsound.advance hpending ({ · with fate := .delivered })
    refine of_pending hsound hpending rfl ?_
    rw [hnew]
    have hcreated : L.created ≠ [] := fun hnil => by
      have hlast := hhand.last
      simp [hnil] at hlast
    refine ⟨h.current.started, fun _ => by simp [Data.deliver], ?_⟩
    rintro sample ⟨⟩
    exact ⟨_, List.mem_cons_self, hhand.sample, rfl, hhand.stage, by rw [hhand.worker]; exact hhand.last,
      hhand.run⟩

theorem init : ({} : Ledger).Attests where
  current := by constructor <;> simp
  saved d hd := by cases hd

end Ledger.Attests

/-- **The delivered generation is the current one exactly when there is a latest sample**, and then the
worker of the most recent `start` that created one has delivered it. -/
theorem Recorded.attested {config : Config} {x : System × History} (h : Recorded config x) :
    Attested x.1.shared.created x.2.records x.1.shared.impl.data := by
  obtain ⟨L, hof, -, hattests⟩ := h.invariant Ledger.Attests.init fun L L' => Ledger.Attests.move
  rw [hof.created, hof.history, hof.data]
  exact hattests.current

theorem System.Reachable.attested {config : Config} {s : System} (h : s.Reachable config) :
    ∃ created records, Attested created records s.shared.impl.data := by
  obtain ⟨is, hruns⟩ := h
  obtain ⟨past, htracked⟩ := hruns.exists_tracked recordHistory {}
  exact ⟨_, _, Recorded.attested ⟨is, htracked⟩⟩

/-! ## Who changes the generation -/

/-- A `start` begins a generation here, or takes it back. -/
def Pc.changesGeneration : Pc → Bool
  | .start _ _ (.data _) | .start _ _ (.rollbackData _) => true
  | _ => false

section

variable {p : Pc} {t : Tid} {choice : Choice} {s : Shared} {e : Effect Shared Pc}

/-- An action that does not lock `data_mutex_` leaves the data alone. -/
theorem action_data (h : p.action t choice s = some e) (htakes : .data ∉ p.takes) :
    e.shared.impl.data = s.impl.data := by
  cases hentering : p.entering with
  | false => exact (action_quiet h hentering).data
  | true =>
    cases p with
    | start ctx callback pc =>
      cases pc with
      | create saved =>
        rcases create_cases h with ⟨w, rfl⟩ | rfl
        · rfl
        · rfl
      | data | rollbackData => simp [Pc.takes, StartPc.takes] at htakes
      | _ => cases hentering
    | run pc =>
      rcases runStep_cases h with ⟨k, call, -, hcall⟩ | ⟨impl, sessions, next, hstep, rfl⟩
      · rw [beginCall_impl hcall]
      · cases pc with
        | invoke k => cases hstep; rfl
        | inCallback k => cases choice <;> cases hstep <;> rfl
        | apply | observe | callbackThrew | deliver => simp [Pc.takes, RunPc.takes] at htakes
        | _ => cases hentering
    | _ => cases hentering

theorem action_generation (h : p.action t choice s = some e) (hchanges : p.changesGeneration = false) :
    e.shared.impl.generation = s.impl.generation := by
  cases hentering : p.entering with
  | false => exact congrArg Data.generation (action_quiet h hentering).data
  | true =>
    cases p with
    | start ctx callback pc =>
      cases pc with
      | create saved => exact congrArg Data.generation (action_data h (by simp [Pc.takes, StartPc.takes]))
      | data | rollbackData => cases hchanges
      | _ => cases hentering
    | run pc =>
      rcases runStep_cases h with ⟨k, call, -, hcall⟩ | ⟨impl, sessions, next, hstep, rfl⟩
      · rw [beginCall_impl hcall]
      · cases pc with
        | deliver k => cases hstep; rfl
        | apply | observe | invoke | inCallback | callbackThrew =>
          exact (RunPc.step_frame hstep (by simp) (by simp) (by simp)).generation
        | _ => cases hentering
    | _ => cases hentering

end

theorem generation_step {s s' : System} {i : Input} (hstep : Step s i s')
    (hchanges : (s.threads i.tid).pc.changesGeneration = false) :
    s'.shared.impl.generation = s.shared.impl.generation := by
  rcases Program.step_shared hstep with hsame | ⟨takes, f, choice, e, hinstr, hf, hshared⟩ |
    ⟨child, f, q, hinstr, hshared⟩
  · rw [hsame]
  · obtain ⟨-, rfl⟩ := Pc.instr_act hinstr
    rw [hshared, action_generation hf hchanges]
  · obtain ⟨rfl, -⟩ := Pc.instr_join hinstr
    rw [hshared]
    rfl

/-- While thread `t` is about to return, it holds `data_mutex_`. -/
theorem data_beside_final {s s' : System} {i : Input} {t : Tid} {ctx : Ctx} {captured : Nat}
    (hcons : program.Consistent s) (hstep : Step s i s') (hne : t ≠ i.tid)
    (hpc : (s.threads t).pc = .waitForFirstSample ctx (.final captured)) :
    s'.shared.impl.data = s.shared.impl.data := by
  rcases hcons.step_beside hstep (m := .data) hne (by rw [hpc]; rfl)
      (by rw [hpc]; exact List.mem_singleton_self _) with
    hsame | ⟨takes, f, choice, e, hinstr, hf, hshared, hfree⟩ | ⟨child, f, q, hinstr, hshared⟩
  · rw [hsame]
  · obtain ⟨rfl, rfl⟩ := Pc.instr_act hinstr
    rw [hshared, action_data hf hfree]
  · obtain ⟨rfl, -⟩ := Pc.instr_join hinstr
    rw [hshared]
    rfl

/-! ## A call of `wait_for_first_sample` -/

/-- Thread `t` is in the given call of `wait_for_first_sample`. -/
def System.InWait (s : System) (ctx : Ctx) (t : Tid) : Prop :=
  ∃ pc, (s.threads t).pc = .waitForFirstSample ctx pc

/-- In some step of the run a `start` begins a generation or takes it back. -/
def StartIntervenes (s : System) (is : List Input) : Prop :=
  ∃ js i ks s₁, is = js ++ i :: ks ∧ Runs Step s js s₁ ∧
    (s₁.threads i.tid).pc.changesGeneration = true

/-- A generation that is another one at the end has been changed by a `start`. -/
theorem startIntervenes_of_ne {s s' : System} {is : List Input} (h : Runs Step s is s')
    (hne : s'.shared.impl.generation ≠ s.shared.impl.generation) : StartIntervenes s is := by
  obtain ⟨js, i, ks, s₁, s₂, rfl, hleft, hbefore, hstep, hafter, -⟩ :=
    h.crossing (p := fun s' => s'.shared.impl.generation ≠ s.shared.impl.generation) (by simp) hne
  refine ⟨js, i, ks, s₁, rfl, hleft, ?_⟩
  by_contra hchanges
  refine hafter ?_
  rw [generation_step hstep (by simpa using hchanges)]
  exact not_not.mp hbefore

/-- The call captures the generation. -/
structure Captures (t : Tid) (ctx : Ctx) (captured : Nat) (s s' : System) : Prop where
  before : (s.threads t).pc = .waitForFirstSample ctx .enter
  after : (s'.threads t).pc = .waitForFirstSample ctx (.waiting captured)
  generation : s.shared.impl.generation = captured
  same : s'.shared.impl.generation = captured
  ne_zero : captured ≠ 0

/-- The wait ends in the step `i` without a sample in the captured generation: either it is not the
current one, or the deadline has passed, or the client is stopping or has faulted. -/
structure GivesUp (t : Tid) (ctx : Ctx) (captured : Nat) (changed : Prop) (s : System) (i : Input)
    (s' : System) : Prop where
  before : (s.threads t).pc = .waitForFirstSample ctx (.waiting captured)
  after : (s'.threads t).pc = .waitForFirstSample ctx (.final captured)
  reason : (s.shared.impl.generation ≠ captured ∧ changed) ∨
    s.shared.impl.generation = captured ∧ s.shared.impl.deliveredGeneration ≠ captured ∧
      s.shared.impl.latest = none ∧
      (i.move = .expire ∨ s.shared.impl.stopping = true ∨ s.shared.impl.faulted = true)

/-- Why a call gives false that has taken the steps `is` from the state `s`. -/
inductive FalseResult (t : Tid) (ctx : Ctx) (s : System) (is : List Input) : Prop where
  | noGeneration {js ks : List Input} {i : Input} {s₁ : System} :
      is = js ++ i :: ks → Runs Step s js s₁ → i.tid = t →
      (s₁.threads t).pc = .waitForFirstSample ctx .enter → s₁.shared.impl.generation = 0 →
      FalseResult t ctx s is
  | waited {js ks ls : List Input} {i j : Input} {s₁ s₂ s₃ s₄ : System} {captured : Nat} :
      is = js ++ i :: ks ++ j :: ls → Runs Step s js s₁ → Step s₁ i s₂ →
      Captures t ctx captured s₁ s₂ → Runs Step s₂ ks s₃ → Step s₃ j s₄ →
      GivesUp t ctx captured (StartIntervenes s₂ ks) s₃ j s₄ → FalseResult t ctx s is

theorem FalseResult.append {t : Tid} {ctx : Ctx} {s : System} {is : List Input}
    (h : FalseResult t ctx s is) (more : List Input) : FalseResult t ctx s (is ++ more) := by
  cases h with
  | @noGeneration js ks i s₁ hsplit hleft hi hpc hzero =>
    have hmore : is ++ more = js ++ i :: (ks ++ more) := by simp [hsplit]
    exact .noGeneration hmore hleft hi hpc hzero
  | @waited js ks ls i j s₁ s₂ s₃ s₄ captured hsplit hleft hstep hcaptures hmiddle hstep' hgives =>
    have hmore : is ++ more = js ++ i :: ks ++ j :: (ls ++ more) := by simp [hsplit]
    exact .waited hmore hleft hstep hcaptures hmiddle hstep' hgives

/-- What a call at `pc` in the state `s'` has behind it. -/
def CallPast (t : Tid) (ctx : Ctx) (s : System) (is : List Input) (s' : System) : WaitPc → Prop
  | .enter => True
  | .waiting captured =>
    ∃ js i ks s₁ s₂, is = js ++ i :: ks ∧ Runs Step s js s₁ ∧ Step s₁ i s₂ ∧
      Captures t ctx captured s₁ s₂ ∧ Runs Step s₂ ks s'
  | .final captured =>
    (s'.shared.impl.generation = captured ∧ s'.shared.impl.deliveredGeneration = captured) ∨
      FalseResult t ctx s is
  | .returned result => result = false → FalseResult t ctx s is

section

variable {config : Config} {s s₁ s₂ : System} {js : List Input} {i : Input} {t : Tid} {ctx : Ctx}
  {pc pc' : WaitPc}

/-- A step of another thread. -/
theorem CallPast.beside (hcons : program.Consistent s₁) (hpast : CallPast t ctx s js s₁ pc)
    (hpc : (s₁.threads t).pc = .waitForFirstSample ctx pc) (hstep : Step s₁ i s₂) (hne : t ≠ i.tid) :
    CallPast t ctx s (js ++ [i]) s₂ pc := by
  cases pc with
  | enter => trivial
  | waiting captured =>
    obtain ⟨before, j, after, a, b, rfl, hleft, hj, hcaptures, hright⟩ := hpast
    exact ⟨before, j, after ++ [i], a, b, by simp, hleft, hj, hcaptures,
      hright.append (.single hstep)⟩
  | final captured =>
    rcases hpast with ⟨hgeneration, hdelivered⟩ | hfalse
    · have hdata := data_beside_final hcons hstep hne hpc
      exact .inl ⟨(congrArg Data.generation hdata).trans hgeneration,
        (congrArg Data.deliveredGeneration hdata).trans hdelivered⟩
    · exact .inr (hfalse.append [i])
  | returned result => exact fun hresult => (hpast hresult).append [i]

theorem Ctx.resume_ne_wait (ctx ctx' : Ctx) (pc : WaitPc) :
    ctx.resume ≠ .waitForFirstSample ctx' pc := by
  cases ctx <;> exact fun h => by cases h

/-- The capture of the generation. -/
theorem CallPast.enter (hcons : program.Consistent s₁) (hruns : Runs Step s js s₁)
    (hpc : (s₁.threads i.tid).pc = .waitForFirstSample ctx .enter) (hstep : Step s₁ i s₂)
    (hpc' : (s₂.threads i.tid).pc = .waitForFirstSample ctx pc') :
    CallPast i.tid ctx s (js ++ [i]) s₂ pc' := by
  obtain ⟨choice, e, -, hf, hshared, hnext, -⟩ := hcons.step_act hstep (by rw [hpc]; rfl)
  rw [hpc'] at hnext
  change waitStep ctx .enter i.tid choice s₁.shared = some e at hf
  simp only [waitStep] at hf
  split at hf
  · cases hf
    exact absurd hnext.symm (ctx.resume_ne_wait ctx pc')
  · split_ifs at hf with hzero <;> cases hf <;> cases hnext
    · exact fun _ => .noGeneration rfl hruns rfl hpc hzero
    · exact ⟨js, i, [], s₁, s₂, rfl, hruns, hstep, ⟨hpc, hpc', rfl, by rw [hshared], hzero⟩, .nil s₂⟩

/-- The end of the wait. -/
theorem CallPast.leave (hattested : ∃ created records, Attested created records s₁.shared.impl.data)
    {captured : Nat} (hpast : CallPast i.tid ctx s js s₁ (.waiting captured))
    (hpc : (s₁.threads i.tid).pc = .waitForFirstSample ctx (.waiting captured)) (hstep : Step s₁ i s₂)
    (hpc' : (s₂.threads i.tid).pc = .waitForFirstSample ctx pc') :
    CallPast i.tid ctx s (js ++ [i]) s₂ pc' := by
  obtain ⟨hshared, hmoves⟩ := Program.step_wait hstep (by rw [hpc]; rfl)
  obtain ⟨before, j, after, a, b, rfl, hleft, hj, hcaptures, hright⟩ := hpast
  rw [hpc, hpc'] at hmoves
  by_cases hsame : pc' = .waiting captured
  · subst hsame
    exact ⟨before, j, after ++ [i], a, b, by simp, hleft, hj, hcaptures,
      hright.append (.single hstep)⟩
  -- the predicate is true, or the deadline has passed
  obtain ⟨rfl, hover⟩ : pc' = .final captured ∧
      (s₁.shared.impl.firstSampleReady captured = true ∨ i.move = .expire) := by
    rcases hmoves with heq | ⟨hready, heq⟩ | ⟨hexpire, heq⟩ <;> cases heq
    · exact absurd rfl hsame
    · exact ⟨rfl, .inl hready⟩
    · exact ⟨rfl, .inr hexpire⟩
  have hgives : ∀ reason, FalseResult i.tid ctx s (before ++ j :: after ++ [i]) := fun reason =>
    .waited (show _ = before ++ j :: after ++ i :: [] from rfl) hleft hj hcaptures hright hstep
      ⟨hpc, hpc', reason⟩
  by_cases hgeneration : s₁.shared.impl.generation = captured
  · by_cases hdelivered : s₁.shared.impl.deliveredGeneration = captured
    · exact .inl ⟨by rw [hshared]; exact hgeneration, by rw [hshared]; exact hdelivered⟩
    · obtain ⟨created, records, hattested⟩ := hattested
      have hiff := hattested.delivered_iff (show s₁.shared.impl.generation ≠ 0 by
        rw [hgeneration]; exact hcaptures.ne_zero)
      have hnone : s₁.shared.impl.latest = none := by
        by_contra hsome
        refine hdelivered ((hiff.mpr ?_).trans hgeneration)
        exact Option.isSome_iff_ne_none.mpr hsome
      refine .inr (hgives (.inr ⟨hgeneration, hdelivered, hnone, ?_⟩))
      rcases hover with hready | hexpire
      · right
        simpa [Impl.firstSampleReady, hgeneration, hdelivered] using hready
      · exact .inl hexpire
  · refine .inr (hgives (.inl ⟨hgeneration, startIntervenes_of_ne hright ?_⟩))
    rwa [hcaptures.same]

/-- The evaluation of the result, and the return. -/
theorem CallPast.finish (hcons : program.Consistent s₁) (hpast : CallPast i.tid ctx s js s₁ pc)
    (hpc : (s₁.threads i.tid).pc = .waitForFirstSample ctx pc)
    (hover : (∃ captured, pc = .final captured) ∨ ∃ result, pc = .returned result)
    (hstep : Step s₁ i s₂) (hpc' : (s₂.threads i.tid).pc = .waitForFirstSample ctx pc') :
    CallPast i.tid ctx s (js ++ [i]) s₂ pc' := by
  obtain ⟨captured, rfl⟩ | ⟨result, rfl⟩ := hover <;>
    obtain ⟨choice, e, -, hf, hshared, hnext, -⟩ := hcons.step_act hstep (by rw [hpc]; rfl) <;>
    rw [hpc'] at hnext <;> cases hf
  · cases hnext
    intro hresult
    refine (hpast.resolve_left fun ⟨hgeneration, hdelivered⟩ => ?_).append [i]
    simp [hgeneration, hdelivered] at hresult
  · exact absurd hnext.symm (ctx.resume_ne_wait ctx pc')

end

/-- What a call has behind it, at every moment. -/
theorem callPast {config : Config} {s s' : System} {is : List Input} {t : Tid} {ctx : Ctx}
    (h : s.Reachable config) (hpc : (s.threads t).pc = .waitForFirstSample ctx .enter)
    (hruns : Runs (restrict Step fun s _ => s.InWait ctx t) s is s') {pc : WaitPc}
    (hpc' : (s'.threads t).pc = .waitForFirstSample ctx pc) : CallPast t ctx s is s' pc := by
  refine hruns.snoc_induction (motive := fun is s' => ∀ pc,
    (s'.threads t).pc = .waitForFirstSample ctx pc → CallPast t ctx s is s' pc) ?_ ?_ pc hpc'
  · rintro pc heq
    rw [hpc] at heq
    cases heq
    trivial
  · intro js i s₁ s₂ hleft hpast hstep pc' hpc₂
    obtain ⟨pc, hpc₁⟩ := hstep.1
    replace hpast := hpast pc hpc₁
    have hreach : s₁.Reachable config := Library.Reachable.runs h hleft.of_restrict
    by_cases hi : t = i.tid
    · subst hi
      cases pc with
      | enter => exact .enter hreach.consistent hleft.of_restrict hpc₁ hstep.2 hpc₂
      | waiting captured => exact hpast.leave hreach.attested hpc₁ hstep.2 hpc₂
      | final captured =>
        exact hpast.finish hreach.consistent hpc₁ (.inl ⟨captured, rfl⟩) hstep.2 hpc₂
      | returned result =>
        exact hpast.finish hreach.consistent hpc₁ (.inr ⟨result, rfl⟩) hstep.2 hpc₂
    · have hsame := Program.step_pc_other hstep.2 hi (by rw [hpc₁]; rfl)
      rw [hpc₂, hpc₁] at hsame
      cases hsame
      exact hpast.beside hreach.consistent hpc₁ hstep.2 hi

/-! ## Captured generations -/

/-- How a thread comes to a control point of `wait_for_first_sample`. -/
inductive WaitMove (c : Impl) (ctx : Ctx) : Pc → WaitPc → Prop where
  | call {p : Pc} : WaitMove c ctx p .enter
  | stay (pc : WaitPc) : WaitMove c ctx (.waitForFirstSample ctx pc) pc
  | noGeneration : c.generation = 0 →
      WaitMove c ctx (.waitForFirstSample ctx .enter) (.returned false)
  | capture : c.generation ≠ 0 →
      WaitMove c ctx (.waitForFirstSample ctx .enter) (.waiting c.generation)
  | leave (captured : Nat) :
      WaitMove c ctx (.waitForFirstSample ctx (.waiting captured)) (.final captured)
  | evaluate (captured : Nat) :
      WaitMove c ctx (.waitForFirstSample ctx (.final captured))
        (.returned (c.generation == captured && c.deliveredGeneration == captured))

theorem waitStep_moves {ctx ctx' : Ctx} {pc pc' : WaitPc} {t : Tid} {choice : Choice} {s : Shared}
    {e : Effect Shared Pc} (h : waitStep ctx' pc t choice s = some e)
    (hnext : e.next = .waitForFirstSample ctx pc') :
    WaitMove s.impl ctx (.waitForFirstSample ctx' pc) pc' := by
  have hleave : ∀ ctx' : Ctx, ctx'.resume ≠ .waitForFirstSample ctx pc' := fun ctx' =>
    ctx'.resume_ne_wait ctx pc'
  cases pc with
  | enter =>
    simp only [waitStep] at h
    split at h
    · cases h
      exact absurd hnext (hleave ctx')
    · split_ifs at h with hzero <;> cases h <;> cases hnext
      · exact .noGeneration hzero
      · exact .capture hzero
  | waiting captured => cases h
  | final captured =>
    cases h
    cases hnext
    exact .evaluate captured
  | returned result =>
    cases h
    exact absurd hnext (hleave ctx')

theorem action_wait {p : Pc} {t : Tid} {choice : Choice} {s : Shared} {e : Effect Shared Pc} {ctx : Ctx}
    {pc' : WaitPc} (h : p.action t choice s = some e) (hnext : e.next = .waitForFirstSample ctx pc') :
    WaitMove s.impl ctx p pc' := by
  have hleave : ∀ ctx' : Ctx, ctx'.resume ≠ .waitForFirstSample ctx pc' := fun ctx' =>
    ctx'.resume_ne_wait ctx pc'
  have hcall : ∀ {ctx' call}, beginCall ctx' t call s = some e → pc' = .enter := by
    intro ctx' call hcall
    cases call <;> grind [beginCall]
  cases p with
  | waitForFirstSample ctx' pc => exact waitStep_moves h hnext
  | start ctx' callback pc => cases pc <;> simp only [Pc.action, startStep] at h <;> grind
  | stop ctx' caller pc => cases pc <;> cases caller <;> simp only [Pc.action, stopStep] at h <;> grind
  | bias ctx' pc => cases pc <;> simp only [Pc.action, biasStep] at h <;> grind
  | query ctx' q => cases q <;> simp only [Pc.action, queryStep] at h <;> grind
  | destroy ctx' pc => cases pc <;> simp only [Pc.action, destroyStep] at h <;> grind
  | run pc =>
    rcases runStep_cases h with ⟨k, call, -, hbegin⟩ | ⟨impl, sessions, next, -, rfl⟩
    · obtain rfl := hcall hbegin
      exact .call
    · cases hnext
  | outside =>
    simp only [Pc.action, outsideStep] at h
    split at h
    · obtain rfl := hcall h
      exact .call
    · cases h
  | deferred => simp only [Pc.action, deferredStep] at h; grind

theorem passes_wait {p : Pc} {s : Shared} {ctx : Ctx} {pc' : WaitPc}
    (h : program.Passes p (.waitForFirstSample ctx pc') s) : WaitMove s.impl ctx p pc' := by
  cases goesOn_of_passes h with
  | waited ctx captured => exact .leave captured

theorem wait_moves {s s' : System} {i : Input} {t : Tid} {ctx : Ctx} {pc' : WaitPc}
    (hstep : Step s i s') (hafter : (s'.threads t).pc = .waitForFirstSample ctx pc') :
    WaitMove s.shared.impl ctx (s.threads t).pc pc' := by
  rcases Program.step_pc hstep t with hsame | ⟨-, takes, f, choice, e, hinstr, hf, hnext⟩ |
    ⟨-, hpass⟩ | ⟨-, child, f, hinstr⟩ | ⟨-, takes, f, choice, e, hinstr, hf, hspawned⟩
  · rw [← hsame, hafter]
    exact .stay pc'
  · obtain ⟨-, rfl⟩ := Pc.instr_act hinstr
    exact action_wait hf (hnext ▸ hafter)
  · rw [hafter] at hpass
    exact passes_wait hpass
  · obtain ⟨-, ⟨_, _, -, hq⟩ | ⟨_, _, -, hq⟩⟩ := Pc.instr_join hinstr <;> rw [hafter] at hq <;> cases hq
  · obtain ⟨-, rfl⟩ := Pc.instr_act hinstr
    have hentry := spawned_run hf hspawned
    rw [hafter] at hentry
    cases hentry

/-- The generation that a call waits for. -/
def WaitPc.captured : WaitPc → Option Nat
  | .waiting captured | .final captured => some captured
  | _ => none

/-- A call waits for a generation only if there is one. -/
theorem System.Reachable.captured_ne_zero {config : Config} {s : System} (h : s.Reachable config)
    {t : Tid} {ctx : Ctx} {pc : WaitPc} (hpc : (s.threads t).pc = .waitForFirstSample ctx pc)
    {captured : Nat} (hcaptured : pc.captured = some captured) : captured ≠ 0 := by
  suffices hall : ∀ t ctx pc captured, (s.threads t).pc = .waitForFirstSample ctx pc →
      pc.captured = some captured → captured ≠ 0 from hall t ctx pc captured hpc hcaptured
  refine Library.Reachable.invariant (I := fun s : System => ∀ t ctx pc captured,
    (s.threads t).pc = .waitForFirstSample ctx pc → pc.captured = some captured → captured ≠ 0) ?_ ?_ h
  · intro t ctx pc captured ht
    simp only [System.init] at ht
    split_ifs at ht
  · intro s i s' _ hinv hstep u ctx pc captured hu hcaptured
    have hmove := wait_moves hstep hu
    generalize hbefore : (s.threads u).pc = p at hmove
    cases hmove with
    | stay pc => exact hinv u ctx pc captured hbefore hcaptured
    | leave captured => exact hinv u ctx _ _ hbefore hcaptured
    | capture hne =>
      cases hcaptured
      exact hne
    | _ => cases hcaptured

/-! ## The result -/

/-- What `wait_for_first_sample` says. -/
structure FirstSampleSound (config : Config) : Prop where
  /-- The delivered generation is the current one exactly when there is a latest sample, and the worker
  created last has delivered it. -/
  attested : ∀ x, Recorded config x → x.1.shared.impl.generation ≠ 0 →
    (x.1.shared.impl.deliveredGeneration = x.1.shared.impl.generation ↔
        x.1.shared.impl.latest.isSome = true) ∧
      ∀ sample, x.1.shared.impl.latest = some sample →
        ∃ r ∈ x.2.records, r.Attests x.1.shared.created sample
  true_result : ∀ x i s' t ctx, Recorded config x → Step x.1 i s' →
    (x.1.threads t).pc ≠ .waitForFirstSample ctx (.returned true) →
    (s'.threads t).pc = .waitForFirstSample ctx (.returned true) →
    x.1.shared.impl.generation ≠ 0 ∧
      x.1.shared.impl.deliveredGeneration = x.1.shared.impl.generation ∧
      ∃ sample, x.1.shared.impl.latest = some sample ∧
        ∃ r ∈ x.2.records, r.Attests x.1.shared.created sample
  false_result : ∀ s s' is t ctx, s.Reachable config →
    (s.threads t).pc = .waitForFirstSample ctx .enter →
    Runs (restrict Step fun s _ => s.InWait ctx t) s is s' →
    (s'.threads t).pc = .waitForFirstSample ctx (.returned false) → FalseResult t ctx s is

theorem returned_true {config : Config} {s s' : System} {i : Input} {t : Tid} {ctx : Ctx}
    (h : s.Reachable config) (hstep : Step s i s')
    (hbefore : (s.threads t).pc ≠ .waitForFirstSample ctx (.returned true))
    (hafter : (s'.threads t).pc = .waitForFirstSample ctx (.returned true)) :
    s.shared.impl.generation ≠ 0 ∧ s.shared.impl.deliveredGeneration = s.shared.impl.generation := by
  have hmove := wait_moves hstep hafter
  generalize hpc : (s.threads t).pc = p at hmove hbefore
  generalize hresult : true = result at hmove hbefore
  cases hmove with
  | stay pc => exact absurd rfl hbefore
  | noGeneration _ => cases hresult
  | evaluate captured =>
    simp only [Bool.true_eq, Bool.and_eq_true, beq_iff_eq] at hresult
    rw [hresult.1, hresult.2]
    exact ⟨h.captured_ne_zero hpc rfl, rfl⟩

/-- **`wait_for_first_sample` never reports a stale success**, in any interleaving. -/
theorem firstSample_sound (config : Config) : FirstSampleSound config where
  attested x hx hgeneration :=
    ⟨(Recorded.attested hx).delivered_iff hgeneration, (Recorded.attested hx).latest⟩
  true_result x i s' t ctx hx hstep hbefore hafter := by
    obtain ⟨hgeneration, hdelivered⟩ := returned_true hx.reachable hstep hbefore hafter
    have hattested := hx.attested
    have hsome := (hattested.delivered_iff hgeneration).mp hdelivered
    obtain ⟨sample, hsample⟩ := Option.isSome_iff_exists.mp hsome
    exact ⟨hgeneration, hdelivered, sample, hsample, hattested.latest sample hsample⟩
  false_result s s' is t ctx h hpc hruns hpc' := callPast h hpc hruns hpc' rfl

end NetFT.Client
