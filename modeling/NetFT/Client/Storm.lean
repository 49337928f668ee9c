/-
# NetFT.Client.Storm — when a run takes malformed datagrams for a storm.

`consecutive_malformed_` belongs to the client: `start` and well-formed records clear it, the end of a
session does not.  A session therefore begins with the malformed datagrams that the earlier sessions
ended with already counted.

* `runLength` is what the counter computes along a list of datagrams, `receiveLoop_storm` what the
  loop of a session makes of it, and `RunsTo.consecutiveMalformed` what a session inherits;
  `RunsTo.runLoop` says that `RunsTo` goes the way of the loop of `run`.
* **`stormsSound_iff`**: storms are declared as they should, in every session of a run, exactly when
  no session inherits enough to turn fewer than ten malformed datagrams into a storm.
-/
import NetFT.Client.Session
import Mathlib.Data.List.TakeWhile

namespace NetFT.Client

set_option autoImplicit false

/-! ## Runs of malformed datagrams -/

abbrev Datagram := List UInt8

def Malformed (data : Datagram) : Prop := data.length ≠ 36

instance (data : Datagram) : Decidable (Malformed data) := by
  unfold Malformed
  infer_instance

/-- The counter after the datagrams, if it was `carried` before. -/
def runLength (carried : ℕ) (datagrams : List Datagram) : ℕ :=
  datagrams.foldl (fun n data => if Malformed data then n + 1 else 0) carried

/-- The ten datagrams received most recently are malformed. -/
def LastTenMalformed (datagrams : List Datagram) : Prop :=
  ∃ earlier last, datagrams = earlier ++ last ∧ last.length = 10 ∧ ∀ data ∈ last, Malformed data

theorem runLength_append (carried : ℕ) (l l' : List Datagram) :
    runLength carried (l ++ l') = runLength (runLength carried l) l' :=
  List.foldl_append

theorem runLength_of_malformed (carried : ℕ) {datagrams : List Datagram}
    (h : ∀ data ∈ datagrams, Malformed data) :
    runLength carried datagrams = carried + datagrams.length := by
  induction datagrams generalizing carried with
  | nil => rfl
  | cons data datagrams ih =>
    have hdata : Malformed data := h data List.mem_cons_self
    have hrest : runLength (carried + 1) datagrams = carried + 1 + datagrams.length :=
      ih (carried + 1) fun d hd => h d (List.mem_cons_of_mem data hd)
    rw [runLength, List.foldl_cons, if_pos hdata, List.length_cons]
    change runLength (carried + 1) datagrams = _
    omega

/-- What was carried in does not matter once a well-formed datagram has been received. -/
theorem runLength_of_wellFormed (carried carried' : ℕ) {datagrams : List Datagram}
    (h : ∃ data ∈ datagrams, ¬ Malformed data) :
    runLength carried datagrams = runLength carried' datagrams := by
  obtain ⟨data, hmem, hdata⟩ := h
  obtain ⟨before, after, rfl⟩ := List.append_of_mem hmem
  simp [runLength, hdata]

theorem runLength_concat (carried : ℕ) (datagrams : List Datagram) (data : Datagram) :
    runLength carried (datagrams ++ [data]) =
      if Malformed data then runLength carried datagrams + 1 else 0 := by
  rw [runLength_append]
  rfl

/-- The counter is the length of the malformed end of the list. -/
theorem le_runLength_iff (n : ℕ) (datagrams : List Datagram) :
    n ≤ runLength 0 datagrams ↔
      ∃ earlier last, datagrams = earlier ++ last ∧ last.length = n ∧ ∀ data ∈ last, Malformed data := by
  induction datagrams using List.reverseRecOn generalizing n with
  | nil =>
    constructor
    · intro h
      obtain rfl : n = 0 := Nat.le_zero.mp h
      exact ⟨[], [], rfl, rfl, by simp⟩
    · rintro ⟨earlier, last, hnil, rfl, -⟩
      obtain ⟨-, rfl⟩ := List.append_eq_nil_iff.mp hnil.symm
      exact Nat.zero_le _
  | append_singleton datagrams data ih =>
    cases n with
    | zero => exact iff_of_true (Nat.zero_le _) ⟨_, [], (List.append_nil _).symm, rfl, by simp⟩
    | succ n =>
      rw [runLength_concat]
      constructor
      · intro h
        split_ifs at h with hdata
        · obtain ⟨earlier, last, rfl, hlength, hmalformed⟩ := (ih n).mp (Nat.le_of_succ_le_succ h)
          refine ⟨earlier, last ++ [data], List.append_assoc _ _ _, by simp [hlength], ?_⟩
          intro d hd
          rcases List.mem_append.mp hd with hd | hd
          · exact hmalformed d hd
          · exact List.mem_singleton.mp hd ▸ hdata
        · omega
      · rintro ⟨earlier, last, heq, hlength, hmalformed⟩
        have hne : last ≠ [] := by
          rintro rfl
          simp at hlength
        obtain ⟨last, data', rfl⟩ := (List.eq_nil_or_concat' _).resolve_left hne
        obtain ⟨rfl, rfl⟩ : datagrams = earlier ++ last ∧ data = data' := by
          rw [← List.append_assoc] at heq
          exact List.append_inj' heq rfl |>.imp id fun h => by simpa using h
        rw [if_pos (hmalformed data (by simp))]
        refine Nat.succ_le_succ ((ih n).mpr ⟨earlier, last, rfl, by simpa using hlength, ?_⟩)
        exact fun d hd => hmalformed d (by simp [hd])

theorem lastTenMalformed_iff (datagrams : List Datagram) :
    LastTenMalformed datagrams ↔ 10 ≤ runLength 0 datagrams :=
  (le_runLength_iff 10 datagrams).symm

/-- The datagrams end with a malformed one that makes the counter ten. -/
def Stormy (carried : ℕ) (datagrams : List Datagram) : Prop :=
  ∃ earlier data, datagrams = earlier ++ [data] ∧ Malformed data ∧ 10 ≤ runLength carried datagrams

/-- No fewer than ten malformed datagrams make a storm of what was carried in. -/
def Isolated (carried : ℕ) (datagrams : List Datagram) : Prop :=
  (∀ data ∈ datagrams, Malformed data) → datagrams ≠ [] → datagrams.length < 10 →
    carried + datagrams.length < 10

/-- What the counter says is what the session received, unless the session inherits a storm. -/
theorem stormy_iff_lastTen_iff (carried : ℕ) (datagrams : List Datagram) :
    (Stormy carried datagrams ↔ LastTenMalformed datagrams) ↔ Isolated carried datagrams := by
  rw [lastTenMalformed_iff]
  by_cases hall : ∀ data ∈ datagrams, Malformed data
  · have hcarried := runLength_of_malformed carried hall
    have hzero := runLength_of_malformed 0 hall
    constructor
    · intro hiff _ hne hfew
      by_contra hmany
      obtain ⟨earlier, data, heq⟩ := (List.eq_nil_or_concat' _).resolve_left hne
      have hstormy : Stormy carried datagrams :=
        ⟨earlier, data, heq, hall data (by simp [heq]), by omega⟩
      have := hiff.mp hstormy
      omega
    · intro hisolated
      constructor
      · rintro ⟨earlier, data, heq, -, hten⟩
        have := hisolated hall (by simp [heq])
        omega
      · intro hten
        have hne : datagrams ≠ [] := by
          rintro rfl
          simp [runLength] at hten
        obtain ⟨earlier, data, heq⟩ := (List.eq_nil_or_concat' _).resolve_left hne
        exact ⟨earlier, data, heq, hall data (by simp [heq]), by omega⟩
  · refine iff_of_true ?_ fun h => absurd h hall
    push Not at hall
    have hsame := runLength_of_wellFormed carried 0 hall
    constructor
    · rintro ⟨-, -, -, -, hten⟩
      omega
    · intro hten
      obtain ⟨earlier, last, rfl, hlength, hmalformed⟩ := (le_runLength_iff 10 datagrams).mp hten
      have hne : last ≠ [] := by
        rintro rfl
        simp at hlength
      obtain ⟨last, data, rfl⟩ := (List.eq_nil_or_concat' _).resolve_left hne
      refine ⟨earlier ++ last, data, by simp, hmalformed data (by simp), by omega⟩

/-! ## The datagrams of a session -/

/-- The datagram that a pass receives, if there is one. -/
def received (s : LoopState) (p : Pass) : Option Datagram :=
  if s.deadline ≤ p.now then none
  else
    match receive (Ticks.toSeconds (s.deadline - p.now)) p.reception with
    | .ok (byte :: bytes) => some (byte :: bytes)
    | _ => none

/-- The datagrams that the loop receives. -/
def receivedIn (s : LoopState) : List Pass → List Datagram
  | [] => []
  | p :: ps =>
    (received s p).toList ++
      match loopStep s p with
      | .next s' => receivedIn s' ps
      | _ => []

def datagramsOf (c : Impl) (input : SessionInput) : List Datagram :=
  match c.openSession input with
  | .next s => receivedIn s input.passes
  | _ => []

def EndsInStorm (outcome : Except String SessionOutcome) : Prop :=
  ∃ o, outcome = .ok o ∧ o.result = .MalformedStorm

/-- **A storm is ten malformed datagrams in a row**, received in the session that it ends. -/
def StormSound (c : Impl) (input : SessionInput) : Prop :=
  EndsInStorm (c.receiveSession input).2 ↔ LastTenMalformed (datagramsOf c input)

/-! ## The loop -/

variable {c c' : Impl} {s s' : LoopState} {p : Pass} {input : SessionInput}

theorem handleRecord_consecutiveMalformed (c : Impl) (record : RawRecord) (receivedAt : TimePoint)
    (result : CallbackResult) :
    (c.handleRecord record receivedAt result).1.consecutiveMalformed = c.consecutiveMalformed := by
  obtain ⟨_, _, _, _, _, _, _, _, _, h⟩ := c.handleRecord_frame record receivedAt result
  rw [h]

theorem malformed_iff {data : Datagram} : Malformed data ↔ (decodeRecord data).isOk = false := by
  rw [Malformed, ne_eq, ← decodeRecord_isOk_iff, Bool.not_eq_true]

theorem stormy_nil (carried : ℕ) : ¬ Stormy carried [] := by
  rintro ⟨earlier, data, heq, -⟩
  simp at heq

theorem stormy_singleton (carried : ℕ) (data : Datagram) :
    Stormy carried [data] ↔ Malformed data ∧ 10 ≤ carried + 1 := by
  have hlength : Malformed data → runLength carried [data] = carried + 1 := fun hdata => by
    simp [runLength, hdata]
  constructor
  · rintro ⟨earlier, data', heq, hdata, hten⟩
    have happend : [] ++ [data] = earlier ++ [data'] := heq
    obtain ⟨-, hsame⟩ := List.append_inj' happend rfl
    simp only [List.cons.injEq, and_true] at hsame
    subst hsame
    exact ⟨hdata, hlength hdata ▸ hten⟩
  · rintro ⟨hdata, hten⟩
    exact ⟨[], data, rfl, hdata, by rw [hlength hdata]; exact hten⟩

/-- What a pass ends the session with, if not with a storm. -/
def LoopResult.storm : LoopResult → Prop
  | .ended _ o => o.result = .MalformedStorm
  | _ => False

/-- What a pass does to the counter, and when it ends the session in a storm. -/
theorem loopStep_storm (s : LoopState) (p : Pass) :
    (loopStep s p).impl.consecutiveMalformed =
        runLength s.impl.consecutiveMalformed (received s p).toList ∧
      ((loopStep s p).storm ↔ Stormy s.impl.consecutiveMalformed (received s p).toList) := by
  simp only [loopStep, received]
  split_ifs with hnow
  · exact ⟨rfl, iff_of_false (by simp [LoopResult.storm]) (stormy_nil _)⟩
  cases hreceive : receive (Ticks.toSeconds (s.deadline - p.now)) p.reception with
  | error what => exact ⟨rfl, iff_of_false (by simp [LoopResult.storm]) (stormy_nil _)⟩
  | ok data =>
    cases data with
    | nil => exact ⟨rfl, iff_of_false (by simp [LoopResult.storm]) (stormy_nil _)⟩
    | cons byte bytes =>
      simp only [Option.toList, stormy_singleton, datagramStep]
      cases hdecode : decodeRecord (byte :: bytes) with
      | error what =>
        have hmalformed : Malformed (byte :: bytes) := by
          rw [malformed_iff, hdecode]
          rfl
        have hlength : runLength s.impl.consecutiveMalformed [byte :: bytes] =
            s.impl.consecutiveMalformed + 1 := if_pos hmalformed
        have hstorm : s.impl.countMalformed.malformedStorm = true ↔
            10 ≤ s.impl.consecutiveMalformed + 1 := decide_eq_true_iff
        dsimp only
        split_ifs with hten
        · exact ⟨hlength.symm, iff_of_true rfl ⟨hmalformed, hstorm.mp hten⟩⟩
        · exact ⟨hlength.symm,
            iff_of_false (by simp [LoopResult.storm]) fun h => hten (hstorm.mpr h.2)⟩
      | ok record =>
        have hwell : ¬ Malformed (byte :: bytes) := by
          rw [malformed_iff, hdecode]
          simp [Except.isOk, Except.toBool]
        have hlength : runLength s.impl.consecutiveMalformed [byte :: bytes] = 0 := if_neg hwell
        have hcount := handleRecord_consecutiveMalformed s.impl.clearMalformed record p.receivedAt p.result
        rw [hlength]
        refine ⟨?_, iff_of_false ?_ fun h => hwell h.1⟩ <;> dsimp only <;> split
        · rfl
        · split <;> rename_i heq <;> rw [heq] at hcount <;> exact hcount
        · exact id
        · split
          · exact id
          · rename_i heq
            have hmem := Impl.handleRecord_outcome_mem heq
            intro hstorm
            simp only [LoopResult.storm] at hstorm
            rw [hstorm] at hmem
            exact absurd hmem (by decide)
          · exact id

theorem stormy_append (carried : ℕ) {l l' : List Datagram} (hne : l' ≠ []) :
    Stormy carried (l ++ l') ↔ Stormy (runLength carried l) l' := by
  constructor
  · rintro ⟨earlier, data, heq, hdata, hten⟩
    rw [runLength_append] at hten
    obtain ⟨last, data', rfl⟩ := (List.eq_nil_or_concat' l').resolve_left hne
    rw [← List.append_assoc] at heq
    obtain ⟨-, hsame⟩ := List.append_inj' heq rfl
    obtain rfl : data' = data := by simpa using hsame
    exact ⟨last, data', rfl, hdata, hten⟩
  · rintro ⟨earlier, data, rfl, hdata, hten⟩
    refine ⟨l ++ earlier, data, (List.append_assoc _ _ _).symm, hdata, ?_⟩
    rw [runLength_append]
    exact hten

/-- What the loop does to the counter, and when it ends the session in a storm. -/
theorem receiveLoop_storm (s : LoopState) (ps : List Pass) :
    (receiveLoop s ps).1.consecutiveMalformed =
        runLength s.impl.consecutiveMalformed (receivedIn s ps) ∧
      (EndsInStorm (receiveLoop s ps).2 ↔
        Stormy s.impl.consecutiveMalformed (receivedIn s ps)) := by
  induction ps generalizing s with
  | nil =>
    refine ⟨rfl, iff_of_false ?_ (stormy_nil _)⟩
    rintro ⟨o, heq, hresult⟩
    cases heq
    cases hresult
  | cons p ps ih =>
    obtain ⟨hcount, hstorm⟩ := loopStep_storm s p
    rw [receiveLoop, receivedIn]
    cases hstep : loopStep s p with
    | next s' =>
      rw [hstep] at hcount hstorm
      obtain ⟨ihcount, ihstorm⟩ := ih s'
      change s'.impl.consecutiveMalformed = _ at hcount
      simp only
      refine ⟨?_, ihstorm.trans ?_⟩
      · rw [ihcount, hcount, runLength_append]
      · by_cases hnil : receivedIn s' ps = []
        · rw [hnil, List.append_nil, ← hstorm]
          exact iff_of_false (stormy_nil _) id
        · rw [stormy_append _ hnil, hcount]
    | ended c o =>
      rw [hstep] at hcount hstorm
      simp only [List.append_nil]
      refine ⟨hcount, Iff.trans ?_ hstorm⟩
      constructor
      · rintro ⟨o', heq, hresult⟩
        cases heq
        exact hresult
      · exact fun hresult => ⟨o, rfl, hresult⟩
    | raised c what =>
      rw [hstep] at hcount hstorm
      simp only [List.append_nil]
      refine ⟨hcount, Iff.trans ?_ hstorm⟩
      refine iff_of_false ?_ id
      rintro ⟨o', heq, -⟩
      cases heq

/-- Opening a session leaves the counter alone, and ends in no storm. -/
theorem openSession_storm (c : Impl) (input : SessionInput) :
    (c.openSession input).impl.consecutiveMalformed = c.consecutiveMalformed ∧
      ¬ (c.openSession input).storm := by
  simp only [Impl.openSession]
  split_ifs
  · exact ⟨rfl, by simp [LoopResult.storm]⟩
  split
  · exact ⟨rfl, by simp [LoopResult.storm]⟩
  rename_i configuration _
  obtain ⟨_, _, happly⟩ := (c.setState .Connecting).applyConfiguration_frame configuration
  rw [happly]
  split
  · exact ⟨rfl, by simp [LoopResult.storm]⟩
  split
  · exact ⟨rfl, by simp [LoopResult.storm]⟩
  split
  · exact ⟨rfl, by simp [LoopResult.storm]⟩
  · exact ⟨rfl, by simp [LoopResult.storm]⟩

/-- What a session does to the counter, and when it ends in a storm. -/
theorem receiveSession_storm (c : Impl) (input : SessionInput) :
    (c.receiveSession input).1.consecutiveMalformed =
        runLength c.consecutiveMalformed (datagramsOf c input) ∧
      (EndsInStorm (c.receiveSession input).2 ↔
        Stormy c.consecutiveMalformed (datagramsOf c input)) := by
  obtain ⟨hcount, hquiet⟩ := openSession_storm c input
  unfold Impl.receiveSession datagramsOf
  cases hopen : c.openSession input with
  | next s =>
    rw [hopen] at hcount
    change s.impl.consecutiveMalformed = _ at hcount
    simp only [← hcount]
    exact receiveLoop_storm s input.passes
  | ended c' o =>
    rw [hopen] at hcount hquiet
    refine ⟨hcount, iff_of_false ?_ (stormy_nil _)⟩
    rintro ⟨o', heq, hresult⟩
    cases heq
    exact hquiet hresult
  | raised c' what =>
    rw [hopen] at hcount
    refine ⟨hcount, iff_of_false ?_ (stormy_nil _)⟩
    rintro ⟨o', heq, -⟩
    cases heq

/-- **A session declares storms as it should exactly when it does not inherit one.** -/
theorem stormSound_iff_isolated (c : Impl) (input : SessionInput) :
    StormSound c input ↔ Isolated c.consecutiveMalformed (datagramsOf c input) := by
  rw [StormSound, (receiveSession_storm c input).2]
  exact stormy_iff_lastTen_iff _ _

/-! ## A run -/

/-- What `start` leaves to the worker. -/
def Impl.started (c : Impl) (callback : SampleCallback) : Impl :=
  { c.clearLastDelivery.beginGeneration with stopping := false, workerExited := false, callback }

/-- A round of the loop of `run` that is followed by another: the client and the reconnect delay that
the next one begins with. -/
def Impl.runSession (c : Impl) (backoff : Seconds) (input : SessionInput) : Option (Impl × Seconds) :=
  if c.stopping || c.faulted then none
  else
    match c.receiveSession input with
    | (_, .error _) => none
    | (c, .ok outcome) =>
      let c := c.closeSession
      let outcome := outcome.withMessage
      if outcome.result ≠ .Stopped ∧ c.config.recoveryPolicy = .FailStop then none
      else if outcome.result = .Stopped ∨ c.stopping then none
      else
        let backoff := if outcome.receivedValidRecord then c.config.reconnectInitialDelay else backoff
        let c := c.enterBackoff outcome.message
        match checkedDeadline input.backoffAt backoff with
        | .error _ => none
        | .ok _ => some (c, min (backoff * 2) c.config.reconnectMaxDelay)

/-- The sessions `inputs` lead a run from `c` to `c'`, where another one begins. -/
inductive RunsTo : Impl → Seconds → List SessionInput → Impl → Seconds → Prop where
  | nil (c : Impl) (backoff : Seconds) : RunsTo c backoff [] c backoff
  | cons {c c₁ c' : Impl} {b b₁ b' : Seconds} {input : SessionInput} {inputs : List SessionInput} :
      c.runSession b input = some (c₁, b₁) → RunsTo c₁ b₁ inputs c' b' →
      RunsTo c b (input :: inputs) c' b'

/-- The loop of `run` goes on as `runSession` says, and takes no other input where that gives nothing. -/
theorem runLoop_cons (c : Impl) (backoff : Seconds) (input : SessionInput) (inputs : List SessionInput) :
    (c.runLoop backoff (input :: inputs)).1 =
      match c.runSession backoff input with
      | some (c', backoff') => (c'.runLoop backoff' inputs).1
      | none => (c.runLoop backoff [input]).1 := by
  rw [Impl.runLoop, Impl.runLoop, Impl.runSession]
  split_ifs
  · rfl
  · rcases c.receiveSession input with ⟨c₁, what | outcome⟩
    · rfl
    · dsimp only
      split_ifs
      · rfl
      · rfl
      all_goals cases checkedDeadline input.backoffAt _ <;> rfl

/-- What leads to `c'` leads the run there, whatever comes next. -/
theorem RunsTo.runLoop {b b' : Seconds} {pre : List SessionInput} (h : RunsTo c b pre c' b')
    (rest : List SessionInput) : (c.runLoop b (pre ++ rest)).1 = (c'.runLoop b' rest).1 := by
  induction h with
  | nil c backoff => rfl
  | cons hsession _ ih =>
    rw [List.cons_append, runLoop_cons, hsession]
    exact ih

/-- The datagrams of the sessions of a run. -/
def datagramsOfRun (c : Impl) (backoff : Seconds) : List SessionInput → List Datagram
  | [] => []
  | input :: inputs =>
    datagramsOf c input ++
      match c.runSession backoff input with
      | some (c, backoff) => datagramsOfRun c backoff inputs
      | none => []

/-- Between two sessions the counter stays as it is. -/
theorem runSession_consecutiveMalformed {backoff backoff' : Seconds}
    (h : c.runSession backoff input = some (c', backoff')) :
    c'.consecutiveMalformed = runLength c.consecutiveMalformed (datagramsOf c input) := by
  rw [← (receiveSession_storm c input).1]
  unfold Impl.runSession at h
  split_ifs at h
  split at h
  · cases h
  · rename_i c₁ outcome hsession
    rw [hsession]
    dsimp only at h
    split_ifs at h
    all_goals
      split at h
      · cases h
      · cases h
        rfl

/-- **What a session inherits** is the malformed end of what the earlier sessions received. -/
theorem RunsTo.consecutiveMalformed {backoff backoff' : Seconds} {pre : List SessionInput}
    (h : RunsTo c backoff pre c' backoff') :
    c'.consecutiveMalformed = runLength c.consecutiveMalformed (datagramsOfRun c backoff pre) := by
  induction h with
  | nil c backoff => rfl
  | cons hsession _ ih =>
    rw [ih, runSession_consecutiveMalformed hsession, datagramsOfRun, hsession, runLength_append]

/-- In every session of the run, what `start` began, it holds of the client and the input of the
session, and of the datagrams received before it. -/
def EverySession (c : Impl) (callback : SampleCallback) (inputs : List SessionInput)
    (P : Impl → SessionInput → List Datagram → Prop) : Prop :=
  ∀ pre input rest c' backoff, inputs = pre ++ input :: rest →
    RunsTo (c.started callback) c.config.reconnectInitialDelay pre c' backoff →
    P c' input (datagramsOfRun (c.started callback) c.config.reconnectInitialDelay pre)

/-- **Storms are declared as they should, in every session of a run, exactly when in no session fewer
than ten malformed datagrams follow enough malformed ones of the sessions before it.** -/
theorem stormsSound_iff (c : Impl) (callback : SampleCallback) (inputs : List SessionInput) :
    EverySession c callback inputs (fun c' input _ => StormSound c' input) ↔
      EverySession c callback inputs fun c' input before =>
        Isolated (runLength 0 before) (datagramsOf c' input) := by
  have hsession : ∀ pre input c' backoff,
      RunsTo (c.started callback) c.config.reconnectInitialDelay pre c' backoff →
      (StormSound c' input ↔
        Isolated
          (runLength 0 (datagramsOfRun (c.started callback) c.config.reconnectInitialDelay pre))
          (datagramsOf c' input)) := by
    intro pre input c' backoff hruns
    have hinherits : c'.consecutiveMalformed = runLength 0 _ := hruns.consecutiveMalformed
    rw [stormSound_iff_isolated, hinherits]
  constructor
  · intro h pre input rest c' backoff hinputs hruns
    exact (hsession pre input c' backoff hruns).mp (h pre input rest c' backoff hinputs hruns)
  · intro h pre input rest c' backoff hinputs hruns
    exact (hsession pre input c' backoff hruns).mpr (h pre input rest c' backoff hinputs hruns)

/-! ## A storm that is not one -/

/-- A session that receives `n` datagrams of one byte. -/
def malformedInput (n : ℕ) : SessionInput :=
  { discovery := .error ""
    openedAt := 1000
    passes := List.replicate n
      { now := 1000
        reception := { startedAt := 1000, outcome := .ready (.received [0]), returnedAt := 2000 }
        receivedAt := 2000 } }

def reconnectingClient : Impl :=
  Impl.init { calibrationOverride := some ⟨1000000, 1000000, .Newton, .NewtonMeter⟩ }

/-- After a storm of ten, one malformed datagram ends the next session. -/
theorem inherited_storm :
    reconnectingClient.config.recoveryPolicy = .Reconnect ∧
      ¬ EverySession reconnectingClient none [malformedInput 10, malformedInput 1]
        fun c' input _ => StormSound c' input := by
  refine ⟨rfl, fun hsound => ?_⟩
  have hrun : (((reconnectingClient.started none).runSession
        reconnectingClient.config.reconnectInitialDelay (malformedInput 10)).map fun next =>
      ((next.1.receiveSession (malformedInput 1)).2, (datagramsOf next.1 (malformedInput 1)).length)) =
      some (.ok { result := .MalformedStorm }, 1) := by decide +kernel
  obtain ⟨⟨c', backoff⟩, hsession, heq⟩ := Option.map_eq_some_iff.mp hrun
  rw [Prod.mk.injEq] at heq
  have hstorm := hsound [malformedInput 10] (malformedInput 1) [] c' backoff rfl
    (.cons hsession (.nil _ _))
  obtain ⟨earlier, last, hlast, hten, -⟩ := hstorm.mp ⟨_, heq.1, rfl⟩
  have hone := heq.2
  rw [hlast, List.length_append] at hone
  omega

end NetFT.Client
