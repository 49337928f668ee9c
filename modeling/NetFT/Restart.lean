/-
# NetFT.Restart — the low-window rule of the FT tracker.

The verdict of `FtSequenceTracker::observe` depends on a candidate that five paths set, clear or leave.
`Restart.rule` says it in terms of the history of calls alone: the baseline is the latest number that
was accepted, and a restart needs a late low number directly before.

* **`ft_lowWindow`**: the tracker follows the rule after every sequence of calls.
-/
import NetFT.Sequence
import NetFT.Library.Mealy

namespace NetFT

set_option autoImplicit false

open Library

/-! ## Calls -/

inductive FtCall where
  | observe (current : UInt32)
  | beginSession
  deriving DecidableEq, Repr

namespace FtSequenceTracker

/-- A call of the tracker, and the verdict of an observation. -/
def call (t : FtSequenceTracker) : FtCall → Option FtSequenceKind × FtSequenceTracker
  | .observe current => (some (t.observe current).1, (t.observe current).2)
  | .beginSession => (none, t.beginSession)

/-- A fresh tracker after the calls. -/
def afterCalls (calls : List FtCall) : FtSequenceTracker := Mealy.after call {} calls

/-- The calls with their verdicts, the earliest first. -/
def history (calls : List FtCall) : List (FtCall × Option FtSequenceKind) := Mealy.trace call {} calls

end FtSequenceTracker

/-! ## The rule -/

/-- The verdicts that accept a number. -/
def FtSequenceKind.accepts : FtSequenceKind → Bool
  | .First | .Forward | .Restart => true
  | .Stall | .Backward => false

namespace Restart

open FtSequenceTracker

/-- The number of a call that accepted one. -/
def accepted : FtCall × Option FtSequenceKind → Option UInt32
  | (.observe current, some kind) => if kind.accepts then some current else none
  | _ => none

/-- The latest number that was accepted. -/
def baseline (history : List (FtCall × Option FtSequenceKind)) : Option UInt32 :=
  history.reverse.findSome? accepted

/-- The number of the last call, if that was an observation that moved backward. -/
def late (history : List (FtCall × Option FtSequenceKind)) : Option UInt32 :=
  match history.getLast? with
  | some (.observe current, some .Backward) => some current
  | _ => none

/-- Two late numbers in the low window confirm a restart; else the baseline decides. -/
def rule (baseline late : Option UInt32) (current : UInt32) : FtSequenceKind :=
  match baseline with
  | none => .First
  | some b =>
    if 0x10000 ≤ b ∧ 0x80000000 ≤ current - b ∧ current ≤ 0xffff ∧
        ∃ p, late = some p ∧ p ≤ 0xffff ∧ p < current then .Restart
    else if current = b then .Stall
    else if current - b < 0x80000000 then .Forward
    else .Backward

variable {history : List (FtCall × Option FtSequenceKind)} {current : UInt32} {kind : FtSequenceKind}

@[simp] theorem baseline_observe : baseline (history ++ [(.observe current, some kind)]) =
    if kind.accepts then some current else baseline history := by
  unfold baseline
  rw [List.reverse_append, List.reverse_singleton, List.singleton_append, List.findSome?_cons, accepted]
  split_ifs <;> rfl

@[simp] theorem baseline_beginSession :
    baseline (history ++ [(.beginSession, none)]) = baseline history := by
  unfold baseline
  rw [List.reverse_append, List.reverse_singleton, List.singleton_append, List.findSome?_cons]
  rfl

@[simp] theorem late_observe : late (history ++ [(.observe current, some kind)]) =
    if kind = .Backward then some current else none := by
  unfold late
  rw [List.getLast?_concat]
  cases kind <;> rfl

@[simp] theorem late_beginSession : late (history ++ [(.beginSession, none)]) = none := by
  unfold late
  rw [List.getLast?_concat]

/-! ## The tracker follows the rule -/

/-- What the tracker remembers of the history. -/
structure Remembers (t : FtSequenceTracker) (history : List (FtCall × Option FtSequenceKind)) : Prop where
  hasLast : t.hasLast = (baseline history).isSome
  previous : ∀ b, baseline history = some b → t.previous = b
  late : late history = if t.hasRestartCandidate then some t.restartCandidate else none
  fresh : t.hasLast = false → t.hasRestartCandidate = false

variable {t : FtSequenceTracker}

/-- Inside the low window the wrapped difference is the order. -/
theorem ahead_iff_lt {p c : UInt32} (hp : p ≤ 0xffff) (hc : c ≤ 0xffff) :
    0 < c - p ∧ c - p < 0x80000000 ↔ p < c := by
  rw [UInt32.le_iff_toNat_le, show (0xffff : UInt32).toNat = 65535 from rfl] at hp hc
  rw [UInt32.lt_iff_toNat_lt, UInt32.lt_iff_toNat_lt, UInt32.lt_iff_toNat_lt, UInt32.toNat_sub,
    show (0x80000000 : UInt32).toNat = 2 ^ 31 from rfl, UInt32.toNat_zero]
  omega

/-- The test on a candidate, in words of the rule. -/
theorem Remembers.confirmsRestart_iff (h : Remembers t history) :
    t.confirmsRestart current = true ↔
      0x10000 ≤ t.previous ∧ current ≤ 0xffff ∧
        ∃ p, Restart.late history = some p ∧ p ≤ 0xffff ∧ p < current := by
  have hmin : kRestartMinBaseline = 0x10000 := rfl
  have hmax : kRestartLowMax = 0xffff := rfl
  rw [h.late, confirmsRestart, hmin, hmax]
  cases t.hasRestartCandidate with
  | false => simp
  | true =>
    simp only [Bool.and_true, Bool.and_eq_true, decide_eq_true_eq, if_true, Option.some.injEq,
      exists_eq_left']
    constructor
    · rintro ⟨⟨⟨⟨hbase, hcand⟩, hcurrent⟩, hpos⟩, hhalf⟩
      exact ⟨hbase, hcurrent, hcand, (ahead_iff_lt hcand hcurrent).mp ⟨hpos, hhalf⟩⟩
    · rintro ⟨hbase, hcurrent, hcand, hlt⟩
      obtain ⟨hpos, hhalf⟩ := (ahead_iff_lt hcand hcurrent).mpr hlt
      exact ⟨⟨⟨⟨hbase, hcand⟩, hcurrent⟩, hpos⟩, hhalf⟩

/-- **One observation follows the rule.** -/
theorem Remembers.observe_eq (h : Remembers t history) :
    (t.observe current).1 = rule (baseline history) (Restart.late history) current := by
  have hlast := h.hasLast
  cases hbaseline : baseline history with
  | none =>
    rw [hbaseline] at hlast
    rw [observe_fresh hlast]
    rfl
  | some b =>
    rw [hbaseline] at hlast
    have hprevious : t.previous = b := h.previous b hbaseline
    have hconfirms : t.confirmsRestart current = true ↔ _ := h.confirmsRestart_iff
    rw [hprevious] at hconfirms
    simp only [FtSequenceTracker.observe, hlast, hprevious, Option.isSome_some, Bool.not_true,
      Bool.false_eq_true, if_false, rule]
    by_cases hsame : current = b
    · have hhalf : ¬ (0x80000000 : UInt32) ≤ current - b := by
        rw [hsame, UInt32.sub_self]
        decide
      rw [if_pos hsame, if_neg fun hrestart => hhalf hrestart.2.1, if_pos hsame]
    by_cases hforward : current - b < 0x80000000
    · have hhalf : ¬ (0x80000000 : UInt32) ≤ current - b := UInt32.not_le.mpr hforward
      rw [if_neg hsame, if_pos hforward, if_neg fun hrestart => hhalf hrestart.2.1, if_neg hsame,
        if_pos hforward]
    · have hhalf : (0x80000000 : UInt32) ≤ current - b := UInt32.not_lt.mp hforward
      rw [if_neg hsame, if_neg hforward]
      by_cases hcandidate : t.confirmsRestart current = true
      · obtain ⟨hbase, hcurrent, hlate⟩ := hconfirms.mp hcandidate
        rw [if_pos hcandidate, if_pos ⟨hbase, hhalf, hcurrent, hlate⟩]
      · rw [if_neg hcandidate, if_neg, if_neg hsame, if_neg hforward]
        rintro ⟨hbase, -, hcurrent, hlate⟩
        exact hcandidate (hconfirms.mpr ⟨hbase, hcurrent, hlate⟩)

theorem Remembers.observe (h : Remembers t history) (current : UInt32) :
    Remembers (t.observe current).2 (history ++ [(.observe current, some (t.observe current).1)]) := by
  have haccepted : ∀ {kind : FtSequenceKind} {t' : FtSequenceTracker}, kind.accepts = true →
      t'.hasLast = true → t'.previous = current → t'.hasRestartCandidate = false →
      Remembers t' (history ++ [(.observe current, some kind)]) := by
    intro kind t' hkind hlast hprevious hcandidate
    have hback : kind ≠ .Backward := by
      rintro rfl
      cases hkind
    refine ⟨?_, fun b hb => ?_, ?_, fun hnone => ?_⟩
    · rw [baseline_observe, if_pos hkind, hlast]
      rfl
    · rw [baseline_observe, if_pos hkind, Option.some.injEq] at hb
      rw [hprevious, hb]
    · rw [late_observe, if_neg hback, hcandidate]
      rfl
    · rw [hlast] at hnone
      cases hnone
  have hkept : ∀ {kind : FtSequenceKind} {t' : FtSequenceTracker}, kind.accepts = false →
      t.hasLast = true → t'.hasLast = t.hasLast → t'.previous = t.previous →
      (if kind = .Backward then some current else none) =
        (if t'.hasRestartCandidate then some t'.restartCandidate else none) →
      Remembers t' (history ++ [(.observe current, some kind)]) := by
    intro kind t' hkind hlast hlast' hprevious hlate
    have hbaseline : baseline (history ++ [(.observe current, some kind)]) = baseline history := by
      rw [baseline_observe, if_neg (by simp [hkind])]
    refine ⟨?_, fun b hb => ?_, ?_, fun hnone => ?_⟩
    · rw [hbaseline, hlast', h.hasLast]
    · rw [hbaseline] at hb
      rw [hprevious, h.previous b hb]
    · rw [late_observe, hlate]
    · rw [hlast', hlast] at hnone
      cases hnone
  unfold FtSequenceTracker.observe
  split_ifs with hfresh hstall hforward hrestart
  · exact haccepted rfl rfl rfl (h.fresh (by simpa using hfresh))
  all_goals have hlast : t.hasLast = true := by simpa using hfresh
  · exact hkept rfl hlast rfl rfl rfl
  · exact haccepted rfl hlast rfl rfl
  · exact haccepted rfl hlast rfl rfl
  · exact hkept rfl hlast rfl rfl rfl

theorem Remembers.beginSession (h : Remembers t history) :
    Remembers t.beginSession (history ++ [(.beginSession, none)]) := by
  refine ⟨?_, fun b hb => ?_, ?_, fun _ => rfl⟩
  · rw [baseline_beginSession]
    exact h.hasLast
  · rw [baseline_beginSession] at hb
    exact h.previous b hb
  · rw [late_beginSession]
    rfl

/-- The tracker remembers what the rule needs, after every sequence of calls. -/
theorem remembers (calls : List FtCall) :
    Remembers (afterCalls calls) (FtSequenceTracker.history calls) := by
  refine Mealy.invariant (I := fun calls t => Remembers t (FtSequenceTracker.history calls)) ?_ ?_ calls
  · exact ⟨rfl, fun b hb => (by cases hb), rfl, fun _ => rfl⟩
  · intro calls call h
    rw [FtSequenceTracker.history, Mealy.trace_concat]
    cases call with
    | observe current => exact Remembers.observe h current
    | beginSession => exact Remembers.beginSession h

theorem history_observe (calls : List FtCall) (current : UInt32) :
    FtSequenceTracker.history (calls ++ [.observe current]) =
      FtSequenceTracker.history calls ++
        [(.observe current, some ((afterCalls calls).observe current).1)] := by
  rw [FtSequenceTracker.history, Mealy.trace_concat]
  rfl

theorem afterCalls_observe (calls : List FtCall) (current : UInt32) :
    afterCalls (calls ++ [.observe current]) = ((afterCalls calls).observe current).2 := by
  rw [afterCalls, Mealy.after_concat]
  rfl

/-- Only the first observation finds no baseline. -/
theorem baseline_eq_none_iff (calls : List FtCall) :
    baseline (FtSequenceTracker.history calls) = none ↔ ∀ call ∈ calls, call = .beginSession := by
  induction calls using List.reverseRecOn with
  | nil => exact ⟨fun _ _ hcall => (by cases hcall), fun _ => rfl⟩
  | append_singleton calls call ih =>
    cases call with
    | beginSession =>
      rw [FtSequenceTracker.history, Mealy.trace_concat]
      change baseline (FtSequenceTracker.history calls ++ [(.beginSession, none)]) = none ↔ _
      rw [baseline_beginSession, ih, List.forall_mem_append]
      simp
    | observe current =>
      rw [history_observe, baseline_observe]
      constructor
      · intro hnone
        have hrule : (FtSequenceTracker.observe _ current).1 = _ := (remembers calls).observe_eq
        split_ifs at hnone with haccepts
        rw [hnone] at hrule
        exact absurd (by rw [hrule]; rfl) haccepts
      · intro hall
        cases hall (.observe current) (by simp)

theorem rule_eq_first_iff {b late : Option UInt32} {current : UInt32} :
    rule b late current = .First ↔ b = none := by
  cases b with
  | none => exact ⟨fun _ => rfl, fun _ => rfl⟩
  | some b =>
    unfold rule
    simp only [reduceCtorEq, iff_false]
    split_ifs <;> simp

/-- A low number after a lower one is accepted. -/
theorem accepts_low {b c₁ c₂ : UInt32} {late : Option UInt32} (hlt : c₁ < c₂) (hlow : c₂ ≤ 0xffff)
    (h : b = c₁ ∨ 0x10000 ≤ b ∧ late = some c₁) : (rule (some b) late c₂).accepts = true := by
  have hlow₁ : c₁ ≤ 0xffff := UInt32.le_of_lt (UInt32.lt_of_lt_of_le hlt hlow)
  rcases h with rfl | ⟨hbase, rfl⟩
  · have hforward := ((ahead_iff_lt hlow₁ hlow).mpr hlt).2
    have hhalf : ¬ (0x80000000 : UInt32) ≤ c₂ - b := UInt32.not_le.mpr hforward
    have hne : ¬ c₂ = b := (UInt32.ne_of_lt hlt).symm
    simp only [rule]
    rw [if_neg fun hrestart => hhalf hrestart.2.1, if_neg hne, if_pos hforward]
    rfl
  · have hne : ¬ c₂ = b := by
      rintro rfl
      exact absurd (UInt32.le_trans hbase hlow) (by decide)
    simp only [rule]
    by_cases hforward : c₂ - b < 0x80000000
    · have hhalf : ¬ (0x80000000 : UInt32) ≤ c₂ - b := UInt32.not_le.mpr hforward
      rw [if_neg fun hrestart => hhalf hrestart.2.1, if_neg hne, if_pos hforward]
      rfl
    · rw [if_pos ⟨hbase, UInt32.not_lt.mp hforward, hlow, c₁, rfl, hlow₁, hlt⟩]
      rfl

end Restart

open FtSequenceTracker

/-- What holds of a fresh tracker after the calls. -/
structure LowWindow (calls : List FtCall) : Prop where
  verdict : ∀ current, ((afterCalls calls).observe current).1 =
    Restart.rule (Restart.baseline (history calls)) (Restart.late (history calls)) current
  first : ∀ current, ((afterCalls calls).observe current).1 = .First ↔
    ∀ call ∈ calls, call = .beginSession
  last : ∀ b, Restart.baseline (history calls) = some b → (afterCalls calls).last = b
  kept : ∀ b current, Restart.baseline (history calls) = some b →
    ((afterCalls calls).observe current).1.accepts = false →
    (afterCalls (calls ++ [.observe current])).last = b
  /-- Two late low numbers leave the baseline at the second. -/
  low : ∀ b c₁ c₂, Restart.baseline (history calls) = some b → 0x10000 ≤ b → c₁ < c₂ → c₂ ≤ 0xffff →
    Restart.baseline (history (calls ++ [.observe c₁] ++ [.observe c₂])) = some c₂ ∧
      (afterCalls (calls ++ [.observe c₁] ++ [.observe c₂])).last = c₂

/-- **A restart is confirmed exactly by the low-window rule.** -/
theorem ft_lowWindow (calls : List FtCall) : LowWindow calls := by
  have hlast : ∀ calls b, Restart.baseline (history calls) = some b → (afterCalls calls).last = b :=
    fun calls b hb => (Restart.remembers calls).previous b hb
  refine ⟨fun current => (Restart.remembers calls).observe_eq, fun current => ?_, hlast calls,
    fun b current hb hkind => ?_, fun b c₁ c₂ hb hbase hlt hlow => ?_⟩
  · rw [(Restart.remembers calls).observe_eq, Restart.rule_eq_first_iff, Restart.baseline_eq_none_iff]
  · refine hlast _ b ?_
    rw [Restart.history_observe, Restart.baseline_observe, if_neg (by simp [hkind]), hb]
  · suffices hbaseline :
        Restart.baseline (history (calls ++ [.observe c₁] ++ [.observe c₂])) = some c₂ from
      ⟨hbaseline, hlast _ c₂ hbaseline⟩
    -- the first of them is accepted, or is the candidate of the second
    have hmiddle : Restart.baseline (history (calls ++ [.observe c₁])) = some c₁ ∨
        Restart.baseline (history (calls ++ [.observe c₁])) = some b ∧
          Restart.late (history (calls ++ [.observe c₁])) = some c₁ := by
      rw [Restart.history_observe, Restart.baseline_observe, Restart.late_observe,
        (Restart.remembers calls).observe_eq, hb]
      have hne : ¬ c₁ = b := by
        rintro rfl
        exact absurd (UInt32.le_trans hbase (UInt32.le_of_lt (UInt32.lt_of_lt_of_le hlt hlow))) (by decide)
      simp only [Restart.rule]
      split_ifs <;> simp_all [FtSequenceKind.accepts]
    have haccepts : ((afterCalls (calls ++ [.observe c₁])).observe c₂).1.accepts = true := by
      rw [(Restart.remembers _).observe_eq]
      rcases hmiddle with hc | ⟨hkeep, hlate⟩
      · rw [hc]
        exact Restart.accepts_low hlt hlow (.inl rfl)
      · rw [hkeep]
        exact Restart.accepts_low hlt hlow (.inr ⟨hbase, hlate⟩)
    rw [Restart.history_observe, Restart.baseline_observe, if_pos haccepts]

end NetFT
