/-
# NetFT.Client.LateLow — when late records are taken for a restart.

A sensor that never restarts numbers its records with growing natural numbers and sends them modulo 2³².
The records arrive lost, doubled or reordered, each within half a ring of the newest one.  Two late ones
in a row confirm a restart when both numbers lie in the low window and the baseline does not
(`LateLowPair`), for example right after the stream has passed a multiple of 2³² by 2¹⁶.

* `FtRun.observe_eq`: the verdict on one record, as long as the baseline is the newest number.
* **`tracksNewest_iff`**: no restart is seen, and the baseline stays the newest number, exactly for the
  streams without such a pair.
-/
import NetFT.Client.Loss
import NetFT.Restart

namespace NetFT.Client

set_option autoImplicit false

open Library FtSequenceTracker

/-- Two late records in a row, the second with the larger number, both in the low window and the newest
record `m` not. -/
def LateLowPair (ns : List ℕ) : Prop :=
  ∃ pre p n m, pre ++ [p] ++ [n] <+: ns ∧ pre.max? = some m ∧ p < m ∧ n < m ∧
    0x10000 ≤ m % 2 ^ 32 ∧ p % 2 ^ 32 < n % 2 ^ 32 ∧ n % 2 ^ 32 ≤ 0xffff

namespace FtRun

/-- The observations of the numbers. -/
def calls (ns : List ℕ) : List FtCall := ns.map fun n => .observe (UInt32.ofNat n)

/-- A fresh tracker after the numbers `ns`. -/
def tracker (ns : List ℕ) : FtSequenceTracker := afterCalls (calls ns)

/-- What it said of them. -/
def verdicts (ns : List ℕ) : List FtSequenceKind :=
  Mealy.outputs FtSequenceTracker.observe {} (ns.map UInt32.ofNat)

/-- The numbers with their verdicts. -/
def seen (ns : List ℕ) : List (FtCall × Option FtSequenceKind) := history (calls ns)

variable {ns : List ℕ} {n m p : ℕ}

theorem tracker_concat (ns : List ℕ) (n : ℕ) :
    tracker (ns ++ [n]) = ((tracker ns).observe (UInt32.ofNat n)).2 := by
  rw [tracker, calls, List.map_append, List.map_singleton]
  exact Restart.afterCalls_observe _ _

theorem seen_concat (ns : List ℕ) (n : ℕ) : seen (ns ++ [n]) =
    seen ns ++ [(.observe (UInt32.ofNat n), some ((tracker ns).observe (UInt32.ofNat n)).1)] := by
  rw [seen, calls, List.map_append, List.map_singleton]
  exact Restart.history_observe _ _

theorem after_eq_tracker (ns : List ℕ) :
    Mealy.after FtSequenceTracker.observe {} (ns.map UInt32.ofNat) = tracker ns := by
  induction ns using List.reverseRecOn with
  | nil => rfl
  | append_singleton ns n ih =>
    rw [List.map_append, List.map_singleton, Mealy.after_concat, ih, tracker_concat]

theorem verdicts_concat (ns : List ℕ) (n : ℕ) :
    verdicts (ns ++ [n]) = verdicts ns ++ [((tracker ns).observe (UInt32.ofNat n)).1] := by
  rw [verdicts, List.map_append, List.map_singleton, Mealy.outputs_concat, after_eq_tracker]
  rfl

/-- The baseline is the newest number. -/
def Newest (ns : List ℕ) : Prop := Restart.baseline (seen ns) = ns.max?.map UInt32.ofNat

theorem Newest.last (h : Newest ns) (hmax : ns.max? = some m) :
    (tracker ns).last = UInt32.ofNat m := by
  refine (Restart.remembers (calls ns)).previous _ ?_
  change Restart.baseline (seen ns) = _
  rw [h, hmax]
  rfl

/-- The first record is the newest one. -/
theorem newest_singleton (n : ℕ) : Newest [n] := rfl

theorem observe_nil (n : ℕ) : ((tracker []).observe (UInt32.ofNat n)).1 = .First := rfl

/-! ## One record -/

theorem low_iff (k : ℕ) : UInt32.ofNat k ≤ 0xffff ↔ k % 2 ^ 32 ≤ 0xffff := by
  rw [UInt32.le_iff_toNat_le, UInt32.toNat_ofNat']
  rfl

theorem high_iff (k : ℕ) : 0x10000 ≤ UInt32.ofNat k ↔ 0x10000 ≤ k % 2 ^ 32 := by
  rw [UInt32.le_iff_toNat_le, UInt32.toNat_ofNat']
  rfl

theorem ofNat_lt_iff (k l : ℕ) : UInt32.ofNat k < UInt32.ofNat l ↔ k % 2 ^ 32 < l % 2 ^ 32 := by
  rw [UInt32.lt_iff_toNat_lt, UInt32.toNat_ofNat', UInt32.toNat_ofNat']

/-- **The verdict on a record near the newest one.** -/
theorem observe_eq (h : Newest ns) (hmax : ns.max? = some m)
    (hbehind : m ≤ n + (2 ^ 31 - 1)) (hahead : n < m + 2 ^ 31) :
    ((tracker ns).observe (UInt32.ofNat n)).1 =
      if n = m then .Stall
      else if m < n then .Forward
      else if 0x10000 ≤ m % 2 ^ 32 ∧ n % 2 ^ 32 ≤ 0xffff ∧
          ∃ p, Restart.late (seen ns) = some p ∧ p ≤ 0xffff ∧ p < UInt32.ofNat n then .Restart
      else .Backward := by
  have hrule : (FtSequenceTracker.observe _ (UInt32.ofNat n)).1 = _ :=
    (Restart.remembers (calls ns)).observe_eq
  have hbase : Restart.baseline (seen ns) = some (UInt32.ofNat m) := by
    rw [h, hmax]
    rfl
  change ((tracker ns).observe (UInt32.ofNat n)).1 =
    Restart.rule (Restart.baseline (seen ns)) (Restart.late (seen ns)) (UInt32.ofNat n) at hrule
  have hdelta := sub_toNat_of_within (show m ≤ n + 2 ^ 31 by omega) hahead
  have hsame : UInt32.ofNat n = UInt32.ofNat m ↔ n = m := by
    rw [ofNat_eq_iff, ← sub_toNat, hdelta]
    split_ifs <;> omega
  have hhalf : UInt32.ofNat n - UInt32.ofNat m < 0x80000000 ↔ m ≤ n := by
    rw [UInt32.lt_iff_toNat_lt, hdelta, show (0x80000000 : UInt32).toNat = 2 ^ 31 from rfl]
    split_ifs <;> omega
  have hback : 0x80000000 ≤ UInt32.ofNat n - UInt32.ofNat m ↔ ¬ m ≤ n := by
    rw [← hhalf, UInt32.not_lt]
  rw [hrule, hbase]
  simp only [Restart.rule, hsame, hhalf, hback, low_iff, high_iff]
  by_cases heq : n = m
  · have hle : m ≤ n := heq.ge
    rw [if_neg fun hrestart => hrestart.2.1 hle, if_pos heq, if_pos heq]
  by_cases hlt : m < n
  · rw [if_neg fun hrestart => hrestart.2.1 hlt.le, if_neg heq, if_neg heq, if_pos hlt.le, if_pos hlt]
  · have hlate : ¬ m ≤ n := by omega
    simp only [heq, hlt, hlate, not_false_eq_true, true_and, if_false]

/-- Only a record behind the newest one is late. -/
theorem late_concat (h : Newest ns) (hmax : ns.max? = some m)
    (hbehind : m ≤ n + (2 ^ 31 - 1)) (hahead : n < m + 2 ^ 31)
    (hkind : ((tracker ns).observe (UInt32.ofNat n)).1 ≠ .Restart) :
    Restart.late (seen (ns ++ [n])) = if n < m then some (UInt32.ofNat n) else none := by
  have hverdict := observe_eq h hmax hbehind hahead
  rw [seen_concat, Restart.late_observe]
  split_ifs at hverdict with heq hlt hrestart
  · rw [hverdict, if_neg (by simp), if_neg (by omega)]
  · rw [hverdict, if_neg (by simp), if_neg (by omega)]
  · exact absurd hverdict hkind
  · rw [hverdict, if_pos rfl, if_pos (by omega)]

/-- The baseline stays the newest number, unless a restart is seen. -/
theorem Newest.concat (h : Newest ns) (hmax : ns.max? = some m)
    (hbehind : m ≤ n + (2 ^ 31 - 1)) (hahead : n < m + 2 ^ 31)
    (hkind : ((tracker ns).observe (UInt32.ofNat n)).1 ≠ .Restart) : Newest (ns ++ [n]) := by
  have hverdict := observe_eq h hmax hbehind hahead
  unfold Newest
  rw [seen_concat, Restart.baseline_observe, Serial.max?_concat hmax, h, hmax]
  split_ifs at hverdict with heq hlt hrestart
  · rw [hverdict, heq, max_self]
    rfl
  · rw [hverdict, max_eq_right hlt.le]
    rfl
  · exact absurd hverdict hkind
  · rw [hverdict, max_eq_left (by omega)]
    rfl

end FtRun

/-! ## All records -/

/-- No restart is seen, none is counted, and the baseline is the newest number. -/
structure TracksNewest (ns : List ℕ) : Prop where
  verdict : ∀ pre n, pre ++ [n] <+: ns → ((FtRun.tracker pre).observe (UInt32.ofNat n)).1 ≠ .Restart
  count : ∀ pre health, pre <+: ns →
    ((FtRun.verdicts pre).foldl countFt health).ftRestartCount = health.ftRestartCount
  last : ∀ pre m, pre <+: ns → pre.max? = some m → (FtRun.tracker pre).last = UInt32.ofNat m

section

variable {ns : List ℕ}

/-- The count grows with every restart. -/
theorem ftRestartCount_foldl (health : HealthSnapshot) (verdicts : List FtSequenceKind) :
    (verdicts.foldl countFt health).ftRestartCount =
      health.ftRestartCount + verdicts.count .Restart := by
  induction verdicts generalizing health with
  | nil => rfl
  | cons kind rest ih =>
    rw [List.foldl_cons, ih, List.count_cons]
    cases kind <;> (simp [countFt]; try omega)

/-- As long as no restart is seen, the baseline is the newest number. -/
theorem newest_of_verdict (hwithin : Serial.Within (2 ^ 31 - 1) (2 ^ 31) ns)
    (hverdict : ∀ pre n, pre ++ [n] <+: ns →
      ((FtRun.tracker pre).observe (UInt32.ofNat n)).1 ≠ .Restart) :
    FtRun.Newest ns := by
  induction ns using List.reverseRecOn with
  | nil => rfl
  | append_singleton ns n ih =>
    have hbegins : ns <+: ns ++ [n] := List.prefix_append ns [n]
    have h := ih (hwithin.of_prefix hbegins) fun pre k hpre => hverdict pre k (hpre.trans hbegins)
    cases hmax : ns.max? with
    | none =>
      obtain rfl : ns = [] := List.max?_eq_none_iff.mp hmax
      exact FtRun.newest_singleton n
    | some m =>
      obtain ⟨hbehind, hahead⟩ := hwithin.concat hmax
      exact h.concat hmax hbehind hahead (hverdict ns n List.prefix_rfl)

/-- The second record of a late low pair is a restart. -/
theorem restart_of_pair {pre : List ℕ} {p n m : ℕ}
    (hwithin : Serial.Within (2 ^ 31 - 1) (2 ^ 31) (pre ++ [p] ++ [n])) (h : FtRun.Newest pre)
    (hmax : pre.max? = some m) (hp : p < m) (hn : n < m) (hbase : 0x10000 ≤ m % 2 ^ 32)
    (hlt : p % 2 ^ 32 < n % 2 ^ 32) (hlow : n % 2 ^ 32 ≤ 0xffff)
    (hkind : ((FtRun.tracker pre).observe (UInt32.ofNat p)).1 ≠ .Restart) :
    ((FtRun.tracker (pre ++ [p])).observe (UInt32.ofNat n)).1 = .Restart := by
  obtain ⟨hbehind, hahead⟩ := (hwithin.of_prefix (List.prefix_append (pre ++ [p]) [n])).concat hmax
  have hmax' : (pre ++ [p]).max? = some m := by
    rw [Serial.max?_concat hmax, max_eq_left hp.le]
  obtain ⟨hbehind', hahead'⟩ := hwithin.concat hmax'
  rw [FtRun.observe_eq (h.concat hmax hbehind hahead hkind) hmax' hbehind' hahead',
    if_neg (by omega), if_neg (by omega), if_pos]
  refine ⟨hbase, hlow, UInt32.ofNat p, ?_, (FtRun.low_iff p).mpr (by omega),
    (FtRun.ofNat_lt_iff p n).mpr hlt⟩
  rw [FtRun.late_concat h hmax hbehind hahead hkind, if_pos hp]

/-- A restart is the second record of such a pair. -/
theorem pair_of_restart {before : List ℕ} {n : ℕ}
    (hwithin : Serial.Within (2 ^ 31 - 1) (2 ^ 31) (before ++ [n]))
    (hverdict : ∀ pre k, pre ++ [k] <+: before →
      ((FtRun.tracker pre).observe (UInt32.ofNat k)).1 ≠ .Restart)
    (hrestart : ((FtRun.tracker before).observe (UInt32.ofNat n)).1 = .Restart) :
    LateLowPair (before ++ [n]) := by
  have hbefore := hwithin.of_prefix (List.prefix_append before [n])
  have h := newest_of_verdict hbefore hverdict
  cases hmax : before.max? with
  | none =>
    obtain rfl : before = [] := List.max?_eq_none_iff.mp hmax
    rw [FtRun.observe_nil] at hrestart
    cases hrestart
  | some m =>
    obtain ⟨hbehind, hahead⟩ := hwithin.concat hmax
    rw [FtRun.observe_eq h hmax hbehind hahead] at hrestart
    split_ifs at hrestart with heq hlt hlow
    obtain ⟨hbase, hlow, q, hlate, -, hqn⟩ := hlow
    -- the late number is the record directly before, and that record did not change the maximum
    induction before using List.reverseRecOn with
    | nil => cases hmax
    | append_singleton pre p _ =>
      have hbegins : pre <+: pre ++ [p] := List.prefix_append pre [p]
      cases hmax₀ : pre.max? with
      | none =>
        obtain rfl : pre = [] := List.max?_eq_none_iff.mp hmax₀
        cases hlate
      | some k =>
        obtain ⟨hbehind₀, hahead₀⟩ := hbefore.concat hmax₀
        rw [FtRun.late_concat (newest_of_verdict (hbefore.of_prefix hbegins)
          fun pre' k hpre => hverdict pre' k (hpre.trans hbegins)) hmax₀ hbehind₀ hahead₀
          (hverdict pre p List.prefix_rfl)] at hlate
        split_ifs at hlate with hp
        cases hlate
        rw [Serial.max?_concat hmax₀, max_eq_left hp.le, Option.some.injEq] at hmax
        subst hmax
        exact ⟨pre, p, n, k, List.prefix_rfl, hmax₀, hp, by omega, hbase,
          (FtRun.ofNat_lt_iff p n).mp hqn, hlow⟩

end

/-- **Reordering is taken for a restart exactly when two late low records come in a row.** -/
theorem tracksNewest_iff {ns : List ℕ} (hwithin : Serial.Within (2 ^ 31 - 1) (2 ^ 31) ns) :
    TracksNewest ns ↔ ¬ LateLowPair ns := by
  constructor
  · rintro h ⟨pre, p, n, m, hpre, hmax, hp, hn, hbase, hlt, hlow⟩
    have hbegins : pre ++ [p] <+: ns := (List.prefix_append _ [n]).trans hpre
    have hbegins' : pre <+: ns := (List.prefix_append _ [p]).trans hbegins
    have hnewest : FtRun.Newest pre := newest_of_verdict (hwithin.of_prefix hbegins')
      fun pre' k hk => h.verdict pre' k (hk.trans hbegins')
    exact h.verdict (pre ++ [p]) n hpre (restart_of_pair (hwithin.of_prefix hpre) hnewest hmax hp hn
      hbase hlt hlow (h.verdict pre p hbegins))
  · intro hpair
    have hverdict : ∀ (count : ℕ) pre n, pre.length = count → pre ++ [n] <+: ns →
        ((FtRun.tracker pre).observe (UInt32.ofNat n)).1 ≠ .Restart := by
      intro count
      -- on the number of earlier records: none of them was a restart
      induction count using Nat.strong_induction_on with
      | _ count ih =>
        rintro pre n rfl hpre hrestart
        have hearlier : ∀ pre' k, pre' ++ [k] <+: pre →
            ((FtRun.tracker pre').observe (UInt32.ofNat k)).1 ≠ .Restart := by
          intro pre' k hk
          have hlen := hk.length_le
          rw [List.length_append, List.length_singleton] at hlen
          exact ih pre'.length (by omega) pre' k rfl (hk.trans ((List.prefix_append _ [n]).trans hpre))
        obtain ⟨pre₀, p, k, m, hpre₀, hrest⟩ := pair_of_restart (hwithin.of_prefix hpre) hearlier hrestart
        exact hpair ⟨pre₀, p, k, m, hpre₀.trans hpre, hrest⟩
    have hverdict' : ∀ pre n, pre ++ [n] <+: ns →
        ((FtRun.tracker pre).observe (UInt32.ofNat n)).1 ≠ .Restart :=
      fun pre n => hverdict pre.length pre n rfl
    have hnone : ∀ pre, pre <+: ns → .Restart ∉ FtRun.verdicts pre := by
      intro pre hpre
      induction pre using List.reverseRecOn with
      | nil => exact List.not_mem_nil
      | append_singleton pre n ih =>
        rw [FtRun.verdicts_concat, List.mem_append, List.mem_singleton]
        rintro (hmem | heq)
        · exact ih ((List.prefix_append _ [n]).trans hpre) hmem
        · exact hverdict' pre n hpre heq.symm
    refine ⟨hverdict', fun pre health hpre => ?_, fun pre m hpre hmax => ?_⟩
    · rw [ftRestartCount_foldl, List.count_eq_zero_of_not_mem (hnone pre hpre), Nat.add_zero]
    · exact (newest_of_verdict (hwithin.of_prefix hpre)
        fun pre' k hk => hverdict' pre' k (hk.trans hpre)).last hmax

/-- A stream just past the low window, with two late records in it. -/
def lateStream : List ℕ := [65526, 65546, 65530, 65534]

theorem lateStream_within : Serial.Within (2 ^ 31 - 1) (2 ^ 31) lateStream := by
  refine Serial.Within.of_lt fun n hn => ?_
  have hle : n ≤ 65546 := by
    revert n
    decide
  exact ⟨hle.trans (by norm_num), hle.trans_lt (by norm_num)⟩

theorem tracksNewest_iff_lateStream : TracksNewest lateStream ↔ ¬ LateLowPair lateStream :=
  tracksNewest_iff lateStream_within

/-- The fourth record is taken for a restart, and the baseline moves back to it. -/
theorem lateStream_restart : Serial.Within (2 ^ 31 - 1) (2 ^ 31) lateStream ∧
    FtRun.verdicts lateStream = [.First, .Forward, .Backward, .Restart] ∧
    ((FtRun.verdicts lateStream).foldl countFt {}).ftRestartCount = 1 ∧
    lateStream.max? = some 65546 ∧ (FtRun.tracker lateStream).last = 65534 ∧
    ¬ ∀ ns, Serial.Within (2 ^ 31 - 1) (2 ^ 31) ns → TracksNewest ns := by
  refine ⟨lateStream_within, by decide, by decide, by decide, by decide, fun hall => ?_⟩
  exact (hall lateStream lateStream_within).verdict [65526, 65546, 65530] 65534 List.prefix_rfl (by decide)

end NetFT.Client
