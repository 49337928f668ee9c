/-
# NetFT.Client.Loss — the RDT tracker counts with unbounded numbers.

A sensor numbers its records with natural numbers and sends them modulo 2³².  As long as every number
is within half a ring of the largest one before it (`Serial.Within`), the tracker sees what an observer
of the true numbers would see.

* `Newest.observe_eq`: one record.
* **`rdt_unbounded`**: all records since a reset, with the losses that `handle_record` counts.
-/
import NetFT.Client.HandleRecord
import NetFT.Library.Mealy

namespace NetFT.Client

set_option autoImplicit false

open Library

/-! ## One record -/

/-- What an observer of the true numbers says of `n`, if `m` is the largest before it. -/
def trueObservation (m n : ℕ) : SequenceKind × ℕ :=
  if n = m + 1 then (.Contiguous, 0)
  else if m + 1 < n then (.Gap, n - m - 1)
  else if n = m then (.Duplicate, 0)
  else (.OutOfOrder, 0)

section

variable {t : RdtSequenceTracker} {m n : ℕ}

theorem sub_toNat_of_within (hbehind : m ≤ n + 2 ^ 31) (hahead : n < m + 2 ^ 31) :
    (UInt32.ofNat n - UInt32.ofNat m).toNat = if m ≤ n then n - m else 2 ^ 32 - (m - n) := by
  rw [sub_toNat]
  split_ifs with hle
  · exact Serial.distance_ahead hle (by omega)
  · rw [Serial.distance_of_lt (by omega) (by omega)]
    omega

/-- **The tracker sees what an observer of the true numbers sees**, and its baseline is the largest. -/
theorem observe_newest_eq (h : t.Newest m) (hbehind : m ≤ n + 2 ^ 31) (hahead : n < m + 2 ^ 31) :
    (t.observe (UInt32.ofNat n)).1.kind = (trueObservation m n).1 ∧
      (t.observe (UInt32.ofNat n)).1.gap.toNat = (trueObservation m n).2 ∧
      (t.observe (UInt32.ofNat n)).2.Newest (max m n) := by
  have hdelta := sub_toNat_of_within hbehind hahead
  have hzero : UInt32.ofNat n - UInt32.ofNat m = 0 ↔ n = m := by
    rw [← UInt32.toNat_inj, hdelta, UInt32.toNat_zero]
    split_ifs <;> omega
  have hhalf : UInt32.ofNat n - UInt32.ofNat m < 0x80000000 ↔ m ≤ n := by
    rw [UInt32.lt_iff_toNat_lt, hdelta, show (0x80000000 : UInt32).toNat = 2 ^ 31 from rfl]
    split_ifs <;> omega
  have hone : UInt32.ofNat n - UInt32.ofNat m = 1 ↔ n = m + 1 := by
    rw [← UInt32.toNat_inj, hdelta, UInt32.toNat_one]
    split_ifs <;> omega
  have hobserve : t.observe (UInt32.ofNat n) =
      if n = m then ({ kind := .Duplicate }, t)
      else if m ≤ n then
        (if n = m + 1 then { kind := .Contiguous }
          else { kind := .Gap, gap := UInt32.ofNat n - UInt32.ofNat m - 1 },
          { t with previous := UInt32.ofNat n })
      else ({ kind := .OutOfOrder }, t) := by
    simp only [RdtSequenceTracker.observe, h.hasLast, h.previous, Bool.not_true, Bool.false_eq_true,
      if_false, hzero, hhalf, hone]
  rw [hobserve, trueObservation]
  by_cases hnew : m < n
  · have hmax : max m n = n := max_eq_right hnew.le
    rw [if_neg (by omega), if_pos hnew.le, hmax]
    refine ⟨?_, ?_, h.hasLast, rfl⟩
    · split_ifs <;> first | rfl | omega
    · by_cases hnext : n = m + 1
      · rw [if_pos hnext, if_pos hnext]
        rfl
      · rw [if_neg hnext, if_neg hnext, if_pos (by omega)]
        have hge : (1 : UInt32) ≤ UInt32.ofNat n - UInt32.ofNat m := by
          rw [UInt32.le_iff_toNat_le, hdelta, if_pos hnew.le, UInt32.toNat_one]
          omega
        rw [UInt32.toNat_sub_of_le _ _ hge, hdelta, if_pos hnew.le, UInt32.toNat_one]
  · have hmax : max m n = m := max_eq_left (by omega)
    rw [hmax]
    by_cases heq : n = m
    · rw [if_pos heq, if_neg (by omega), if_neg (by omega), if_pos heq]
      exact ⟨rfl, rfl, h⟩
    · rw [if_neg heq, if_neg (by omega), if_neg (by omega), if_neg (by omega), if_neg heq]
      exact ⟨rfl, rfl, h⟩

/-- What a record adds to the accepted and the lost ones is how far it is ahead. -/
theorem trueObservation_sum (m n : ℕ) :
    m + (trueObservation m n).2 + (if (trueObservation m n).1.dropped then 0 else 1) = max m n := by
  unfold trueObservation
  by_cases hnext : n = m + 1
  · rw [if_pos hnext, hnext]
    simp [SequenceKind.dropped]
  by_cases hgap : m + 1 < n
  · rw [if_neg hnext, if_pos hgap, max_eq_right (by omega)]
    simp only [SequenceKind.dropped, Bool.false_eq_true, if_false]
    omega
  rw [if_neg hnext, if_neg hgap, max_eq_left (by omega)]
  by_cases hsame : n = m <;> simp [hsame, SequenceKind.dropped]

end

/-! ## All records since a reset -/

namespace RdtRun

/-- The tracker after the numbers `ns`, since a reset. -/
def tracker (t : RdtSequenceTracker) (ns : List ℕ) : RdtSequenceTracker :=
  Mealy.after RdtSequenceTracker.observe t.reset (ns.map UInt32.ofNat)

/-- What it said of them. -/
def observations (t : RdtSequenceTracker) (ns : List ℕ) : List SequenceObservation :=
  Mealy.outputs RdtSequenceTracker.observe t.reset (ns.map UInt32.ofNat)

/-- The sum of the gaps. -/
def lost (t : RdtSequenceTracker) (ns : List ℕ) : ℕ :=
  ((observations t ns).map (·.gap.toNat)).sum

/-- How many were `First`, `Contiguous` or `Gap`. -/
def accepted (t : RdtSequenceTracker) (ns : List ℕ) : ℕ :=
  (observations t ns).countP (!·.kind.dropped)

variable (t : RdtSequenceTracker) (ns : List ℕ) (n : ℕ)

theorem tracker_concat :
    tracker t (ns ++ [n]) = ((tracker t ns).observe (UInt32.ofNat n)).2 := by
  rw [tracker, List.map_append, List.map_singleton, Mealy.after_concat]
  rfl

theorem observations_concat : observations t (ns ++ [n]) =
    observations t ns ++ [((tracker t ns).observe (UInt32.ofNat n)).1] := by
  rw [observations, List.map_append, List.map_singleton, Mealy.outputs_concat]
  rfl

theorem lost_concat : lost t (ns ++ [n]) =
    lost t ns + ((tracker t ns).observe (UInt32.ofNat n)).1.gap.toNat := by
  simp [lost, observations_concat]

theorem accepted_concat : accepted t (ns ++ [n]) = accepted t ns +
    if ((tracker t ns).observe (UInt32.ofNat n)).1.kind.dropped then 0 else 1 := by
  rw [accepted, observations_concat, List.countP_append, List.countP_singleton]
  cases ((tracker t ns).observe (UInt32.ofNat n)).1.kind.dropped <;> rfl

end RdtRun

section

variable {t : RdtSequenceTracker} {ns : List ℕ} {n n₀ m : ℕ}

theorem observe_reset (t : RdtSequenceTracker) (current : UInt32) :
    t.reset.observe current = ({ kind := .First }, { hasLast := true, previous := current }) :=
  RdtSequenceTracker.observe_fresh rfl current

/-- The baseline is the largest number, and every number up to it is accepted or lost, from the first
one on. -/
theorem rdtRun_newest (hwithin : Serial.Within (2 ^ 31) (2 ^ 31) ns) (hmax : ns.max? = some m)
    (hhead : ns.head? = some n₀) :
    (RdtRun.tracker t ns).Newest m ∧ RdtRun.lost t ns + RdtRun.accepted t ns + n₀ = m + 1 := by
  induction ns using List.reverseRecOn generalizing m with
  | nil => cases hmax
  | append_singleton ns n ih =>
    rw [RdtRun.tracker_concat, RdtRun.lost_concat, RdtRun.accepted_concat]
    cases hbefore : ns.max? with
    | none =>
      obtain rfl : ns = [] := List.max?_eq_none_iff.mp hbefore
      simp only [List.nil_append, List.max?_singleton, List.head?_cons, Option.some.injEq] at hmax hhead
      subst hmax hhead
      change (t.reset.observe _).2.Newest n ∧ 0 + (t.reset.observe _).1.gap.toNat +
        (0 + if (t.reset.observe _).1.kind.dropped then 0 else 1) + n = n + 1
      rw [observe_reset]
      exact ⟨⟨rfl, rfl⟩, by simp [SequenceKind.dropped, Nat.add_comm]⟩
    | some k =>
      have hnonempty : ns ≠ [] := by
        rintro rfl
        cases hbefore
      rw [List.head?_append_of_ne_nil _ hnonempty] at hhead
      rw [Serial.max?_concat hbefore, Option.some.injEq] at hmax
      subst hmax
      obtain ⟨hnewest, hsum⟩ := ih (hwithin.of_prefix (List.prefix_append ns [n])) hbefore hhead
      obtain ⟨hbehind, hahead⟩ := hwithin.concat hbefore
      obtain ⟨hkind, hgap, hnext⟩ := observe_newest_eq hnewest hbehind hahead
      have hstep := trueObservation_sum k n
      rw [hkind, hgap]
      exact ⟨hnext, by omega⟩

/-- The gaps are what `handle_record` counts as lost. -/
theorem lostCount_foldl (health : HealthSnapshot) (ns : List ℕ) :
    ((RdtRun.observations t ns).foldl countRdt health).lostCount =
      health.lostCount + RdtRun.lost t ns := by
  have hcount : ∀ (health : HealthSnapshot) (s : RdtSequenceTracker) (current : UInt32),
      (countRdt health (s.observe current).1).lostCount =
        health.lostCount + (s.observe current).1.gap.toNat := by
    intro health s current
    unfold RdtSequenceTracker.observe
    simp only
    split_ifs <;> rfl
  induction ns using List.reverseRecOn with
  | nil => rfl
  | append_singleton ns n ih =>
    rw [RdtRun.observations_concat, List.foldl_append, RdtRun.lost_concat, List.foldl_cons,
      List.foldl_nil, hcount, ih, Nat.add_assoc]

end

/-- The tracker, reset and then given the true numbers `ns` modulo 2³², implements them. -/
structure RdtUnbounded (t : RdtSequenceTracker) (ns : List ℕ) : Prop where
  first : ∀ n, [n] <+: ns → ((RdtRun.tracker t []).observe (UInt32.ofNat n)).1.kind = .First
  later : ∀ pre n m, pre ++ [n] <+: ns → pre.max? = some m →
    let observed := ((RdtRun.tracker t pre).observe (UInt32.ofNat n)).1
    (observed.kind = .Contiguous ↔ n = m + 1) ∧
      (observed.kind = .Gap ↔ m + 1 < n) ∧ (m + 1 < n → observed.gap.toNat = n - m - 1) ∧
      (observed.kind = .Duplicate ↔ n = m) ∧ (observed.kind = .OutOfOrder ↔ n < m)
  last : ∀ pre m, pre <+: ns → pre.max? = some m → (RdtRun.tracker t pre).last = UInt32.ofNat m
  lost : ∀ pre n₀ m health, pre <+: ns → pre.head? = some n₀ → pre.max? = some m →
    ((RdtRun.observations t pre).foldl countRdt health).lostCount =
        health.lostCount + RdtRun.lost t pre ∧
      RdtRun.accepted t pre ≤ m - n₀ + 1 ∧ RdtRun.lost t pre = m - n₀ + 1 - RdtRun.accepted t pre

/-- **The RDT tracker implements unbounded sequence numbers.** -/
theorem rdt_unbounded (t : RdtSequenceTracker) {ns : List ℕ}
    (hwithin : Serial.Within (2 ^ 31) (2 ^ 31) ns) : RdtUnbounded t ns := by
  have hhead : ∀ {pre : List ℕ} {m : ℕ}, pre.max? = some m → ∃ n₀, pre.head? = some n₀ := by
    intro pre m hmax
    cases pre with
    | nil => cases hmax
    | cons n₀ rest => exact ⟨n₀, rfl⟩
  have hnewest : ∀ {pre : List ℕ} {m : ℕ}, pre <+: ns → pre.max? = some m →
      (RdtRun.tracker t pre).Newest m := fun hpre hmax =>
    (rdtRun_newest (hwithin.of_prefix hpre) hmax (hhead hmax).choose_spec).1
  refine ⟨fun n _ => ?_, fun pre n m hpre hmax => ?_, fun pre m hpre hmax => ?_,
    fun pre n₀ m health hpre hfirst hmax => ⟨lostCount_foldl health pre, ?_⟩⟩
  · change (t.reset.observe _).1.kind = .First
    rw [observe_reset]
  · obtain ⟨hbehind, hahead⟩ := hwithin pre n m hpre hmax
    obtain ⟨hkind, hgap, -⟩ := observe_newest_eq
      (hnewest ((List.prefix_append pre [n]).trans hpre) hmax) hbehind hahead
    simp only [hkind, hgap, trueObservation]
    refine ⟨?_, ?_, fun hgap => ?_, ?_, ?_⟩
    · split_ifs <;> simp <;> omega
    · split_ifs <;> simp <;> omega
    · rw [if_neg (by omega), if_pos hgap]
    · split_ifs <;> simp <;> omega
    · split_ifs <;> simp <;> omega
  · exact (hnewest hpre hmax).previous
  · obtain ⟨-, hsum⟩ := rdtRun_newest (t := t) (hwithin.of_prefix hpre) hmax hfirst
    have hle : n₀ ≤ m := by
      cases pre with
      | nil => cases hfirst
      | cons k rest =>
        cases hfirst
        exact (List.max?_eq_some_iff.mp hmax).2 n₀ List.mem_cons_self
    omega

/-- A stream that wraps, loses two records and brings one twice. -/
theorem rdt_unbounded_wraps :
    RdtUnbounded {} ([] ++ [4294967295] ++ [4294967296] ++ [4294967299] ++ [4294967296]) :=
  rdt_unbounded {} (((((Serial.Within.nil _ _).snoc (by decide)).snoc (by simp)).snoc (by simp)).snoc
    (by simp))

end NetFT.Client
