/-
# NetFT.Sequence — the RDT and FT sequence trackers (`detail/sequence.cpp`).

Both trackers keep the last accepted 32-bit number and classify the next one by the wrapped
difference `current - previous`.  Over the definitions this module relates a tracker to the
unbounded numbers the sensor counts with:

* `RdtSequenceTracker.Newest t m`: the tracker's baseline is the true number `m`.  While records
  stay within half a ring of the newest one, the verdict is the true order and the baseline is the
  maximum (`observe_newest`, `observe_late`).
* `FtSequenceTracker.Within w t m`: the baseline is some true number in `(m - w, m]`.  The restart
  heuristic may move the baseline *back* to a late record, so the maximum itself is not an
  invariant; the window is (`Within.observe_newest`, `Within.observe_late`).
-/
import NetFT.Library.Serial

namespace NetFT

open Library

/-! ## The RDT tracker -/

/-- How an RDT sequence number relates to the one before it. -/
inductive SequenceKind where
  | First | Contiguous | Gap | Duplicate | OutOfOrder
  deriving DecidableEq, Repr

/-- The kind of a record, and how many were lost before it. -/
structure SequenceObservation where
  kind : SequenceKind
  gap : UInt32 := 0
  deriving DecidableEq, Repr

/-- The tracker of RDT sequence numbers, which knows the newest one. -/
structure RdtSequenceTracker where
  hasLast : Bool := false
  previous : UInt32 := 0
  deriving DecidableEq, Repr

namespace RdtSequenceTracker

/-- `observe` of an RDT number: the distance to the newest, modulo 2^32, decides. -/
def observe (t : RdtSequenceTracker) (current : UInt32) :
    SequenceObservation × RdtSequenceTracker :=
  if !t.hasLast then
    ({ kind := .First }, { hasLast := true, previous := current })
  else
    let delta := current - t.previous
    if delta = 0 then
      ({ kind := .Duplicate }, t)
    else if delta < 0x80000000 then
      (if delta = 1 then { kind := .Contiguous } else { kind := .Gap, gap := delta - 1 },
        { t with previous := current })
    else
      ({ kind := .OutOfOrder }, t)

/-- `reset`: the next number is a first one. -/
def reset (t : RdtSequenceTracker) : RdtSequenceTracker := { t with hasLast := false }

def last (t : RdtSequenceTracker) : UInt32 := t.previous

end RdtSequenceTracker

/-- The verdicts under which `handle_record` drops a record. -/
def SequenceKind.dropped : SequenceKind → Bool
  | .Duplicate | .OutOfOrder => true
  | .First | .Contiguous | .Gap => false

/-! ## The FT tracker -/

/-- The greatest number of the low window, in which a restarted sensor begins. -/
def kRestartLowMax : UInt32 := 0x0000ffff

/-- The least baseline from which a number in the low window can be a restart. -/
def kRestartMinBaseline : UInt32 := kRestartLowMax + 1

/-- How an FT sequence number relates to the ones before it. -/
inductive FtSequenceKind where
  | First | Forward | Stall | Backward | Restart
  deriving DecidableEq, Repr

/-- The tracker of FT sequence numbers, with the low number that may begin a restart. -/
structure FtSequenceTracker where
  hasLast : Bool := false
  previous : UInt32 := 0
  hasRestartCandidate : Bool := false
  restartCandidate : UInt32 := 0
  deriving DecidableEq, Repr

namespace FtSequenceTracker

/-- `begin_session`: the baseline stays, a pending low number is dropped. -/
def beginSession (t : FtSequenceTracker) : FtSequenceTracker :=
  { t with hasRestartCandidate := false }

def last (t : FtSequenceTracker) : UInt32 := t.previous

/-- The two late low numbers that confirm a restart: a candidate is pending, the baseline is above
the low window, both numbers are inside it, and the second is ahead of the first. -/
def confirmsRestart (t : FtSequenceTracker) (current : UInt32) : Bool :=
  decide (kRestartMinBaseline ≤ t.previous) && t.hasRestartCandidate &&
    decide (t.restartCandidate ≤ kRestartLowMax) && decide (current ≤ kRestartLowMax) &&
    decide (0 < current - t.restartCandidate) && decide (current - t.restartCandidate < 0x80000000)

/-- `observe` of an FT number: forward, a stall, backward, or a restart confirmed by two low numbers. -/
def observe (t : FtSequenceTracker) (current : UInt32) : FtSequenceKind × FtSequenceTracker :=
  if !t.hasLast then
    (.First, { t with hasLast := true, previous := current })
  else if current = t.previous then
    (.Stall, { t with hasRestartCandidate := false })
  else if current - t.previous < 0x80000000 then
    (.Forward, { t with previous := current, hasRestartCandidate := false })
  else if t.confirmsRestart current then
    (.Restart, { t with previous := current, hasRestartCandidate := false })
  else
    (.Backward, { t with restartCandidate := current, hasRestartCandidate := true })

end FtSequenceTracker

/-- The verdicts `handle_record` calls a discontinuity. -/
def FtSequenceKind.discontinuity : FtSequenceKind → Bool
  | .Stall | .Backward => true
  | .First | .Forward | .Restart => false

/-! ## Wrapped differences of true numbers -/

/-- The machine's difference of two numbers is their distance on the ring. -/
theorem sub_toNat (n m : ℕ) :
    (UInt32.ofNat n - UInt32.ofNat m).toNat = Serial.distance (2 * 2 ^ 31) n m := by
  rw [UInt32.toNat_sub, UInt32.toNat_ofNat', UInt32.toNat_ofNat', Serial.distance]
  omega

theorem sub_eq_zero_iff (n m : ℕ) :
    UInt32.ofNat n - UInt32.ofNat m = 0 ↔ Serial.distance (2 * 2 ^ 31) n m = 0 := by
  rw [← sub_toNat, ← UInt32.toNat_inj]
  rfl

theorem sub_lt_half_iff (n m : ℕ) :
    UInt32.ofNat n - UInt32.ofNat m < 0x80000000 ↔ Serial.distance (2 * 2 ^ 31) n m < 2 ^ 31 := by
  rw [← sub_toNat, UInt32.lt_iff_toNat_lt]
  rfl

theorem ofNat_eq_iff (n m : ℕ) :
    UInt32.ofNat n = UInt32.ofNat m ↔ Serial.distance (2 * 2 ^ 31) n m = 0 := by
  rw [← UInt32.toNat_inj, UInt32.toNat_ofNat', UInt32.toNat_ofNat', Serial.distance]
  omega

/-! ## The RDT tracker on true numbers -/

namespace RdtSequenceTracker

/-- The baseline is the true number `m`. -/
structure Newest (t : RdtSequenceTracker) (m : ℕ) : Prop where
  hasLast : t.hasLast = true
  previous : t.previous = UInt32.ofNat m

variable {t : RdtSequenceTracker} {n m : ℕ}

theorem observe_fresh (h : t.hasLast = false) (current : UInt32) :
    t.observe current = ({ kind := .First }, { hasLast := true, previous := current }) := by
  simp [observe, h]

/-- A record ahead of the newest one by less than half a ring becomes the newest one. -/
theorem observe_newest (h : t.Newest m) (hnew : m < n) (hnear : n < m + 2 ^ 31) :
    (t.observe (UInt32.ofNat n)).1.kind.dropped = false ∧
      (t.observe (UInt32.ofNat n)).2.Newest n := by
  have hdist := (Serial.forward_iff (H := 2 ^ 31) hnear (by omega)).mpr hnew
  have hne : ¬ UInt32.ofNat n - UInt32.ofNat m = 0 := by
    rw [sub_eq_zero_iff]
    omega
  have hlt : UInt32.ofNat n - UInt32.ofNat m < 0x80000000 := (sub_lt_half_iff n m).mpr hdist.2
  simp only [observe, h.hasLast, h.previous, Bool.not_true, Bool.false_eq_true, if_false,
    if_neg hne, if_pos hlt]
  exact ⟨by split_ifs <;> rfl, rfl, rfl⟩

/-- A record at or behind the newest one, by less than half a ring, is dropped and changes
nothing. -/
theorem observe_late (h : t.Newest m) (hlate : n ≤ m) (hnear : m < n + 2 ^ 31) :
    (t.observe (UInt32.ofNat n)).1.kind.dropped = true ∧ (t.observe (UInt32.ofNat n)).2 = t := by
  by_cases heq : UInt32.ofNat n - UInt32.ofNat m = 0
  · simp [observe, h.hasLast, h.previous, heq, SequenceKind.dropped]
  · have hne : n ≠ m := by
      rintro rfl
      exact heq (by simp)
    have hback := (Serial.backward_iff (H := 2 ^ 31) (by omega) hnear).mpr (by omega)
    have hge : ¬ UInt32.ofNat n - UInt32.ofNat m < 0x80000000 := by
      rw [sub_lt_half_iff]
      omega
    simp [observe, h.hasLast, h.previous, heq, hge, SequenceKind.dropped]

end RdtSequenceTracker

/-! ## The FT tracker on true numbers -/

namespace FtSequenceTracker

/-- The baseline is the true number `m`. -/
structure Newest (t : FtSequenceTracker) (m : ℕ) : Prop where
  hasLast : t.hasLast = true
  previous : t.previous = UInt32.ofNat m

/-- The baseline is a true number at most `m` and less than `w` below it. -/
def Within (t : FtSequenceTracker) (w m : ℕ) : Prop :=
  ∃ b, t.Newest b ∧ b ≤ m ∧ m < b + w

variable {t : FtSequenceTracker} {n m w : ℕ}

theorem observe_fresh (h : t.hasLast = false) (current : UInt32) :
    t.observe current = (.First, { t with hasLast := true, previous := current }) := by
  simp [observe, h]

/-- A forward step: the verdict is `Forward` and the record becomes the baseline. -/
theorem observe_forward (h : t.Newest m)
    (hfwd : 0 < Serial.distance (2 * 2 ^ 31) n m ∧ Serial.distance (2 * 2 ^ 31) n m < 2 ^ 31) :
    t.observe (UInt32.ofNat n) =
      (.Forward, { t with previous := UInt32.ofNat n, hasRestartCandidate := false }) := by
  have hne : ¬ UInt32.ofNat n = UInt32.ofNat m := by
    rw [ofNat_eq_iff]
    omega
  have hlt : UInt32.ofNat n - UInt32.ofNat m < 0x80000000 := (sub_lt_half_iff n m).mpr hfwd.2
  simp [observe, h.hasLast, h.previous, hne, hlt]

/-- Without a pending candidate, a record that is not a forward step is a discontinuity. -/
theorem observe_discontinuity (h : t.Newest m) (hcand : t.hasRestartCandidate = false)
    (hfwd : ¬ (0 < Serial.distance (2 * 2 ^ 31) n m ∧
      Serial.distance (2 * 2 ^ 31) n m < 2 ^ 31)) :
    (t.observe (UInt32.ofNat n)).1.discontinuity = true := by
  by_cases heq : UInt32.ofNat n = UInt32.ofNat m
  · simp [observe, h.hasLast, h.previous, heq, FtSequenceKind.discontinuity]
  · have hge : ¬ UInt32.ofNat n - UInt32.ofNat m < 0x80000000 := by
      rw [ofNat_eq_iff] at heq
      rw [sub_lt_half_iff]
      omega
    simp [observe, h.hasLast, h.previous, heq, hge, confirmsRestart, hcand,
      FtSequenceKind.discontinuity]

/-- Whatever the verdict, the baseline after an observation is the old one or the record's. -/
theorem observe_baseline (h : t.Newest m) :
    (t.observe (UInt32.ofNat n)).2.Newest m ∨ (t.observe (UInt32.ofNat n)).2.Newest n := by
  obtain ⟨hlast, hprev⟩ := h
  unfold observe
  split_ifs with h₁ h₂ h₃ h₄
  · exact .inr ⟨rfl, rfl⟩
  · exact .inl ⟨hlast, hprev⟩
  · exact .inr ⟨hlast, rfl⟩
  · exact .inr ⟨hlast, rfl⟩
  · exact .inl ⟨hlast, hprev⟩

theorem Newest.beginSession (h : t.Newest m) : t.beginSession.Newest m := ⟨h.hasLast, h.previous⟩

theorem Within.beginSession (h : t.Within w m) : t.beginSession.Within w m := by
  obtain ⟨b, hb, hle, hlt⟩ := h
  exact ⟨b, hb.beginSession, hle, hlt⟩

/-- A new newest record less than `w` ahead is `Forward` and closes the window, provided the window
leaves half a ring of room. -/
theorem Within.observe_newest (h : t.Within w m) (hroom : 2 * w ≤ 2 ^ 31) (hnew : m < n)
    (hnear : n < m + w) :
    (t.observe (UInt32.ofNat n)).1 = .Forward ∧ (t.observe (UInt32.ofNat n)).2.Within w n := by
  obtain ⟨b, hb, hle, hlt⟩ := h
  have hfwd := (Serial.forward_iff (n := n) (m := b) (H := 2 ^ 31) (by omega) (by omega)).mpr
    (by omega)
  rw [observe_forward hb hfwd]
  exact ⟨rfl, n, ⟨hb.hasLast, rfl⟩, le_refl n, by omega⟩

/-- A late record less than `w` behind the newest one keeps the window. -/
theorem Within.observe_late (h : t.Within w m) (hlate : n ≤ m) (hnear : m < n + w) :
    (t.observe (UInt32.ofNat n)).2.Within w m := by
  obtain ⟨b, hb, hle, hlt⟩ := h
  rcases FtSequenceTracker.observe_baseline (n := n) hb with hkeep | hmove
  · exact ⟨b, hkeep, hle, hlt⟩
  · exact ⟨n, hmove, hlate, hnear⟩

end FtSequenceTracker

end NetFT
