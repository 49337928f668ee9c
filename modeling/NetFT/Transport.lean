/-
# NetFT.Transport — `UdpTransport::receive` (`detail/udp_transport_posix.cpp`).

`receive` returns a byte count that means several things: zero is a timeout, a shutdown, an
interrupted `recv` or an empty datagram.  The model returns the bytes read into the buffer, so a
count of zero is the empty list, and the environment of one call (`Reception`) is what the system
calls and clock readings in it produce.

A caller's wait goes through a `duration<double>`, so that the deadline of the call need not be the
caller's.

* `timeoutMilliseconds` rounds up, so a poll that is not clipped waits at least as long as asked, the
  rounding of the conversions included (`le_timeoutMilliseconds`).
* `receive_nil_cases` says when a count of zero comes back.
-/
import NetFT.Time
import Mathlib.Data.Rat.Floor
import Mathlib.Tactic.Linarith
import Mathlib.Tactic.FieldSimp

namespace NetFT

open Library.Double (nearest)

/-! ## Poll timeouts -/

/-- `std::numeric_limits<int>::max()`. -/
def maxInt : Int := 2147483647

def timeoutMilliseconds (timeout : Seconds) : Int :=
  let milliseconds := ⌈nearest (timeout * 1000)⌉
  if maxInt ≤ milliseconds then maxInt else milliseconds

/-- Clock ticks in a millisecond. -/
def ticksPerMillisecond : Int := 1000000

/-! ## The environment of a call -/

inductive RecvResult where
  | received (data : List UInt8)
  | interrupted
  | failed (what : String)
  deriving DecidableEq, Repr

/-- How the last `poll` of a call ends; a ready one is followed by `recv`, unless the descriptor
has become invalid. -/
inductive PollOutcome where
  | expired
  | failed (what : String)
  | invalid
  | ready (recv : RecvResult)
  deriving DecidableEq, Repr

/-- The environment of one `receive`: the clock reading its deadline starts from, the readings after
each interrupted `poll`, how the last `poll` ends, and the time at which the call returns. -/
structure Reception where
  startedAt : TimePoint
  interrupts : List TimePoint := []
  outcome : PollOutcome
  returnedAt : TimePoint
  deriving DecidableEq, Repr

/-! ## The call -/

def recvBytes : RecvResult → Except String (List UInt8)
  | .received data => .ok data
  | .interrupted => .ok []
  | .failed what => .error what

/-- The end of the poll loop, with no interrupt left. -/
def pollBytes : PollOutcome → Except String (List UInt8)
  | .expired => .ok []
  | .failed what => .error what
  | .invalid => .error "UDP socket became invalid"
  | .ready recv => recvBytes recv

/-- The poll loop: an interrupted `poll` is repeated until the deadline. -/
def pollLoop (deadline : TimePoint) (outcome : PollOutcome) :
    List TimePoint → Except String (List UInt8)
  | [] => pollBytes outcome
  | now :: interrupts => if deadline ≤ now then .ok [] else pollLoop deadline outcome interrupts

/-- `UdpTransport::receive` on an open socket that nobody shuts down. -/
def receive (timeout : Seconds) (r : Reception) : Except String (List UInt8) :=
  match checkedDeadline r.startedAt timeout with
  | .error what => .error what
  | .ok deadline => pollLoop deadline r.outcome r.interrupts

/-! ## What the system promises -/

/-- What is left to wait when the last `poll` is made. -/
def lastRemaining (deadline : TimePoint) (remaining : Ticks) : List TimePoint → Ticks
  | [] => remaining
  | now :: interrupts => lastRemaining deadline (deadline - now) interrupts

/-- The last clock reading before the last `poll`. -/
def lastReading (startedAt : TimePoint) : List TimePoint → TimePoint
  | [] => startedAt
  | now :: interrupts => lastReading now interrupts

/-- The deadline of a call that is to wait for `timeout` ticks. -/
def Reception.limit (timeout : Ticks) (r : Reception) : Except String TimePoint :=
  checkedDeadline r.startedAt (Ticks.toSeconds timeout)

/-- A `poll` expires only after its timeout: the call returns no earlier than the last reading before
it plus the milliseconds it was given. -/
def Reception.PollSound (timeout : Ticks) (r : Reception) : Prop :=
  r.outcome = .expired → ∀ limit, r.limit timeout = .ok limit →
    lastReading r.startedAt r.interrupts +
      timeoutMilliseconds (Ticks.toSeconds (lastRemaining limit timeout r.interrupts)) *
        ticksPerMillisecond ≤ r.returnedAt

/-! ## Timeouts are rounded up -/

/-- A rounding takes at most 2⁻⁵³ of a value off. -/
theorem nearest_ge {q : ℚ} (low : ℚ) (hlow : 1 / 10 ^ 12 ≤ low) (h : low ≤ q) :
    low * (1 - 1 / 2 ^ 53) ≤ nearest q := by
  have hq : |q| = q := abs_of_nonneg (by linarith)
  have hnormal : (2 : ℚ) ^ ((-1074 : ℤ) + (53 : ℕ) - 1) ≤ |q| := by
    rw [hq]
    calc (2 : ℚ) ^ ((-1074 : ℤ) + (53 : ℕ) - 1)
        ≤ 2 ^ (-40 : ℤ) := zpow_le_zpow_right₀ (by norm_num) (by norm_num)
      _ ≤ 1 / 10 ^ 12 := by norm_num
      _ ≤ q := hlow.trans h
  have herror := Library.Double.abs_roundTo_sub_le hnormal
  rw [hq] at herror
  have hbelow := (abs_le.mp herror).1
  have hscale : low * (1 - 1 / 2 ^ 53) ≤ q * (1 - 1 / 2 ^ 53) := mul_le_mul_of_nonneg_right h (by norm_num)
  show low * (1 - 1 / 2 ^ 53) ≤ Library.Double.roundTo 53 (-1074) q
  linarith

/-- A poll that is not clipped is asked to wait at least the remaining ticks. -/
theorem le_timeoutMilliseconds {ticks : Ticks} (hpos : 0 < ticks) (h : ticks ≤ maxInt * ticksPerMillisecond) :
    ticks ≤ timeoutMilliseconds (Ticks.toSeconds ticks) * ticksPerMillisecond := by
  have hone : (1 : ℚ) ≤ ticks := by exact_mod_cast hpos
  have hrange : (ticks : ℚ) ≤ 2147483647 * 1000000 := by exact_mod_cast h
  -- three roundings on the way to milliseconds
  have hcount := nearest_ge ticks (by linarith) (le_refl (ticks : ℚ))
  have hseconds := nearest_ge (ticks * (1 - 1 / 2 ^ 53) / 1000000000)
    (q := nearest ticks / ticksPerSecond) (by linarith) (by
      rw [show ((ticksPerSecond : Int) : ℚ) = 1000000000 by norm_num [ticksPerSecond]]
      gcongr)
  have hmilliseconds := nearest_ge (ticks * (1 - 1 / 2 ^ 53) / 1000000000 * (1 - 1 / 2 ^ 53) * 1000)
    (q := Ticks.toSeconds ticks * 1000) (by linarith) (mul_le_mul_of_nonneg_right hseconds (by norm_num))
  have hceil := Int.le_ceil (nearest (Ticks.toSeconds ticks * 1000))
  simp only [timeoutMilliseconds]
  split_ifs with hclip
  · exact h
  · by_contra hnot
    -- they take off less than a tick
    have hless : (⌈nearest (Ticks.toSeconds ticks * 1000)⌉ : ℚ) * 1000000 + 1 ≤ ticks := by
      exact_mod_cast not_le.mp hnot
    norm_num at hmilliseconds hceil hless
    linarith

/-! ## When `receive` reads nothing -/

theorem recvBytes_eq_nil_iff (recv : RecvResult) :
    recvBytes recv = .ok [] ↔ recv = .received [] ∨ recv = .interrupted := by
  cases recv <;> simp [recvBytes]

/-- The poll loop reads nothing at an interrupt past the deadline, at an expired poll, on an empty
datagram, or when `recv` is interrupted. -/
theorem pollLoop_nil_cases {deadline : TimePoint} {outcome : PollOutcome}
    {interrupts : List TimePoint} (h : pollLoop deadline outcome interrupts = .ok []) :
    (∃ now ∈ interrupts, deadline ≤ now) ∨ outcome = .expired ∨
      outcome = .ready (.received []) ∨ outcome = .ready .interrupted := by
  induction interrupts with
  | nil =>
    cases outcome with
    | expired => exact .inr (.inl rfl)
    | failed what => simp [pollLoop, pollBytes] at h
    | invalid => simp [pollLoop, pollBytes] at h
    | ready recv =>
      rcases (recvBytes_eq_nil_iff recv).mp h with rfl | rfl
      · exact .inr (.inr (.inl rfl))
      · exact .inr (.inr (.inr rfl))
  | cons now interrupts ih =>
    simp only [pollLoop] at h
    split_ifs at h with hnow
    · exact .inl ⟨now, List.mem_cons_self, hnow⟩
    · rcases ih h with ⟨later, hmem, hle⟩ | hrest
      · exact .inl ⟨later, List.mem_cons_of_mem now hmem, hle⟩
      · exact .inr hrest

/-- What the loop returns, unless it is nothing, is the datagram `recv` read. -/
theorem pollLoop_eq_ok {deadline : TimePoint} {outcome : PollOutcome} {interrupts : List TimePoint}
    {data : List UInt8} (h : pollLoop deadline outcome interrupts = .ok data) (hdata : data ≠ []) :
    outcome = .ready (.received data) := by
  induction interrupts with
  | nil =>
    cases outcome with
    | expired => simp_all [pollLoop, pollBytes]
    | failed what => simp [pollLoop, pollBytes] at h
    | invalid => simp [pollLoop, pollBytes] at h
    | ready recv => cases recv <;> simp_all [pollLoop, pollBytes, recvBytes]
  | cons now interrupts ih =>
    simp only [pollLoop] at h
    split_ifs at h
    · simp_all
    · exact ih h

theorem receive_eq_ok {timeout : Seconds} {r : Reception} {data : List UInt8}
    (h : receive timeout r = .ok data) (hdata : data ≠ []) :
    r.outcome = .ready (.received data) := by
  unfold receive at h
  split at h
  · exact absurd h (by simp)
  · exact pollLoop_eq_ok h hdata

/-- At the last `poll` after an interrupted one, what is left to wait reaches the call's deadline. -/
theorem lastReading_add_lastRemaining {limit startedAt : TimePoint} {timeout : Ticks} {interrupts : List TimePoint}
    (h : interrupts ≠ []) :
    lastReading startedAt interrupts + lastRemaining limit timeout interrupts = limit := by
  induction interrupts generalizing startedAt timeout with
  | nil => exact absurd rfl h
  | cons now interrupts ih =>
    cases interrupts with
    | nil => exact add_sub_cancel now limit
    | cons later interrupts => exact @ih now (limit - now) (List.cons_ne_nil later interrupts)

theorem lastRemaining_pos {limit : TimePoint} {timeout : Ticks} {interrupts : List TimePoint}
    (hpos : 0 < timeout) (h : ∀ now ∈ interrupts, now < limit) :
    0 < lastRemaining limit timeout interrupts := by
  induction interrupts generalizing timeout with
  | nil => exact hpos
  | cons now interrupts ih =>
    exact ih (sub_pos.mpr (h now List.mem_cons_self)) fun later hmem => h later (List.mem_cons_of_mem now hmem)

/-- The call gets as far as its last `poll`: it has a deadline, and no interrupt is noticed past it. -/
def Reception.InTime (timeout : Ticks) (r : Reception) : Prop :=
  ∃ limit, r.limit timeout = .ok limit ∧ ∀ now ∈ r.interrupts, now < limit

/-- An interrupted `poll` ends past the deadline of the call. -/
def Reception.Late (timeout : Ticks) (r : Reception) : Prop :=
  ∃ limit, r.limit timeout = .ok limit ∧ ∃ now ∈ r.interrupts, limit ≤ now

/-- The last `poll` is given less than what is left to wait. -/
def Reception.Clipped (timeout : Ticks) (r : Reception) : Prop :=
  ∃ limit, r.limit timeout = .ok limit ∧ maxInt * ticksPerMillisecond < lastRemaining limit timeout r.interrupts

/-- The last `poll` follows an interrupt, and waits for a deadline that rounding has put before the
caller's. -/
def Reception.Shortened (timeout : Ticks) (r : Reception) : Prop :=
  r.interrupts ≠ [] ∧ ∃ limit, r.limit timeout = .ok limit ∧ limit < r.startedAt + timeout

theorem pollLoop_inTime {deadline : TimePoint} {outcome : PollOutcome} {interrupts : List TimePoint}
    (h : ∀ now ∈ interrupts, now < deadline) :
    pollLoop deadline outcome interrupts = pollBytes outcome := by
  induction interrupts with
  | nil => rfl
  | cons now interrupts ih =>
    have hnow := h now List.mem_cons_self
    simp only [pollLoop, if_neg (not_le.mpr hnow)]
    exact ih fun later hmem => h later (List.mem_cons_of_mem now hmem)

theorem pollLoop_late {deadline : TimePoint} {outcome : PollOutcome} {interrupts : List TimePoint}
    (h : ∃ now ∈ interrupts, deadline ≤ now) : pollLoop deadline outcome interrupts = .ok [] := by
  induction interrupts with
  | nil =>
    obtain ⟨now, hmem, -⟩ := h
    cases hmem
  | cons now interrupts ih =>
    by_cases hnow : deadline ≤ now
    · exact if_pos hnow
    · rw [pollLoop, if_neg hnow]
      obtain ⟨later, hmem, hle⟩ := h
      rcases List.mem_cons.mp hmem with rfl | hmem
      · exact absurd hle hnow
      · exact ih ⟨later, hmem, hle⟩

variable {timeout : Ticks} {r : Reception}

theorem receive_inTime (h : r.InTime timeout) :
    receive (Ticks.toSeconds timeout) r = pollBytes r.outcome := by
  obtain ⟨limit, hlimit, hbefore⟩ := h
  rw [Reception.limit] at hlimit
  simp only [receive, hlimit]
  exact pollLoop_inTime hbefore

theorem receive_of_error {timeout : Seconds} {what : String} (h : checkedDuration timeout = .error what) :
    receive timeout r = .error what := by
  simp only [receive, checkedDeadline, h]

theorem receive_late (h : r.Late timeout) : receive (Ticks.toSeconds timeout) r = .ok [] := by
  obtain ⟨limit, hlimit, hpast⟩ := h
  rw [Reception.limit] at hlimit
  simp only [receive, hlimit]
  exact pollLoop_late hpast

/-- **A count of zero means the caller's deadline**, an interrupt past the deadline of the call, an empty
datagram, an interrupted `recv`, or a `poll` that was given less than what the caller wants to wait. -/
theorem receive_nil_cases (h : receive (Ticks.toSeconds timeout) r = .ok []) (hpos : 0 < timeout)
    (hpoll : r.PollSound timeout) :
    r.startedAt + timeout ≤ r.returnedAt ∨ r.Late timeout ∨
      r.InTime timeout ∧
        (r.outcome = .ready (.received []) ∨ r.outcome = .ready .interrupted ∨
          r.outcome = .expired ∧ (r.Clipped timeout ∨ r.Shortened timeout)) := by
  unfold receive at h
  split at h
  · exact absurd h (by simp)
  rename_i limit hlimit
  by_cases hlate : ∃ now ∈ r.interrupts, limit ≤ now
  · exact .inr (.inl ⟨limit, hlimit, hlate⟩)
  push Not at hlate
  have hintime : r.InTime timeout := ⟨limit, hlimit, hlate⟩
  rcases pollLoop_nil_cases h with ⟨now, hmem, hle⟩ | hexp | hrest
  · exact absurd (hlate now hmem) (not_lt.mpr hle)
  · by_cases hclip : maxInt * ticksPerMillisecond < lastRemaining limit timeout r.interrupts
    · exact .inr (.inr ⟨hintime, .inr (.inr ⟨hexp, .inl ⟨limit, hlimit, hclip⟩⟩)⟩)
    by_cases hshort : r.interrupts ≠ [] ∧ limit < r.startedAt + timeout
    · exact .inr (.inr ⟨hintime, .inr (.inr ⟨hexp, .inr ⟨hshort.1, limit, hlimit, hshort.2⟩⟩)⟩)
    -- the last poll waits for the whole rest
    have hleft := lastRemaining_pos hpos hlate
    have hwait := le_timeoutMilliseconds hleft (not_lt.mp hclip)
    have hsound := hpoll hexp limit hlimit
    have hrest : r.startedAt + timeout ≤
        lastReading r.startedAt r.interrupts + lastRemaining limit timeout r.interrupts := by
      by_cases hnone : r.interrupts = []
      · rw [hnone]
        exact le_refl _
      · rw [lastReading_add_lastRemaining hnone]
        exact not_lt.mp fun hlt => hshort ⟨hnone, hlt⟩
    exact .inl (by linarith)
  · exact .inr (.inr ⟨hintime, hrest.imp_right .inl⟩)

end NetFT
