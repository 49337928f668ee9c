/-
# NetFT.Time — checked conversions to the steady clock (`detail/time.hpp`).

A duration in seconds is truncated to clock ticks; durations and deadlines that the 64-bit clock
cannot represent are refused with `std::invalid_argument`.

The conversions round: ticks become seconds as a double, seconds become ticks as a `long double` with a
significand of 64 bits.  There and back is not the identity.
-/
import NetFT.Types

namespace NetFT

open Library.Double (nearest extended)

/-- `SteadyClock::period::den / SteadyClock::period::num`: one tick is a nanosecond. -/
def ticksPerSecond : Int := 1000000000

/-- `SteadyClock::duration::max().count()`. -/
def maxTicks : Int := 9223372036854775807

/-- The `long double` number of ticks. -/
def clockTicks (duration : Seconds) : ℚ := extended (duration * ticksPerSecond)

/-- `checked_duration`: a duration in whole nanoseconds, if it is not negative and the clock can hold it.
-/
def checkedDuration (duration : Seconds) : Except String Ticks :=
  let ticks : ℚ := clockTicks duration
  if ticks < 0 ∨ maxTicks ≤ ticks then
    .error "duration is outside the supported steady-clock range"
  else
    .ok ⌊ticks⌋

/-- `checked_deadline`: the origin plus the duration, if the clock can hold the sum. -/
def checkedDeadline (origin : TimePoint) (duration : Seconds) : Except String TimePoint :=
  match checkedDuration duration with
  | .error what => .error what
  | .ok ticks =>
    if maxTicks - ticks < origin then
      .error "deadline is outside the supported steady-clock range"
    else
      .ok (origin + ticks)

/-- A clock duration as a `duration<double>`. -/
def Ticks.toSeconds (ticks : Ticks) : Seconds := nearest (nearest ticks / ticksPerSecond)

/-- What a deadline that was computed is. -/
theorem checkedDeadline_eq {origin deadline : TimePoint} {duration : Seconds}
    (h : checkedDeadline origin duration = .ok deadline) :
    ∃ ticks, checkedDuration duration = .ok ticks ∧ deadline = origin + ticks := by
  unfold checkedDeadline at h
  split at h
  · exact absurd h (by simp)
  · rename_i ticks hticks
    split_ifs at h
    exact ⟨ticks, hticks, by simpa using h.symm⟩

/-- A duration that was checked fits the clock. -/
theorem checkedDuration_lt {duration : Seconds} {ticks : Ticks} (h : checkedDuration duration = .ok ticks) :
    ticks < maxTicks := by
  simp only [checkedDuration] at h
  split_ifs at h with hrange
  cases h
  rw [Int.floor_lt]
  exact not_le.mp fun hle => hrange (.inr hle)

end NetFT
