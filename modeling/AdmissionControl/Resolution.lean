import AdmissionControl.Tick
import AdmissionControl.Duration

/-!
# Resolutions

A `Resolution` fixes how many ticks make a second. Whatever becomes a number of ticks is rounded
up, so that a rate is never allowed more than it asks for; whatever becomes a time to sleep is
rounded up too, so that nobody wakes too early. Only a clock reading is rounded down, to the last
tick that has begun. Each conversion saturates its exact result once (`scaleUp`, `scaleDown`).

`ticksAt` and `retryAfter` work on a bare frequency. They are used where the frequency is that of
an arbitrary throttle, which need not measure time at all: such a throttle has a frequency that is
zero or negative.
-/

namespace AdmissionControl

/-- The product of `value` and `numerator / denominator`, rounded up, for a positive
denominator. -/
def scaleUp (value numerator denominator : Int) : Int :=
  saturate (-((-(value * numerator)) / denominator))

/-- The product of `value` and `numerator / denominator`, rounded down, for a positive
denominator. -/
def scaleDown (value numerator denominator : Int) : Int :=
  saturate (value * numerator / denominator)

/-- The number of ticks in a second. -/
structure Resolution where
  /-- Ticks per second. -/
  frequency : Int
  frequency_pos : 0 < frequency
  frequency_le : frequency ≤ maxTick
deriving DecidableEq, Repr

/-- A sleep as timers take it: whole milliseconds, then nanoseconds. -/
structure Sleep where
  /-- The whole milliseconds. -/
  millis : Int
  /-- The nanoseconds beyond them. -/
  nanos : Int
deriving DecidableEq, Repr

namespace Resolution

/-- One tick per microsecond. -/
def microseconds : Resolution := ⟨1000000, by decide, by decide⟩

/-- One tick per nanosecond. -/
def nanoseconds : Resolution := ⟨1000000000, by decide, by decide⟩

/-- The resolution with the given number of ticks per second, if there is one. -/
def ofFrequency? (frequency : Int) : Option Resolution :=
  if h : 0 < frequency ∧ frequency ≤ maxTick then some ⟨frequency, h.1, h.2⟩ else none

/-- The instant of a clock reading in nanoseconds: the last tick that has begun. -/
def ofReading (r : Resolution) (nanos : Nat) : Int :=
  scaleDown nanos r.frequency nanosPerSecond

/-- A span of nanoseconds in ticks, rounded up. -/
def ofNanos (r : Resolution) (nanos : Int) : Int :=
  scaleUp nanos r.frequency nanosPerSecond

/-- A span of milliseconds in ticks, rounded up. -/
def ofMillis (r : Resolution) (millis : Int) : Int :=
  scaleUp millis r.frequency millisPerSecond

/-- A span of ticks in milliseconds, rounded up. -/
def toMillis (r : Resolution) (ticks : Int) : Int :=
  scaleUp ticks millisPerSecond r.frequency

/-- A span of ticks in nanoseconds, rounded up. -/
def toNanos (r : Resolution) (ticks : Int) : Int :=
  scaleUp ticks nanosPerSecond r.frequency

/-- The sleep that waits out a delay. -/
def sleepOf (r : Resolution) (delay : Int) : Sleep :=
  if delay ≤ 0 then ⟨0, 0⟩
  else ⟨r.toNanos delay / nanosPerMilli, r.toNanos delay % nanosPerMilli⟩

/-- The span of real time that waits out a delay. -/
def durationOf (r : Resolution) (delay : Int) : Duration :=
  if delay ≤ 0 then .zero else ⟨(r.toNanos delay).toNat⟩

/-- The spacing of events at `rate` events a second. Events at a rate that is not positive are
infinitely far apart. -/
def spacing (r : Resolution) (rate : Int) : Int :=
  if 0 < rate then scaleUp 1 r.frequency rate else maxTick

end Resolution

/-- The instant of a clock reading at a number of ticks per second, or zero where that number is
not positive and so no time is measured. -/
def ticksAt (nanos : Nat) (frequency : Int) : Int :=
  if frequency ≤ 0 then 0 else scaleDown nanos frequency nanosPerSecond

/-- How long to wait before an event that came `delay` ticks early. There is no answer for a
delay that is not positive, nor where no time is measured. -/
def retryAfter (delay frequency : Int) : Option Duration :=
  if delay ≤ 0 ∨ frequency ≤ 0 then none
  else some ⟨(scaleUp delay nanosPerSecond frequency).toNat⟩

/-- Scaling up lands in range. -/
theorem inRange_scaleUp (v n d : Int) : InRange (scaleUp v n d) := inRange_saturate _

/-- Scaling down lands in range. -/
theorem inRange_scaleDown (v n d : Int) : InRange (scaleDown v n d) := inRange_saturate _

end AdmissionControl
