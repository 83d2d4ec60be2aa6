/-!
# Durations

A `Duration` is a span of real time in whole nanoseconds. It is read out as whole seconds and the
nanoseconds that are left over.
-/

namespace AdmissionControl

/-- Nanoseconds in a second. -/
def nanosPerSecond : Nat := 1000000000

/-- Milliseconds in a second. -/
def millisPerSecond : Nat := 1000

/-- Nanoseconds in a millisecond. -/
def nanosPerMilli : Nat := 1000000

/-- A span of real time. -/
structure Duration where
  /-- Its length in nanoseconds. -/
  nanos : Nat
deriving DecidableEq, Repr

namespace Duration

/-- The empty span. -/
def zero : Duration := ⟨0⟩

/-- The whole seconds of a span. -/
def seconds (d : Duration) : Nat := d.nanos / nanosPerSecond

/-- The nanoseconds of a span beyond its whole seconds. -/
def subseconds (d : Duration) : Nat := d.nanos % nanosPerSecond

end Duration

end AdmissionControl
