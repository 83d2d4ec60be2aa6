import AdmissionControl.Clock

/-!
# Faults

The faults that callers are told of: what is wrong with a contract that is checked strictly, and
a clock that gives no reading. Building and driving a throttle never fails.
-/

namespace AdmissionControl

/-- What a caller is told instead of a result. -/
inductive Fault
  /-- A peak or sustained rate is zero or negative. -/
  | rateNotPositive
  /-- The jitter tolerance is negative. -/
  | toleranceNegative
  /-- The largest burst of a sustained rate is less than one event. -/
  | burstBelowOne
  /-- The clock gave no reading. -/
  | clock (error : ClockError)
deriving DecidableEq, Repr

namespace Fault

/-- The wording of a fault. -/
def message : Fault → String
  | rateNotPositive => "Rate must be positive"
  | toleranceNegative => "Jitter tolerance must be non-negative"
  | burstBelowOne => "Maximum burst must be at least one"
  | clock error => "Clock error occurred: " ++ error.message

/-- The clock error behind a fault, if there is one. -/
def cause : Fault → Option ClockError
  | clock error => some error
  | _ => none

end Fault

end AdmissionControl
