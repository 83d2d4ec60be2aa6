import AdmissionControl.Clock

/-!
# Notices

A `Notice` is an entry of the log. Each has a severity, a fixed wording and named fields; the
fields of a value that is absent are left out.
-/

namespace AdmissionControl

/-- How much a notice matters. -/
inductive Severity
  | debug
  | info
  | warn
deriving DecidableEq, Repr

/-- The value of a field of a notice. -/
inductive Detail
  | number (value : Int)
  | text (value : String)
deriving DecidableEq, Repr

/-- An entry of the log. -/
inductive Notice
  /-- A contract has a peak rate that is not positive. -/
  | peakRateNotPositive (rate : Int)
  /-- A contract has a negative jitter tolerance. -/
  | jitterNegative (jitter : Int)
  /-- A contract has a sustained rate that is not positive. -/
  | sustainedRateNotPositive (rate : Int)
  /-- The increments and limits of the engines for a contract have been worked out. -/
  | emissionsDerived (frequency peakIncrement peakLimit : Int) (sustained : Option (Int × Int))
  /-- An engine has taken in an event that came too early. -/
  | earlyEventCommitted (increment limit debt : Int)
  /-- An engine found no reading on its clock and stays at the instant it saw last. -/
  | clockUnavailable (error : ClockError)
  /-- A registry has built the throttle of a new key. -/
  | keyCreated (nanos : Nat)
  /-- A registry has dropped the throttles of idle keys. -/
  | idleEvicted (removed remaining : Nat)
deriving DecidableEq, Repr

namespace Notice

/-- How much a notice matters: what a contract or a clock lacks is worth a warning. -/
def severity : Notice → Severity
  | peakRateNotPositive _ | jitterNegative _ | sustainedRateNotPositive _
  | clockUnavailable _ => .warn
  | emissionsDerived .. | earlyEventCommitted .. | keyCreated _ => .debug
  | idleEvicted .. => .info

/-- The wording of a notice. -/
def message : Notice → String
  | peakRateNotPositive _ => "peak rate is not positive; emission interval is infinite"
  | jitterNegative _ => "negative jitter tolerance; using zero"
  | sustainedRateNotPositive _ => "sustained rate is not positive; emission interval is infinite"
  | emissionsDerived .. => "translated traffic contract"
  | earlyEventCommitted .. => "committed a non-conforming event"
  | clockUnavailable _ => "clock unavailable; holding the last observed instant"
  | keyCreated _ => "created throttle for new key"
  | idleEvicted .. => "evicted idle throttles"

/-- The fields of a notice, by name. -/
def fields : Notice → List (String × Detail)
  | peakRateNotPositive rate => [("peak_rate", .number rate)]
  | jitterNegative jitter => [("jitter_tolerance", .number jitter)]
  | sustainedRateNotPositive rate => [("sustained_rate", .number rate)]
  | emissionsDerived frequency increment limit sustained =>
    [("frequency", .number frequency), ("peak_increment", .number increment),
      ("peak_limit", .number limit)] ++
    match sustained with
    | none => []
    | some (increment, limit) =>
      [("sustained_increment", .number increment), ("sustained_limit", .number limit)]
  | earlyEventCommitted increment limit debt =>
    [("increment", .number increment), ("limit", .number limit), ("debt", .number debt)]
  | clockUnavailable error => [("error", .text error.message)]
  | keyCreated nanos => [("at_nanos", .number nanos)]
  | idleEvicted removed remaining =>
    [("removed", .number removed), ("remaining", .number remaining)]

end Notice

end AdmissionControl
