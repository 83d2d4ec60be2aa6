import AdmissionControl.Contract
import AdmissionControl.Notice
import AdmissionControl.Resolution

/-!
# The emissions of a contract

An `Emission` says how an engine spaces events: the increment is the span from one event to the
next, the limit is how far ahead of that an event may come. `Contract.emissions` works out the
emissions of the engines for a contract: one for its peak rate and, if its rate is variable, one
for its sustained rate.

Nothing is refused. A rate that is not positive gets an increment without end and a negative
tolerance counts as zero; `Contract.notices` lists a warning for each, and closes with the result.
All arithmetic saturates.
-/

namespace AdmissionControl

/-- How an engine spaces events. -/
structure Emission where
  /-- The span in ticks from one event to the next. -/
  increment : Int
  /-- How many ticks ahead of that spacing an event may come. -/
  limit : Int
deriving DecidableEq, Repr

/-- The emissions of the engines for one contract. -/
structure Emissions where
  /-- That of the peak rate. -/
  peak : Emission
  /-- That of the sustained rate, if the rate is variable. -/
  sustained : Option Emission
deriving DecidableEq, Repr

namespace Emission

/-- The emission of a peak rate with a tolerance for jitter. -/
def ofPeak (r : Resolution) (peakRate jitter : Int) : Emission :=
  ⟨r.spacing peakRate, max jitter 0⟩

/-- The emission of a sustained rate beside a peak emission. The slower of the two rates sets the
increment. A burst widens the limit if it is of more than one event and the sustained rate is
positive and below the peak rate: each event after the first may then come the difference of the
increments earlier. -/
def ofSustained (r : Resolution) (peakRate : Int) (peak : Emission) (s : Sustained) : Emission :=
  let increment := r.spacing (min s.rate peakRate)
  if 1 < s.maxBurst ∧ 0 < s.rate ∧ s.rate < peakRate then
    ⟨increment, satAdd (satMul (s.maxBurst - 1) (satSub increment peak.increment)) peak.limit⟩
  else ⟨increment, peak.limit⟩

/-- The warnings about a peak rate and its tolerance. -/
def peakNotices (peakRate jitter : Int) : List Notice :=
  (if peakRate ≤ 0 then [.peakRateNotPositive peakRate] else []) ++
    (if jitter < 0 then [.jitterNegative jitter] else [])

/-- The warnings about a sustained rate. -/
def sustainedNotices (rate : Int) : List Notice :=
  if rate ≤ 0 then [.sustainedRateNotPositive rate] else []

end Emission

/-- The report of the emissions that were worked out. -/
def Emissions.notice (r : Resolution) (e : Emissions) : Notice :=
  .emissionsDerived r.frequency e.peak.increment e.peak.limit
    (e.sustained.map fun s => (s.increment, s.limit))

namespace Contract

/-- The emissions of the engines for a contract. -/
def emissions (r : Resolution) (c : Contract) : Emissions :=
  let peak := Emission.ofPeak r c.peakRate c.jitter
  ⟨peak, c.sustained.map (Emission.ofSustained r c.peakRate peak)⟩

/-- What is logged while the emissions for a contract are worked out. -/
def notices (r : Resolution) (c : Contract) : List Notice :=
  Emission.peakNotices c.peakRate c.jitter ++
    c.sustained.elim [] (fun s => Emission.sustainedNotices s.rate) ++
    [(c.emissions r).notice r]

end Contract

end AdmissionControl
