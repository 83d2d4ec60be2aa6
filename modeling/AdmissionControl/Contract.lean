import AdmissionControl.Fault

/-!
# Traffic contracts

A contract promises a peak rate, with a tolerance for jitter, and if its rate is variable also a
slower sustained rate with the largest burst above it. Rates are in events or bytes a second, the
tolerance is in ticks of the throttle that the contract is for.

Any integers make a contract, and a throttle can be built for it. `Contract.validate` is the
strict check for callers who want to turn away what makes no sense; it names the first fault in
the order peak rate, tolerance, sustained rate, burst.
-/

namespace AdmissionControl

/-- The sustained half of a contract. -/
structure Sustained where
  /-- Events a second in the long run. -/
  rate : Int
  /-- How many events may come at the peak rate in a row. -/
  maxBurst : Int
deriving DecidableEq, Repr

/-- A traffic contract. -/
structure Contract where
  /-- Events a second at the most. -/
  peakRate : Int
  /-- How many ticks an event may be early. -/
  jitter : Int
  /-- The sustained half, if the rate is variable. -/
  sustained : Option Sustained := none
deriving DecidableEq, Repr

/-- The strict check of a sustained half. -/
def Sustained.validate (s : Sustained) : Except Fault Unit :=
  if s.rate ≤ 0 then .error .rateNotPositive
  else if s.maxBurst < 1 then .error .burstBelowOne
  else .ok ()

namespace Contract

/-- The contract of a constant rate. -/
def constantRate (peakRate jitter : Int) : Contract := ⟨peakRate, jitter, none⟩

/-- The contract of a variable rate. -/
def variableRate (peakRate jitter rate maxBurst : Int) : Contract :=
  ⟨peakRate, jitter, some ⟨rate, maxBurst⟩⟩

/-- Whether a contract has a sustained half. -/
def isVariable (c : Contract) : Bool := c.sustained.isSome

/-- A new value for one of the terms of a contract. -/
inductive Revision
  | peakRate (rate : Int)
  | jitter (ticks : Int)
  | sustained (rate maxBurst : Int)
deriving DecidableEq, Repr

/-- The contract with one of its terms changed. -/
def revise (c : Contract) : Revision → Contract
  | .peakRate rate => { c with peakRate := rate }
  | .jitter ticks => { c with jitter := ticks }
  | .sustained rate maxBurst => { c with sustained := some ⟨rate, maxBurst⟩ }

/-- The contract after all revisions. -/
def reviseAll (c : Contract) (revisions : List Revision) : Contract := revisions.foldl revise c

/-- The contract and all its versions as it is revised. -/
def versions (c : Contract) : List Revision → List Contract
  | [] => [c]
  | r :: rest => c :: versions (c.revise r) rest

/-- The strict check of a contract. -/
def validate (c : Contract) : Except Fault Unit :=
  if c.peakRate ≤ 0 then .error .rateNotPositive
  else if c.jitter < 0 then .error .toleranceNegative
  else match c.sustained with
    | none => .ok ()
    | some s => s.validate

end Contract

end AdmissionControl
