import AdmissionControl.Throttle

/-!
# Traffic

`Traffic` is a row of evenly spaced events together with a policy for those that do not conform.
`Throttle.drive` sends it through a throttle and counts in a `Tally` what became of it.

The policy says whether an event that does not conform is left (`rollback`), taken in all the same
(`commit`), or put off until it conforms (`wait`). Putting off an event also puts off those that
come after it. An event that is rejected without a hint cannot be put off and is left.
-/

namespace AdmissionControl

/-- What is done with an event that does not conform. -/
inductive EarlyPolicy
  | rollback
  | commit
  | wait
deriving DecidableEq, Repr

/-- A row of evenly spaced events. -/
structure Traffic where
  /-- The instant of the first event. -/
  start : Int
  /-- The span between events. -/
  step : Int
  /-- How many events there are. -/
  count : Nat
  /-- What is done with an event that does not conform. -/
  early : EarlyPolicy
deriving DecidableEq, Repr

/-- What became of the events of some traffic. -/
structure Tally where
  /-- The instant of the next event. -/
  now : Int
  /-- How many events there have been. -/
  seen : Nat := 0
  /-- The numbers of the events that conformed, counted from one. -/
  admitted : Array Nat := #[]
  /-- How many events left the throttle alarmed. -/
  alarms : Nat := 0
  /-- The largest answer of the throttle. -/
  maxDelay : Int := minTick
deriving DecidableEq, Repr

namespace Throttle

/-- What became of one event: the instant at which it was dealt with, whether the throttle was
free of alarm, the throttle after it and the notices that it left. -/
structure Outcome where
  /-- The instant at which the event was taken in or left. -/
  instant : Int
  /-- Whether the throttle was free of alarm. -/
  calm : Bool
  /-- The throttle after the event. -/
  after : Throttle
  /-- What was to report. -/
  notices : List Notice

/-- The outcome of taking in the examined event. -/
def takenIn (t : Throttle) (instant : Int) : Outcome :=
  ⟨instant, t.commitVerdict, t.commit, t.commit.breaches⟩

/-- The outcome of leaving the examined event. -/
def leftOut (t : Throttle) (instant : Int) : Outcome :=
  ⟨instant, t.rollbackVerdict, t.rollback, []⟩

/-- Puts off the examined event by the delay that was answered, if that is a time to wait for. -/
def putOff (t : Throttle) (instant delay : Int) : Outcome :=
  if 0 < delay then
    let later := satAdd instant delay
    (t.rollback.examine later).takenIn later
  else t.leftOut instant

/-- Deals with one event at an instant. -/
def handle (t : Throttle) (early : EarlyPolicy) (instant : Int) : Outcome :=
  let delay := t.delayAt instant
  let examined := t.examine instant
  if delay = 0 then examined.takenIn instant
  else match early with
    | .rollback => examined.leftOut instant
    | .commit => examined.takenIn instant
    | .wait => examined.putOff instant delay

/-- How far the traffic through a throttle has come. -/
structure Progress where
  /-- The throttle after the events so far. -/
  throttle : Throttle
  /-- What became of the events so far. -/
  tally : Tally
  /-- What was reported so far. -/
  notices : Array Notice := #[]

/-- Sends the next event of the traffic. -/
def Progress.next (traffic : Traffic) (p : Progress) : Progress :=
  let tally := p.tally
  let delay := p.throttle.delayAt tally.now
  let outcome := p.throttle.handle traffic.early tally.now
  { throttle := outcome.after
    tally :=
      { now := satAdd outcome.instant traffic.step
        seen := tally.seen + 1
        admitted := if delay = 0 then tally.admitted.push (tally.seen + 1) else tally.admitted
        alarms := if outcome.calm then tally.alarms else tally.alarms + 1
        maxDelay := max tally.maxDelay delay }
    notices := p.notices ++ outcome.notices }

/-- Sends traffic through a throttle. -/
def drive (t : Throttle) (traffic : Traffic) : Progress :=
  Nat.repeat (Progress.next traffic) traffic.count ⟨t, { now := traffic.start }, #[]⟩

end Throttle

end AdmissionControl
