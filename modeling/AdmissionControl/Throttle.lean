import AdmissionControl.Geometric
import AdmissionControl.Shaper

/-!
# Throttles

A `Throttle` decides which of a stream of events may happen now. It is an engine, a shaper, a
geometric backoff, one that admits everything, or a combination: one that may be absent, or a
compound of a peak and a sustained throttle, which are enforced together.

Every throttle is used in two phases. `examine` turns to an event at an instant and `delayAt` is
the answer: zero for an event that conforms, a positive number of ticks for one that is early, a
negative number for one that is rejected with no hint when to come again. The event is then taken
in by `commit`, or by `commitUnits` if it stands for many units, or left by `rollback`.
`commitVerdict` and `rollbackVerdict` are what the caller is told at that point: whether the
throttle is free of alarm afterwards. In a compound all of this happens in both halves, whatever
the other half makes of it.
-/

namespace AdmissionControl

/-- What the commit of an event may be charged for. -/
inductive Charging
  /-- Every event counts as one. -/
  | perEvent
  /-- An event may stand for many units, such as the bytes of a packet. -/
  | perUnit
deriving DecidableEq, Repr

/-- Whether events that stand for many units are allowed for. -/
def Charging.isPerUnit : Charging → Bool
  | .perEvent => false
  | .perUnit => true

/-- What decides which events may happen. -/
inductive Throttle
  /-- A single engine. -/
  | engine (charging : Charging) (engine : Engine)
  /-- The engines of a traffic contract. -/
  | shaper (charging : Charging) (shaper : Shaper)
  /-- A backoff that counts events. -/
  | geometric (backoff : Geometric)
  /-- A throttle that admits everything. -/
  | null (charging : Charging)
  /-- A throttle that is left out. -/
  | absent
  /-- A throttle that might have been left out. -/
  | present (inner : Throttle)
  /-- Two throttles that are enforced together. -/
  | compound (peak sustained : Throttle)
deriving DecidableEq, Repr

namespace Throttle

/-- A throttle enforced together with one that admits everything. -/
def peakOnly (peak : Throttle) : Throttle := compound peak (null .perEvent)

/-! ### Resetting and examining -/

/-- The throttle as it was when new, opened at an instant. -/
@[simp] def resetAt (instant : Int) : Throttle → Throttle
  | engine charging e => engine charging (e.resetAt instant)
  | shaper charging s => shaper charging (s.resetAt instant)
  | geometric _ => geometric .fresh
  | null charging => null charging
  | absent => absent
  | present t => present (t.resetAt instant)
  | compound p s => compound (p.resetAt instant) (s.resetAt instant)

/-- The answer to an event at an instant: zero if it conforms, the ticks by which it is early, or
a negative number if it is rejected without a hint. Of two halves the larger answer counts. -/
@[simp] def delayAt (instant : Int) : Throttle → Int
  | engine _ e => e.delayAt instant
  | shaper _ s => s.delayAt instant
  | geometric g => g.delay
  | null _ | absent => 0
  | present t => t.delayAt instant
  | compound p s => max (p.delayAt instant) (s.delayAt instant)

/-- The throttle that examines an event at an instant. -/
@[simp] def examine (instant : Int) : Throttle → Throttle
  | engine charging e => engine charging (e.examine instant)
  | shaper charging s => shaper charging (s.examine instant)
  | geometric g => geometric g.examine
  | null charging => null charging
  | absent => absent
  | present t => present (t.examine instant)
  | compound p s => compound (p.examine instant) (s.examine instant)

/-! ### Taking an event in, or leaving it -/

/-- The throttle that takes in the examined event as one of `units` units. A backoff counts it
once. -/
@[simp] def commitUnits (units : Nat) : Throttle → Throttle
  | engine charging e => engine charging (e.commitUnits units)
  | shaper charging s => shaper charging (s.commitUnits units)
  | geometric g => geometric g.commit
  | null charging => null charging
  | absent => absent
  | present t => present (t.commitUnits units)
  | compound p s => compound (p.commitUnits units) (s.commitUnits units)

/-- The throttle that takes in the examined event. -/
def commit (t : Throttle) : Throttle := t.commitUnits 1

/-- The throttle that leaves the examined event. -/
@[simp] def rollback : Throttle → Throttle
  | engine charging e => engine charging e.rollback
  | shaper charging s => shaper charging s.rollback
  | geometric g => geometric g.rollback
  | null charging => null charging
  | absent => absent
  | present t => present t.rollback
  | compound p s => compound p.rollback s.rollback

/-- What is answered to a commit: whether the examined event kept to the rules. -/
@[simp] def commitVerdict : Throttle → Bool
  | engine _ e => e.commitVerdict
  | shaper _ s => s.commitVerdict
  | geometric g => g.commitVerdict
  | null _ | absent => true
  | present t => t.commitVerdict
  | compound p s => p.commitVerdict && s.commitVerdict

/-- What is answered to a rollback: whether the event taken in last kept to the rules. -/
@[simp] def rollbackVerdict : Throttle → Bool
  | engine _ e => e.rollbackVerdict
  | shaper _ s => s.rollbackVerdict
  | geometric g => g.rollbackVerdict
  | null _ | absent => true
  | present t => t.rollbackVerdict
  | compound p s => p.rollbackVerdict && s.rollbackVerdict

/-! ### Observers -/

/-- Whether the last event that was taken in broke the rules. -/
@[simp] def isAlarmed : Throttle → Bool
  | engine _ e => e.isAlarmed
  | shaper _ s => s.isAlarmed
  | geometric g => g.isAlarmed
  | null _ | absent => false
  | present t => t.isAlarmed
  | compound p s => p.isAlarmed || s.isAlarmed

/-- Whether the state makes sense in every part. -/
@[simp] def isValid : Throttle → Bool
  | engine _ e => e.isValid
  | shaper _ s => s.isValid
  | geometric g => g.isValid
  | null _ | absent => true
  | present t => t.isValid
  | compound p s => p.isValid && s.isValid

/-- Ticks per second, or a number that is not positive if no time is measured. A compound counts
in the ticks of its peak half. -/
@[simp] def frequency : Throttle → Int
  | engine _ e => e.frequency
  | shaper _ s => s.frequency
  | geometric _ => -1
  | null _ | absent => 0
  | present t => t.frequency
  | compound p _ => p.frequency

/-- Whether an event may be committed as one of many units. -/
def isWeighted : Throttle → Bool
  | engine charging _ | shaper charging _ | null charging => charging.isPerUnit
  | geometric _ => false
  | absent => true
  | present t => t.isWeighted
  | compound p s => p.isWeighted && s.isWeighted

/-- The notices of the event just taken in, one for each engine that it was early for. -/
@[simp] def breaches : Throttle → List Notice
  | engine _ e => e.breaches
  | shaper _ s => s.breaches
  | geometric _ | null _ | absent => []
  | present t => t.breaches
  | compound p s => p.breaches ++ s.breaches

end Throttle

end AdmissionControl
