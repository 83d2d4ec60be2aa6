import AdmissionControl.Throttle.Clocked

/-!
# Blueprints

A `Blueprint` says what throttle to build. Building reads the clock once for each engine that is
to open at the present, and reports the emissions of each contract. The halves of a compound are
built peak first; the engines of a shaper are built sustained first.
-/

namespace AdmissionControl

/-- When a new engine opens. -/
inductive Opening
  /-- At the instant that the clock gives. -/
  | onClock
  /-- At a given instant, without a look at the clock. -/
  | atInstant (instant : Int)
deriving DecidableEq, Repr

/-- A throttle that is still to be built. -/
inductive Blueprint
  | engine (charging : Charging) (opening : Opening) (pace : Pace)
  | shaper (charging : Charging) (opening : Opening) (contract : Contract)
  | geometric
  | null (charging : Charging)
  | absent
  | present (inner : Blueprint)
  | compound (peak sustained : Blueprint)
deriving DecidableEq, Repr

/-- The resolution of a shaper: events are spaced in microseconds, units in nanoseconds. -/
def Charging.resolution : Charging → Resolution
  | .perEvent => .microseconds
  | .perUnit => .nanoseconds

namespace Blueprint

variable {σ : Type} [Clock σ]

/-- The shaper for a contract, built on the clock or opened at an instant. -/
def buildShaper (r : Resolution) (c : Contract) : Opening → Timed σ Shaper
  | .onClock => Shaper.build r c
  | .atInstant instant => do
    Timed.reportAll (c.notices r)
    return .opened r c instant

/-- The engine of a pace, built on the clock or opened at an instant. -/
def buildEngine (pace : Pace) : Opening → Timed σ Engine
  | .onClock => Engine.build pace
  | .atInstant instant => pure (.opened pace instant)

/-- Builds a throttle. -/
def build : Blueprint → Timed σ Throttle
  | engine charging opening pace => return .engine charging (← buildEngine pace opening)
  | shaper charging opening c =>
    return .shaper charging (← buildShaper charging.resolution c opening)
  | geometric => pure (.geometric .fresh)
  | null charging => pure (.null charging)
  | absent => pure .absent
  | present t => return .present (← t.build)
  | compound p s => do
    let peak ← p.build
    let sustained ← s.build
    return .compound peak sustained

/-- Whether the throttle of a blueprint may be charged for many units at once. -/
def isWeighted : Blueprint → Bool
  | engine charging _ _ | shaper charging _ _ | null charging => charging.isPerUnit
  | geometric => false
  | absent => true
  | present t => t.isWeighted
  | compound p s => p.isWeighted && s.isWeighted

end Blueprint

end AdmissionControl
