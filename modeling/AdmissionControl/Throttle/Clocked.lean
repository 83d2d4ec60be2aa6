import AdmissionControl.Throttle

/-!
# Throttles on the clock

The uses of a throttle that read the clock. A compound tells the time by its peak half alone, so
that both halves examine an event at the same instant; it is reset half by half, and there each
engine reads the clock for itself.
-/

namespace AdmissionControl

namespace Throttle

variable {σ : Type} [Clock σ]

/-- The instant that the clock gives in the ticks of a throttle, or zero if it measures no
time. -/
def time : Throttle → Timed σ Int
  | engine _ e => e.time
  | shaper _ s => s.time
  | geometric _ | null _ | absent => pure 0
  | present t => t.time
  | compound p _ => p.time

/-- The throttle as it was when new, opened at the instant that the clock gives. -/
def reset : Throttle → Timed σ Throttle
  | engine charging e => return engine charging (← e.reset)
  | shaper charging s => return shaper charging (← s.reset)
  | geometric _ => pure (geometric .fresh)
  | null charging => pure (null charging)
  | absent => pure absent
  | present t => return present (← t.reset)
  | compound p s => do
    let p' ← p.reset
    let s' ← s.reset
    return compound p' s'

/-- Examines an event at the instant that the clock gives. -/
def examineNow (t : Throttle) : Timed σ (Int × Throttle) := do
  let instant ← t.time
  return (t.delayAt instant, t.examine instant)

end Throttle

end AdmissionControl
