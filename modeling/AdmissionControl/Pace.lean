import AdmissionControl.Resolution

/-!
# Paces

A `Pace` is what is fixed about an engine when it is built: the resolution of its ticks, the
increment from one event to the next and the limit on how far ahead of that an event may come.
Increment and limit are spans, that is tick counts that are not negative (`IsSpan`), which
`Pace.clamped` sees to.
-/

namespace AdmissionControl

/-- A count is a tick count that is not negative. -/
def IsSpan (v : Int) : Prop := 0 ≤ v ∧ v ≤ maxTick

/-- The span nearest to an integer. -/
def clampSpan (v : Int) : Int := max 0 (min v maxTick)

/-- Zero is a span. -/
@[simp] theorem isSpan_zero : IsSpan 0 := ⟨Int.le_refl 0, Int.le_of_lt maxTick_pos⟩

/-- A count that is not negative is cut off to a span. -/
theorem isSpan_saturate {v : Int} (h : 0 ≤ v) : IsSpan (saturate v) :=
  ⟨saturate_nonneg h, (inRange_saturate v).2⟩

/-- A clamped count is a span. -/
@[simp] theorem isSpan_clampSpan (v : Int) : IsSpan (clampSpan v) := by
  have := maxTick_pos
  unfold IsSpan clampSpan
  omega

/-- Clamping a tick count only raises it to zero. -/
theorem clampSpan_eq_max {v : Int} (h : v ≤ maxTick) : clampSpan v = max v 0 := by
  unfold clampSpan
  omega

/-- The fixed part of an engine. -/
structure Pace where
  /-- What the ticks are. -/
  resolution : Resolution
  /-- The span from one event to the next. -/
  increment : Int
  /-- How far ahead of that an event may come. -/
  limit : Int
  isSpan_increment : IsSpan increment
  isSpan_limit : IsSpan limit
deriving DecidableEq, Repr

namespace Pace

/-- The pace with the given increment and limit, each moved to the nearest span. -/
def clamped (resolution : Resolution) (increment limit : Int) : Pace :=
  ⟨resolution, clampSpan increment, clampSpan limit, isSpan_clampSpan _, isSpan_clampSpan _⟩

/-- The largest number of units whose increments together are still a tick count. -/
def unitsMax (p : Pace) : Int :=
  if 0 < p.increment then maxTick / p.increment else maxTick

/-- Increments are not negative. -/
theorem increment_nonneg (p : Pace) : 0 ≤ p.increment := p.isSpan_increment.1

/-- Increments are tick counts. -/
theorem increment_le (p : Pace) : p.increment ≤ maxTick := p.isSpan_increment.2

/-- Limits are not negative. -/
theorem limit_nonneg (p : Pace) : 0 ≤ p.limit := p.isSpan_limit.1

/-- Limits are tick counts. -/
theorem limit_le (p : Pace) : p.limit ≤ maxTick := p.isSpan_limit.2

/-- The increments of as many units as `unitsMax` allows are a tick count. -/
theorem mul_increment_le {p : Pace} {k : Int} (h : k ≤ p.unitsMax) :
    k * p.increment ≤ maxTick := by
  have hp := p.increment_nonneg
  unfold unitsMax at h
  split at h
  · next hpos =>
    calc k * p.increment ≤ maxTick / p.increment * p.increment :=
          Int.mul_le_mul_of_nonneg_right h hp
      _ ≤ maxTick := Int.ediv_mul_le _ (by omega)
  · next hpos =>
    have h0 : p.increment = 0 := by omega
    have := maxTick_pos
    rw [h0, Int.mul_zero]
    omega

/-- At least one unit can be charged. -/
theorem one_le_unitsMax (p : Pace) : 1 ≤ p.unitsMax := by
  unfold unitsMax
  split
  · next hpos => exact (Int.le_ediv_iff_mul_le hpos).2 (by have := p.increment_le; omega)
  · decide

end Pace

end AdmissionControl
