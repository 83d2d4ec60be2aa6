/-!
# Ticks

All time in this library is counted in ticks, as an integer: an instant, counted from an
arbitrary origin, or the length of a span. Counts are kept between `minTick` and `maxTick`, the
range of a signed 64-bit word; a result outside it is moved to the nearer end by `saturate`.

`satAdd`, `satSub` and `satMul` are the exact operations followed by `saturate`. The lemmas say
that a saturated result is always in range (`inRange_saturate`), and that it is the exact result
whenever that one is in range (`saturate_of_inRange`).
-/

namespace AdmissionControl

/-- The smallest tick count. -/
def minTick : Int := -9223372036854775808

/-- The largest tick count, which also stands for a span without end. -/
def maxTick : Int := 9223372036854775807

/-- A count lies in the range of tick counts. -/
def InRange (v : Int) : Prop := minTick ≤ v ∧ v ≤ maxTick

instance (v : Int) : Decidable (InRange v) := inferInstanceAs (Decidable (_ ∧ _))

/-- The tick count nearest to an integer. -/
def saturate (v : Int) : Int := max minTick (min v maxTick)

/-- The sum, moved into range. -/
def satAdd (a b : Int) : Int := saturate (a + b)

/-- The difference, moved into range. -/
def satSub (a b : Int) : Int := saturate (a - b)

/-- The product, moved into range. -/
def satMul (a b : Int) : Int := saturate (a * b)

/-- The range of ticks is not empty. -/
theorem minTick_le_maxTick : minTick ≤ maxTick := by decide

/-- The smallest tick is before zero. -/
theorem minTick_neg : minTick < 0 := by decide

/-- The largest tick is after zero. -/
theorem maxTick_pos : 0 < maxTick := by decide

/-- The range of ticks reaches one further down than up. -/
theorem minTick_eq : minTick = -maxTick - 1 := by decide

/-- Zero is a tick count. -/
@[simp] theorem inRange_zero : InRange 0 := by decide

/-- A saturated count is in range. -/
@[simp] theorem inRange_saturate (v : Int) : InRange (saturate v) := by
  have := minTick_le_maxTick
  unfold InRange saturate
  omega

/-- Saturating leaves a count that is in range as it is. -/
theorem saturate_of_inRange {v : Int} (h : InRange v) : saturate v = v := by
  obtain ⟨hl, hu⟩ := h
  unfold saturate
  omega

/-- A count above the range saturates to the largest tick. -/
theorem saturate_of_ge {v : Int} (h : maxTick ≤ v) : saturate v = maxTick := by
  have := minTick_le_maxTick
  unfold saturate
  omega

/-- Saturating leaves zero as it is. -/
@[simp] theorem saturate_zero : saturate 0 = 0 := saturate_of_inRange inRange_zero

/-- Saturating keeps the order of counts. -/
theorem saturate_mono {v w : Int} (h : v ≤ w) : saturate v ≤ saturate w := by
  unfold saturate
  omega

/-- A count that is not negative does not become so. -/
theorem saturate_nonneg {v : Int} (h : 0 ≤ v) : 0 ≤ saturate v := by
  have hmono := saturate_mono h
  rwa [saturate_zero] at hmono

/-- A count that is not positive does not become so. -/
theorem saturate_nonpos {v : Int} (h : v ≤ 0) : saturate v ≤ 0 := by
  have hmono := saturate_mono h
  rwa [saturate_zero] at hmono

end AdmissionControl
