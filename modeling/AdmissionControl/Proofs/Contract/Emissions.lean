import Mathlib.Order.Bounds.Defs
import AdmissionControl.Proofs.Resolution.Rounding

/-!
# What a contract is translated into

The emissions of a contract are worked out in a row of steps that each round or saturate. Here it is
said what they come to in unbounded integers. An increment is the least number of ticks by which the
rate is kept to (`Resolution.IsSpacing`), with no saturation at all, since it is never longer than a
second. The slower of two rates has the longer increment, so the slack of a burst is not negative
and what saturates is only ever the limit of the sustained rate, once and at the largest tick
(`Contract.emissions_exact`).
-/

namespace AdmissionControl

namespace Resolution

/-- A number of ticks is the spacing of a rate: the least one at which no more events than the rate
come in a second, or one without end if the rate is not positive. -/
structure IsSpacing (r : Resolution) (rate ticks : Int) : Prop where
  isLeast : 0 < rate → IsLeast {i : Int | r.frequency ≤ i * rate} ticks
  endless : rate ≤ 0 → ticks = maxTick

variable (r : Resolution) (rate : Int)

/-- Spacings are rounded up and never saturate. -/
theorem isSpacing_spacing : r.IsSpacing rate (r.spacing rate) := by
  constructor
  · intro hrate
    rw [r.spacing_of_pos hrate]
    constructor
    · exact le_ceilDiv_mul r.frequency hrate
    · intro i hi
      exact (ceilDiv_le_iff hrate).mpr hi
  · intro hrate
    exact if_neg (Int.not_lt.mpr hrate)

/-- However high a rate is, its events are at least a tick apart. -/
theorem one_le_spacing : 1 ≤ r.spacing rate := by
  have hfrequency := r.frequency_pos
  by_cases hrate : 0 < rate
  · have hsecond : 0 < r.spacing rate * rate := by
      rw [Int.mul_comm]
      exact Int.lt_of_lt_of_le hfrequency (r.frequency_le_rate_mul_spacing hrate)
    exact Int.pos_of_mul_pos_left hsecond hrate
  · rw [spacing, if_neg hrate]
    decide

end Resolution

namespace Contract

/-- The emission of the sustained half of a contract beside that of its peak rate. -/
structure IsSustainedEmission (r : Resolution) (peakRate : Int) (peak : Emission) (s : Sustained)
    (sustained : Emission) : Prop where
  isSpacing : r.IsSpacing (min s.rate peakRate) sustained.increment
  limit_eq : sustained.limit =
    if 1 < s.maxBurst ∧ 0 < s.rate ∧ s.rate < peakRate then
      min maxTick (peak.limit + (s.maxBurst - 1) * (sustained.increment - peak.increment))
    else peak.limit
  increment_le : peak.increment ≤ sustained.increment
  limit_le : peak.limit ≤ sustained.limit

/-- A burst only ever widens the limit, as long as the tolerance itself is a tick count. -/
theorem isSustainedEmission (r : Resolution) (peakRate : Int) {jitter : Int}
    (hjitter : jitter ≤ maxTick) (s : Sustained) :
    let peak := Emission.ofPeak r peakRate jitter
    IsSustainedEmission r peakRate peak s (.ofSustained r peakRate peak s) := by
  intro peak
  have hincrement := Emission.increment_le_ofSustained r peakRate peak s
  have hlimit := Emission.ofSustained_limit r peakRate jitter s
  refine ⟨?_, hlimit, hincrement, ?_⟩
  · rw [Emission.ofSustained_increment]
    exact r.isSpacing_spacing _
  · rw [hlimit]
    split
    · next hburst =>
      have hfits : peak.limit ≤ maxTick := Int.max_le.mpr ⟨hjitter, Int.le_of_lt maxTick_pos⟩
      have hslack : 0 ≤ (s.maxBurst - 1) *
          ((Emission.ofSustained r peakRate peak s).increment - peak.increment) :=
        Int.mul_nonneg (by omega) (Int.sub_nonneg_of_le hincrement)
      exact Int.le_min.mpr ⟨hfits, Int.le_add_of_nonneg_right hslack⟩
    · exact Int.le_refl _

/-- **The emissions of a contract are exact, in order, and saturate once.** The peak increment is
the spacing of the peak rate, and the peak limit is the tolerance or zero. There is a sustained
emission just for a sustained half. Its increment is the spacing of the slower rate. Its limit is
that of the peak rate, widened for a burst by the slack of all events of the burst but the first, up
to the largest tick. Whatever the terms of the contract are, increments are at least a tick, limits
are not negative, and neither is smaller for the sustained rate than for the peak rate. -/
theorem emissions_exact (r : Resolution) (c : Contract) (hjitter : c.jitter ≤ maxTick) :
    let e := c.emissions r
    (r.IsSpacing c.peakRate e.peak.increment ∧ e.peak.limit = max c.jitter 0) ∧
      (1 ≤ e.peak.increment ∧ 0 ≤ e.peak.limit) ∧
      Option.Rel (IsSustainedEmission r c.peakRate e.peak) c.sustained e.sustained := by
  intro e
  refine ⟨⟨r.isSpacing_spacing c.peakRate, rfl⟩,
    ⟨r.one_le_spacing c.peakRate, Emission.ofPeak_limit_nonneg r c.peakRate c.jitter⟩, ?_⟩
  obtain ⟨peakRate, jitter, sustained⟩ := c
  cases sustained with
  | none => exact .none
  | some s => exact .some (isSustainedEmission r peakRate hjitter s)

/-- The limit of this contract saturates in the product already, and is the largest tick. -/
theorem emissions_exact_of_endless_burst :
    let c := variableRate 3 (maxTick - 1) 1 maxTick
    let e := c.emissions .microseconds
    c.jitter ≤ maxTick ∧ e.peak.limit = max (maxTick - 1) 0 ∧
      IsLeast {i : Int | 1000000 ≤ i * 3} e.peak.increment ∧ e.peak.increment = 333334 ∧
      ∃ sustained, e.sustained = some sustained ∧
        IsLeast {i : Int | 1000000 ≤ i * 1} sustained.increment ∧
        sustained.limit =
          min maxTick (maxTick - 1 + (maxTick - 1) * (sustained.increment - 333334)) ∧
        sustained.limit = maxTick := by
  intro c e
  have hjitter : c.jitter ≤ maxTick := by decide
  obtain ⟨⟨hpeak, hlimit⟩, -, hrel⟩ := emissions_exact .microseconds c hjitter
  have hsome : e.sustained = some ⟨1000000, maxTick⟩ := by decide
  rw [hsome] at hrel
  cases hrel with
  | some hsustained =>
    exact ⟨hjitter, hlimit, hpeak.isLeast (by decide), by decide, _, hsome,
      hsustained.isSpacing.isLeast (by decide), hsustained.limit_eq, rfl⟩

end Contract

end AdmissionControl
