import AdmissionControl.Contract.Emission
import AdmissionControl.Pace

/-!
# Roundings

Increments are rounded up and clock readings are rounded down, and both roundings are to the
disadvantage of whoever asks for more than is promised. Here this is made exact. A rate times its
spacing is at least a second (`Resolution.frequency_le_rate_mul_spacing`), so that increments that
fit in some time stand for no more events than the rate allows in it. And two readings are at most
as far apart in ticks as their distance in nanoseconds is when it is rounded up
(`ticksAt_sub_ticksAt_le`).

Hints are rounded up too, which is to the advantage of whoever keeps to them. A delay has been
worked off when its hint has been waited out (`ticksAt_add_le_of_retryAfter`), and although three
roundings come together in this, they take no more than a tick of the waiting
(`ticksAt_lt_of_retryAfter`).
-/

namespace AdmissionControl

/-- The quotient of two integers rounded up, for a positive divisor. -/
def ceilDiv (a b : Int) : Int := -(-a / b)

/-- The rounded quotient is the smallest integer that times the divisor reaches the dividend. -/
theorem ceilDiv_le_iff {a b k : Int} (hb : 0 < b) : ceilDiv a b ≤ k ↔ a ≤ k * b := by
  have h : -k ≤ -a / b ↔ -k * b ≤ -a := Int.le_ediv_iff_mul_le hb
  rw [Int.neg_mul] at h
  unfold ceilDiv
  omega

theorem le_ceilDiv_mul (a : Int) {b : Int} (hb : 0 < b) : a ≤ ceilDiv a b * b :=
  (ceilDiv_le_iff hb).mp (Int.le_refl _)

theorem ceilDiv_mono {a a' b : Int} (hb : 0 < b) (h : a ≤ a') : ceilDiv a b ≤ ceilDiv a' b :=
  (ceilDiv_le_iff hb).mpr (Int.le_trans h (le_ceilDiv_mul a' hb))

theorem ceilDiv_nonneg {a b : Int} (hb : 0 < b) (ha : 0 ≤ a) : 0 ≤ ceilDiv a b := by
  have hzero : ceilDiv 0 b = 0 := by simp [ceilDiv]
  have hmono := ceilDiv_mono hb ha
  omega

/-- Quotients that are rounded down are as far apart as the dividends at the most, rounded up. -/
theorem ediv_sub_ediv_le (a a' : Int) {b : Int} (hb : 0 < b) :
    a' / b - a / b ≤ ceilDiv (a' - a) b := by
  have hbetween := le_ceilDiv_mul (a' - a) hb
  have hfirst : a < (a / b + 1) * b := (Int.ediv_lt_iff_lt_mul hb).mp (by omega)
  have hlast : a' / b < a / b + 1 + ceilDiv (a' - a) b := by
    rw [Int.ediv_lt_iff_lt_mul hb, Int.add_mul]
    omega
  omega

/-! ### Spacings -/

theorem clampSpan_of_isSpan {v : Int} (h : IsSpan v) : clampSpan v = v := by
  obtain ⟨hnonneg, hle⟩ := h
  unfold clampSpan
  omega

theorem clampSpan_le {v : Int} (h : 0 ≤ v) : clampSpan v ≤ v := by
  unfold clampSpan
  omega

namespace Resolution

/-- The spacing of a rate is a span. -/
theorem isSpan_spacing (r : Resolution) (rate : Int) : IsSpan (r.spacing rate) := by
  have hmax := maxTick_pos
  unfold spacing
  by_cases hrate : 0 < rate
  · rw [if_pos hrate]
    have hnonneg := ceilDiv_nonneg hrate (Int.le_of_lt r.frequency_pos)
    rw [scaleUp, Int.one_mul]
    exact isSpan_saturate hnonneg
  · rw [if_neg hrate]
    exact ⟨Int.le_of_lt hmax, Int.le_refl _⟩

/-- The spacing of a positive rate is never cut off: it is no more than a second. -/
theorem spacing_of_pos (r : Resolution) {rate : Int} (hrate : 0 < rate) :
    r.spacing rate = ceilDiv r.frequency rate := by
  have hfrequency := r.frequency_pos
  have hle := r.frequency_le
  have hmin := minTick_neg
  have hnonneg := ceilDiv_nonneg hrate (Int.le_of_lt hfrequency)
  have hsecond : ceilDiv r.frequency rate ≤ r.frequency := by
    rw [ceilDiv_le_iff hrate]
    calc r.frequency = r.frequency * 1 := (Int.mul_one _).symm
      _ ≤ r.frequency * rate := Int.mul_le_mul_of_nonneg_left hrate (Int.le_of_lt hfrequency)
  have hrange : InRange (ceilDiv r.frequency rate) := ⟨by omega, by omega⟩
  rw [spacing, if_pos hrate, scaleUp, Int.one_mul]
  exact saturate_of_inRange hrange

/-- As many spacings as there are events in a second take at least that second. -/
theorem frequency_le_rate_mul_spacing (r : Resolution) {rate : Int} (hrate : 0 < rate) :
    r.frequency ≤ rate * r.spacing rate := by
  rw [r.spacing_of_pos hrate, Int.mul_comm]
  exact le_ceilDiv_mul _ hrate

/-- Events at a slower rate are further apart. -/
theorem spacing_anti (r : Resolution) {slow fast : Int} (h : slow ≤ fast) :
    r.spacing fast ≤ r.spacing slow := by
  by_cases hslow : 0 < slow
  · have hfast : 0 < fast := by omega
    rw [r.spacing_of_pos hslow, r.spacing_of_pos hfast, ceilDiv_le_iff hfast]
    have hnonneg := ceilDiv_nonneg hslow (Int.le_of_lt r.frequency_pos)
    calc r.frequency ≤ ceilDiv r.frequency slow * slow := le_ceilDiv_mul _ hslow
      _ ≤ ceilDiv r.frequency slow * fast := Int.mul_le_mul_of_nonneg_left h hnonneg
  · have hendless : r.spacing slow = maxTick := if_neg hslow
    rw [hendless]
    exact (r.isSpan_spacing fast).2

end Resolution

/-! ### Readings -/

theorem ticksAt_mono {n m : Nat} (h : n ≤ m) (frequency : Int) :
    ticksAt n frequency ≤ ticksAt m frequency := by
  by_cases hfrequency : frequency ≤ 0
  · have hzero : ∀ k : Nat, ticksAt k frequency = 0 := fun _ => if_pos hfrequency
    exact Int.le_of_eq ((hzero n).trans (hzero m).symm)
  · rw [ticksAt, ticksAt, if_neg hfrequency, if_neg hfrequency]
    refine saturate_mono (Int.ediv_le_ediv (by decide) ?_)
    exact Int.mul_le_mul_of_nonneg_right (Int.ofNat_le.mpr h) (by omega)

theorem inRange_ticksAt (nanos : Nat) (frequency : Int) : InRange (ticksAt nanos frequency) := by
  unfold ticksAt
  by_cases hfrequency : frequency ≤ 0
  · rw [if_pos hfrequency]
    exact inRange_zero
  · rw [if_neg hfrequency]
    exact inRange_scaleDown _ _ _

/-- The instants of readings are spans. -/
theorem isSpan_ticksAt (nanos : Nat) (frequency : Int) : IsSpan (ticksAt nanos frequency) := by
  have hzero : ticksAt 0 frequency = 0 := by
    unfold ticksAt scaleDown
    split
    · rfl
    · rw [Int.natCast_zero, Int.zero_mul, Int.zero_ediv, saturate_zero]
  have hmono := ticksAt_mono (Nat.zero_le nanos) frequency
  rw [hzero] at hmono
  exact ⟨hmono, (inRange_ticksAt nanos frequency).2⟩

/-- The instant of a reading is no smaller a number in smaller ticks. -/
theorem ticksAt_le_of_frequency_le (nanos : Nat) {slow fast : Int} (h : slow ≤ fast) :
    ticksAt nanos slow ≤ ticksAt nanos fast := by
  by_cases hslow : slow ≤ 0
  · have hzero : ticksAt nanos slow = 0 := if_pos hslow
    rw [hzero]
    exact (isSpan_ticksAt nanos fast).1
  · have hfast : ¬ fast ≤ 0 := by omega
    rw [ticksAt, ticksAt, if_neg hslow, if_neg hfast]
    refine saturate_mono (Int.ediv_le_ediv (by decide) ?_)
    exact Int.mul_le_mul_of_nonneg_left h (Int.natCast_nonneg nanos)

/-- Nothing saturates downwards from zero on. -/
theorem saturate_of_nonneg {v : Int} (h : 0 ≤ v) : saturate v = min v maxTick := by
  have := minTick_neg
  have := maxTick_pos
  unfold saturate
  omega

/-- Saturating brings counts no further apart. -/
theorem saturate_sub_saturate_le {v w : Int} (h : v ≤ w) : saturate w - saturate v ≤ w - v := by
  have := minTick_le_maxTick
  unfold saturate
  omega

/-- Readings at some distance are at most that distance apart in ticks, rounded up. -/
theorem ticksAt_sub_ticksAt_le {n m width : Nat} (hnm : n ≤ m) (hwidth : m ≤ n + width)
    {frequency : Int} (hfrequency : 0 < frequency) :
    ticksAt m frequency - ticksAt n frequency ≤ ceilDiv (width * frequency) nanosPerSecond := by
  have hsecond : (0 : Int) < nanosPerSecond := by decide
  have hscaled : (n : Int) * frequency ≤ m * frequency :=
    Int.mul_le_mul_of_nonneg_right (Int.ofNat_le.mpr hnm) (Int.le_of_lt hfrequency)
  have hbetween : (m : Int) * frequency - n * frequency ≤ width * frequency := by
    rw [← Int.sub_mul]
    exact Int.mul_le_mul_of_nonneg_right (by omega) (Int.le_of_lt hfrequency)
  rw [ticksAt, ticksAt, if_neg (by omega), if_neg (by omega)]
  calc scaleDown m frequency nanosPerSecond - scaleDown n frequency nanosPerSecond
      ≤ m * frequency / nanosPerSecond - n * frequency / nanosPerSecond :=
        saturate_sub_saturate_le (Int.ediv_le_ediv hsecond hscaled)
    _ ≤ ceilDiv (m * frequency - n * frequency) nanosPerSecond := ediv_sub_ediv_le _ _ hsecond
    _ ≤ ceilDiv (width * frequency) nanosPerSecond := ceilDiv_mono hsecond hbetween

/-! ### Hints -/

section Hint

variable {delay frequency : Int} {hint : Duration} {n m : Nat}

/-- There is a hint for a positive delay only, and where time is measured. -/
theorem pos_of_retryAfter (h : retryAfter delay frequency = some hint) :
    0 < delay ∧ 0 < frequency := by
  obtain ⟨hpositive, -⟩ := Option.ite_none_left_eq_some.mp h
  omega

/-- A hint is the delay in nanoseconds, rounded up. -/
theorem nanos_of_retryAfter (h : retryAfter delay frequency = some hint)
    (hfits : ceilDiv (delay * nanosPerSecond) frequency ≤ maxTick) :
    (hint.nanos : Int) = ceilDiv (delay * nanosPerSecond) frequency := by
  obtain ⟨hdelay, hfrequency⟩ := pos_of_retryAfter h
  obtain ⟨-, hhint⟩ := Option.ite_none_left_eq_some.mp h
  have hnonneg : 0 ≤ ceilDiv (delay * nanosPerSecond) frequency :=
    ceilDiv_nonneg hfrequency (Int.mul_nonneg (Int.le_of_lt hdelay) (by decide))
  have hmin := minTick_neg
  have hrange : InRange (ceilDiv (delay * nanosPerSecond) frequency) := ⟨by omega, hfits⟩
  have hscaled : scaleUp delay nanosPerSecond frequency =
      ceilDiv (delay * nanosPerSecond) frequency :=
    saturate_of_inRange hrange
  cases hhint
  rw [hscaled]
  exact Int.toNat_of_nonneg hnonneg

/-- Who waits as long as the hint says has worked off the delay. -/
theorem ticksAt_add_le_of_retryAfter (h : retryAfter delay frequency = some hint)
    (hfits : ceilDiv (delay * nanosPerSecond) frequency ≤ maxTick)
    (hreading : m * frequency / nanosPerSecond ≤ maxTick) (hwait : n + hint.nanos ≤ m) :
    ticksAt n frequency + delay ≤ ticksAt m frequency := by
  obtain ⟨-, hfrequency⟩ := pos_of_retryAfter h
  have hhint := nanos_of_retryAfter h hfits
  have hsecond : (0 : Int) < nanosPerSecond := by decide
  have hticks : ∀ k : Nat, k ≤ m → ticksAt k frequency = k * frequency / nanosPerSecond := by
    intro k hk
    have hnonneg : 0 ≤ (k : Int) * frequency / nanosPerSecond :=
      Int.ediv_nonneg (Int.mul_nonneg (Int.natCast_nonneg k) (Int.le_of_lt hfrequency))
        (Int.le_of_lt hsecond)
    have hle : (k : Int) * frequency / nanosPerSecond ≤ m * frequency / nanosPerSecond :=
      Int.ediv_le_ediv hsecond
        (Int.mul_le_mul_of_nonneg_right (Int.ofNat_le.mpr hk) (Int.le_of_lt hfrequency))
    have hmin := minTick_neg
    rw [ticksAt, if_neg (by omega)]
    exact saturate_of_inRange ⟨by omega, by omega⟩
  have hworked : n * frequency + delay * nanosPerSecond ≤ m * frequency := by
    have hdistance : delay * nanosPerSecond ≤ hint.nanos * frequency := by
      rw [hhint]
      exact le_ceilDiv_mul _ hfrequency
    calc n * frequency + delay * nanosPerSecond
        ≤ n * frequency + hint.nanos * frequency := Int.add_le_add_left hdistance _
      _ = (n + hint.nanos) * frequency := (Int.add_mul _ _ _).symm
      _ ≤ m * frequency := Int.mul_le_mul_of_nonneg_right (by omega) (Int.le_of_lt hfrequency)
  rw [hticks n (by omega), hticks m (Nat.le_refl m)]
  calc n * frequency / nanosPerSecond + delay
      = (n * frequency + delay * nanosPerSecond) / nanosPerSecond :=
        (Int.add_mul_ediv_right _ _ (Int.ne_of_gt hsecond)).symm
    _ ≤ m * frequency / nanosPerSecond := Int.ediv_le_ediv hsecond hworked

/-- Who comes back more than a tick before the hint says has not worked off the delay yet. -/
theorem ticksAt_lt_of_retryAfter (h : retryAfter delay frequency = some hint)
    (hfits : ceilDiv (delay * nanosPerSecond) frequency ≤ maxTick) (hnm : n ≤ m)
    (hearly : m + ceilDiv nanosPerSecond frequency + 1 ≤ n + hint.nanos) :
    ticksAt m frequency < ticksAt n frequency + delay := by
  obtain ⟨-, hfrequency⟩ := pos_of_retryAfter h
  have hhint := nanos_of_retryAfter h hfits
  have hsecond : (0 : Int) < nanosPerSecond := by decide
  have hwidth : m ≤ n + (m - n) := by omega
  have hdistance := ticksAt_sub_ticksAt_le hnm hwidth hfrequency
  have htick := le_ceilDiv_mul nanosPerSecond hfrequency
  -- the hint is less than a nanosecond longer than the delay
  have hshort : (hint.nanos - 1) * frequency < delay * nanosPerSecond := by
    rw [← Int.not_le, ← ceilDiv_le_iff hfrequency]
    omega
  have hless : ((m - n : Nat) : Int) * frequency ≤ (delay - 1) * nanosPerSecond := by
    have hwait : ((m - n : Nat) : Int) ≤ hint.nanos - 1 - ceilDiv nanosPerSecond frequency := by
      omega
    have hscaled := Int.mul_le_mul_of_nonneg_right hwait (Int.le_of_lt hfrequency)
    rw [Int.sub_mul] at hscaled
    rw [Int.sub_mul, Int.one_mul]
    omega
  have hticks := (ceilDiv_le_iff hsecond).mpr hless
  omega

end Hint

/-! ### Emissions -/

namespace Emission

theorem ofPeak_limit_nonneg (r : Resolution) (peakRate jitter : Int) :
    0 ≤ (ofPeak r peakRate jitter).limit :=
  Int.le_max_right _ _

/-- The slower of the two rates sets the increment of a sustained rate, whatever the burst. -/
theorem ofSustained_increment (r : Resolution) (peakRate : Int) (peak : Emission) (s : Sustained) :
    (ofSustained r peakRate peak s).increment = r.spacing (min s.rate peakRate) := by
  unfold ofSustained
  split <;> rfl

/-- So it is no shorter than that of the peak rate. -/
theorem increment_le_ofSustained (r : Resolution) (peakRate : Int) (peak : Emission)
    (s : Sustained) : r.spacing peakRate ≤ (ofSustained r peakRate peak s).increment := by
  rw [ofSustained_increment]
  exact r.spacing_anti (Int.min_le_right _ _)

/-- A burst widens the limit by the slack of all its events but the first. Since the increments are
in order, the three saturating steps by which this is worked out come to a single one. -/
theorem ofSustained_limit (r : Resolution) (peakRate jitter : Int) (s : Sustained) :
    let peak := ofPeak r peakRate jitter
    let sustained := ofSustained r peakRate peak s
    sustained.limit =
      if 1 < s.maxBurst ∧ 0 < s.rate ∧ s.rate < peakRate then
        min maxTick (peak.limit + (s.maxBurst - 1) * (sustained.increment - peak.increment))
      else peak.limit := by
  intro peak sustained
  by_cases hburst : 1 < s.maxBurst ∧ 0 < s.rate ∧ s.rate < peakRate
  · have hpeak : 0 ≤ peak.limit := ofPeak_limit_nonneg r peakRate jitter
    have hfast : 0 ≤ peak.increment := (r.isSpan_spacing peakRate).1
    have hslow : sustained.increment ≤ maxTick := by
      rw [ofSustained_increment]
      exact (r.isSpan_spacing _).2
    have hslack : peak.increment ≤ sustained.increment := increment_le_ofSustained r peakRate peak s
    have hlimit : sustained.limit =
        satAdd (satMul (s.maxBurst - 1) (satSub sustained.increment peak.increment))
          peak.limit := by
      rw [ofSustained_increment]
      change (ofSustained r peakRate peak s).limit = _
      rw [ofSustained, if_pos hburst]
    have hdifference : satSub sustained.increment peak.increment =
        sustained.increment - peak.increment := by
      have hmin := minTick_neg
      exact saturate_of_inRange ⟨by omega, by omega⟩
    have hproduct : 0 ≤ (s.maxBurst - 1) * (sustained.increment - peak.increment) :=
      Int.mul_nonneg (by omega) (by omega)
    have hmax := maxTick_pos
    rw [if_pos hburst, hlimit, hdifference, satMul, saturate_of_nonneg hproduct, satAdd,
      saturate_of_nonneg (by omega)]
    omega
  · rw [if_neg hburst]
    change (ofSustained r peakRate peak s).limit = _
    rw [ofSustained, if_neg hburst]

/-- The limit of a sustained rate is not negative. -/
theorem ofSustained_limit_nonneg (r : Resolution) (peakRate jitter : Int) (s : Sustained) :
    0 ≤ (ofSustained r peakRate (ofPeak r peakRate jitter) s).limit := by
  have hpeak := ofPeak_limit_nonneg r peakRate jitter
  have hslack := increment_le_ofSustained r peakRate (ofPeak r peakRate jitter) s
  rw [ofSustained_limit]
  split
  · next hburst =>
    have hproduct := Int.mul_nonneg (show 0 ≤ s.maxBurst - 1 by omega)
      (Int.sub_nonneg_of_le hslack)
    have hmax := maxTick_pos
    exact Int.le_min.mpr ⟨Int.le_of_lt hmax, Int.add_nonneg hpeak hproduct⟩
  · exact hpeak

end Emission

/-- The slower of its two rates sets the sustained increment of a contract, whatever the burst. -/
theorem Contract.sustained_emission {r : Resolution} (c : Contract) {s : Sustained} {em : Emission}
    (hs : c.sustained = some s) (hem : (c.emissions r).sustained = some em) :
    em.increment = r.spacing (min s.rate c.peakRate) ∧ 0 ≤ em.limit := by
  obtain ⟨peakRate, jitter, sustained⟩ := c
  dsimp only at hs
  subst hs
  obtain rfl : Emission.ofSustained r peakRate (.ofPeak r peakRate jitter) s = em :=
    Option.some.inj hem
  exact ⟨Emission.ofSustained_increment r peakRate _ s,
    Emission.ofSustained_limit_nonneg r peakRate jitter s⟩

end AdmissionControl
