import AdmissionControl.Proofs.Resolution.Rounding

/-!
# Round trips

A span is turned into ticks and back again, or out of ticks and in again. Each way its count is
rounded up, so that what comes back is no less than what was sent. It is more by a single one of the
other units at the most, and it is the same if a whole number of these makes one of its own
(`round_trips_never_under_report`).

The exact quotients are treated first (`le_ceilDiv_ceilDiv`, `ceilDiv_ceilDiv_le`,
`ceilDiv_ceilDiv_of_dvd`), for counts of either sign. Then `scaleUp_scaleUp` puts the range of ticks
around them. It asks that the way out is not cut off, since what is lost there never comes back. On
the way back no such condition is needed: it can only be cut off at the largest tick, and the span
that was sent is no more than that.
-/

namespace AdmissionControl

/-! ### Exact quotients -/

/-- The rounded quotient times the divisor is off by less than the divisor. -/
theorem ceilDiv_mul_lt (a : Int) {b : Int} (hb : 0 < b) : ceilDiv a b * b < a + b := by
  have hless : ¬ ceilDiv a b ≤ ceilDiv a b - 1 := by omega
  rw [ceilDiv_le_iff hb, Int.sub_mul] at hless
  omega

/-- There is nothing to round in a multiple. -/
theorem ceilDiv_mul_self (a : Int) {b : Int} (hb : 0 < b) : ceilDiv (a * b) b = a := by
  rw [ceilDiv, ← Int.neg_mul, Int.mul_ediv_cancel _ (Int.ne_of_gt hb), Int.neg_neg]

section Scaled

variable {n d : Int} (v : Int)

/-- What is scaled by `n / d` and then by `d / n` has not become less. -/
theorem le_ceilDiv_ceilDiv (hn : 0 < n) (hd : 0 < d) :
    v ≤ ceilDiv (ceilDiv (v * n) d * d) n := by
  have hscaled : v * n ≤ ceilDiv (ceilDiv (v * n) d * d) n * n :=
    calc v * n ≤ ceilDiv (v * n) d * d := le_ceilDiv_mul _ hd
      _ ≤ ceilDiv (ceilDiv (v * n) d * d) n * n := le_ceilDiv_mul _ hn
  exact Int.le_of_mul_le_mul_right hscaled hn

/-- Nor has more been added to it than a single `d / n`, rounded up. -/
theorem ceilDiv_ceilDiv_le (hn : 0 < n) (hd : 0 < d) :
    ceilDiv (ceilDiv (v * n) d * d) n ≤ v + ceilDiv d n := by
  have hfirst := ceilDiv_mul_lt (v * n) hd
  have hsecond := le_ceilDiv_mul d hn
  rw [ceilDiv_le_iff hn, Int.add_mul]
  omega

/-- It is the same again if `n / d` is a whole number. -/
theorem ceilDiv_ceilDiv_of_dvd (hn : 0 < n) (hd : 0 < d) (hdvd : d ∣ n) :
    ceilDiv (ceilDiv (v * n) d * d) n = v := by
  obtain ⟨k, rfl⟩ := hdvd
  have hwhole : v * (d * k) = v * k * d := by rw [Int.mul_comm d k, Int.mul_assoc]
  rw [hwhole, ceilDiv_mul_self _ hd, ← hwhole]
  exact ceilDiv_mul_self v hn

end Scaled

/-! ### In the range of ticks -/

/-- From the smallest tick on, saturating can only take away. -/
theorem saturate_le_self {v : Int} (h : minTick ≤ v) : saturate v ≤ v := by
  unfold saturate
  omega

/-- But it takes nothing away that is needed to reach a tick count. -/
theorem le_saturate {v w : Int} (h : w ≤ v) (hw : InRange w) : w ≤ saturate v := by
  have hmono := saturate_mono h
  rwa [saturate_of_inRange hw] at hmono

/-- **A round trip through another unit**, of a count that is not cut off on its way out. -/
theorem scaleUp_scaleUp {v n d : Int} (hn : 0 < n) (hd : 0 < d) (hv : InRange v)
    (hfits : InRange (ceilDiv (v * n) d)) :
    v ≤ scaleUp (scaleUp v n d) d n ∧
      scaleUp (scaleUp v n d) d n ≤ v + ceilDiv d n ∧
      (d ∣ n → scaleUp (scaleUp v n d) d n = v) := by
  have hout : scaleUp v n d = ceilDiv (v * n) d := saturate_of_inRange hfits
  have hback : scaleUp (scaleUp v n d) d n = saturate (ceilDiv (ceilDiv (v * n) d * d) n) := by
    rw [hout]
    rfl
  have hle := le_ceilDiv_ceilDiv v hn hd
  refine ⟨?_, ?_, ?_⟩
  · rw [hback]
    exact le_saturate hle hv
  · rw [hback]
    exact Int.le_trans (saturate_le_self (Int.le_trans hv.1 hle)) (ceilDiv_ceilDiv_le v hn hd)
  · intro hdvd
    rw [hback, ceilDiv_ceilDiv_of_dvd v hn hd hdvd]
    exact saturate_of_inRange hv

/-! ### Spans of real time -/

/-- The units in which spans of real time are given. -/
inductive SpanUnit where
  /-- Nanoseconds. -/
  | nanos
  /-- Milliseconds. -/
  | millis
deriving DecidableEq, Repr

/-- How many of the units make a second. -/
def SpanUnit.perSecond : SpanUnit → Nat
  | .nanos => nanosPerSecond
  | .millis => millisPerSecond

theorem SpanUnit.perSecond_pos (unit : SpanUnit) : (0 : Int) < unit.perSecond := by
  cases unit <;> decide

namespace Resolution

/-- A span in one of the units as ticks. -/
def ofUnit (r : Resolution) : SpanUnit → Int → Int
  | .nanos => r.ofNanos
  | .millis => r.ofMillis

/-- A span of ticks in one of the units. -/
def toUnit (r : Resolution) : SpanUnit → Int → Int
  | .nanos => r.toNanos
  | .millis => r.toMillis

variable (r : Resolution) (unit : SpanUnit)

theorem ofUnit_eq (span : Int) :
    r.ofUnit unit span = scaleUp span r.frequency unit.perSecond := by
  cases unit <;> rfl

theorem toUnit_eq (ticks : Int) :
    r.toUnit unit ticks = scaleUp ticks unit.perSecond r.frequency := by
  cases unit <;> rfl

/-- **Round trips never under-report.** A span that fits into ticks comes back as one that is no
shorter, and longer by a tick at the most; where a second has a multiple of its units as ticks, it
comes back as it was. And so do ticks that are sent through a unit of real time. -/
theorem round_trips_never_under_report :
    (∀ span, InRange span → InRange (ceilDiv (span * r.frequency) unit.perSecond) →
      span ≤ r.toUnit unit (r.ofUnit unit span) ∧
        r.toUnit unit (r.ofUnit unit span) ≤ span + ceilDiv unit.perSecond r.frequency ∧
        ((unit.perSecond : Int) ∣ r.frequency → r.toUnit unit (r.ofUnit unit span) = span)) ∧
    (∀ ticks, InRange ticks → InRange (ceilDiv (ticks * unit.perSecond) r.frequency) →
      ticks ≤ r.ofUnit unit (r.toUnit unit ticks) ∧
        r.ofUnit unit (r.toUnit unit ticks) ≤ ticks + ceilDiv r.frequency unit.perSecond ∧
        (r.frequency ∣ (unit.perSecond : Int) → r.ofUnit unit (r.toUnit unit ticks) = ticks)) := by
  refine ⟨fun span hspan hfits => ?_, fun ticks hticks hfits => ?_⟩
  · rw [ofUnit_eq, toUnit_eq]
    exact scaleUp_scaleUp r.frequency_pos unit.perSecond_pos hspan hfits
  · rw [ofUnit_eq, toUnit_eq]
    exact scaleUp_scaleUp unit.perSecond_pos r.frequency_pos hticks hfits

/-- With 1500 ticks a second neither a tick nor a millisecond is a multiple of the other. Then minus
seven milliseconds come back as minus six, and two ticks as three. Through microseconds the
milliseconds come back as they were. -/
theorem round_trips_never_under_report_of_negative_spans :
    let uneven : Resolution := ⟨1500, by decide, by decide⟩
    let back := uneven.toUnit .millis (uneven.ofUnit .millis (-7))
    let forth := uneven.ofUnit .millis (uneven.toUnit .millis 2)
    (InRange (-7) ∧ InRange (ceilDiv (-7 * 1500) 1000) ∧ back = -6 ∧
      -7 ≤ back ∧ back ≤ -7 + ceilDiv 1000 1500) ∧
    (InRange (ceilDiv (-7 * 1000000) 1000) ∧ (1000 : Int) ∣ 1000000 ∧
      microseconds.toUnit .millis (microseconds.ofUnit .millis (-7)) = -7) ∧
    (InRange 2 ∧ InRange (ceilDiv (2 * 1000) 1500) ∧ forth = 3 ∧
      2 ≤ forth ∧ forth ≤ 2 + ceilDiv 1500 1000) := by
  intro uneven back forth
  have hspan : InRange (-7) := by decide
  have hfits : InRange (ceilDiv (-7 * 1500) 1000) := by decide
  have hmicros : InRange (ceilDiv (-7 * 1000000) 1000) := by decide
  have hdvd : (1000 : Int) ∣ 1000000 := by decide
  have hticks : InRange 2 := by decide
  have hticksFit : InRange (ceilDiv (2 * 1000) 1500) := by decide
  obtain ⟨hspans, hforth⟩ := round_trips_never_under_report uneven .millis
  obtain ⟨hspans', -⟩ := round_trips_never_under_report microseconds .millis
  obtain ⟨hle, hge, -⟩ := hspans (-7) hspan hfits
  obtain ⟨-, -, hsame⟩ := hspans' (-7) hspan hmicros
  obtain ⟨hle', hge', -⟩ := hforth 2 hticks hticksFit
  exact ⟨⟨hspan, hfits, by decide, hle, hge⟩, ⟨hmicros, hdvd, hsame hdvd⟩, hticks, hticksFit,
    by decide, hle', hge'⟩

/-- A span that is cut off on its way into ticks does come back shorter. -/
example : nanoseconds.toMillis (nanoseconds.ofMillis maxTick) = 9223372036855 := by decide

end Resolution

end AdmissionControl
