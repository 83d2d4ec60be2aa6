import Mathlib.Algebra.Group.Nat.Defs
import AdmissionControl.Proofs.Resolution.Rounding
import AdmissionControl.Clock

/-!
# Machine words

The instant of a reading is worked out in two ways, and the time to wait out a delay in three. Each
agrees with the others, and with the exact quotient as far as ticks go
(`Resolution.conversions_agree`).

The same theorem says that all of them can be worked out in machine words. For this they are written
down a second time, with a check at each step (`Word.hold?`): the products, quotients and negations
in wide words, what is kept as ticks in words of 64 bits, and what a timer takes in words without a
sign. They give no result where a word does not hold the number that is put into it, be it after an
operation or when it is moved from one kind of word to another.

The checks never fail. The largest product, that of the largest reading and the largest frequency,
falls short of the largest integer of a wide word by less than two readings (`Word.holdsBoth_mul`).
A quotient is no further from zero than its dividend, and can be negated just as well. And nothing
is lost on the way from ticks to a timer, since the delays that are waited out are positive.
-/

namespace AdmissionControl

/-! ### Delays that are waited out -/

section Wait

variable {delay : Int}

section Positive

variable {frequency : Int} (hdelay : 0 < delay) (hfrequency : 0 < frequency)

include hdelay hfrequency

/-- The nanoseconds that wait out a delay are cut off at the upper end of the range only. -/
theorem scaleUp_delay : scaleUp delay nanosPerSecond frequency =
    min (ceilDiv (delay * nanosPerSecond) frequency) maxTick :=
  saturate_of_nonneg
    (ceilDiv_nonneg hfrequency (Int.mul_nonneg (Int.le_of_lt hdelay) (by decide)))

theorem isSpan_scaleUp_delay : IsSpan (scaleUp delay nanosPerSecond frequency) := by
  have hproduct : 0 ≤ delay * nanosPerSecond := Int.mul_nonneg (Int.le_of_lt hdelay) (by decide)
  refine ⟨?_, (inRange_scaleUp _ _ _).2⟩
  rw [scaleUp_delay hdelay hfrequency]
  exact Int.le_min.mpr ⟨ceilDiv_nonneg hfrequency hproduct, Int.le_of_lt maxTick_pos⟩

end Positive

namespace Resolution

variable (r : Resolution)

theorem isSpan_toNanos (hdelay : 0 < delay) : IsSpan (r.toNanos delay) :=
  isSpan_scaleUp_delay hdelay r.frequency_pos

theorem nanos_durationOf (hdelay : 0 < delay) :
    ((r.durationOf delay).nanos : Int) = r.toNanos delay := by
  rw [durationOf, if_neg (by omega)]
  exact Int.toNat_of_nonneg (r.isSpan_toNanos hdelay).1

theorem retryAfter_eq_durationOf (hdelay : 0 < delay) :
    retryAfter delay r.frequency = some (r.durationOf delay) := by
  have hfrequency := r.frequency_pos
  rw [retryAfter, durationOf, if_neg (by omega), if_neg (by omega)]
  rfl

/-- The two parts of a sleep, which make up the nanoseconds that wait out the delay. -/
theorem sleepOf_parts (hdelay : 0 < delay) :
    IsSpan (r.sleepOf delay).millis ∧
      (0 ≤ (r.sleepOf delay).nanos ∧ (r.sleepOf delay).nanos < nanosPerMilli) ∧
      (r.sleepOf delay).millis * nanosPerMilli + (r.sleepOf delay).nanos = r.toNanos delay := by
  obtain ⟨hnonneg, hle⟩ := r.isSpan_toNanos hdelay
  have hmilli : (0 : Int) < nanosPerMilli := by decide
  rw [sleepOf, if_neg (by omega)]
  refine ⟨⟨Int.ediv_nonneg hnonneg (Int.le_of_lt hmilli), ?_⟩,
    ⟨Int.emod_nonneg _ (Int.ne_of_gt hmilli), Int.emod_lt_of_pos _ hmilli⟩,
    Int.ediv_mul_add_emod _ _⟩
  exact Int.le_trans (Int.ediv_le_self _ hnonneg) hle

end Resolution

end Wait

/-! ### Words -/

/-- The machine words, by their number of bits. -/
inductive Word where
  /-- Words for integers of either sign. -/
  | signed (bits : Nat)
  /-- Words for integers from zero on. -/
  | unsigned (bits : Nat)
deriving DecidableEq, Repr

namespace Word

/-- The smallest integer that a word holds. -/
def least : Word → Int
  | signed bits => -(2 ^ (bits - 1) : Nat)
  | unsigned _ => 0

/-- The largest integer that a word holds. -/
def largest : Word → Int
  | signed bits => (2 ^ (bits - 1) : Nat) - 1
  | unsigned bits => (2 ^ bits : Nat) - 1

/-- The integer can be put into the word. -/
def Holds (w : Word) (v : Int) : Prop := w.least ≤ v ∧ v ≤ w.largest

instance (w : Word) (v : Int) : Decidable (w.Holds v) := inferInstanceAs (Decidable (_ ∧ _))

/-- The integer, if the word holds it. -/
def hold? (w : Word) (v : Int) : Option Int := if w.Holds v then some v else none

/-- The words in which products are worked out. -/
def wide : Word := signed 128

theorem hold?_of_holds {w : Word} {v : Int} (h : w.Holds v) : w.hold? v = some v := if_pos h

/-- Tick counts are what 64-bit words hold. -/
theorem holds_of_inRange {v : Int} (h : InRange v) : (signed 64).Holds v := h

theorem least_nonpos (w : Word) : w.least ≤ 0 := by
  cases w with
  | signed bits => exact Int.neg_nonpos_of_nonneg (Int.natCast_nonneg _)
  | unsigned _ => exact Int.le_refl 0

/-- From zero on, a word holds all that is no more than something that it holds. -/
theorem holds_of_le {w : Word} {v bound : Int} (hnonneg : 0 ≤ v) (hle : v ≤ bound)
    (hbound : w.Holds bound) : w.Holds v :=
  ⟨Int.le_trans w.least_nonpos hnonneg, Int.le_trans hle hbound.2⟩

/-- The word holds the integer and the one with the other sign. -/
def HoldsBoth (w : Word) (v : Int) : Prop := w.Holds v ∧ w.Holds (-v)

section HoldsBoth

variable {w : Word} {v d : Int}

theorem HoldsBoth.neg (h : w.HoldsBoth v) : w.HoldsBoth (-v) := by
  obtain ⟨hpos, hneg⟩ := h
  exact ⟨hneg, by rwa [Int.neg_neg]⟩

/-- A quotient is no further from zero than its dividend. -/
theorem HoldsBoth.ediv (h : w.HoldsBoth v) (hd : 0 < d) : w.HoldsBoth (v / d) := by
  obtain ⟨⟨hleast, hlargest⟩, hleast', hlargest'⟩ := h
  by_cases hv : 0 ≤ v
  · have hnonneg : 0 ≤ v / d := Int.ediv_nonneg hv (Int.le_of_lt hd)
    have hle : v / d ≤ v := Int.ediv_le_self d hv
    exact ⟨⟨by omega, by omega⟩, by omega, by omega⟩
  · have hneg : v / d < 0 := Int.ediv_neg_of_neg_of_pos (by omega) hd
    have hle : v ≤ v / d := by
      rw [Int.le_ediv_iff_mul_le hd]
      calc v * d ≤ v * 1 := Int.mul_le_mul_of_nonpos_left (by omega) hd
        _ = v := Int.mul_one v
    exact ⟨⟨by omega, by omega⟩, by omega, by omega⟩

end HoldsBoth

/-- **Products fit.** A reading or a tick count times a span can be held by a wide word, and so can
its negation. -/
theorem holdsBoth_mul {v n : Int} (hge : minTick ≤ v) (hreading : v ≤ maxReading)
    (hn : IsSpan n) : wide.HoldsBoth (v * n) := by
  obtain ⟨hnonneg, hle⟩ := hn
  have hupper : v * n ≤ maxReading * maxTick :=
    Int.mul_le_mul hreading hle hnonneg (by decide)
  have hlower : minTick * maxTick ≤ v * n :=
    calc minTick * maxTick ≤ minTick * n := Int.mul_le_mul_of_nonpos_left (by decide) hle
      _ ≤ v * n := Int.mul_le_mul_of_nonneg_right hge hnonneg
  have hroom : (maxReading : Int) * maxTick ≤ wide.largest := by decide
  have hroom' : -wide.largest ≤ minTick * maxTick := by decide
  have hleast : wide.least ≤ -wide.largest := by decide
  exact ⟨⟨by omega, by omega⟩, by omega, by omega⟩

/-- There would be no room for readings at a frequency that is larger by two. -/
example : ¬ wide.Holds (maxReading * (maxTick + 2)) := by decide

end Word

open Word

/-! ### Scaling in words -/

/-- The product of `value` and `numerator / denominator`, rounded up. -/
def scaleUp? (value numerator denominator : Int) : Option Int := do
  let product ← wide.hold? (value * numerator)
  let negated ← wide.hold? (-product)
  let quotient ← wide.hold? (negated / denominator)
  let rounded ← wide.hold? (-quotient)
  (signed 64).hold? (saturate rounded)

/-- The product of `value` and `numerator / denominator`, rounded down. -/
def scaleDown? (value numerator denominator : Int) : Option Int := do
  let product ← wide.hold? (value * numerator)
  let quotient ← wide.hold? (product / denominator)
  (signed 64).hold? (saturate quotient)

section Scaling

variable {v n d : Int}

theorem scaleUp?_eq (hproduct : wide.HoldsBoth (v * n)) (hd : 0 < d) :
    scaleUp? v n d = some (scaleUp v n d) := by
  have hquotient : wide.HoldsBoth (-(v * n) / d) := hproduct.neg.ediv hd
  have hticks : (signed 64).Holds (scaleUp v n d) := holds_of_inRange (inRange_scaleUp v n d)
  simp only [scaleUp?, hold?_of_holds hproduct.1, hold?_of_holds hproduct.2,
    hold?_of_holds hquotient.1, hold?_of_holds hquotient.2, Option.bind_eq_bind, Option.bind_some]
  exact hold?_of_holds hticks

theorem scaleDown?_eq (hproduct : wide.HoldsBoth (v * n)) (hd : 0 < d) :
    scaleDown? v n d = some (scaleDown v n d) := by
  have hquotient : wide.HoldsBoth (v * n / d) := hproduct.ediv hd
  have hticks : (signed 64).Holds (scaleDown v n d) := holds_of_inRange (inRange_scaleDown v n d)
  simp only [scaleDown?, hold?_of_holds hproduct.1, hold?_of_holds hquotient.1,
    Option.bind_eq_bind, Option.bind_some]
  exact hold?_of_holds hticks

end Scaling

/-! ### Readings in words -/

/-- The instant of a clock reading at a number of ticks per second. -/
def ticksAt? (nanos : Nat) (frequency : Int) : Option Int :=
  if frequency ≤ 0 then some 0 else scaleDown? nanos frequency nanosPerSecond

/-- The instant of a clock reading. -/
def Resolution.ofReading? (r : Resolution) (nanos : Nat) : Option Int :=
  scaleDown? nanos r.frequency nanosPerSecond

section Readings

variable {nanos : Nat} (hreading : nanos ≤ maxReading)

include hreading

theorem scaleDown?_reading {frequency : Int} (hfrequency : IsSpan frequency) :
    scaleDown? nanos frequency nanosPerSecond =
      some (scaleDown nanos frequency nanosPerSecond) := by
  have hmin := minTick_neg
  exact scaleDown?_eq (holdsBoth_mul (by omega) (by omega) hfrequency) (by decide)

theorem ticksAt?_eq {frequency : Int} (hle : frequency ≤ maxTick) :
    ticksAt? nanos frequency = some (ticksAt nanos frequency) := by
  unfold ticksAt? ticksAt
  split
  · rfl
  · exact scaleDown?_reading hreading ⟨by omega, hle⟩

theorem Resolution.ofReading?_eq (r : Resolution) : r.ofReading? nanos = some (r.ofReading nanos) :=
  scaleDown?_reading hreading ⟨Int.le_of_lt r.frequency_pos, r.frequency_le⟩

end Readings

/-! ### Delays in words -/

/-- The span of a number of nanoseconds that is taken out of a word of ticks. -/
def Duration.ofNanos? (nanos : Int) : Option Duration :=
  return ⟨(← (unsigned 64).hold? nanos).toNat⟩

/-- How long to wait before an event that came `delay` ticks early. -/
def retryAfter? (delay frequency : Int) : Option (Option Duration) :=
  if delay ≤ 0 ∨ frequency ≤ 0 then some none
  else return some (← Duration.ofNanos? (← scaleUp? delay nanosPerSecond frequency))

namespace Resolution

/-- A span of ticks in nanoseconds, rounded up. -/
def toNanos? (r : Resolution) (ticks : Int) : Option Int :=
  scaleUp? ticks nanosPerSecond r.frequency

/-- The span of real time that waits out a delay. -/
def durationOf? (r : Resolution) (delay : Int) : Option Duration :=
  if delay ≤ 0 then some .zero else do Duration.ofNanos? (← r.toNanos? delay)

/-- The sleep that waits out a delay. Its two parts are worked out by a division that rounds towards
zero. -/
def sleepOf? (r : Resolution) (delay : Int) : Option Sleep :=
  if delay ≤ 0 then some ⟨0, 0⟩
  else do
    let nanos ← r.toNanos? delay
    let millis ← (signed 64).hold? (nanos.tdiv nanosPerMilli)
    let rest ← (signed 64).hold? (nanos.tmod nanosPerMilli)
    return ⟨millis, ← (unsigned 32).hold? rest⟩

end Resolution

section Delays

variable {delay : Int}

theorem Duration.ofNanos?_eq {nanos : Int} (h : IsSpan nanos) :
    Duration.ofNanos? nanos = some ⟨nanos.toNat⟩ := by
  have hholds : (unsigned 64).Holds nanos := holds_of_le h.1 h.2 (by decide)
  simp only [ofNanos?, hold?_of_holds hholds, Option.bind_eq_bind, Option.bind_some]
  rfl

section Checked

variable (h : InRange delay)

include h

theorem scaleUp?_delay {frequency : Int} (hfrequency : 0 < frequency) :
    scaleUp? delay nanosPerSecond frequency = some (scaleUp delay nanosPerSecond frequency) := by
  have hwider : maxTick ≤ maxReading := by decide
  have hsecond : IsSpan nanosPerSecond := ⟨by decide, by decide⟩
  exact scaleUp?_eq (holdsBoth_mul h.1 (Int.le_trans h.2 hwider) hsecond) hfrequency

theorem retryAfter?_eq (frequency : Int) :
    retryAfter? delay frequency = some (retryAfter delay frequency) := by
  unfold retryAfter? retryAfter
  split
  · rfl
  · next hpositive =>
    obtain ⟨hdelay, hfrequency⟩ : 0 < delay ∧ 0 < frequency := by omega
    simp only [scaleUp?_delay h hfrequency,
      Duration.ofNanos?_eq (isSpan_scaleUp_delay hdelay hfrequency), Option.bind_eq_bind,
      Option.bind_some]
    rfl

namespace Resolution

variable (r : Resolution)

theorem toNanos?_eq : r.toNanos? delay = some (r.toNanos delay) := scaleUp?_delay h r.frequency_pos

theorem durationOf?_eq : r.durationOf? delay = some (r.durationOf delay) := by
  unfold durationOf? durationOf
  split
  · rfl
  · next hdelay =>
    have hspan := r.isSpan_toNanos (Int.not_le.mp hdelay)
    simp only [r.toNanos?_eq h, Duration.ofNanos?_eq hspan, Option.bind_eq_bind, Option.bind_some]

theorem sleepOf?_eq : r.sleepOf? delay = some (r.sleepOf delay) := by
  by_cases hdelay : delay ≤ 0
  · rw [sleepOf?, sleepOf, if_pos hdelay, if_pos hdelay]
  · have hnonneg := (r.isSpan_toNanos (Int.not_le.mp hdelay)).1
    obtain ⟨hspan, ⟨hge, hlt⟩, -⟩ := r.sleepOf_parts (Int.not_le.mp hdelay)
    have hmillis : (signed 64).Holds (r.sleepOf delay).millis :=
      holds_of_le hspan.1 hspan.2 (by decide)
    have hrest : (signed 64).Holds (r.sleepOf delay).nanos :=
      holds_of_le hge (Int.le_of_lt hlt) (by decide)
    have hrest' : (unsigned 32).Holds (r.sleepOf delay).nanos :=
      holds_of_le hge (Int.le_of_lt hlt) (by decide)
    -- of numbers from zero on, both ways to divide are the same
    have htdiv : (r.toNanos delay).tdiv nanosPerMilli = (r.sleepOf delay).millis := by
      rw [sleepOf, if_neg hdelay, Int.tdiv_eq_ediv_of_nonneg hnonneg]
    have htmod : (r.toNanos delay).tmod nanosPerMilli = (r.sleepOf delay).nanos := by
      rw [sleepOf, if_neg hdelay, Int.tmod_eq_emod_of_nonneg hnonneg]
    simp only [sleepOf?, if_neg hdelay, r.toNanos?_eq h, htdiv, htmod, hold?_of_holds hmillis,
      hold?_of_holds hrest, hold?_of_holds hrest', Option.bind_eq_bind, Option.bind_some]
    rfl

end Resolution

end Checked

end Delays

/-! ### Agreement -/

namespace Resolution

/-- **The conversions agree** with each other and with the exact quotients, for all readings and for
all delays, and machine words hold all that comes up on the way. -/
theorem conversions_agree (r : Resolution) {nanos : Nat} (hreading : nanos ≤ maxReading)
    {delay : Int} (hdelay : InRange delay) :
    (r.ofReading nanos = min (nanos * r.frequency / nanosPerSecond) maxTick ∧
      ticksAt nanos r.frequency = r.ofReading nanos) ∧
    (0 < delay →
      retryAfter delay r.frequency = some (r.durationOf delay) ∧
      ((r.durationOf delay).nanos : Int) =
        min (ceilDiv (delay * nanosPerSecond) r.frequency) maxTick ∧
      (0 ≤ (r.sleepOf delay).nanos ∧ (r.sleepOf delay).nanos < nanosPerMilli) ∧
      (r.sleepOf delay).millis * nanosPerMilli + (r.sleepOf delay).nanos =
        (r.durationOf delay).nanos) ∧
    (r.ofReading? nanos = some (r.ofReading nanos) ∧
      ticksAt? nanos r.frequency = some (ticksAt nanos r.frequency) ∧
      r.toNanos? delay = some (r.toNanos delay) ∧
      retryAfter? delay r.frequency = some (retryAfter delay r.frequency) ∧
      r.durationOf? delay = some (r.durationOf delay) ∧
      r.sleepOf? delay = some (r.sleepOf delay)) := by
  have hfrequency := r.frequency_pos
  refine ⟨⟨?_, if_neg (by omega)⟩, fun hpositive => ?_, ?_⟩
  · have hproduct : 0 ≤ nanos * r.frequency :=
      Int.mul_nonneg (Int.natCast_nonneg nanos) (Int.le_of_lt hfrequency)
    exact saturate_of_nonneg (Int.ediv_nonneg hproduct (by decide))
  · obtain ⟨-, hrest, hsum⟩ := r.sleepOf_parts hpositive
    rw [r.nanos_durationOf hpositive]
    exact ⟨r.retryAfter_eq_durationOf hpositive, scaleUp_delay hpositive hfrequency, hrest, hsum⟩
  · exact ⟨r.ofReading?_eq hreading, ticksAt?_eq hreading r.frequency_le, r.toNanos?_eq hdelay,
      retryAfter?_eq hdelay r.frequency, r.durationOf?_eq hdelay, r.sleepOf?_eq hdelay⟩

/-- The largest reading is taken at the largest frequency, and the longest delay is waited out at
the smallest one, where its nanoseconds are cut off. A delay that is as negative as can be has its
number of nanoseconds as well. -/
theorem conversions_agree_at_largest_operands :
    let fine : Resolution := ⟨maxTick, by decide, by decide⟩
    let coarse : Resolution := ⟨1, by decide, by decide⟩
    (InRange maxTick ∧ InRange minTick ∧ 0 < maxTick) ∧
      ticksAt maxReading maxTick = maxTick ∧ fine.ofReading? maxReading = some maxTick ∧
      retryAfter maxTick 1 = some (coarse.durationOf maxTick) ∧
      (coarse.durationOf maxTick).nanos = maxTick ∧
      coarse.sleepOf? maxTick = some ⟨9223372036854, 775807⟩ ∧
      fine.toNanos? minTick = some (-1000000000) := by
  intro fine coarse
  have hmax : InRange maxTick := by decide
  have hmin : InRange minTick := by decide
  obtain ⟨⟨hquotient, hinstant⟩, -, hreading, -, hnanos, -⟩ :=
    conversions_agree fine (Nat.le_refl maxReading) hmin
  obtain ⟨-, hdelay, -, -, -, -, -, hsleep⟩ :=
    conversions_agree coarse (Nat.zero_le maxReading) hmax
  obtain ⟨hhint, hlength, -⟩ := hdelay (by decide)
  have hlargest : fine.ofReading maxReading = maxTick := by
    rw [hquotient]
    decide
  refine ⟨⟨hmax, hmin, by decide⟩, hinstant.trans hlargest, hlargest ▸ hreading, hhint, ?_, hsleep,
    hnanos⟩
  rw [hlength]
  decide

end Resolution

end AdmissionControl
