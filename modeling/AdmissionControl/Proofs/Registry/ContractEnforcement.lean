import AdmissionControl.Proofs.Registry.History
import AdmissionControl.Proofs.Resolution.Rounding
import AdmissionControl.Proofs.Throttle.RateConformance

/-!
# A registry enforces its contract on each key

A registry that is built from a contract holds each key to the rates of the contract. The theorem
`Registry.contract_enforcement` says so in the terms of the caller, which are units, a second and
the nanoseconds of the clock: whatever is admitted of a key within some time, except for the last
event, is at most what the rate allows in that time and in the limit together.

Between the contract and the decision on a check there are four steps, and none of them may err in
favour of the caller. The rate becomes an increment, which is rounded up; the readings of the clock
become instants, which are rounded down; the registry finds the throttle of the key, which nobody
else uses; and the throttle holds its events to the pace of each of its engines. The rounding is in
`Resolution.frequency_le_rate_mul_spacing` and `ticksAt_sub_ticksAt_le`, the registry in
`Registry.decides_checksOf` and the pace in `Throttle.Governs`.
-/

namespace AdmissionControl

/-! ### Checks in a window -/

namespace Throttle

section Window

variable {t : Throttle} {c : Check} {rest : List Check} {charging : Charging} {e : Engine}

/-- An engine of an opened throttle governs the events of the checks that the throttle decides. -/
theorem Decides.governs (h : (t.resetAt (ticksAt c.nanos t.frequency)).Decides (c :: rest))
    (horder : ((c :: rest).map Check.nanos).Pairwise (· ≤ ·)) (he : engine charging e ∈ t.leaves)
    (hfits : ∀ ch ∈ (c :: rest).filter Check.isAdmitted,
      (ch.units : Int) * e.pace.increment + e.pace.limit ≤ maxTick) :
    ((c :: rest).filter Check.isAdmitted).map (Check.event t.frequency) =
        (t.resetAt (ticksAt c.nanos t.frequency)).admitted
          ((c :: rest).map (Check.event t.frequency)) ∧
      Governs charging (e.resetAt (ticksAt c.nanos t.frequency))
        (t.resetAt (ticksAt c.nanos t.frequency)) (ticksAt c.nanos t.frequency)
        ((c :: rest).map (Check.event t.frequency)) := by
  have hadmitted := h.map_event_filter
  rw [frequency_resetAt] at hadmitted
  refine ⟨hadmitted, governs_resetAt he (inRange_ticksAt c.nanos t.frequency).1
    (Check.chronological_map_event t.frequency horder) ?_⟩
  rw [← hadmitted]
  intro ev hev
  obtain ⟨ch, hch, rfl⟩ := List.mem_map.mp hev
  exact hfits ch hch

/-- Admitted checks of an opened throttle keep to the pace of each of its engines: the increments
of some of them, without the last, fit in the time in which they come and the limit together. -/
theorem Decides.increment_mul_charged_le
    (h : (t.resetAt (ticksAt c.nanos t.frequency)).Decides (c :: rest))
    (horder : ((c :: rest).map Check.nanos).Pairwise (· ≤ ·)) (he : engine charging e ∈ t.leaves)
    (hfits : ∀ ch ∈ (c :: rest).filter Check.isAdmitted,
      (ch.units : Int) * e.pace.increment + e.pace.limit ≤ maxTick)
    (hfrequency : 0 < t.frequency) {chosen : List Check} {last : Check}
    (hsub : (chosen ++ [last]).Sublist ((c :: rest).filter Check.isAdmitted)) {width : Nat}
    (hwidth : ∀ ch ∈ chosen, last.nanos ≤ ch.nanos + width) :
    e.pace.increment * Check.charged chosen ≤
      ceilDiv (width * t.frequency) nanosPerSecond + e.pace.limit := by
  obtain ⟨hadmitted, hgoverns⟩ := h.governs horder he hfits
  cases chosen with
  | nil =>
    have htime : 0 ≤ (width : Int) * t.frequency :=
      Int.mul_nonneg (Int.natCast_nonneg width) (Int.le_of_lt hfrequency)
    have hroom := ceilDiv_nonneg (b := nanosPerSecond) (by decide) htime
    have hlimit := e.pace.limit_nonneg
    rw [Check.charged, Int.natCast_zero, Int.mul_zero]
    omega
  | cons first between =>
    have hmapped := hsub.map (Check.event t.frequency)
    rw [hadmitted, List.cons_append, List.map_cons, List.map_append] at hmapped
    have hconform : e.pace.increment *
        Event.charged ((first :: between).map (Check.event t.frequency)) ≤
          ticksAt last.nanos t.frequency - ticksAt first.nanos t.frequency + e.pace.limit :=
      hgoverns.increment_mul_charged_le hmapped
    rw [Check.charged_map_event] at hconform
    have hinorder : first.nanos ≤ last.nanos := by
      have hpicked := horder.sublist ((hsub.trans List.filter_sublist).map Check.nanos)
      exact (List.pairwise_cons.mp hpicked).1 _ (by simp)
    have hdistance := ticksAt_sub_ticksAt_le hinorder (hwidth first (List.mem_cons_self ..))
      hfrequency
    omega

end Window

end Throttle

/-- What takes no longer than some time when it is spaced at a rate is no more than the rate allows
in that time. -/
theorem Resolution.mul_frequency_le (r : Resolution) {rate : Int} (hrate : 0 < rate) {units : Nat}
    {room : Int} (h : r.spacing rate * units ≤ room) : units * r.frequency ≤ rate * room := by
  have hsecond := r.frequency_le_rate_mul_spacing hrate
  calc units * r.frequency ≤ units * (rate * r.spacing rate) :=
        Int.mul_le_mul_of_nonneg_left hsecond (Int.natCast_nonneg units)
    _ = rate * (r.spacing rate * units) := by
        rw [Int.mul_comm, Int.mul_assoc]
    _ ≤ rate * room := Int.mul_le_mul_of_nonneg_left h (Int.le_of_lt hrate)

/-! ### What is built for a contract -/

namespace Shaper

variable {σ : Type} [Clock σ]

/-- The peak engine for a contract keeps to its peak emission. -/
theorem pace_peak_build (r : Resolution) (c : Contract) (env : Ambient σ) :
    (Shaper.build r c env).1.peak.pace =
      .clamped r (c.emissions r).peak.increment (c.emissions r).peak.limit := by
  obtain ⟨peakRate, jitter, sustained⟩ := c
  cases sustained <;> rfl

/-- The sustained engine for a contract keeps to its sustained emission. -/
theorem pace_sustained_build (r : Resolution) (c : Contract) (env : Ambient σ) :
    (Shaper.build r c env).1.sustained.map (·.pace) =
      (c.emissions r).sustained.map fun s => .clamped r s.increment s.limit := by
  obtain ⟨peakRate, jitter, sustained⟩ := c
  cases sustained <;> rfl

end Shaper

/-- The limit stays a tick count when what the admitted checks are charged is put on top of it. -/
def Emission.Fits (em : Emission) (checks : List Check) : Prop :=
  ∀ ch ∈ checks, ch.isAdmitted = true → (ch.units : Int) * em.increment + em.limit ≤ maxTick

namespace Registry

variable {κ σ ρ : Type} [DecidableEq κ] [Clock σ]

omit [DecidableEq κ] in
/-- The prototype of a registry for a contract is the shaper that is built for it. -/
theorem factory_ofContract (charging : Charging) (c : Contract) (env : Ambient σ) :
    (ofContract charging c env : Registry κ × Ambient σ).1.factory =
      .copying (.shaper charging (Shaper.build charging.resolution c env).1) := rfl

/-! ### The rates of a key -/

section Enforcement

variable {r : Registry κ} {key : κ} {ops : List (Operation κ σ ρ)} {env : Ambient σ}
  {checks chosen : List Check} {last : Check} {width : Nat}

/-- What is admitted of a key keeps to the rate of each engine of the prototype whose pace has been
worked out from a rate. -/
theorem units_mul_frequency_le {prototype : Throttle} (hfactory : r.factory = .copying prototype)
    (hnew : r.slots.find? key = none) (hundisturbed : r.Undisturbed key ops env)
    (hchecks : checksOf key (r.history ops env) = checks)
    (horder : (checks.map Check.nanos).Pairwise (· ≤ ·))
    (hsub : (chosen ++ [last]).Sublist (checks.filter Check.isAdmitted))
    (hwidth : ∀ ch ∈ chosen, last.nanos ≤ ch.nanos + width) {charging : Charging} {e : Engine}
    (he : Throttle.engine charging e ∈ prototype.leaves) {resolution : Resolution}
    (hticks : prototype.frequency = resolution.frequency) {em : Emission}
    (hpace : e.pace = .clamped resolution em.increment em.limit) {rate : Int} (hrate : 0 < rate)
    (hspacing : em.increment = resolution.spacing rate) (hlimit : 0 ≤ em.limit)
    (hfits : em.Fits checks) :
    Check.charged chosen * resolution.frequency ≤
      rate * (ceilDiv (width * resolution.frequency) nanosPerSecond + em.limit) := by
  have hincrement : e.pace.increment = resolution.spacing rate := by
    rw [hpace, hspacing]
    exact clampSpan_of_isSpan (resolution.isSpan_spacing rate)
  have hcapped : e.pace.limit ≤ em.limit := by
    rw [hpace]
    exact clampSpan_le hlimit
  cases checks with
  | nil =>
    have hnone : chosen ++ [last] = [] := List.sublist_nil.mp hsub
    exact absurd hnone (by simp)
  | cons c rest =>
    have hdecides := decides_checksOf (congrArg Factory.design hfactory) hundisturbed hchecks
    unfold found at hdecides
    rw [hnew] at hdecides
    have hfrequency : 0 < prototype.frequency := by
      rw [hticks]
      exact resolution.frequency_pos
    have hfits' : ∀ ch ∈ (c :: rest).filter Check.isAdmitted,
        (ch.units : Int) * e.pace.increment + e.pace.limit ≤ maxTick := by
      intro ch hch
      obtain ⟨hmem, hadmitted⟩ := List.mem_filter.mp hch
      have hcharge := hfits ch hmem hadmitted
      rw [hspacing] at hcharge
      rw [hincrement]
      omega
    have hpaced := hdecides.increment_mul_charged_le horder he hfits' hfrequency hsub hwidth
    rw [hincrement, hticks] at hpaced
    exact resolution.mul_frequency_le hrate (by omega)

end Enforcement

/-- **Contract enforcement.** In a registry that has been built for a contract with a positive peak
rate, let a key only be checked and stay in use, at readings that do not go back. Of its admitted
checks take some that come within some nanoseconds of each other. Without the last of them they are
for no more units than the peak rate allows in that time and the jitter; and if there is a positive
sustained rate, for no more than that allows in that time and the limit that was worked out for
it. -/
theorem contract_enforcement {charging : Charging} {c : Contract} (hrate : 0 < c.peakRate)
    (hjitter : 0 ≤ c.jitter) {built env : Ambient σ} {r : Registry κ}
    (hbuilt : ofContract charging c built = (r, env)) {key : κ} {ops : List (Operation κ σ ρ)}
    (hundisturbed : r.Undisturbed key ops env) {checks : List Check}
    (hchecks : checksOf key (r.history ops env) = checks)
    (horder : (checks.map Check.nanos).Pairwise (· ≤ ·)) {chosen : List Check} {last : Check}
    (hsub : (chosen ++ [last]).Sublist (checks.filter Check.isAdmitted)) {width : Nat}
    (hwidth : ∀ ch ∈ chosen, last.nanos ≤ ch.nanos + width) :
    let emissions := c.emissions charging.resolution
    let frequency := charging.resolution.frequency
    let units := Check.charged chosen
    let ticks := ceilDiv (width * frequency) nanosPerSecond
    (emissions.peak.Fits checks → units * frequency ≤ c.peakRate * (ticks + c.jitter)) ∧
      ∀ s em, c.sustained = some s → emissions.sustained = some em → 0 < s.rate →
        em.Fits checks → units * frequency ≤ min s.rate c.peakRate * (ticks + em.limit) := by
  intro emissions frequency units ticks
  let shaper := (Shaper.build charging.resolution c built).1
  have hr : r = (ofContract charging c built).1 := by rw [hbuilt]
  have hfactory : r.factory = .copying (.shaper charging shaper) := by
    rw [hr, factory_ofContract]
  have hnew : r.slots.find? key = none := by
    rw [hr]
    rfl
  have hpeak : shaper.peak.pace =
      .clamped charging.resolution emissions.peak.increment emissions.peak.limit :=
    Shaper.pace_peak_build charging.resolution c built
  have hticks : (Throttle.shaper charging shaper).frequency = charging.resolution.frequency := by
    change shaper.peak.pace.resolution.frequency = _
    rw [hpeak]
    rfl
  constructor
  · intro hfits
    have hbound := units_mul_frequency_le hfactory hnew hundisturbed hchecks horder hsub hwidth
      (List.mem_cons_self ..) hticks hpeak hrate rfl (Int.le_max_right _ _) hfits
    have hlimit : emissions.peak.limit = c.jitter := Int.max_eq_left hjitter
    rwa [hlimit] at hbound
  · intro s em hs hem hpositive hfits
    have hsustained : shaper.sustained.map (·.pace) =
        emissions.sustained.map fun em => .clamped charging.resolution em.increment em.limit :=
      Shaper.pace_sustained_build charging.resolution c built
    rw [hem] at hsustained
    obtain ⟨e, he, hpace⟩ := Option.map_eq_some_iff.mp hsustained
    obtain ⟨hspacing, hlimit⟩ := c.sustained_emission hs hem
    have hmem : Throttle.engine charging e ∈ (Throttle.shaper charging shaper).leaves := by
      rw [Throttle.leaves, he]
      exact List.mem_cons_of_mem _ (List.mem_cons_self ..)
    exact units_mul_frequency_le hfactory hnew hundisturbed hchecks horder hsub hwidth hmem hticks
      hpace (by omega) hspacing hlimit hfits

/-- Four checks of one key among other uses, 600 or 1200 ticks apart. The sustained rate has the
last of them rejected, although the peak rate would allow it. -/
theorem contract_enforcement_of_variableRate :
    let c := Contract.variableRate 1000 500 400 3
    let built : Registry Nat × Ambient ScriptedClock :=
      ofContract .perEvent c { clock := { step := 600000 } }
    let ops : List (Operation Nat ScriptedClock Unit) :=
      [.offer 0 1, .offer 1 1, .offer 0 1, .apply 1 fun _ t => pure ((), t.commit), .remove 1,
        .offer 0 1, .offer 0 1, .evictIdle 2000000]
    let checks := checksOf 0 (built.1.history ops built.2)
    checks.map (fun ch => (ch.nanos, ch.isAdmitted)) =
        [(1200000, true), (2400000, true), (3600000, true), (4200000, false)] ∧
      2 * 1000000 ≤ 1000 * (ceilDiv (2400000 * 1000000) nanosPerSecond + 500) ∧
      2 * 1000000 ≤ min 400 1000 * (ceilDiv (2400000 * 1000000) nanosPerSecond + 3500) := by
  intro c built ops checks
  let admits (nanos : Nat) : Check := ⟨nanos, 1, ⟨true, 0, none, false⟩⟩
  have hchecks : checks = [admits 1200000, admits 2400000, admits 3600000,
      ⟨4200000, 1, ⟨false, 1000, some ⟨1000000⟩, false⟩⟩] := by decide
  have hundisturbed : built.1.Undisturbed 0 ops built.2 := by decide
  have hsub : ([admits 1200000, admits 2400000] ++ [admits 3600000]).Sublist
      (checks.filter Check.isAdmitted) := by
    rw [hchecks]
    decide
  have hwidth : ∀ ch ∈ [admits 1200000, admits 2400000],
      (admits 3600000).nanos ≤ ch.nanos + 2400000 := by decide
  have horder : (checks.map Check.nanos).Pairwise (· ≤ ·) := by
    rw [hchecks]
    decide
  have hfits : ∀ em ∈ [⟨1000, 500⟩, (⟨2500, 3500⟩ : Emission)], em.Fits checks := by
    rw [hchecks]
    unfold Emission.Fits
    decide
  have hrate : 0 < c.peakRate := by decide
  have hbuilt : ofContract .perEvent c { clock := { step := 600000 } } = built := rfl
  obtain ⟨hpeak, hsustained⟩ := contract_enforcement hrate (by decide) hbuilt hundisturbed rfl
    horder hsub hwidth
  refine ⟨by rw [hchecks]; rfl, hpeak (hfits _ (by decide)), ?_⟩
  exact hsustained ⟨400, 3⟩ ⟨2500, 3500⟩ rfl (by decide) (by decide) (hfits _ (by decide))

end Registry

end AdmissionControl
