import AdmissionControl.Proofs.Engine.Target
import AdmissionControl.Proofs.Resolution.Rounding
import AdmissionControl.Proofs.Throttle.Alarms
import AdmissionControl.Proofs.Throttle.Design

/-!
# The largest burst

A contract with a sustained rate below its peak rate lets a burst through at the peak rate, that is
with events one peak increment apart. Each event of the burst puts the sustained engine behind by
what its own increment is longer, and the limit that the contract gives it makes up for just that:
it holds the slack of all events of the burst but the first, and the jitter tolerance on top. So the
burst ends with the event that the tolerance does not reach (`Throttle.maximum_burst`).

The proof follows by how much an engine is behind, event by event (`Engine.Lags.next`). What
saturates is the lag of an engine, at the largest tick less one step, and the limit. The two are
compared as they are, so that the events which the contract promises are admitted even then.
-/

namespace AdmissionControl

/-- Events of a single unit, evenly spaced. -/
def Event.paced (start step : Int) (count : Nat) : List Event :=
  (List.range count).map fun k : Nat => ⟨start + k * step, 1⟩

/-- The decisions on a row of events that are offered one after another. -/
def Throttle.decisions (t : Throttle) : List Event → List Decision
  | [] => []
  | ev :: rest =>
    (t.offer ev.instant ev.units).1 :: (t.offer ev.instant ev.units).2.decisions rest

/-- The decision on an event that conforms: it is taken in, and nothing is alarmed. -/
def Decision.taken : Decision := ⟨true, 0, none, false⟩

/-- The decision on an event that is early: it is left, and nothing is alarmed. -/
def Decision.early (delay frequency : Int) : Decision :=
  ⟨false, delay, AdmissionControl.retryAfter delay frequency, false⟩

@[simp] theorem Event.paced_zero (start step : Int) : paced start step 0 = [] := rfl

/-- The first of a row of evenly spaced events can be taken off it. -/
theorem Event.paced_succ (start step : Int) (count : Nat) :
    paced start step (count + 1) = ⟨start, 1⟩ :: paced (start + step) step count := by
  unfold paced
  rw [List.range_succ_eq_map, List.map_cons, List.map_map, Int.natCast_zero, Int.zero_mul,
    Int.add_zero]
  refine congrArg (_ :: ·) (List.map_congr_left ?_)
  intro k _
  have hsum : start + ((k + 1 : Nat) : Int) * step = start + step + k * step := by
    rw [Int.natCast_add, Int.natCast_one, Int.add_mul, Int.one_mul]
    omega
  exact congrArg (Event.mk · 1) hsum

/-! ### One engine -/

/-- By how much an engine is behind after events that come `step` apart: by what its increment is
longer for each of them. A lag stops short of the largest tick by one step. -/
def lag (step increment : Int) (count : Nat) : Int :=
  min (count * (increment - step)) (maxTick - step)

/-- An engine to which events come `step` apart is in order for the event at an instant, and behind
by the lag of `count` events. -/
structure Engine.Lags (e : Engine) (step instant : Int) (count : Nat) : Prop where
  readyAt : e.ReadyAt instant
  step_nonneg : 0 ≤ step
  step_le : step ≤ e.pace.increment
  behind : max 0 (e.target - instant) = lag step e.pace.increment count

namespace Engine.Lags

variable {e : Engine} {step instant : Int} {count : Nat}

/-- An event is early by the lag beyond the limit. -/
theorem delayAt_eq (h : e.Lags step instant count) :
    e.delayAt instant = max 0 (lag step e.pace.increment count - e.pace.limit) := by
  have hlimit := e.pace.limit_nonneg
  have hbehind := h.behind
  rw [h.readyAt.delayAt_eq_max]
  omega

/-- **One event.** An engine that takes an event in is behind by the lag of one more event when the
next one comes, whether or not its debt has come to the largest tick. -/
theorem next (h : e.Lags step instant count) :
    ((e.examine instant).commitUnits 1).Lags step (instant + step) (count + 1) := by
  have hnonneg := h.step_nonneg
  have hle := h.step_le
  refine ⟨(h.readyAt.commitUnits_examine 1).mono (by omega), hnonneg, hle, ?_⟩
  have htarget : ((e.examine instant).commitUnits 1).target = _ :=
    h.readyAt.target_commit_examine_eq
  rw [htarget, h.behind, Engine.pace_commitUnits, Engine.pace_examine]
  have hslack : 0 ≤ (count : Int) * (e.pace.increment - step) :=
    Int.mul_nonneg (Int.natCast_nonneg count) (by omega)
  have hmax := e.pace.increment_le
  unfold lag
  rw [Int.natCast_add, Int.natCast_one, Int.add_mul, Int.one_mul]
  omega

end Engine.Lags

/-- An engine that opens is not behind. -/
theorem Engine.lags_opened (pace : Pace) {step start : Int} (hnonneg : 0 ≤ step)
    (hle : step ≤ pace.increment) (hstart : InRange start) :
    (Engine.opened pace start).Lags step start 0 := by
  have htarget : (Engine.opened pace start).target = max (start - pace.increment) minTick :=
    Engine.target_resetAt (.opened pace start) hstart.2
  refine ⟨Engine.readyAt_resetAt (.opened pace start) hstart.1, hnonneg, hle, ?_⟩
  have hlow := hstart.1
  have hmax := pace.increment_le
  rw [htarget, Engine.pace_opened]
  unfold lag
  rw [Int.natCast_zero, Int.zero_mul]
  omega

/-! ### Two engines -/

/-- A shaper to which events come one increment of its peak pace apart, in front of the event at an
instant and after `count` others that it has taken in. -/
structure Shaper.Bursts (s : Shaper) (peak sustained : Pace) (instant : Int) (count : Nat) :
    Prop where
  peak_pace : s.peak.pace = peak
  peak_lags : s.peak.Lags peak.increment instant count
  sustained_lags : ∃ e, s.sustained = some e ∧ e.pace = sustained ∧
    e.Lags peak.increment instant count

section Burst

variable {s : Shaper} {peak sustained : Pace} {instant : Int} {count : Nat}

/-- **A shaper in a burst.** Its peak engine is never behind, so an event is as early as it is for
the sustained engine. -/
theorem Shaper.Bursts.delayAt_eq (h : s.Bursts peak sustained instant count) :
    s.delayAt instant =
      max 0 (lag peak.increment sustained.increment count - sustained.limit) := by
  obtain ⟨e, hsome, hpace, hlags⟩ := h.sustained_lags
  have hslow := hlags.delayAt_eq
  have hfast := h.peak_lags.delayAt_eq
  have hzero : lag peak.increment s.peak.pace.increment count = 0 := by
    have hle := peak.increment_le
    rw [h.peak_pace]
    unfold lag
    rw [Int.sub_self, Int.mul_zero]
    omega
  have hlimit := s.peak.pace.limit_nonneg
  unfold Shaper.delayAt
  rw [hsome, Option.elim_some, hslow, hfast, hzero, hpace]
  omega

/-- One event of a burst. -/
theorem Shaper.Bursts.next (h : s.Bursts peak sustained instant count) :
    ((s.examine instant).commitUnits 1).Bursts peak sustained (instant + peak.increment)
      (count + 1) := by
  obtain ⟨e, hsome, hpace, hlags⟩ := h.sustained_lags
  refine ⟨h.peak_pace, h.peak_lags.next, (e.examine instant).commitUnits 1, ?_, hpace, hlags.next⟩
  rw [Shaper.commitUnits, Shaper.examine, sustained_mapEngines, sustained_mapEngines, hsome,
    Option.map_some, Option.map_some]

namespace Throttle

/-- Without a backoff no event that conforms raises an alarm. -/
theorem BackoffFree.isAlarmed_commitUnits_examine {t : Throttle} (h : t.BackoffFree)
    (hzero : t.delayAt instant = 0) (units : Nat) :
    ((t.examine instant).commitUnits units).isAlarmed = false := by
  rw [isAlarmed_commitUnits, h.commitVerdict_examine hzero]
  rfl

/-- Without a backoff an event that conforms is taken in, and nothing is alarmed. -/
theorem BackoffFree.offer_of_delayAt_eq_zero {t : Throttle} (h : t.BackoffFree)
    (hzero : t.delayAt instant = 0) (units : Nat) :
    t.offer instant units = (.taken, (t.examine instant).commitUnits units) := by
  have hafter : t.afterOffer instant units = (t.examine instant).commitUnits units := if_pos hzero
  rw [offer, hafter, hzero, h.isAlarmed_commitUnits_examine hzero]
  rfl

/-- Without a backoff an event that is early is only looked at, and an alarm stays off. -/
theorem BackoffFree.offer_of_early {t : Throttle} (h : t.BackoffFree) (hcalm : t.isAlarmed = false)
    {delay : Int} (hdelay : t.delayAt instant = delay) (hearly : delay ≠ 0) (units : Nat) :
    t.offer instant units = (.early delay t.frequency, t.examine instant) := by
  have hafter : t.afterOffer instant units = t.examine instant := by
    rw [Throttle.afterOffer, if_neg (hdelay ▸ hearly), h.rollback_examine]
  rw [offer, hafter, hdelay, frequency_examine, isAlarmed_examine, hcalm, Decision.early,
    decide_eq_false hearly]

/-- The decision on an event that comes before the limit allows it. -/
theorem offer_of_bursts_early (charging : Charging) (h : s.Bursts peak sustained instant count)
    (hcalm : s.isAlarmed = false) {delay : Int} (hpos : 0 < delay)
    (hlag : lag peak.increment sustained.increment count - sustained.limit = delay) :
    ((shaper charging s).offer instant 1).1 = .early delay peak.resolution.frequency := by
  have hdelay : (shaper charging s).delayAt instant = delay := by
    rw [delayAt, h.delayAt_eq]
    omega
  have hne : delay ≠ 0 := by omega
  rw [(backoffFree_shaper charging s).offer_of_early hcalm hdelay hne, ← h.peak_pace]
  rfl

/-- **A burst.** As many events as the limit of the sustained engine makes up for are taken in, and
the shaper goes on from there with whatever comes at the same spacing. -/
theorem decisions_of_bursts (charging : Charging) (h : s.Bursts peak sustained instant count)
    (hcalm : s.isAlarmed = false) {events : Nat}
    (hlag : ∀ k, k < events →
      lag peak.increment sustained.increment (count + k) ≤ sustained.limit) :
    ∃ s', s'.Bursts peak sustained (instant + events * peak.increment) (count + events) ∧
      s'.isAlarmed = false ∧
      ∀ more, (shaper charging s).decisions (Event.paced instant peak.increment (events + more)) =
        List.replicate events .taken ++ (shaper charging s').decisions
          (Event.paced (instant + events * peak.increment) peak.increment more) := by
  induction events generalizing s instant count with
  | zero =>
    refine ⟨s, ?_, hcalm, ?_⟩
    · rwa [Int.natCast_zero, Int.zero_mul, Int.add_zero, Nat.add_zero]
    · intro more
      rw [Int.natCast_zero, Int.zero_mul, Int.add_zero, Nat.zero_add, List.replicate_zero,
        List.nil_append]
  | succ events ih =>
    have hzero : (shaper charging s).delayAt instant = 0 := by
      have hwithin := hlag 0 (by omega)
      rw [delayAt, h.delayAt_eq]
      rw [Nat.add_zero] at hwithin
      omega
    have hfree := backoffFree_shaper charging s
    have hfirst : (shaper charging s).offer instant 1 =
        (.taken, shaper charging ((s.examine instant).commitUnits 1)) :=
      hfree.offer_of_delayAt_eq_zero hzero 1
    have hcalm' : ((s.examine instant).commitUnits 1).isAlarmed = false :=
      hfree.isAlarmed_commitUnits_examine hzero 1
    have hrest : ∀ k, k < events →
        lag peak.increment sustained.increment (count + 1 + k) ≤ sustained.limit := by
      intro k hk
      have hlater := hlag (k + 1) (by omega)
      rwa [Nat.add_right_comm]
    obtain ⟨s', hs', hlast, hdecisions⟩ := ih h.next hcalm' hrest
    have hinstant : instant + peak.increment + events * peak.increment =
        instant + (events + 1 : Nat) * peak.increment := by
      rw [Int.natCast_add, Int.natCast_one, Int.add_mul, Int.one_mul]
      omega
    rw [hinstant] at hs' hdecisions
    refine ⟨s', ?_, hlast, ?_⟩
    · rwa [Nat.add_right_comm] at hs'
    · intro more
      rw [Nat.add_right_comm, Event.paced_succ, decisions, hfirst, hdecisions more]
      rfl

end Throttle

end Burst

/-! ### The limit of a contract -/

/-- What the limit of a sustained engine makes up for: the slack of all events of a burst but the
first, and the jitter tolerance. -/
def burstLimit (step increment jitter burst : Int) : Int :=
  min (min ((burst - 1) * (increment - step)) maxTick + jitter) maxTick

section Limit

variable {step increment jitter burst : Int} {count : Nat}

/-- The events of the burst itself are within the limit, whatever saturates. -/
theorem lag_le_burstLimit (hstep : 0 ≤ step) (hle : step ≤ increment) (hjitter : 0 ≤ jitter)
    (hcount : (count : Int) < burst) :
    lag step increment count ≤ burstLimit step increment jitter burst := by
  have hslack : (count : Int) * (increment - step) ≤ (burst - 1) * (increment - step) :=
    Int.mul_le_mul_of_nonneg_right (by omega) (by omega)
  unfold lag burstLimit
  omega

/-- The slack of as many events as the jitter tolerance makes up for is within the tolerance, that
of one more is not. -/
theorem slack_le_jitter (jitter : Int) (hslack : 0 < increment - step) :
    jitter / (increment - step) * (increment - step) ≤ jitter ∧
      jitter < (jitter / (increment - step) + 1) * (increment - step) :=
  ⟨Int.ediv_mul_le jitter (Int.ne_of_gt hslack), Int.lt_ediv_add_one_mul_self jitter hslack⟩

variable (hslack : 0 < increment - step) (hstep : 0 ≤ step) (hjitter : 0 ≤ jitter)
  (hburst : 1 ≤ burst)
  (hfits : jitter + (burst - 1) * (increment - step) + increment ≤ maxTick)

include hslack hstep hjitter hburst hfits

/-- Where nothing saturates the limit is the exact sum. -/
theorem burstLimit_of_fits :
    burstLimit step increment jitter burst = (burst - 1) * (increment - step) + jitter := by
  have hnonneg : 0 ≤ (burst - 1) * (increment - step) := Int.mul_nonneg (by omega) (by omega)
  unfold burstLimit
  omega

/-- Where nothing saturates the jitter tolerance adds to the burst. -/
theorem lag_le_burstLimit_of_fits
    (hcount : (count : Int) < burst + jitter / (increment - step)) :
    lag step increment count ≤ burstLimit step increment jitter burst := by
  obtain ⟨hwithin, -⟩ := slack_le_jitter jitter hslack
  have hsum : (count : Int) * (increment - step) ≤
      (burst - 1 + jitter / (increment - step)) * (increment - step) :=
    Int.mul_le_mul_of_nonneg_right (by omega) (by omega)
  rw [Int.add_mul] at hsum
  rw [burstLimit_of_fits hslack hstep hjitter hburst hfits]
  unfold lag
  omega

/-- The first event that it does not reach is early by the rest of its slack. -/
theorem lag_sub_burstLimit_of_fits
    (hcount : (count : Int) = burst + jitter / (increment - step)) :
    lag step increment count - burstLimit step increment jitter burst =
      (jitter / (increment - step) + 1) * (increment - step) - jitter := by
  obtain ⟨hwithin, -⟩ := slack_le_jitter jitter hslack
  have hcounts : (count : Int) = burst - 1 + (jitter / (increment - step) + 1) := by omega
  have hsum := Int.add_mul (burst - 1) (jitter / (increment - step) + 1) (increment - step)
  rw [← hcounts] at hsum
  rw [burstLimit_of_fits hslack hstep hjitter hburst hfits]
  have hone := Int.add_mul (jitter / (increment - step)) 1 (increment - step)
  rw [Int.one_mul] at hone
  unfold lag
  omega

end Limit

/-- **A burst through two engines.** Let two engines open at the same instant, the slower one with
the limit for a burst. When events come one increment of the faster engine apart, as many are taken
in as the burst has, and all of them if the increments are the same. If the limit does not saturate,
the jitter tolerance adds the events whose slack it makes up for, and the next one is early by what
it falls short. -/
theorem Throttle.decisions_of_paces (charging : Charging) {fast slow : Pace}
    (hle : fast.increment ≤ slow.increment) {jitter burst : Int} (hjitter : 0 ≤ jitter)
    (hburst : 1 ≤ burst)
    (hlimit : slow.limit = burstLimit fast.increment slow.increment jitter burst) {start : Int}
    (hstart : InRange start) :
    let t := shaper charging ⟨.opened fast start, some (.opened slow start)⟩
    let row := Event.paced start fast.increment
    let slack := slow.increment - fast.increment
    (∀ n : Nat, n ≤ burst ∨ slack = 0 → t.decisions (row n) = List.replicate n .taken) ∧
      (0 < slack → jitter + (burst - 1) * slack + slow.increment ≤ maxTick →
        ∀ n : Nat, n = burst + jitter / slack →
          t.decisions (row (n + 1)) = List.replicate n .taken ++
            [.early ((jitter / slack + 1) * slack - jitter) fast.resolution.frequency]) := by
  intro t row slack
  have hstep := fast.increment_nonneg
  have hbursts : (⟨.opened fast start, some (.opened slow start)⟩ : Shaper).Bursts fast slow start
      0 :=
    ⟨rfl, Engine.lags_opened fast hstep (Int.le_refl _) hstart, _, rfl, rfl,
      Engine.lags_opened slow hstep hle hstart⟩
  have hrun : ∀ n : Nat,
      (∀ k, k < n → lag fast.increment slow.increment k ≤ slow.limit) →
      ∃ s : Shaper, s.Bursts fast slow (start + n * fast.increment) n ∧ s.isAlarmed = false ∧
        ∀ more, t.decisions (row (n + more)) = List.replicate n .taken ++
          (shaper charging s).decisions
            (Event.paced (start + n * fast.increment) fast.increment more) := by
    intro n hlag
    obtain ⟨s, hs, hcalm, hdecisions⟩ := decisions_of_bursts charging hbursts rfl
      fun k hk => (Nat.zero_add k).symm ▸ hlag k hk
    rw [Nat.zero_add] at hs
    exact ⟨s, hs, hcalm, hdecisions⟩
  constructor
  · intro n hn
    have hlag : ∀ k, k < n → lag fast.increment slow.increment k ≤ slow.limit := by
      intro k hk
      rcases hn with hfew | hsame
      · rw [hlimit]
        exact lag_le_burstLimit hstep hle hjitter (by omega)
      · have hlimitNonneg := slow.limit_nonneg
        have hnone : slow.increment - fast.increment = 0 := hsame
        unfold lag
        rw [hnone, Int.mul_zero]
        omega
    obtain ⟨s, -, -, hdecisions⟩ := hrun n hlag
    have hall := hdecisions 0
    rwa [Nat.add_zero, Event.paced_zero, decisions, List.append_nil] at hall
  · intro hpos hfits n hn
    have hcount : (n : Int) = burst + jitter / (slow.increment - fast.increment) := hn
    have hlag : ∀ k, k < n → lag fast.increment slow.increment k ≤ slow.limit := by
      intro k hk
      rw [hlimit]
      exact lag_le_burstLimit_of_fits hpos hstep hjitter hburst hfits (by omega)
    obtain ⟨s, hs, hcalm, hdecisions⟩ := hrun n hlag
    have hover := lag_sub_burstLimit_of_fits hpos hstep hjitter hburst hfits hcount
    rw [← hlimit] at hover
    have hshort := (slack_le_jitter jitter hpos).2
    have hlast := offer_of_bursts_early charging hs hcalm (by omega) hover
    have hall := hdecisions 1
    rwa [Event.paced_succ, decisions, hlast] at hall

/-- The increments that a contract gives its engines are spans, and the sustained one is no
shorter. -/
theorem isSpan_increments (r : Resolution) (peakRate jitter rate burst : Int) :
    let peak := Emission.ofPeak r peakRate jitter
    let sustained := Emission.ofSustained r peakRate peak ⟨rate, burst⟩
    IsSpan peak.increment ∧ IsSpan sustained.increment ∧ peak.increment ≤ sustained.increment := by
  intro peak sustained
  refine ⟨r.isSpan_spacing peakRate, ?_, Emission.increment_le_ofSustained r peakRate peak _⟩
  rw [Emission.ofSustained_increment]
  exact r.isSpan_spacing _

/-- The limit that a contract gives its sustained engine. -/
theorem clampSpan_limit_ofSustained (r : Resolution) {peakRate jitter rate burst : Int}
    (hrate : 0 < rate) (hlt : rate < peakRate) (hjitter : 0 ≤ jitter) (hburst : 1 ≤ burst) :
    let peak := Emission.ofPeak r peakRate jitter
    let sustained := Emission.ofSustained r peakRate peak ⟨rate, burst⟩
    clampSpan sustained.limit =
      burstLimit peak.increment sustained.increment jitter burst := by
  intro peak sustained
  have hpeak : peak.limit = jitter := Int.max_eq_left hjitter
  have hslack : peak.increment ≤ sustained.increment :=
    Emission.increment_le_ofSustained r peakRate peak _
  have hproduct : 0 ≤ (burst - 1) * (sustained.increment - peak.increment) :=
    Int.mul_nonneg (by omega) (by omega)
  have hmax := maxTick_pos
  have hlimit : sustained.limit = if 1 < burst ∧ 0 < rate ∧ rate < peakRate then
      min maxTick (peak.limit + (burst - 1) * (sustained.increment - peak.increment))
      else peak.limit :=
    Emission.ofSustained_limit r peakRate jitter ⟨rate, burst⟩
  rw [hlimit, hpeak]
  unfold clampSpan burstLimit
  split
  · omega
  · -- a burst of a single event has no slack
    have hone : burst = 1 := by omega
    rw [hone, Int.sub_self, Int.zero_mul]
    omega

namespace Throttle

/-- **The largest burst.** Let the sustained rate of a contract be positive and below its peak rate.
When a throttle for the contract is opened, whatever it has been used for, and events come one peak
increment apart, then at least as many are taken in as the burst of the contract promises, and all
of them if the two increments are the same. If the sustained increment is longer and its limit does
not saturate, the jitter tolerance adds the events whose slack it makes up for, and the event after
these is early by what it falls short. -/
theorem maximum_burst {σ : Type} [Clock σ] (charging : Charging) (opening : Opening)
    {peakRate jitter rate burst : Int} (hrate : 0 < rate) (hlt : rate < peakRate)
    (hjitter : 0 ≤ jitter) (hburst : 1 ≤ burst) (env env' : Ambient σ) (requests : List Directed)
    {start : Int} (hstart : InRange start) :
    let r := charging.resolution
    let c := Contract.variableRate peakRate jitter rate burst
    let built := ((Blueprint.shaper charging opening c).build env).1
    let t := (built.serveAll requests env').1.2.resetAt start
    let peak := (c.emissions r).peak
    let row := Event.paced start peak.increment
    ∃ sustained, (c.emissions r).sustained = some sustained ∧
      let slack := sustained.increment - peak.increment
      0 ≤ slack ∧
      (∀ n : Nat, n ≤ burst ∨ slack = 0 → t.decisions (row n) = List.replicate n .taken) ∧
      (0 < slack → jitter + (burst - 1) * slack + sustained.increment ≤ maxTick →
        ∀ n : Nat, n = burst + jitter / slack →
          t.decisions (row (n + 1)) = List.replicate n .taken ++
            [.early ((jitter / slack + 1) * slack - jitter) r.frequency]) := by
  intro r c built t peak row
  let sustained := Emission.ofSustained r peakRate peak ⟨rate, burst⟩
  have hopened : t = shaper charging
      ⟨.opened (.clamped r peak.increment peak.limit) start,
        some (.opened (.clamped r sustained.increment sustained.limit) start)⟩ := by
    have hdesign : t = ((Blueprint.shaper charging opening c).design).opened start := by
      rw [← Blueprint.design_build _ env, ← design_serveAll _ requests env', ← resetAt_eq_opened]
    rw [hdesign]
    rfl
  have hincrements := isSpan_increments r peakRate jitter rate burst
  have hle : peak.increment ≤ sustained.increment := hincrements.2.2
  let fast := Pace.clamped r peak.increment peak.limit
  let slow := Pace.clamped r sustained.increment sustained.limit
  have hfast : fast.increment = peak.increment := clampSpan_of_isSpan hincrements.1
  have hslow : slow.increment = sustained.increment := clampSpan_of_isSpan hincrements.2.1
  have hlimit : slow.limit = burstLimit fast.increment slow.increment jitter burst := by
    rw [hfast, hslow]
    exact clampSpan_limit_ofSustained r hrate hlt hjitter hburst
  have hrow := decisions_of_paces charging (by rw [hfast, hslow]; exact hle) hjitter hburst hlimit
    hstart
  rw [hfast, hslow] at hrow
  rw [hopened]
  exact ⟨sustained, rfl, Int.sub_nonneg_of_le hle, hrow⟩

/-- The increments of this contract are 2000 and 5000 microseconds. After events that came all at
once its throttle is opened again. Its tolerance makes up for the slack of two events beyond the
burst of two, and falls short of the third by 2000 ticks. -/
theorem maximum_burst_of_two :
    let c := Contract.variableRate 500 7000 200 2
    let env : Ambient ScriptedClock := { clock := { nanos := 12345678, step := 9 } }
    let built := ((Blueprint.shaper .perEvent .onClock c).build env).1
    let requests : List Directed := [⟨[], .drive ⟨12345, 0, 4, .commit⟩⟩, ⟨[], .examineNow⟩]
    let used := (built.serveAll requests env).1.2
    used.delayAt 12345 = 10000 ∧
      (used.resetAt 40).decisions (Event.paced 40 2000 (4 + 1)) =
        List.replicate 4 .taken ++ [.early 2000 1000000] := by
  intro c env built requests used
  have hpeak : (Contract.emissions Charging.perEvent.resolution
      (.variableRate 500 7000 200 2)).peak.increment = 2000 := by decide
  obtain ⟨sustained, hsome, -, -, hlast⟩ := maximum_burst .perEvent .onClock
    (show (0 : Int) < 200 by decide) (show (200 : Int) < 500 by decide)
    (show (0 : Int) ≤ 7000 by decide) (show (1 : Int) ≤ 2 by decide) env env requests
    (show InRange 40 by decide)
  have hsustained : sustained.increment = 5000 := by
    cases hsome
    decide
  have hshort : ((7000 : Int) / (5000 - 2000) + 1) * (5000 - 2000) - 7000 = 2000 := by decide
  have hticks : Charging.perEvent.resolution.frequency = 1000000 := rfl
  rw [hsustained, hpeak, hshort, hticks] at hlast
  refine ⟨by decide, ?_⟩
  -- nothing is left to compute here, in particular not what the requests do
  with_reducible exact hlast (by decide) (by decide) 4 (by decide)

end Throttle

end AdmissionControl
