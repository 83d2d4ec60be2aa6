import AdmissionControl.Proofs.Throttle.Burst
import AdmissionControl.Proofs.Throttle.Expected

/-!
# How many events are taken in at once

The limit of an engine is a credit for events that come ahead of time. What is still to work off at
an instant is drawn from it, and idle time does not raise it: an engine that has been idle for long
has no more credit than its limit (`Engine.creditAt`). Of a row of events that all come at this
instant the first is taken in as long as the credit is not overdrawn, and each one that is taken in
draws one increment. So the credit is enough for one event, and for one more with each increment in
it (`Pace.capacity`), and the events after these are all early by what it is short of
(`Throttle.decisions_replicate`).

With `Engine.expected`, the instant from which events conform, the credit is the time since then, up
to the limit (`Throttle.burst_capacity`).
-/

namespace AdmissionControl

/-- The throttle after a row of events has been offered to it. -/
def Throttle.afterOffers (t : Throttle) : List Event → Throttle
  | [] => t
  | ev :: rest => (t.afterOffer ev.instant ev.units).afterOffers rest

/-! ### Credit -/

/-- For how many events at a time a credit is enough: for one if it is not overdrawn, and for one
more with each increment in it. -/
def Pace.capacity (p : Pace) (credit : Int) : Nat := (credit / p.increment + 1).toNat

/-- The decisions on some events that all come at once and find a credit: those that the credit is
enough for are taken in, and the others are early by what it is short of one more. -/
def Pace.decisionsOn (p : Pace) (credit : Int) (count : Nat) : List Decision :=
  List.replicate (min count (p.capacity credit)) .taken ++
    List.replicate (count - p.capacity credit)
      (.early (p.capacity credit * p.increment - credit) p.resolution.frequency)

/-- What the limit of an engine leaves at an instant for events that come ahead of time. It is
negative if the limit is overdrawn. -/
def Engine.creditAt (e : Engine) (instant : Int) : Int := e.pace.limit - max 0 (e.target - instant)

namespace Pace

variable {p : Pace} (hcost : 1 ≤ p.increment) {credit : Int}

include hcost

theorem capacity_of_neg (hneg : credit < 0) : p.capacity credit = 0 := by
  have hquotient : credit / p.increment < 0 := Int.ediv_neg_of_neg_of_pos hneg (by omega)
  unfold capacity
  omega

theorem capacity_of_nonneg (hcredit : 0 ≤ credit) :
    p.capacity credit = (credit / p.increment).toNat + 1 := by
  have hquotient : 0 ≤ credit / p.increment := Int.ediv_nonneg hcredit (by omega)
  unfold capacity
  omega

theorem decisionsOn_of_neg (hneg : credit < 0) (count : Nat) :
    p.decisionsOn credit count =
      List.replicate count (.early (-credit) p.resolution.frequency) := by
  unfold decisionsOn
  rw [capacity_of_neg hcost hneg, Nat.min_zero, Nat.sub_zero, Int.natCast_zero, Int.zero_mul,
    Int.zero_sub]
  rfl

theorem decisionsOn_of_nonneg (hcredit : 0 ≤ credit) (count : Nat) :
    let enough := (credit / p.increment).toNat + 1
    p.decisionsOn credit count = List.replicate (min count enough) .taken ++
      List.replicate (count - enough)
        (.early (enough * p.increment - credit) p.resolution.frequency) := by
  intro enough
  have henough : p.capacity credit = enough := capacity_of_nonneg hcost hcredit
  unfold decisionsOn
  rw [henough]

/-- An increment less is enough for one event less. -/
theorem capacity_eq_add_one (hcredit : 0 ≤ credit) :
    p.capacity credit = p.capacity (credit - p.increment) + 1 := by
  have hquotient : (credit - p.increment) / p.increment = credit / p.increment - 1 := by
    have hone := Int.add_mul_ediv_right credit (-1) (c := p.increment) (by omega)
    rwa [Int.neg_one_mul] at hone
  have hnonneg : 0 ≤ credit / p.increment := Int.ediv_nonneg hcredit (by omega)
  unfold capacity
  omega

/-- If the credit is overdrawn the first event is early, and the others find the same credit. -/
theorem decisionsOn_succ_of_neg (hneg : credit < 0) (count : Nat) :
    p.decisionsOn credit (count + 1) =
      .early (-credit) p.resolution.frequency :: p.decisionsOn credit count := by
  rw [decisionsOn_of_neg hcost hneg, decisionsOn_of_neg hcost hneg, List.replicate_succ]

/-- Otherwise the first event is taken in, and the others find an increment less. -/
theorem decisionsOn_succ_of_nonneg (hcredit : 0 ≤ credit) (count : Nat) :
    p.decisionsOn credit (count + 1) = .taken :: p.decisionsOn (credit - p.increment) count := by
  have henough := capacity_eq_add_one hcost hcredit
  have hshort : (p.capacity credit : Int) * p.increment - credit =
      (p.capacity (credit - p.increment) : Int) * p.increment - (credit - p.increment) := by
    rw [henough, Int.natCast_add, Int.natCast_one, Int.add_mul, Int.one_mul]
    omega
  unfold decisionsOn
  rw [hshort, henough, Nat.add_min_add_right, Nat.add_sub_add_right]
  rfl

end Pace

namespace Engine.ReadyAt

variable {e : Engine} {instant : Int}

/-- An event is early by what the credit is overdrawn. -/
theorem delayAt_eq_neg_creditAt (h : e.ReadyAt instant) :
    e.delayAt instant = max 0 (-e.creditAt instant) := by
  have hlimit := e.pace.limit_nonneg
  rw [h.delayAt_eq_max]
  unfold creditAt
  omega

/-- An event that is taken in draws one increment. -/
theorem creditAt_commitUnits_examine (h : e.ReadyAt instant)
    (hfits : e.pace.increment + e.pace.limit ≤ maxTick) (hcredit : 0 ≤ e.creditAt instant) :
    ((e.examine instant).commitUnits 1).creditAt instant =
      e.creditAt instant - e.pace.increment := by
  have hincrement := e.pace.increment_nonneg
  have htarget : ((e.examine instant).commitUnits 1).target = _ := h.target_commit_examine_eq
  unfold creditAt at hcredit ⊢
  rw [htarget, pace_commitUnits, pace_examine]
  omega

end Engine.ReadyAt

/-! ### Events that come at once -/

namespace Throttle

variable {charging : Charging} {e : Engine}

/-- **Events that come at once.** -/
theorem decisions_replicate {instant : Int} (h : e.ReadyAt instant) (hcalm : e.isAlarmed = false)
    (hcost : 1 ≤ e.pace.increment) (hfits : e.pace.increment + e.pace.limit ≤ maxTick)
    (count : Nat) :
    (engine charging e).decisions (List.replicate count ⟨instant, 1⟩) =
      e.pace.decisionsOn (e.creditAt instant) count := by
  induction count generalizing e with
  | zero =>
    unfold Pace.decisionsOn
    rw [Nat.zero_min, Nat.zero_sub]
    rfl
  | succ count ih =>
    have hfree := backoffFree_engine charging e
    have hdelay : (engine charging e).delayAt instant = max 0 (-e.creditAt instant) :=
      h.delayAt_eq_neg_creditAt
    rw [List.replicate_succ, decisions]
    rcases Int.lt_or_le (e.creditAt instant) 0 with hover | hcredit
    · have hearly : (engine charging e).delayAt instant = -e.creditAt instant := by omega
      have hrest := ih (h.examine instant) hcalm hcost hfits
      rw [hfree.offer_of_early hcalm hearly (by omega),
        Pace.decisionsOn_succ_of_neg hcost hover]
      exact congrArg (_ :: ·) hrest
    · have hzero : (engine charging e).delayAt instant = 0 := by omega
      have htaken := hfree.offer_of_delayAt_eq_zero hzero 1
      have hcalm' : ((e.examine instant).commitUnits 1).isAlarmed = false :=
        hfree.isAlarmed_commitUnits_examine hzero 1
      have hrest := ih (h.commitUnits_examine 1) hcalm' hcost hfits
      rw [h.creditAt_commitUnits_examine hfits hcredit] at hrest
      rw [htaken, Pace.decisionsOn_succ_of_nonneg hcost hcredit]
      exact congrArg (_ :: ·) hrest

end Throttle

/-! ### In service -/

/-- An engine that has been opened and used at no negative instants, and for events that conform
alone. -/
structure Engine.InService (e : Engine) (seen : Int) : Prop where
  readyAt : e.ReadyAt seen
  calm : e.isAlarmed = false
  nonneg : 0 ≤ seen
  minTick_le : minTick ≤ e.target - e.pace.limit

namespace Engine

theorem inService_resetAt {e : Engine} (hfits : e.pace.increment + e.pace.limit ≤ maxTick)
    {start : Int} (hstart : IsSpan start) : (e.resetAt start).InService start := by
  obtain ⟨hnonneg, hle⟩ := hstart
  have hmin := minTick_eq
  refine ⟨e.readyAt_resetAt (by omega), rfl, hnonneg, ?_⟩
  rw [e.target_resetAt hle, pace_resetAt]
  omega

namespace InService

variable {e : Engine} {seen instant : Int}

theorem mono (h : e.InService seen) (hle : seen ≤ instant) : e.InService instant :=
  ⟨h.readyAt.mono hle, h.calm, Int.le_trans h.nonneg hle, h.minTick_le⟩

/-- An engine in service takes in an event that conforms. -/
theorem commitUnits_examine (h : e.InService instant) (hzero : e.delayAt instant = 0)
    (units : Nat) : ((e.examine instant).commitUnits units).InService instant := by
  have hready := h.readyAt.commitUnits_examine units
  refine ⟨hready, (e.delayAt_eq_zero_iff instant).mp hzero, h.nonneg, ?_⟩
  have hnonneg := h.nonneg
  have hdebt := hready.isSpan_debt.1
  have hlimit := e.pace.limit_le
  have hmin := minTick_eq
  rw [target, last_commitUnits, now_examine, pace_commitUnits, pace_examine]
  omega

/-- The credit is the time since the engine has been expecting an event, up to the limit. -/
theorem creditAt_eq (h : e.InService seen) (hroom : e.target ≤ maxTick) (instant : Int) :
    e.creditAt instant = min e.pace.limit (instant - e.expected) := by
  have hlimit := e.pace.limit_nonneg
  have hlow := h.minTick_le
  have hrange : InRange e.target := ⟨by omega, hroom⟩
  rw [expected_eq_max hrange]
  unfold creditAt
  omega

end InService

end Engine

namespace Throttle

variable (charging : Charging) {e : Engine} {seen : Int}

/-- **One offer.** -/
theorem exists_afterOffer_eq (h : e.InService seen) {instant : Int} (hle : seen ≤ instant)
    (units : Nat) : ∃ used, (engine charging e).afterOffer instant units = engine charging used ∧
      used.pace = e.pace ∧ used.InService instant := by
  have hnow := h.mono hle
  unfold afterOffer
  by_cases hzero : e.delayAt instant = 0
  · rw [show (engine charging e).delayAt instant = 0 from hzero, if_pos rfl]
    exact ⟨_, rfl, rfl, hnow.commitUnits_examine hzero units⟩
  · have hne : (engine charging e).delayAt instant ≠ 0 := hzero
    rw [if_neg hne]
    exact ⟨_, rfl, rfl, hnow.readyAt.examine instant, hnow.calm, hnow.nonneg, hnow.minTick_le⟩

/-- **A row of offers.** -/
theorem exists_afterOffers_eq (h : e.InService seen) {events : List Event} {last : Event}
    (horder : Event.Chronological seen (events ++ [last])) :
    ∃ used, (engine charging e).afterOffers events = engine charging used ∧
      used.pace = e.pace ∧ used.InService last.instant := by
  induction events generalizing e seen with
  | nil => exact ⟨e, rfl, rfl, h.mono horder.cons.1⟩
  | cons ev rest ih =>
    obtain ⟨hseen, hrest⟩ := horder.cons
    obtain ⟨e', hafter, hpace, hservice⟩ := exists_afterOffer_eq charging h hseen ev.units
    obtain ⟨used, hafters, hpace', hlast⟩ := ih hservice hrest
    rw [afterOffers, hafter, hafters]
    exact ⟨used, rfl, hpace'.trans hpace, hlast⟩

/-- **Burst capacity.** Let an engine have a positive increment and let this and its limit together
be a tick count. It is opened, and then events are offered to it in the order of time. If its target
is a tick count, then of any number of events that come at once the following is decided. Before the
instant that the engine expects an event none is taken in, and all are early by the time that is
left. From then on the time that has passed since, up to the limit, is a credit that is enough for
one event, and for one more with each increment in it. The others are early by what it is short of
the next one. In particular an engine that has just been opened takes in one event, and one more
with each increment in its limit. -/
theorem burst_capacity (e : Engine) (hcost : 1 ≤ e.pace.increment)
    (hfits : e.pace.increment + e.pace.limit ≤ maxTick) {start : Int} (hstart : IsSpan start)
    {events : List Event} {instant : Int}
    (horder : Event.Chronological start (events ++ [⟨instant, 1⟩])) :
    let opened := (engine charging e).resetAt start
    let row (t : Throttle) (count : Nat) := t.decisions (List.replicate count ⟨instant, 1⟩)
    let early (delay : Int) := Decision.early delay e.frequency
    (∃ used, opened.afterOffers events = engine charging used ∧
      (used.last + used.debt ≤ maxTick → ∀ count : Nat,
        (instant < used.expected →
          row (engine charging used) count =
            List.replicate count (early (used.expected - instant))) ∧
        (used.expected ≤ instant →
          let credit := min e.pace.limit (instant - used.expected)
          let enough := (credit / e.pace.increment).toNat + 1
          row (engine charging used) count = List.replicate (min count enough) .taken ++
            List.replicate (count - enough) (early (enough * e.pace.increment - credit))))) ∧
    ∀ count : Nat,
      let enough := (e.pace.limit / e.pace.increment).toNat + 1
      row opened count = List.replicate (min count enough) .taken ++
        List.replicate (count - enough) (early (enough * e.pace.increment - e.pace.limit)) := by
  intro opened row early
  have hservice : (e.resetAt start).InService start := Engine.inService_resetAt hfits hstart
  have hlimit := e.pace.limit_nonneg
  constructor
  · obtain ⟨used, hafters, hsame, hused⟩ := exists_afterOffers_eq charging hservice horder
    have hpace : used.pace = e.pace := hsame
    refine ⟨used, hafters, fun hroom count => ?_⟩
    have hrow : row (engine charging used) count =
        used.pace.decisionsOn (used.creditAt instant) count :=
      decisions_replicate hused.readyAt hused.calm (hpace ▸ hcost) (hpace ▸ hfits) count
    rw [hused.creditAt_eq hroom, hpace] at hrow
    constructor
    · intro hbefore
      have hover : min e.pace.limit (instant - used.expected) = -(used.expected - instant) := by
        omega
      rw [hover, Pace.decisionsOn_of_neg hcost (by omega), Int.neg_neg] at hrow
      exact hrow
    · intro hsince credit enough
      exact hrow.trans (Pace.decisionsOn_of_nonneg hcost (by omega) count)
  · intro count enough
    have hlate : start ≤ instant := (List.pairwise_cons.mp horder).1 instant (by simp)
    have hopened := hservice.mono hlate
    have hcredit : (e.resetAt start).creditAt instant = e.pace.limit := by
      have htarget := e.target_resetAt hstart.2
      have hnonneg := hservice.nonneg
      have hmin := minTick_neg
      unfold Engine.creditAt
      rw [htarget, Engine.pace_resetAt]
      omega
    have hrow : row opened count =
        e.pace.decisionsOn ((e.resetAt start).creditAt instant) count :=
      decisions_replicate hopened.readyAt hopened.calm hcost hfits count
    rw [hcredit] at hrow
    exact hrow.trans (Pace.decisionsOn_of_nonneg hcost hlimit count)

/-- An engine that takes in two units and one more, and leaves the event after these, expects the
next one at 500. By 1700 its credit is enough for two events. An engine that has taken in nothing
has all of its limit for them, which is enough for three. -/
theorem burst_capacity_after_three_units :
    let e := Engine.opened (.clamped .microseconds 1000 2500) 7
    let t := (engine .perUnit e).resetAt 0
    let row : List Event := List.replicate 5 ⟨1700, 1⟩
    (t.afterOffers [⟨0, 2⟩, ⟨40, 1⟩, ⟨60, 1⟩]).decisions row =
        List.replicate 2 .taken ++ List.replicate 3 (.early 800 1000000) ∧
      t.decisions row = List.replicate 3 .taken ++ List.replicate 2 (.early 500 1000000) := by
  intro e t row
  have horder : Event.Chronological 0 ([⟨0, 2⟩, ⟨40, 1⟩, ⟨60, 1⟩] ++ [⟨1700, 1⟩]) := by
    unfold Event.Chronological
    decide
  obtain ⟨⟨used, hafters, hdecisions⟩, hopened⟩ :=
    burst_capacity .perUnit e (by decide) (by decide) isSpan_zero horder
  have hused : used = ⟨e.pace, 60, 40, ⟨2960, false⟩, ⟨2940, true⟩⟩ := by
    have hrun : t.afterOffers [⟨0, 2⟩, ⟨40, 1⟩, ⟨60, 1⟩] =
        engine .perUnit ⟨e.pace, 60, 40, ⟨2960, false⟩, ⟨2940, true⟩⟩ := by
      decide
    exact (Throttle.engine.inj (hafters.symm.trans hrun)).2
  have hexpected : used.expected = 500 := by rw [hused]; decide
  have hroom : used.last + used.debt ≤ maxTick := by rw [hused]; decide
  have hrow := (hdecisions hroom 5).2 (by rw [hexpected]; decide)
  have hfresh := hopened 5
  have hcredit : min e.pace.limit (1700 - 500) = 1200 := by decide
  have htwo : (1200 / e.pace.increment).toNat + 1 = 2 := by decide
  have hthree : (e.pace.limit / e.pace.increment).toNat + 1 = 3 := by decide
  rw [hexpected, hcredit] at hrow
  dsimp only at hrow hfresh
  rw [htwo] at hrow
  rw [hthree] at hfresh
  exact ⟨(congrArg (decisions · row) hafters).trans hrow, hfresh⟩

end Throttle

end AdmissionControl
