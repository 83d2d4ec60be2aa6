import AdmissionControl.Engine

/-!
# The target of an engine

An engine keeps the instant of the event that it took in last and a debt that is counted from
there. Their sum `Engine.target` is the instant by which everything taken in so far is worked off.
It is an exact integer, which no saturation bounds, and as long as instants do not go back it says
all that matters about an engine: how much debt an event finds (`Engine.debt_scheduleAt`), by how
much it is early (`Engine.delayAt_eq_max`), and what is left to work off after it has been taken in
(`Engine.target_commitUnits_examine`).

The three hold for an engine that is in order at the instant (`Engine.ReadyAt`), as it is when it
has been opened there or earlier and no later event has been taken in.
-/

namespace AdmissionControl

namespace Engine

/-- The instant by which all events that were taken in are worked off. -/
def target (e : Engine) : Int := e.last + e.committed.debt

/-- The engine is in order for an event at an instant: it has taken in nothing later, and its debt
is a span. -/
structure ReadyAt (e : Engine) (instant : Int) : Prop where
  last_le : e.last ≤ instant
  isSpan_debt : IsSpan e.committed.debt

@[simp] theorem target_examine (e : Engine) (instant : Int) :
    (e.examine instant).target = e.target := rfl

theorem ReadyAt.mono {e : Engine} {a b : Int} (h : e.ReadyAt a) (hab : a ≤ b) : e.ReadyAt b :=
  ⟨Int.le_trans h.last_le hab, h.isSpan_debt⟩

/-! ### What an event finds -/

/-- The time since the last event is exact up to the largest tick, which no debt exceeds. -/
theorem ReadyAt.elapsed_eq {e : Engine} {instant : Int} (h : e.ReadyAt instant) :
    satSub instant e.last = min (instant - e.last) maxTick := by
  have hlast := h.last_le
  have hmin := minTick_neg
  have hmax := maxTick_pos
  unfold satSub saturate
  omega

/-- An event finds the part of the debt that is not worked off by then. -/
theorem ReadyAt.debt_scheduleAt {e : Engine} {instant : Int} (h : e.ReadyAt instant) :
    (e.scheduleAt instant).debt = max 0 (e.target - instant) := by
  obtain ⟨hnonneg, hle⟩ := h.isSpan_debt
  have hlast := h.last_le
  have hmin := minTick_eq
  rw [debt_scheduleAt_eq_max, h.elapsed_eq]
  unfold target satSub saturate
  omega

/-- An event is early by what is left to work off beyond the limit. -/
theorem ReadyAt.delayAt_eq_max {e : Engine} {instant : Int} (h : e.ReadyAt instant) :
    e.delayAt instant = max 0 (e.target - e.pace.limit - instant) := by
  have hlimit := e.pace.limit_nonneg
  rw [delayAt_eq_max_debt, h.debt_scheduleAt]
  omega

/-- Waiting works off the delay tick by tick. -/
theorem ReadyAt.delayAt_add {e : Engine} {instant wait : Int} (h : e.ReadyAt instant)
    (hwait : 0 ≤ wait) : e.delayAt (instant + wait) = max 0 (e.delayAt instant - wait) := by
  have hlater : e.ReadyAt (instant + wait) := h.mono (by omega)
  rw [h.delayAt_eq_max, hlater.delayAt_eq_max]
  omega

/-! ### What any event finds -/

/-- In whatever order instants come, a delay is the debt that the saturated time leaves, beyond the
limit. -/
theorem delayAt_eq_max_satSub (e : Engine) (instant : Int) :
    e.delayAt instant =
      max 0 (satSub e.committed.debt (satSub instant e.last) - e.pace.limit) := by
  have hlimit := e.pace.limit_nonneg
  rw [delayAt_eq_max_debt, debt_scheduleAt_eq_max]
  omega

/-- At an instant that is not negative an event finds what is left to the target, moved to the
nearest span, also where instants go back. -/
theorem scheduleAt_of_nonneg {e : Engine} {instant : Int} (hlast : e.last ≤ maxTick)
    (hspan : IsSpan e.committed.debt) (hinstant : 0 ≤ instant) :
    e.scheduleAt instant = ⟨clampSpan (e.target - instant),
      decide (e.pace.limit < clampSpan (e.target - instant))⟩ := by
  obtain ⟨hnonneg, hdebt⟩ := hspan
  have hmin := minTick_eq
  have hmax := maxTick_pos
  have hfound : (e.scheduleAt instant).debt = clampSpan (e.target - instant) := by
    rw [debt_scheduleAt_eq_max]
    unfold satSub saturate clampSpan target
    omega
  rw [← hfound, ← alarmed_scheduleAt_eq]

/-- A later event is never earlier for the engine. -/
theorem delayAt_anti (e : Engine) {a b : Int} (h : a ≤ b) : e.delayAt b ≤ e.delayAt a := by
  have helapsed : satSub a e.last ≤ satSub b e.last := saturate_mono (by omega)
  have hdebt : satSub e.committed.debt (satSub b e.last) ≤
      satSub e.committed.debt (satSub a e.last) := saturate_mono (by omega)
  rw [delayAt_eq_max_satSub, delayAt_eq_max_satSub]
  omega

/-- An event finds a span of debt, in whatever order instants come. -/
theorem isSpan_debt_scheduleAt (e : Engine) (instant : Int) :
    IsSpan (e.scheduleAt instant).debt := by
  have hle : satSub e.committed.debt (satSub instant e.last) ≤ maxTick := (inRange_saturate _).2
  rw [debt_scheduleAt_eq_max]
  exact ⟨Int.le_max_left _ _, Int.max_le.mpr ⟨Int.le_of_lt maxTick_pos, hle⟩⟩

/-! ### What taking an event in adds -/

theorem mul_increment_nonneg (p : Pace) (units : Nat) : 0 ≤ (units : Int) * p.increment :=
  Int.mul_nonneg (Int.natCast_nonneg units) p.increment_nonneg

/-- More units than fit cost more than a tick count holds, unless units cost nothing. -/
theorem maxTick_lt_mul_increment {p : Pace} {units : Nat} (hunits : p.unitsMax < units)
    (hcost : 0 < p.increment) : maxTick < (units : Int) * p.increment := by
  unfold Pace.unitsMax at hunits
  rw [if_pos hcost] at hunits
  exact (Int.ediv_lt_iff_lt_mul hcost).mp hunits

/-- The debt after a charge is the exact sum, up to the largest tick. -/
theorem debtAfter_eq_min {e : Engine} {units : Nat}
    (hunits : 0 < e.pace.increment ∨ (units : Int) ≤ maxTick) (hdebt : 0 ≤ e.tentative.debt) :
    e.debtAfter units = min (e.tentative.debt + units * e.pace.increment) maxTick := by
  unfold debtAfter
  by_cases hmany : e.pace.unitsMax < units
  · rw [if_pos hmany]
    -- events that cost nothing are allowed as many units as there are ticks
    have hcost : 0 < e.pace.increment := by
      rcases hunits with hcost | hfew
      · exact hcost
      · rcases Int.lt_or_le 0 e.pace.increment with hcost | hfree
        · exact hcost
        · unfold Pace.unitsMax at hmany
          rw [if_neg (Int.not_lt.mpr hfree)] at hmany
          omega
    have hlarge := maxTick_lt_mul_increment hmany hcost
    omega
  · rw [if_neg hmany]
    dsimp only
    split <;> omega

/-- A charge never falls short of the exact sum, up to the largest tick. -/
theorem min_le_debtAfter (e : Engine) (units : Nat) :
    min (e.tentative.debt + units * e.pace.increment) maxTick ≤ e.debtAfter units := by
  unfold debtAfter
  split
  · omega
  · dsimp only
    split <;> omega

/-- The debt after a charge is a span. -/
theorem isSpan_debtAfter {e : Engine} (units : Nat) (hdebt : 0 ≤ e.tentative.debt) :
    IsSpan (e.debtAfter units) := by
  have hcharge := mul_increment_nonneg e.pace units
  have hmax := maxTick_pos
  have hle := e.min_le_debtAfter units
  refine ⟨by omega, ?_⟩
  unfold debtAfter
  split
  · omega
  · dsimp only
    split <;> omega

/-! ### The engine after an event -/

theorem ReadyAt.examine {e : Engine} {seen : Int} (h : e.ReadyAt seen) (instant : Int) :
    (e.examine instant).ReadyAt seen :=
  ⟨h.last_le, h.isSpan_debt⟩

theorem ReadyAt.tentative_debt_nonneg {e : Engine} {instant : Int} (h : e.ReadyAt instant) :
    0 ≤ (e.examine instant).tentative.debt := by
  rw [tentative_examine, h.debt_scheduleAt]
  exact Int.le_max_left _ _

/-- An engine that has taken in an event is in order from then on. -/
theorem ReadyAt.commitUnits_examine {e : Engine} {instant : Int} (h : e.ReadyAt instant)
    (units : Nat) : ((e.examine instant).commitUnits units).ReadyAt instant :=
  ⟨Int.le_refl instant, isSpan_debtAfter units h.tentative_debt_nonneg⟩

theorem target_commitUnits_examine (e : Engine) (instant : Int) (units : Nat) :
    ((e.examine instant).commitUnits units).target =
      instant + (e.examine instant).debtAfter units := rfl

/-- An event moves the target on by all of its increments, counted from the event itself if the
target has passed, as long as no more than the largest tick is then left to work off. -/
theorem ReadyAt.target_commitUnits_examine_eq {e : Engine} {instant : Int} (h : e.ReadyAt instant)
    {units : Nat} (hunits : 0 < e.pace.increment ∨ (units : Int) ≤ maxTick) :
    ((e.examine instant).commitUnits units).target =
      instant + min (max 0 (e.target - instant) + units * e.pace.increment) maxTick := by
  have hdebt : (e.examine instant).tentative.debt = max 0 (e.target - instant) :=
    h.debt_scheduleAt
  have hcharged : (e.examine instant).debtAfter units =
      min ((e.examine instant).tentative.debt + units * e.pace.increment) maxTick :=
    debtAfter_eq_min hunits h.tentative_debt_nonneg
  rw [target_commitUnits_examine, hcharged, hdebt]

/-- An event of a single unit moves the target on by one increment. -/
theorem ReadyAt.target_commit_examine_eq {e : Engine} {instant : Int} (h : e.ReadyAt instant) :
    (e.examine instant).commit.target =
      instant + min (max 0 (e.target - instant) + e.pace.increment) maxTick := by
  have hone : 0 < e.pace.increment ∨ ((1 : Nat) : Int) ≤ maxTick := .inr (by decide)
  have htarget := h.target_commitUnits_examine_eq hone
  rwa [Int.natCast_one, Int.one_mul] at htarget

/-! ### Events that conform -/

/-- An event that conforms comes no more than the limit ahead of the target. -/
theorem ReadyAt.target_le_of_delayAt_le_zero {e : Engine} {instant : Int}
    (h : e.ReadyAt instant) (hdelay : e.delayAt instant ≤ 0) :
    e.target ≤ instant + e.pace.limit := by
  rw [h.delayAt_eq_max] at hdelay
  omega

/-- An event that conforms moves the target on by all of its increments, as long as these and the
limit together are a tick count. -/
theorem ReadyAt.le_target_commitUnits_examine {e : Engine} {instant : Int}
    (h : e.ReadyAt instant) (hdelay : e.delayAt instant ≤ 0) {units : Nat}
    (hfits : (units : Int) * e.pace.increment + e.pace.limit ≤ maxTick) :
    max e.target instant + units * e.pace.increment ≤
      ((e.examine instant).commitUnits units).target := by
  have htarget := h.target_le_of_delayAt_le_zero hdelay
  have hlimit := e.pace.limit_nonneg
  have hdebt : (e.examine instant).tentative.debt = max 0 (e.target - instant) :=
    h.debt_scheduleAt
  have hcharged : min ((e.examine instant).tentative.debt + units * e.pace.increment) maxTick ≤
      (e.examine instant).debtAfter units := (e.examine instant).min_le_debtAfter units
  rw [hdebt] at hcharged
  rw [target_commitUnits_examine]
  omega

/-! ### The engine as new -/

/-- An engine is in order at the instant at which it opens. -/
theorem readyAt_resetAt (e : Engine) {start : Int} (hstart : minTick ≤ start) :
    (e.resetAt start).ReadyAt start := by
  have hincrement := e.pace.increment_nonneg
  refine ⟨?_, isSpan_zero⟩
  rw [last_resetAt]
  unfold satSub saturate
  omega

/-- An engine that opens has worked everything off one increment ago. -/
theorem target_resetAt (e : Engine) {start : Int} (hstart : start ≤ maxTick) :
    (e.resetAt start).target = max (start - e.pace.increment) minTick := by
  have hincrement := e.pace.increment_nonneg
  rw [target, last_resetAt, committed_resetAt, Int.add_zero]
  unfold satSub saturate
  omega

end Engine

end AdmissionControl
