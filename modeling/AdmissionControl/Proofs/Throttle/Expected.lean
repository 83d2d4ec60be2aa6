import AdmissionControl.Proofs.Throttle.Invariants

/-!
# The instant from which events conform

`Engine.expected` names the earliest instant at which the next event conforms: the target of the
engine less its limit. The target is not a tick count in general. Where an engine has no end between
its events, or its clock is near the end of its range, the target lies beyond the largest tick, and
`expected` takes the limit off the largest tick instead. The instant that it gives is then early by
what was cut off, although the true one is a tick count. `Throttle.conforms_from_expected_iff` says
that nothing else goes wrong with it: as long as the target is a tick count, the events that conform
are those from `expected` on, in whatever order instants have come, and at both ends of the range.
-/

namespace AdmissionControl

/-- An action at an instant that is a tick count, or at none. -/
def Action.Bounded : Action → Prop
  | .resetAt instant | .examine instant => InRange instant
  | .commit | .commitUnits _ | .rollback => True

instance (a : Action) : Decidable a.Bounded :=
  match a with
  | .resetAt instant | .examine instant => inferInstanceAs (Decidable (InRange instant))
  | .commit | .commitUnits _ | .rollback => inferInstanceAs (Decidable True)

namespace Engine

/-- The instants that an engine keeps are tick counts, and its debts are spans. -/
structure Bounded (e : Engine) : Prop where
  sound : e.Sound
  now : InRange e.now
  last : InRange e.last

theorem bounded_resetAt (e : Engine) {start : Int} (hstart : InRange start) :
    (e.resetAt start).Bounded :=
  ⟨e.sound_resetAt start, hstart, inRange_saturate _⟩

/-- **One action.** -/
theorem Bounded.act {e : Engine} (h : e.Bounded) {a : Action} (ha : a.Bounded) :
    (e.act a).Bounded := by
  have hsound := h.sound.act a
  cases a with
  | resetAt start => exact e.bounded_resetAt ha
  | examine instant => exact ⟨hsound, ha, h.last⟩
  | commit | commitUnits _ => exact ⟨hsound, h.now, h.now⟩
  | rollback => exact h

/-- As long as the target is a tick count, nothing is cut off but at the lower end of the range. -/
theorem expected_eq_max {e : Engine} (htarget : InRange e.target) :
    e.expected = max minTick (e.target - e.pace.limit) := by
  have hsum : satAdd e.last e.debt = e.target := saturate_of_inRange htarget
  have hhigh := htarget.2
  have hlimit := e.pace.limit_nonneg
  rw [expected, hsum]
  unfold satSub saturate
  omega

section

variable {e : Engine} (h : e.Bounded)

include h

theorem Bounded.expected_eq (hroom : e.target ≤ maxTick) :
    e.expected = max minTick (e.target - e.pace.limit) := by
  have hlow := h.last.1
  have hdebt := h.sound.committed.1
  exact expected_eq_max ⟨by unfold target; omega, hroom⟩

/-- An event at an instant that is not negative conforms if what the time since the last event
leaves of the debt is within the limit. The time is exact as far as it matters. -/
theorem Bounded.delayAt_eq_zero_iff_of_nonneg {instant : Int} (hinstant : 0 ≤ instant) :
    e.delayAt instant = 0 ↔ min maxTick (e.target - instant) ≤ e.pace.limit := by
  have hlimit := e.pace.limit_nonneg
  rw [delayAt_eq_zero_iff, scheduleAt_of_nonneg h.last.2 h.sound.committed hinstant,
    decide_eq_false_iff_not]
  unfold clampSpan
  omega

/-- **The events that conform are those from `expected` on**, if the target is a tick count. -/
theorem Bounded.delayAt_eq_zero_iff_expected_le (hroom : e.target ≤ maxTick) {instant : Int}
    (hinstant : 0 ≤ instant) : e.delayAt instant = 0 ↔ e.expected ≤ instant := by
  have hmin := minTick_neg
  rw [h.delayAt_eq_zero_iff_of_nonneg hinstant, h.expected_eq hroom]
  omega

/-- The event at `expected` conforms, also where that instant is negative or has been cut off. -/
theorem Bounded.delayAt_expected (hroom : e.target ≤ maxTick) : e.delayAt e.expected = 0 := by
  obtain ⟨hlow, hhigh⟩ := h.last
  obtain ⟨hnonneg, hdebt⟩ := h.sound.committed
  have hlimit := e.pace.limit_nonneg
  have hlimitMax := e.pace.limit_le
  have hmin := minTick_eq
  have helapsed : satSub e.expected e.last = e.expected - e.last := by
    rw [h.expected_eq hroom]
    refine saturate_of_inRange ⟨?_, ?_⟩ <;>
    · unfold target
      omega
  have hleft : e.committed.debt - (e.expected - e.last) ≤ e.pace.limit := by
    rw [h.expected_eq hroom]
    unfold target
    omega
  rw [delayAt_eq_max_satSub, helapsed]
  unfold satSub saturate
  omega

/-- An event at `expected` is early where the target has been cut off, but for an engine with the
largest limit there is. -/
theorem Bounded.delayAt_expected_ne_zero (hcut : maxTick < e.target)
    (hlimit : e.pace.limit < maxTick) : e.delayAt e.expected ≠ 0 := by
  have hnonneg := e.pace.limit_nonneg
  have hsum : satAdd e.last e.debt = maxTick := saturate_of_ge (Int.le_of_lt hcut)
  have hexpected : e.expected = maxTick - e.pace.limit := by
    have hrange : InRange (maxTick - e.pace.limit) := by
      have hmin := minTick_neg
      exact ⟨by omega, by omega⟩
    rw [expected, hsum]
    exact saturate_of_inRange hrange
  have hinstant : 0 ≤ e.expected := by omega
  rw [ne_eq, h.delayAt_eq_zero_iff_of_nonneg hinstant]
  omega

end

/-- With the largest limit there is every event conforms, and `expected` is not after the origin of
time. -/
theorem conforms_of_limit_eq {e : Engine} (hlimit : e.pace.limit = maxTick) :
    (∀ instant, e.delayAt instant = 0) ∧ e.expected ≤ 0 := by
  constructor
  · intro instant
    have hle : satSub e.committed.debt (satSub instant e.last) ≤ maxTick := (inRange_saturate _).2
    rw [delayAt_eq_max_satSub, hlimit]
    omega
  · have hle : satAdd e.last e.debt ≤ maxTick := (inRange_saturate _).2
    rw [expected, hlimit]
    exact saturate_nonpos (Int.sub_nonpos_of_le hle)

end Engine

namespace Throttle

/-- **The instant from which events conform.** Let a throttle be opened, and let anything be done to
it at instants that are tick counts, in whatever order. For an engine in it the event at `expected`
conforms, and of the events at instants that are not negative those conform that are not before it,
if and only if the target of the engine is a tick count or its limit is the largest one. -/
theorem conforms_from_expected_iff (t : Throttle) {start : Int} (hstart : InRange start)
    {actions : List Action} (hactions : ∀ a ∈ actions, a.Bounded) {charging : Charging} {e : Engine}
    (he : engine charging e ∈ ((t.resetAt start).run actions).2.leaves) :
    (e.delayAt e.expected = 0 ∧
        ∀ instant, 0 ≤ instant → (e.delayAt instant = 0 ↔ e.expected ≤ instant)) ↔
      (e.last + e.debt ≤ maxTick ∨ e.pace.limit = maxTick) := by
  have hopened : (t.resetAt start).ForallEngines Engine.Bounded :=
    t.forallEngines_resetAt fun e => e.bounded_resetAt hstart
  have hbounded : e.Bounded :=
    hopened.run_of_forall_mem (fun a ha _ he => he.act (hactions a ha)) charging e he
  constructor
  · rintro ⟨hconforms, -⟩
    rcases Int.lt_or_le maxTick e.target with hcut | hroom
    · refine .inr (Int.le_antisymm e.pace.limit_le (Int.not_lt.mp fun hnarrow => ?_))
      exact hbounded.delayAt_expected_ne_zero hcut hnarrow hconforms
    · exact .inl hroom
  · rintro (hroom | hlimit)
    · exact ⟨hbounded.delayAt_expected hroom, fun instant hinstant =>
        hbounded.delayAt_eq_zero_iff_expected_le hroom hinstant⟩
    · obtain ⟨hall, horigin⟩ := Engine.conforms_of_limit_eq hlimit
      refine ⟨hall _, fun instant hinstant => ?_⟩
      exact iff_of_true (hall instant) (Int.le_trans horigin hinstant)

/-- The engine of a compound that has taken in two events, one of them early, and has looked at an
instant before both. The events that conform to it are those from 1750 on. -/
theorem conforms_from_expected_of_early_event :
    let t := compound (engine .perEvent (.opened (.clamped .microseconds 1000 250) 0)) absent
    let actions : List Action := [.examine 0, .commit, .examine 10, .commit, .examine minTick]
    let e : Engine :=
      { pace := .clamped .microseconds 1000 250, now := minTick, last := 10,
        committed := ⟨1990, true⟩, tentative := ⟨maxTick, true⟩ }
    InRange 0 ∧ (∀ a ∈ actions, a.Bounded) ∧
      engine .perEvent e ∈ ((t.resetAt 0).run actions).2.leaves ∧ e.expected = 1750 ∧
      e.delayAt 1750 = 0 ∧ ∀ instant, 0 ≤ instant → (e.delayAt instant = 0 ↔ 1750 ≤ instant) := by
  intro t actions e
  have hstart : InRange 0 := by decide
  have hactions : ∀ a ∈ actions, a.Bounded := by decide
  have he : engine .perEvent e ∈ ((t.resetAt 0).run actions).2.leaves := by decide
  have hexpected : e.expected = 1750 := by decide
  have hroom : e.last + e.debt ≤ maxTick ∨ e.pace.limit = maxTick := by decide
  have hconforms := (conforms_from_expected_iff t hstart hactions he).mpr hroom
  rw [hexpected] at hconforms
  exact ⟨hstart, hactions, he, hexpected, hconforms⟩

/-- The target of this engine is ten ticks beyond the largest tick. The event at `expected` is early
by just these ten, and the first one that conforms comes ten ticks later. -/
theorem expected_too_early_without_end :
    let opened := (Engine.opened (.clamped .microseconds maxTick 250) 0).resetAt 10
    let e := (opened.examine 10).commit
    e.expected = maxTick - 250 ∧ e.expected < maxTick ∧ e.delayAt e.expected = 10 ∧
      e.delayAt (maxTick - 241) = 1 ∧ e.delayAt (maxTick - 240) = 0 := by
  decide

end Throttle

end AdmissionControl
