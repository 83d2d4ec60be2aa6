import AdmissionControl.Proofs.Engine.Target

/-!
# Emissions in parts

An emission of many units may be taken in as a whole, or in parts that come at the same instant. The
second part finds all of the debt that the first one has left (`Engine.debt_scheduleAt_emit`), and
both charges together are the charge of the whole, wherever the debt comes to the largest tick on
the way. So nothing depends on how an emission is divided, as long as its units cost something.

Units that cost nothing are the exception. As a whole they are free up to the largest tick, and more
of them are charged as much as any debt can be, so that an emission beyond this bound is free only
in parts. `Engine.emission_in_parts_iff` says that this is the one case in which the division of an
emission is seen.
-/

namespace AdmissionControl

namespace Engine

/-- The engine that examines an event of `units` units at an instant and takes it in, early or
not. -/
def emit (e : Engine) (instant : Int) (units : Nat) : Engine :=
  (e.examine instant).commitUnits units

section

variable (e : Engine) (instant : Int)

@[simp] theorem pace_emit (units : Nat) : (e.emit instant units).pace = e.pace := rfl

@[simp] theorem target_emit (units : Nat) :
    (e.emit instant units).target = instant + (e.emit instant units).debt := rfl

@[simp] theorem expected_emit (units : Nat) : (e.emit instant units).expected =
    satSub (satAdd instant (e.emit instant units).debt) e.pace.limit := rfl

/-- Whatever has been done with an engine, it is in order at the instant of an event that it has
taken in. -/
theorem readyAt_emit (units : Nat) : (e.emit instant units).ReadyAt instant :=
  ⟨Int.le_refl instant, isSpan_debtAfter units (e.isSpan_debt_scheduleAt instant).1⟩

/-- Nothing has been worked off yet for another event at the same instant. -/
theorem debt_scheduleAt_emit (units : Nat) :
    ((e.emit instant units).scheduleAt instant).debt = (e.emit instant units).debt := by
  have hready := e.readyAt_emit instant units
  have hnonneg : 0 ≤ (e.emit instant units).debt := hready.isSpan_debt.1
  rw [hready.debt_scheduleAt, target_emit]
  omega

/-- The debt that an emission leaves is the exact sum, up to the largest tick, unless the units cost
nothing and are more than a tick count. -/
theorem debt_emit (units : Nat) :
    (e.emit instant units).debt =
      if e.pace.increment = 0 ∧ maxTick < units then maxTick
      else min ((e.scheduleAt instant).debt + units * e.pace.increment) maxTick := by
  have hnonneg := e.pace.increment_nonneg
  rw [emit, debt_commitUnits]
  split
  · next hmany =>
    obtain ⟨hfree, hmany⟩ := hmany
    have hbound : (e.examine instant).pace.unitsMax = maxTick := if_neg (by simp [hfree])
    rw [debtAfter, hbound, if_pos hmany]
  · next hfew =>
    have hunits : 0 < (e.examine instant).pace.increment ∨ (units : Int) ≤ maxTick := by
      rw [pace_examine]
      omega
    exact debtAfter_eq_min hunits (e.isSpan_debt_scheduleAt instant).1

/-- A second emission at the same instant is charged on top of the debt that the first one
leaves. -/
theorem debt_emit_emit (a b : Nat) :
    ((e.emit instant a).emit instant b).debt =
      if e.pace.increment = 0 ∧ maxTick < b then maxTick
      else min ((e.emit instant a).debt + b * e.pace.increment) maxTick := by
  rw [debt_emit, debt_scheduleAt_emit, pace_emit]

end

/-- **Emissions in parts.** Whatever has been done with an engine, two emissions at the same instant
leave the debt, and with it the instant from which events conform, that a single one of all their
units leaves. The only exception are units that cost nothing: each part is free, but together they
are more than a tick count, so that the debt comes to the largest tick, where it was not before. -/
theorem emission_in_parts_iff (e : Engine) (instant : Int) (a b : Nat) :
    let parts := (e.emit instant a).emit instant b
    let whole := e.emit instant (a + b)
    (parts.debt = whole.debt ∧ parts.expected = whole.expected) ↔
      ¬ (e.pace.increment = 0 ∧ (a ≤ maxTick ∧ b ≤ maxTick ∧ maxTick < a + b) ∧
        (e.scheduleAt instant).debt < maxTick) := by
  intro parts whole
  have hexpected : parts.debt = whole.debt → parts.expected = whole.expected := by
    intro hdebt
    unfold parts whole at hdebt ⊢
    rw [expected_emit, expected_emit, hdebt, pace_emit]
  rw [and_iff_left_of_imp hexpected]
  have hspan := e.isSpan_debt_scheduleAt instant
  unfold parts whole
  rw [debt_emit_emit, debt_emit, debt_emit, Int.natCast_add]
  by_cases hfree : e.pace.increment = 0
  · -- nothing is ever added here, so that only the numbers of units matter
    have hbelow : min (e.scheduleAt instant).debt maxTick = (e.scheduleAt instant).debt :=
      Int.min_eq_left hspan.2
    simp only [hfree, true_and, Int.mul_zero, Int.add_zero, hbelow]
    constructor
    · rintro hsame ⟨⟨ha, hb, hsum⟩, hlt⟩
      rw [if_neg (by omega), if_neg (by omega), if_pos (by omega)] at hsame
      omega
    · intro hbounds
      split <;> split <;> omega
  · -- the bound is met once, by the first charge, by the second one, or by their sum
    have hcost := mul_increment_nonneg e.pace b
    simp only [hfree, false_and, not_false_eq_true, iff_true, if_false, Int.add_mul]
    omega

/-- The emission of this engine is free in two parts. As a whole it leaves the largest debt that
there is. -/
theorem free_emission_charged_as_whole :
    let e := (opened (.clamped .microseconds 0 0) 0).resetAt 0
    ((e.emit 0 9223372036854775807).emit 0 1).debt = 0 ∧
      (e.emit 0 (9223372036854775807 + 1)).debt = maxTick ∧
      ((e.emit 0 9223372036854775807).emit 0 1).expected = 0 ∧
      (e.emit 0 (9223372036854775807 + 1)).expected = maxTick := by
  decide

end Engine

end AdmissionControl
