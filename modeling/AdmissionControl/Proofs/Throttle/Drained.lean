import AdmissionControl.Proofs.Throttle.Checks
import AdmissionControl.Proofs.Throttle.Invariants

/-!
# Drained throttles

An engine is drained by an instant if all that it has taken in is worked off by then. An event at
that instant finds nothing left, whether the engine was alarmed or not, so it is in time. Once it is
taken in, the engine is the one that would have come about if it had been opened at that very
instant (`Engine.DrainedAt.commitUnits_examine_resetAt`). Until then the two are not the same, and a
rollback or a commit out of turn would tell them apart: it takes an offer, which examines the event
and takes it in, to make them one (`Throttle.DrainedAt.offer_resetAt`).
-/

namespace AdmissionControl

/-! ### Engines -/

namespace Engine

variable {e : Engine} {instant : Int}

/-- All that the engine has taken in is worked off by an instant. -/
structure DrainedAt (e : Engine) (instant : Int) : Prop where
  isSpan_debt : IsSpan e.committed.debt
  target_le : e.target ≤ instant

theorem DrainedAt.readyAt (h : e.DrainedAt instant) : e.ReadyAt instant where
  isSpan_debt := h.isSpan_debt
  last_le := by
    have htarget := h.target_le
    have hdebt := h.isSpan_debt.1
    unfold target at htarget
    omega

/-- A drained engine has nothing to show to an event. -/
theorem DrainedAt.scheduleAt_eq (h : e.DrainedAt instant) : e.scheduleAt instant = {} := by
  have helapsed := h.readyAt.elapsed_eq
  have htarget := h.target_le
  have hdebt := h.isSpan_debt.2
  unfold target at htarget
  exact if_pos (by omega)

theorem DrainedAt.delayAt_eq_zero (h : e.DrainedAt instant) : e.delayAt instant = 0 := by
  rw [e.delayAt_eq_zero_iff, h.scheduleAt_eq]

theorem drainedAt_resetAt (e : Engine) {start : Int} (hstart : InRange start) :
    (e.resetAt start).DrainedAt start where
  isSpan_debt := (e.sound_resetAt start).committed
  target_le := by
    have hincrement := e.pace.increment_nonneg
    have hlow := hstart.1
    rw [e.target_resetAt hstart.2]
    omega

/-- **A drained engine is as good as new.** When an event is taken in, it becomes what it would be
if it had been opened at the instant of the event. -/
theorem DrainedAt.commitUnits_examine_resetAt (h : e.DrainedAt instant) (hinstant : InRange instant)
    (units : Nat) :
    ((e.resetAt instant).examine instant).commitUnits units =
      (e.examine instant).commitUnits units := by
  have hopened := (e.drainedAt_resetAt hinstant).scheduleAt_eq
  unfold examine
  rw [hopened, h.scheduleAt_eq]
  rfl

/-- What an engine has to work off after a single unit in time is its limit and its increment at
most. -/
theorem target_commitUnits_one_le (hdelay : e.delayAt instant = 0) :
    ((e.examine instant).commitUnits 1).target ≤ instant + e.pace.limit + e.pace.increment := by
  have hone : 0 < e.pace.increment ∨ ((1 : Nat) : Int) ≤ maxTick := .inr (by decide)
  have hcharged : (e.examine instant).debtAfter 1 =
      min ((e.scheduleAt instant).debt + (1 : Nat) * e.pace.increment) maxTick :=
    debtAfter_eq_min hone (e.isSpan_debt_scheduleAt instant).1
  rw [delayAt_eq_max_debt] at hdelay
  rw [target_commitUnits_examine, hcharged]
  omega

end Engine

/-! ### Throttles -/

namespace Throttle

/-- Every engine of the throttle is drained by an instant. -/
def DrainedAt (t : Throttle) (instant : Int) : Prop := t.ForallEngines fun e => e.DrainedAt instant

/-- No engine of the throttle has more to work off than what a single unit in time at an instant
leaves. -/
def OwesOneAt (t : Throttle) (instant : Int) : Prop :=
  t.ForallEngines fun e => e.target ≤ instant + e.pace.limit + e.pace.increment

variable {t : Throttle} {instant : Int}

theorem drainedAt_resetAt (t : Throttle) {start : Int} (hstart : InRange start) :
    (t.resetAt start).DrainedAt start :=
  t.forallEngines_resetAt fun e => e.drainedAt_resetAt hstart

theorem DrainedAt.delayAt_eq_zero (h : t.DrainedAt instant) (hfree : t.BackoffFree) :
    t.delayAt instant = 0 := by
  obtain ⟨leaf, hleaf, hdelay⟩ := t.exists_leaf_delayAt_eq instant
  rw [← hdelay]
  rcases leaf_cases hleaf with ⟨charging, e, rfl⟩ | ⟨g, rfl⟩ | hnull
  · exact (h charging e hleaf).delayAt_eq_zero
  · exact absurd hleaf (hfree g)
  · exact hnull instant

theorem DrainedAt.commitUnits_examine_resetAt (h : t.DrainedAt instant) (hfree : t.BackoffFree)
    (hinstant : InRange instant) (units : Nat) :
    ((t.resetAt instant).examine instant).commitUnits units =
      (t.examine instant).commitUnits units := by
  induction t with
  | engine charging e =>
    have hengine := h charging e (List.mem_cons_self ..)
    exact congrArg (engine charging) (hengine.commitUnits_examine_resetAt hinstant units)
  | shaper charging s =>
    obtain ⟨peak, sustained⟩ := s
    obtain ⟨hpeak, hsustained⟩ := forallEngines_shaper.mp h
    have hfront := Engine.DrainedAt.commitUnits_examine_resetAt hpeak hinstant units
    cases sustained with
    | none => simp [Shaper.resetAt, Shaper.examine, Shaper.commitUnits, hfront]
    | some e =>
      have hback := (hsustained e rfl).commitUnits_examine_resetAt hinstant units
      simp [Shaper.resetAt, Shaper.examine, Shaper.commitUnits, hfront, hback]
  | geometric g => exact absurd (List.mem_cons_self ..) (hfree g)
  | null _ | absent => rfl
  | present t ih => exact congrArg present (ih h hfree)
  | compound p s ihp ihs =>
    obtain ⟨hp, hs⟩ := ForallEngines.of_compound h
    obtain ⟨hpfree, hsfree⟩ := hfree.of_compound
    simp only [resetAt, examine, commitUnits, ihp hp hpfree, ihs hs hsfree]

/-- **An offer makes them one.** A throttle that is drained and one that opens at the instant of the
event give it the same decision, and are the same from then on. -/
theorem DrainedAt.offer_resetAt (h : t.DrainedAt instant) (hfree : t.BackoffFree)
    (hinstant : InRange instant) (units : Nat) :
    (t.resetAt instant).offer instant units = t.offer instant units := by
  have hdelay := h.delayAt_eq_zero hfree
  have hopened := (t.drainedAt_resetAt hinstant).delayAt_eq_zero (hfree.act (.resetAt instant))
  have hafter : (t.resetAt instant).afterOffer instant units = t.afterOffer instant units := by
    rw [afterOffer, afterOffer, if_pos hopened, if_pos hdelay,
      h.commitUnits_examine_resetAt hfree hinstant]
  rw [offer, offer, hopened, hdelay, hafter]

/-! ### Single units -/

/-- An event is in time for each engine if it is for the throttle. -/
theorem forallEngines_delayAt_eq_zero (hzero : t.delayAt instant = 0) :
    t.ForallEngines fun e => e.delayAt instant = 0 := by
  intro charging e he
  have hle : e.delayAt instant ≤ 0 :=
    (t.delayAt_le_iff instant 0).mp (Int.le_of_eq hzero) _ he
  exact Int.le_antisymm hle (e.delayAt_nonneg instant)

/-- A single unit that is admitted leaves its own debts and the limits at most. -/
theorem owesOneAt_afterOffer (hzero : t.delayAt instant = 0) :
    (t.afterOffer instant 1).OwesOneAt instant := by
  let Owes (e : Engine) : Prop := e.target ≤ instant + e.pace.limit + e.pace.increment
  have hexamined : (t.examine instant).ForallEngines fun e => Owes (e.commitUnits 1) :=
    ForallEngines.act (a := .examine instant) (forallEngines_delayAt_eq_zero hzero)
      fun _ he => Engine.target_commitUnits_one_le he
  rw [afterOffer, if_pos hzero]
  exact ForallEngines.act (a := .commitUnits 1) hexamined fun _ he => he

/-- An event that is rejected leaves all that there is to work off as it is. -/
theorem OwesOneAt.afterOffer {other : Int} (h : t.OwesOneAt other)
    (hearly : t.delayAt instant ≠ 0) (units : Nat) :
    (t.afterOffer instant units).OwesOneAt other := by
  have hexamined : (t.examine instant).OwesOneAt other :=
    ForallEngines.act (a := .examine instant) h fun _ he => he
  rw [Throttle.afterOffer, if_neg hearly]
  exact ForallEngines.act (a := .rollback) hexamined fun _ he => he

/-- No engine of the throttle has more to work off than what the last of some checks has left, and
there is one. -/
def OwesSince (t : Throttle) (last? : Option Check) : Prop :=
  ∃ last, last? = some last ∧ t.OwesOneAt (ticksAt last.nanos t.frequency)

/-- A check for a single unit that is admitted is the last one then. -/
theorem owesSince_afterCheck {t : Throttle} {c : Check}
    (hdecision : c.decision = (t.offer (ticksAt c.nanos t.frequency) c.units).1)
    (hunits : c.units = 1) {last? : Option Check}
    (h : t.delayAt (ticksAt c.nanos t.frequency) ≠ 0 → t.OwesSince last?) :
    (t.afterCheck c).OwesSince (([c].filter Check.isAdmitted).getLast?.or last?) := by
  have hadmitted := isAdmitted_iff hdecision
  have hticks := t.frequency_afterCheck c
  by_cases hzero : t.delayAt (ticksAt c.nanos t.frequency) = 0
  · rw [List.filter_cons_of_pos (hadmitted.mpr hzero)]
    refine ⟨c, rfl, ?_⟩
    rw [hticks, afterCheck, hunits]
    exact owesOneAt_afterOffer hzero
  · obtain ⟨last, hlast, howes⟩ := h hzero
    rw [List.filter_cons_of_neg (mt hadmitted.mp hzero)]
    refine ⟨last, hlast, ?_⟩
    rw [hticks]
    exact howes.afterOffer hzero c.units

end Throttle

end AdmissionControl
