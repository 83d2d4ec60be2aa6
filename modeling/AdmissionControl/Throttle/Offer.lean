import AdmissionControl.Throttle.Action

/-!
# Offering an event

`Throttle.offer` is the plain way to use a throttle: an event is examined, taken in if it conforms
and left if it does not, which are two actions (`Throttle.afterOffer_eq_act`). The `Decision` tells
what became of it and, for an event that was early, how long to wait.

An event that is taken in here was early for no engine of the throttle, so there is never a notice
to write (`breaches_commitUnits_examine`).
-/

namespace AdmissionControl

/-- What became of an event that was offered. -/
structure Decision where
  /-- Whether the event was taken in. -/
  admitted : Bool
  /-- The answer of the throttle, in its own ticks. -/
  delay : Int
  /-- How long to wait before trying again, if that is known. -/
  retryAfter : Option Duration
  /-- Whether the throttle is alarmed now. -/
  alarmed : Bool
deriving DecidableEq, Repr

namespace Throttle

/-- The throttle after an event of `units` units has been offered to it at an instant. -/
def afterOffer (t : Throttle) (instant : Int) (units : Nat) : Throttle :=
  if t.delayAt instant = 0 then (t.examine instant).commitUnits units
  else (t.examine instant).rollback

/-- Offers an event of `units` units at an instant. -/
def offer (t : Throttle) (instant : Int) (units : Nat) : Decision × Throttle :=
  let delay := t.delayAt instant
  let after := t.afterOffer instant units
  (⟨delay = 0, delay, retryAfter delay after.frequency, after.isAlarmed⟩, after)

/-- **An offer is two actions.** The event is examined, and the answer decides how it ends. -/
theorem afterOffer_eq_act (t : Throttle) (instant : Int) (units : Nat) :
    t.afterOffer instant units = ((t.act (.examine instant)).2.act
      (if t.delayAt instant = 0 then .commitUnits units else .rollback)).2 := by
  unfold afterOffer
  split <;> rfl

/-- An event that conforms, or is rejected without a hint, is taken in without a notice. -/
theorem breaches_commitUnits_examine {t : Throttle} {instant : Int} (units : Nat)
    (h : t.delayAt instant ≤ 0) : ((t.examine instant).commitUnits units).breaches = [] := by
  induction t with
  | engine _ e => exact Engine.breaches_commitUnits_examine units h
  | shaper _ s => exact Shaper.breaches_commitUnits_examine units h
  | geometric _ => rfl
  | null _ => rfl
  | absent => rfl
  | present _ ih => exact ih h
  | compound p s ihp ihs =>
    have hp := ihp (Int.le_trans (Int.le_max_left _ _) h)
    have hs := ihs (Int.le_trans (Int.le_max_right _ _) h)
    simp [examine, commitUnits, breaches, hp, hs]

/-- An offer is admitted exactly if the event conforms. -/
theorem admitted_offer (t : Throttle) (instant : Int) (units : Nat) :
    (t.offer instant units).1.admitted = true ↔ t.delayAt instant = 0 := by
  simp [offer]

end Throttle

end AdmissionControl
