import AdmissionControl.Proofs.Resolution.Rounding
import AdmissionControl.Proofs.Throttle.Admitted

/-!
# Checks

A `Check` is an event that was offered at a reading of the clock, with the decision on it.
`Throttle.Decides` says of a row of checks that the decisions are those of one throttle that is
used for nothing else. The checks that are admitted are then the events that the throttle admits
(`Throttle.Decides.map_event_filter`).
-/

namespace AdmissionControl

/-- An event of some units that was offered at a reading, and what became of it. -/
structure Check where
  nanos : Nat
  units : Nat
  decision : Decision
deriving DecidableEq, Repr

namespace Check

def isAdmitted (c : Check) : Bool := c.decision.admitted

/-- The event that a check stands for, in ticks of some frequency. -/
def event (frequency : Int) (c : Check) : Event := ⟨ticksAt c.nanos frequency, c.units⟩

/-- The units of a row of checks together. -/
def charged : List Check → Nat
  | [] => 0
  | c :: rest => c.units + charged rest

/-- The events of a row of checks are charged as the checks are. -/
theorem charged_map_event (frequency : Int) (checks : List Check) :
    Event.charged (checks.map (event frequency)) = charged checks := by
  induction checks with
  | nil => rfl
  | cons c rest ih => rw [List.map_cons, Event.charged_cons, ih, charged, event]

/-- Readings in the order of time give events in the order of time. -/
theorem chronological_map_event (frequency : Int) {c : Check} {rest : List Check}
    (h : ((c :: rest).map nanos).Pairwise (· ≤ ·)) :
    Event.Chronological (ticksAt c.nanos frequency) ((c :: rest).map (event frequency)) := by
  have hinstants : ((c :: rest).map fun ch => ticksAt ch.nanos frequency).Pairwise (· ≤ ·) := by
    rw [List.pairwise_map] at h ⊢
    exact h.imp fun hle => ticksAt_mono hle frequency
  unfold Event.Chronological
  rw [List.map_map]
  refine List.pairwise_cons.mpr ⟨fun instant hinstant => ?_, hinstants⟩
  rcases List.mem_cons.mp hinstant with rfl | hlater
  · exact Int.le_refl _
  · exact (List.pairwise_cons.mp hinstants).1 instant hlater

end Check

namespace Throttle

def afterCheck (t : Throttle) (c : Check) : Throttle :=
  t.afterOffer (ticksAt c.nanos t.frequency) c.units

/-- The checks of a row are decided by a throttle that is used for nothing else. -/
def Decides (t : Throttle) : List Check → Prop
  | [] => True
  | c :: rest =>
    c.decision = (t.offer (ticksAt c.nanos t.frequency) c.units).1 ∧ (t.afterCheck c).Decides rest

theorem frequency_afterCheck (t : Throttle) (c : Check) :
    (t.afterCheck c).frequency = t.frequency :=
  t.frequency_afterOffer _ _

/-- A check that is decided by a throttle is admitted if the throttle finds it in time. -/
theorem isAdmitted_iff {t : Throttle} {c : Check}
    (h : c.decision = (t.offer (ticksAt c.nanos t.frequency) c.units).1) :
    c.isAdmitted = true ↔ t.delayAt (ticksAt c.nanos t.frequency) = 0 := by
  rw [Check.isAdmitted, h]
  exact t.admitted_offer _ _

/-- The checks that a throttle admits stand for the events that it admits. -/
theorem Decides.map_event_filter {t : Throttle} {checks : List Check} (h : t.Decides checks) :
    (checks.filter Check.isAdmitted).map (Check.event t.frequency) =
      t.admitted (checks.map (Check.event t.frequency)) := by
  induction checks generalizing t with
  | nil => rfl
  | cons c rest ih =>
    obtain ⟨hdecision, hrest⟩ := h
    have hlater := ih hrest
    rw [t.frequency_afterCheck c] at hlater
    have hadmitted : c.isAdmitted = true ↔ t.delayAt (c.event t.frequency).instant = 0 :=
      isAdmitted_iff hdecision
    rw [List.map_cons, admitted]
    by_cases hzero : t.delayAt (c.event t.frequency).instant = 0
    · rw [if_pos hzero, List.filter_cons_of_pos (hadmitted.mpr hzero), List.map_cons, hlater]
      rfl
    · rw [if_neg hzero, List.filter_cons_of_neg (fun h => hzero (hadmitted.mp h)), hlater]
      rfl

end Throttle

end AdmissionControl
