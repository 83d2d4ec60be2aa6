import AdmissionControl.Proofs.Throttle.Leaves
import AdmissionControl.Throttle.Offer

/-!
# The events that a throttle admits

A row of events is offered to a throttle one after another: each is taken in if it conforms and
left if it does not. `Throttle.admitted` are those that are taken in.

Whether a leaf takes an event in is decided by the throttle as a whole and not by the leaf alone,
which may have to leave an event that conforms to it. `Throttle.leaves_afterOffer` says what one
offer does to each leaf, and `Throttle.mem_leaves_afterOffer` follows an engine through it.
-/

namespace AdmissionControl

/-- An event of some units that comes at an instant. -/
structure Event where
  instant : Int
  units : Nat := 1
deriving DecidableEq, Repr

namespace Event

/-- The units of a row of events together. -/
def charged : List Event → Nat
  | [] => 0
  | ev :: rest => ev.units + charged rest

theorem charged_nil : charged [] = 0 := rfl

theorem charged_cons (ev : Event) (events : List Event) :
    charged (ev :: events) = ev.units + charged events := rfl

/-- Events of a single unit are charged one by one. -/
theorem charged_eq_length {events : List Event} (h : ∀ ev ∈ events, ev.units = 1) :
    charged events = events.length := by
  induction events with
  | nil => rfl
  | cons ev rest ih =>
    rw [charged_cons, h ev (List.mem_cons_self ..), List.length_cons,
      ih fun ev' hev' => h ev' (List.mem_cons_of_mem _ hev'), Nat.add_comm]

/-- No event of the row is before an instant or before one that precedes it. -/
def Chronological (start : Int) (events : List Event) : Prop :=
  (start :: events.map Event.instant).Pairwise (· ≤ ·)

/-- The rest of a row that is in the order of time is so from the first event on. -/
theorem Chronological.cons {start : Int} {ev : Event} {rest : List Event}
    (h : Chronological start (ev :: rest)) :
    start ≤ ev.instant ∧ Chronological ev.instant rest := by
  obtain ⟨hstart, hrest⟩ := List.pairwise_cons.mp h
  exact ⟨hstart _ (List.mem_cons_self ..), hrest⟩

end Event

namespace Throttle

/-- The events that are taken in when a row of events is offered to a throttle. -/
def admitted (t : Throttle) : List Event → List Event
  | [] => []
  | ev :: rest =>
    if t.delayAt ev.instant = 0 then ev :: (t.afterOffer ev.instant ev.units).admitted rest
    else (t.afterOffer ev.instant ev.units).admitted rest

@[simp] theorem frequency_afterOffer (t : Throttle) (instant : Int) (units : Nat) :
    (t.afterOffer instant units).frequency = t.frequency := by
  rw [afterOffer_eq_act, frequency_act, frequency_act]

/-! ### One offer, leaf by leaf -/

/-- An offer ends the same way for all leaves: each takes the event in if the whole throttle does,
and leaves it otherwise. -/
theorem leaves_afterOffer (t : Throttle) (instant : Int) (units : Nat) :
    (t.afterOffer instant units).leaves = t.leaves.map fun leaf =>
      if t.delayAt instant = 0 then (leaf.examine instant).commitUnits units
      else (leaf.examine instant).rollback := by
  unfold afterOffer
  by_cases h : t.delayAt instant = 0
  · simp only [if_pos h, leaves_commitUnits, leaves_examine, List.map_map, Function.comp_def]
  · simp only [if_neg h, leaves_rollback, leaves_examine, List.map_map, Function.comp_def]

/-- What becomes of an engine in a throttle to which an event is offered. -/
theorem mem_leaves_afterOffer {t : Throttle} {charging : Charging} {e : Engine}
    (he : engine charging e ∈ t.leaves) (instant : Int) (units : Nat) :
    engine charging (if t.delayAt instant = 0 then (e.examine instant).commitUnits units
      else e.examine instant) ∈ (t.afterOffer instant units).leaves := by
  rw [leaves_afterOffer]
  refine List.mem_map.mpr ⟨_, he, ?_⟩
  by_cases h : t.delayAt instant = 0
  · rw [if_pos h, if_pos h]
    rfl
  · rw [if_neg h, if_neg h]
    rfl

/-- An event that a throttle lets through is not early for any of its engines. -/
theorem engine_delayAt_le_zero {t : Throttle} {charging : Charging} {e : Engine}
    (he : engine charging e ∈ t.leaves) {instant : Int} (h : t.delayAt instant = 0) :
    e.delayAt instant ≤ 0 :=
  (t.delayAt_le_iff instant 0).mp (Int.le_of_eq h) _ he

end Throttle

end AdmissionControl
