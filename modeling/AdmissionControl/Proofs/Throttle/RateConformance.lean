import AdmissionControl.Proofs.Engine.Target
import AdmissionControl.Proofs.Throttle.Admitted

/-!
# Admitted events keep to the rate

However a throttle is put together, the events that it admits keep to the pace of every engine in
it: the increments of some of them fit in the time from the first of them to any event that is
admitted after them, give or take the limit of the engine (`Throttle.rate_conformance`).

The proof follows the target of the engine. An event that is admitted moves it on by at least its
own increments, nothing moves it back, and an event can only be admitted if the target is no more
than the limit ahead of it (`Throttle.Governs.offer`). So the target, moved on by what is admitted
in between, is within the limit of the last event (`Throttle.Governs.target_add_charged_le`).
-/

namespace AdmissionControl

namespace Throttle

open Event

/-- An engine of a throttle is in order for a row of events, and whatever is admitted of it charges
the engine exactly: with the limit on top the charge is still a tick count. -/
structure Governs (charging : Charging) (e : Engine) (t : Throttle) (seen : Int)
    (events : List Event) : Prop where
  mem : engine charging e ∈ t.leaves
  readyAt : e.ReadyAt seen
  chronological : Chronological seen events
  fits : ∀ ev ∈ t.admitted events, (ev.units : Int) * e.pace.increment + e.pace.limit ≤ maxTick

section Run

variable {charging : Charging} {e : Engine} {t : Throttle} {seen : Int}

/-- **One offer.** The engine governs what is left of the row. If the event is not admitted, the
target stays. If it is, the target was within reach of it, and is moved on by all its increments. -/
theorem Governs.offer {ev : Event} {rest : List Event}
    (h : Governs charging e t seen (ev :: rest)) :
    ∃ e', Governs charging e' (t.afterOffer ev.instant ev.units) ev.instant rest ∧
      e'.pace = e.pace ∧
      (t.admitted (ev :: rest) = (t.afterOffer ev.instant ev.units).admitted rest ∧
          e'.target = e.target ∨
        t.admitted (ev :: rest) = ev :: (t.afterOffer ev.instant ev.units).admitted rest ∧
          e.target ≤ ev.instant + e.pace.limit ∧
          max e.target ev.instant + ev.units * e.pace.increment ≤ e'.target) := by
  obtain ⟨hmem, hready, hchron, hfits⟩ := h
  obtain ⟨hseen, hrest⟩ := hchron.cons
  have hnow := hready.mono hseen
  have hmem' := mem_leaves_afterOffer hmem ev.instant ev.units
  by_cases hzero : t.delayAt ev.instant = 0
  · have hadmitted : t.admitted (ev :: rest) =
        ev :: (t.afterOffer ev.instant ev.units).admitted rest := if_pos hzero
    rw [hadmitted] at hfits
    rw [if_pos hzero] at hmem'
    have hdelay := engine_delayAt_le_zero hmem hzero
    refine ⟨(e.examine ev.instant).commitUnits ev.units, ⟨hmem', ?_, hrest, ?_⟩, rfl, Or.inr ?_⟩
    · exact hnow.commitUnits_examine ev.units
    · exact fun ev' hev' => hfits ev' (List.mem_cons_of_mem _ hev')
    · refine ⟨hadmitted, hnow.target_le_of_delayAt_le_zero hdelay, ?_⟩
      exact hnow.le_target_commitUnits_examine hdelay (hfits ev (List.mem_cons_self ..))
  · have hadmitted : t.admitted (ev :: rest) =
        (t.afterOffer ev.instant ev.units).admitted rest := if_neg hzero
    rw [hadmitted] at hfits
    rw [if_neg hzero] at hmem'
    refine ⟨e.examine ev.instant, ⟨hmem', ?_, hrest, hfits⟩, rfl, Or.inl ⟨hadmitted, rfl⟩⟩
    exact hnow.examine ev.instant

/-- **A row of offers.** The target, moved on by the increments of some of the events that are
admitted from now on, is at most the limit ahead of any event that is admitted after them. -/
theorem Governs.target_add_charged_le {events : List Event} (h : Governs charging e t seen events)
    {between : List Event} {last : Event}
    (hsub : (between ++ [last]).Sublist (t.admitted events)) :
    e.target + e.pace.increment * charged between ≤ last.instant + e.pace.limit := by
  induction events generalizing t e seen between with
  | nil => simp [admitted] at hsub
  | cons ev rest ih =>
    obtain ⟨e', hnext, hpace, ⟨hadmitted, htarget⟩ | ⟨hadmitted, hreach, hmoved⟩⟩ := h.offer
    · rw [hadmitted] at hsub
      have hlater := ih hnext hsub
      rwa [hpace, htarget] at hlater
    · rw [hadmitted] at hsub
      have hcharge := Engine.mul_increment_nonneg e.pace ev.units
      rcases List.sublist_cons_iff.mp hsub with hskip | ⟨chosen, heq, hchosen⟩
      · -- the event itself is not one of those that are counted
        have hlater := ih hnext hskip
        rw [hpace] at hlater
        omega
      · cases between with
        | nil =>
          obtain ⟨rfl, -⟩ := List.cons.inj heq
          rw [charged_nil]
          omega
        | cons first between =>
          obtain ⟨rfl, rfl⟩ := List.cons.inj heq
          have hlater := ih hnext hchosen
          rw [hpace] at hlater
          rw [charged_cons, Int.natCast_add, Int.mul_add, Int.mul_comm _ (first.units : Int)]
          omega

/-- The increments of some admitted events fit in the time from the first of them to any event
that is admitted after them, give or take the limit. -/
theorem Governs.increment_mul_charged_le {events : List Event}
    (h : Governs charging e t seen events) {first last : Event} {between : List Event}
    (hsub : (first :: (between ++ [last])).Sublist (t.admitted events)) :
    e.pace.increment * charged (first :: between) ≤
      last.instant - first.instant + e.pace.limit := by
  induction events generalizing t e seen with
  | nil => simp [admitted] at hsub
  | cons ev rest ih =>
    obtain ⟨e', hnext, hpace, ⟨hadmitted, -⟩ | ⟨hadmitted, -, hmoved⟩⟩ := h.offer
    · rw [hadmitted] at hsub
      have hlater := ih hnext hsub
      rwa [hpace] at hlater
    · rw [hadmitted] at hsub
      rcases List.sublist_cons_iff.mp hsub with hskip | ⟨chosen, heq, hchosen⟩
      · have hlater := ih hnext hskip
        rwa [hpace] at hlater
      · -- from the first event on it is the target that counts
        obtain ⟨rfl, rfl⟩ := List.cons.inj heq
        have hlater := hnext.target_add_charged_le hchosen
        rw [hpace] at hlater
        rw [charged_cons, Int.natCast_add, Int.mul_add, Int.mul_comm _ (first.units : Int)]
        omega

/-- In a window of some width there is room for one admitted event of a single unit, and for one
more with each increment that fits in the width and the limit together. -/
theorem Governs.length_le {events : List Event} (h : Governs charging e t seen events)
    (hcost : 0 < e.pace.increment) {chosen : List Event}
    (hsub : chosen.Sublist (t.admitted events)) (hone : ∀ ev ∈ chosen, ev.units = 1)
    {lower : Int} {width : Nat}
    (hwindow : ∀ ev ∈ chosen, lower ≤ ev.instant ∧ ev.instant ≤ lower + width) :
    (chosen.length : Int) ≤ 1 + (width + e.pace.limit) / e.pace.increment := by
  have hroom : 0 ≤ ((width : Int) + e.pace.limit) / e.pace.increment :=
    Int.ediv_nonneg (by have := e.pace.limit_nonneg; omega) e.pace.increment_nonneg
  cases chosen with
  | nil =>
    rw [List.length_nil]
    omega
  | cons first rest =>
    rcases rest.eq_nil_or_concat with rfl | ⟨between, last, rfl⟩
    · rw [List.length_singleton]
      omega
    · rw [List.concat_eq_append] at hsub hone hwindow ⊢
      have hcharged : charged (first :: between) = between.length + 1 :=
        charged_eq_length fun ev hev => hone ev (by
          rw [← List.cons_append]
          exact List.mem_append_left _ hev)
      have hfits := h.increment_mul_charged_le hsub
      have hfirst := hwindow first (List.mem_cons_self ..)
      have hlast := hwindow last (by simp)
      rw [hcharged, Int.mul_comm] at hfits
      have hcount : ((between.length + 1 : Nat) : Int) ≤
          (width + e.pace.limit) / e.pace.increment := by
        rw [Int.le_ediv_iff_mul_le hcost]
        omega
      rw [List.length_cons, List.length_append, List.length_singleton]
      omega

end Run

/-- An engine of a throttle governs what comes after the throttle has been opened. -/
theorem governs_resetAt {charging : Charging} {e : Engine} {t : Throttle} {start : Int}
    {events : List Event} (he : engine charging e ∈ t.leaves) (hstart : minTick ≤ start)
    (hchron : Chronological start events)
    (hfits : ∀ ev ∈ (t.resetAt start).admitted events,
      (ev.units : Int) * e.pace.increment + e.pace.limit ≤ maxTick) :
    Governs charging (e.resetAt start) (t.resetAt start) start events where
  mem := by
    rw [leaves_resetAt]
    exact List.mem_map_of_mem (f := resetAt start) he
  readyAt := e.readyAt_resetAt hstart
  chronological := hchron
  fits := hfits

/-- **Rate conformance.** Let a row of events be offered to a throttle that has been opened, and
let what is admitted charge an engine in it exactly. Then the increments of some of the admitted
events, in particular of all between two of them, fit in the time from the first of them to any
that is admitted later, give or take the limit of the engine; and in a window of some width there
are at most as many admitted events of a single unit as increments in the width and the limit
together, and one. -/
theorem rate_conformance (t : Throttle) {start : Int} {events : List Event}
    (hstart : InRange start) (hchron : Chronological start events) {charging : Charging}
    {e : Engine} (he : engine charging e ∈ t.leaves)
    (hfits : ∀ ev ∈ (t.resetAt start).admitted events,
      (ev.units : Int) * e.pace.increment + e.pace.limit ≤ maxTick) :
    (∀ first between last,
      (first :: (between ++ [last])).Sublist ((t.resetAt start).admitted events) →
        e.pace.increment * charged (first :: between) ≤
          last.instant - first.instant + e.pace.limit) ∧
      (0 < e.pace.increment → ∀ (lower : Int) (width : Nat),
        (((t.resetAt start).admitted events).filter fun ev =>
            ev.units = 1 ∧ lower ≤ ev.instant ∧ ev.instant ≤ lower + width).length ≤
          1 + ((width : Int) + e.pace.limit) / e.pace.increment) := by
  have hgoverns := governs_resetAt he hstart.1 hchron hfits
  refine ⟨fun first between last hsub => hgoverns.increment_mul_charged_le hsub,
    fun hcost lower width => ?_⟩
  have hwindow : ∀ ev ∈ ((t.resetAt start).admitted events).filter fun ev =>
      ev.units = 1 ∧ lower ≤ ev.instant ∧ ev.instant ≤ lower + width,
      ev.units = 1 ∧ lower ≤ ev.instant ∧ ev.instant ≤ lower + width :=
    fun ev hev => of_decide_eq_true (List.mem_filter.mp hev).2
  exact hgoverns.length_le hcost List.filter_sublist (fun ev hev => (hwindow ev hev).1)
    fun ev hev => (hwindow ev hev).2

/-- Two engines side by side, of which the first has an increment of 1000 ticks and a limit of 250.
Of four events the second is left although it conforms to the first engine. The other three are as
many as the window that they are in has room for. -/
theorem rate_conformance_of_compound :
    let e := Engine.opened (.clamped .microseconds 1000 250) 0
    let t := compound (engine .perUnit e)
      (present (engine .perUnit (.opened (.clamped .microseconds 800 0) 0)))
    let admittedEvents := (t.resetAt 0).admitted [⟨0, 1⟩, ⟨790, 1⟩, ⟨800, 1⟩, ⟨1750, 1⟩]
    admittedEvents = [⟨0, 1⟩, ⟨800, 1⟩, ⟨1750, 1⟩] ∧
      e.pace.increment * charged [⟨0, 1⟩, ⟨800, 1⟩] ≤ 1750 - 0 + e.pace.limit ∧
      (admittedEvents.filter fun ev =>
          ev.units = 1 ∧ 0 ≤ ev.instant ∧ ev.instant ≤ 0 + 1750).length ≤
        1 + (1750 + e.pace.limit) / e.pace.increment := by
  intro e t admittedEvents
  have hadmitted : admittedEvents = [⟨0, 1⟩, ⟨800, 1⟩, ⟨1750, 1⟩] := by decide
  have hchron : Chronological 0 [⟨0, 1⟩, ⟨790, 1⟩, ⟨800, 1⟩, ⟨1750, 1⟩] := by
    unfold Chronological
    decide
  have hfits : ∀ ev ∈ admittedEvents,
      (ev.units : Int) * e.pace.increment + e.pace.limit ≤ maxTick := by
    rw [hadmitted]
    decide
  have hmem : engine .perUnit e ∈ t.leaves := List.mem_cons_self ..
  obtain ⟨hbetween, hwindow⟩ := rate_conformance t (by decide) hchron hmem hfits
  refine ⟨hadmitted, ?_, hwindow (by decide) 0 1750⟩
  refine hbetween ⟨0, 1⟩ [⟨800, 1⟩] ⟨1750, 1⟩ ?_
  change List.Sublist _ admittedEvents
  rw [hadmitted]
  exact List.Sublist.refl _

end Throttle

end AdmissionControl
