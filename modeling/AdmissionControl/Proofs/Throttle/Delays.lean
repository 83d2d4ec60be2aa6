import AdmissionControl.Proofs.Engine.Target
import AdmissionControl.Proofs.Throttle.Admitted
import AdmissionControl.Proofs.Throttle.Conjunction

/-!
# Delays

A throttle that counts time alone, with no backoff in it (`Throttle.BackoffFree`), answers an event
with the largest of the delays of its engines. So its delay moves as theirs do: it is never
negative and never grows with the instant (`Throttle.delayAt_anti`), and as long as time does not
go back, waiting works it off tick by tick (`Throttle.ReadyAt.delayAt_add`). Looking at an event
and leaving it changes none of this (`Throttle.BackoffFree.delayAt_rollback_examine`), nor does an
event that is offered too early (`Throttle.BackoffFree.sameDelays_afterOffer`).

What is known of each engine of a throttle is written `Throttle.ForallEngines`. It is kept by an
action on the throttle if the same action on an engine alone keeps it (`ForallEngines.act`).
-/

namespace AdmissionControl

/-- The engine after an action. -/
def Engine.act (e : Engine) : Action → Engine
  | .resetAt instant => e.resetAt instant
  | .examine instant => e.examine instant
  | .commit => e.commit
  | .commitUnits units => e.commitUnits units
  | .rollback => e.rollback

/-- Both debts of an engine are spans. -/
structure Engine.Sound (e : Engine) : Prop where
  committed : IsSpan e.committed.debt
  tentative : IsSpan e.tentative.debt

/-- Debts stay spans, also where events are committed or left out of turn. -/
theorem Engine.Sound.act {e : Engine} (h : e.Sound) (a : Action) : (e.act a).Sound := by
  have hnonneg := h.tentative.1
  cases a with
  | resetAt _ => exact ⟨isSpan_zero, isSpan_zero⟩
  | examine instant => exact ⟨h.committed, e.isSpan_debt_scheduleAt instant⟩
  | commit => exact ⟨isSpan_debtAfter 1 hnonneg, h.tentative⟩
  | commitUnits units => exact ⟨isSpan_debtAfter units hnonneg, h.tentative⟩
  | rollback => exact h

namespace Throttle

/-- No part of the throttle is a backoff. -/
def BackoffFree (t : Throttle) : Prop := ∀ g, geometric g ∉ t.leaves

/-- Every engine of the throttle, those of its shapers included, has a property. -/
def ForallEngines (P : Engine → Prop) (t : Throttle) : Prop :=
  ∀ charging e, engine charging e ∈ t.leaves → P e

/-- The engine that a leaf is, if it is one. -/
def engine? : Throttle → Option Engine
  | engine _ e => some e
  | shaper _ _ | geometric _ | null _ | absent | present _ | compound _ _ => none

theorem forallEngines_iff {P : Engine → Prop} {t : Throttle} :
    t.ForallEngines P ↔ ∀ e ∈ t.leaves.filterMap engine?, P e := by
  constructor
  · intro h e he
    obtain ⟨leaf, hleaf, heq⟩ := List.mem_filterMap.mp he
    cases leaf with
    | engine charging e' =>
      cases heq
      exact h charging e hleaf
    | shaper _ _ | geometric _ | null _ | absent | present _ | compound _ _ => cases heq
  · intro h charging e he
    exact h e (List.mem_filterMap.mpr ⟨_, he, rfl⟩)

instance (P : Engine → Prop) [DecidablePred P] (t : Throttle) : Decidable (t.ForallEngines P) :=
  decidable_of_iff (∀ e ∈ t.leaves.filterMap engine?, P e) forallEngines_iff.symm

/-- Every engine of the throttle is in order for an event at an instant. -/
def ReadyAt (t : Throttle) (instant : Int) : Prop := t.ForallEngines fun e => e.ReadyAt instant

section Parts

variable {P Q : Engine → Prop} {t p s : Throttle}

theorem backoffFree_engine (charging : Charging) (e : Engine) :
    (engine charging e).BackoffFree := by
  intro g hg
  nomatch List.mem_singleton.mp hg

theorem backoffFree_shaper (charging : Charging) (sh : Shaper) :
    (shaper charging sh).BackoffFree := by
  obtain ⟨peak, sustained⟩ := sh
  intro g hg
  cases sustained <;> simp [leaves, ofSustained] at hg

theorem BackoffFree.of_compound (h : (compound p s).BackoffFree) :
    p.BackoffFree ∧ s.BackoffFree :=
  ⟨fun g hg => h g (List.mem_append_left _ hg), fun g hg => h g (List.mem_append_right _ hg)⟩

theorem ForallEngines.of_compound (h : (compound p s).ForallEngines P) :
    p.ForallEngines P ∧ s.ForallEngines P :=
  ⟨fun charging e he => h charging e (List.mem_append_left _ he),
    fun charging e he => h charging e (List.mem_append_right _ he)⟩

theorem forallEngines_compound :
    (compound p s).ForallEngines P ↔ p.ForallEngines P ∧ s.ForallEngines P := by
  refine ⟨ForallEngines.of_compound, ?_⟩
  rintro ⟨hp, hs⟩ charging e he
  rcases List.mem_append.mp he with hpeak | hsustained
  · exact hp charging e hpeak
  · exact hs charging e hsustained

/-- The engines of a shaper are its peak engine and its sustained one. -/
theorem forallEngines_shaper {charging : Charging} {sh : Shaper} :
    (shaper charging sh).ForallEngines P ↔ P sh.peak ∧ ∀ e, sh.sustained = some e → P e := by
  obtain ⟨peak, sustained⟩ := sh
  constructor
  · intro h
    refine ⟨h charging peak (List.mem_cons_self ..), ?_⟩
    rintro e rfl
    exact h charging e (by simp [leaves, ofSustained])
  · rintro ⟨hpeak, hsustained⟩ charging' e he
    cases sustained with
    | none =>
      simp only [leaves, ofSustained, List.mem_cons, reduceCtorEq, List.not_mem_nil, or_false] at he
      cases he
      exact hpeak
    | some e' =>
      simp only [leaves, ofSustained, List.mem_cons, List.not_mem_nil, or_false] at he
      rcases he with heq | heq
      · cases heq
        exact hpeak
      · cases heq
        exact hsustained e rfl

theorem ForallEngines.imp (h : t.ForallEngines P) (himp : ∀ e, P e → Q e) : t.ForallEngines Q :=
  fun charging e he => himp e (h charging e he)

/-- Only a backoff becomes a backoff. -/
theorem BackoffFree.act (h : t.BackoffFree) (a : Action) : (t.act a).2.BackoffFree := by
  intro g hg
  rw [leaves_act] at hg
  obtain ⟨leaf, hleaf, heq⟩ := List.mem_map.mp hg
  cases leaf with
  | geometric g' => exact h g' hleaf
  | engine _ _ | shaper _ _ | null _ | absent | present _ | compound _ _ => cases a <;> cases heq

/-- **One action.** What an action gives each engine, it gives the engines of a throttle. -/
theorem ForallEngines.act (h : t.ForallEngines P) {a : Action} (hstep : ∀ e, P e → Q (e.act a)) :
    (t.act a).2.ForallEngines Q := by
  intro charging e' he'
  rw [leaves_act] at he'
  obtain ⟨leaf, hleaf, heq⟩ := List.mem_map.mp he'
  cases leaf with
  | engine charging' e =>
    have hafter : e' = e.act a := by cases a <;> cases heq <;> rfl
    rw [hafter]
    exact hstep e (h charging' e hleaf)
  | geometric _ | shaper _ _ | null _ | absent | present _ | compound _ _ => cases a <;> cases heq

/-- What every engine has that opens at an instant, the engines of a throttle have that opens
there, whatever they were before. -/
theorem forallEngines_resetAt (t : Throttle) {start : Int}
    (hopen : ∀ e : Engine, P (e.resetAt start)) : (t.resetAt start).ForallEngines P :=
  ForallEngines.act (P := fun _ => True) (a := .resetAt start) (fun _ _ _ => trivial)
    fun e _ => hopen e

theorem BackoffFree.run (h : t.BackoffFree) (actions : List Action) :
    (t.run actions).2.BackoffFree := by
  induction actions generalizing t with
  | nil => exact h
  | cons a rest ih => exact ih (h.act a)

/-- **A run of actions.** What the actions of a run keep of an engine, the run on a throttle keeps
of its engines. -/
theorem ForallEngines.run_of_forall_mem (h : t.ForallEngines P) {actions : List Action}
    (hstep : ∀ a ∈ actions, ∀ e, P e → P (e.act a)) : (t.run actions).2.ForallEngines P := by
  induction actions generalizing t with
  | nil => exact h
  | cons a rest ih =>
    obtain ⟨hfirst, hrest⟩ := List.forall_mem_cons.mp hstep
    exact ih (h.act hfirst) hrest

/-- What every action on an engine keeps, every run on a throttle keeps of its engines. -/
theorem ForallEngines.run (h : t.ForallEngines P) (hstep : ∀ a e, P e → P (e.act a))
    (actions : List Action) : (t.run actions).2.ForallEngines P :=
  h.run_of_forall_mem fun a _ => hstep a

end Parts

/-! ### Delays and time -/

section Time

variable {t : Throttle} {instant : Int}

/-- A later event is never earlier for a throttle. -/
theorem delayAt_anti (t : Throttle) {a b : Int} (h : a ≤ b) : t.delayAt b ≤ t.delayAt a := by
  induction t with
  | engine _ e => exact e.delayAt_anti h
  | shaper charging s =>
    obtain ⟨peak, sustained⟩ := s
    have hpeak := peak.delayAt_anti h
    rw [delayAt_shaper, delayAt_shaper]
    cases sustained with
    | none =>
      simp only [ofSustained, delayAt]
      omega
    | some e =>
      have hsustained := e.delayAt_anti h
      simp only [ofSustained, delayAt]
      omega
  | geometric _ | null _ | absent => exact Int.le_refl _
  | present t ih => exact ih
  | compound p s ihp ihs =>
    rw [delayAt, delayAt]
    omega

/-- Without a backoff an event is never rejected for good. -/
theorem BackoffFree.delayAt_nonneg (h : t.BackoffFree) (instant : Int) :
    0 ≤ t.delayAt instant := by
  obtain ⟨leaf, hleaf, heq⟩ := t.exists_leaf_delayAt_eq instant
  rw [← heq]
  rcases delayAt_leaf_nonneg_or_geometric hleaf instant with hnonneg | ⟨g, rfl⟩
  · exact hnonneg
  · exact absurd hleaf (h g)

/-- **Waiting works off the delay tick by tick.** -/
theorem ReadyAt.delayAt_add (h : t.ReadyAt instant) (hfree : t.BackoffFree) {wait : Int}
    (hwait : 0 ≤ wait) : t.delayAt (instant + wait) = max 0 (t.delayAt instant - wait) := by
  induction t with
  | engine charging e => exact (h charging e (List.mem_cons_self ..)).delayAt_add hwait
  | shaper charging s =>
    obtain ⟨peak, sustained⟩ := s
    obtain ⟨hpeakReady, hsustainedReady⟩ := forallEngines_shaper.mp h
    have hpeak : peak.delayAt (instant + wait) = max 0 (peak.delayAt instant - wait) :=
      hpeakReady.delayAt_add hwait
    rw [delayAt_shaper, delayAt_shaper]
    cases sustained with
    | none =>
      simp only [ofSustained, delayAt]
      omega
    | some e =>
      have hsustained := (hsustainedReady e rfl).delayAt_add hwait
      simp only [ofSustained, delayAt]
      omega
  | geometric g => exact absurd (List.mem_cons_self ..) (hfree g)
  | null _ | absent =>
    simp only [delayAt]
    omega
  | present t ih => exact ih h hfree
  | compound p s ihp ihs =>
    obtain ⟨hpfree, hsfree⟩ := hfree.of_compound
    obtain ⟨hpready, hsready⟩ := ForallEngines.of_compound h
    have hp := ihp hpready hpfree
    have hs := ihs hsready hsfree
    rw [delayAt, delayAt]
    omega

theorem ReadyAt.mono (h : t.ReadyAt instant) {later : Int} (hle : instant ≤ later) :
    t.ReadyAt later :=
  h.imp fun _ he => he.mono hle

end Time

/-! ### Delays and events -/

section Events

variable {t : Throttle} {instant : Int}

/-- Without a backoff there is nothing to do to leave an event. -/
theorem BackoffFree.rollback_eq (h : t.BackoffFree) : t.rollback = t := by
  induction t with
  | geometric g => exact absurd (List.mem_cons_self ..) (h g)
  | engine _ _ | null _ | absent => rfl
  | shaper _ s =>
    obtain ⟨peak, sustained⟩ := s
    cases sustained <;> rfl
  | present t ih => exact congrArg present (ih h)
  | compound p s ihp ihs =>
    obtain ⟨hp, hs⟩ := h.of_compound
    rw [rollback, ihp hp, ihs hs]

/-- An event that has been looked at is forgotten when the next one is looked at. -/
theorem BackoffFree.examine_examine (h : t.BackoffFree) (a b : Int) :
    (t.examine a).examine b = t.examine b := by
  induction t with
  | geometric g => exact absurd (List.mem_cons_self ..) (h g)
  | engine _ _ | null _ | absent => rfl
  | shaper _ s =>
    obtain ⟨peak, sustained⟩ := s
    cases sustained <;> rfl
  | present t ih => exact congrArg present (ih h)
  | compound p s ihp ihs =>
    obtain ⟨hp, hs⟩ := h.of_compound
    simp only [examine, ihp hp, ihs hs]

/-- An event that has been looked at leaves all delays as they are. -/
theorem BackoffFree.delayAt_examine (h : t.BackoffFree) (a b : Int) :
    (t.examine a).delayAt b = t.delayAt b := by
  induction t with
  | geometric g => exact absurd (List.mem_cons_self ..) (h g)
  | engine _ _ | null _ | absent => rfl
  | shaper _ s =>
    obtain ⟨peak, sustained⟩ := s
    cases sustained <;> rfl
  | present t ih => exact ih h
  | compound p s ihp ihs =>
    obtain ⟨hp, hs⟩ := h.of_compound
    simp only [examine, delayAt, ihp hp, ihs hs]

/-- Leaving an event without a backoff is as good as not dealing with it. -/
theorem BackoffFree.rollback_examine (h : t.BackoffFree) (instant : Int) :
    (t.examine instant).rollback = t.examine instant := by
  have hexamined : (t.examine instant).BackoffFree := h.act (.examine instant)
  exact hexamined.rollback_eq

theorem BackoffFree.examine_rollback_examine (h : t.BackoffFree) (a b : Int) :
    (t.examine a).rollback.examine b = t.examine b := by
  rw [h.rollback_examine, h.examine_examine]

/-- An event that has been looked at and left leaves all delays as they are. -/
theorem BackoffFree.delayAt_rollback_examine (h : t.BackoffFree) (a b : Int) :
    (t.examine a).rollback.delayAt b = t.delayAt b := by
  rw [h.rollback_examine, h.delayAt_examine]

theorem ReadyAt.rollback_examine (h : t.ReadyAt instant) (a : Int) :
    (t.examine a).rollback.ReadyAt instant := by
  have hexamined : (t.examine a).ReadyAt instant :=
    ForallEngines.act (a := .examine a) h fun _ he => he.examine a
  exact ForallEngines.act (a := .rollback) hexamined fun _ he => he

theorem ReadyAt.commitUnits_examine (h : t.ReadyAt instant) (units : Nat) :
    ((t.examine instant).commitUnits units).ReadyAt instant := by
  have hexamined : (t.examine instant).ForallEngines
      fun e => (e.commitUnits units).ReadyAt instant :=
    ForallEngines.act (a := .examine instant) h fun _ he => he.commitUnits_examine units
  exact ForallEngines.act (a := .commitUnits units) hexamined fun _ he => he

/-- Every engine of a throttle is in order at the instant at which the throttle opens. -/
theorem readyAt_resetAt (t : Throttle) {start : Int} (hstart : minTick ≤ start) :
    (t.resetAt start).ReadyAt start :=
  t.forallEngines_resetAt fun e => e.readyAt_resetAt hstart

/-- Without a backoff an event is taken in without alarm exactly if its delay is zero. -/
theorem BackoffFree.commitVerdict_examine (h : t.BackoffFree) (hzero : t.delayAt instant = 0) :
    (t.examine instant).commitVerdict = true := by
  rw [commitVerdict_examine_iff, forall_leaf_delayAt_eq_zero_iff hzero]
  intro g hg
  exact absurd hg (h g)

end Events

/-! ### Delays and offers -/

/-- The second throttle measures time as the first one does, and gives every event the same delay.
It has no backoff that could end this. -/
structure SameDelays (t t' : Throttle) : Prop where
  backoffFree : t'.BackoffFree
  frequency : t'.frequency = t.frequency
  delayAt : ∀ instant, t'.delayAt instant = t.delayAt instant

section Offers

variable {t : Throttle} {instant : Int}

theorem BackoffFree.afterOffer (h : t.BackoffFree) (instant : Int) (units : Nat) :
    (t.afterOffer instant units).BackoffFree := by
  rw [afterOffer_eq_act]
  exact (h.act _).act _

theorem ReadyAt.afterOffer (h : t.ReadyAt instant) (units : Nat) :
    (t.afterOffer instant units).ReadyAt instant := by
  unfold Throttle.afterOffer
  by_cases hzero : t.delayAt instant = 0
  · rw [if_pos hzero]
    exact h.commitUnits_examine units
  · rw [if_neg hzero]
    exact h.rollback_examine instant

/-- An event that is offered too early leaves all delays as they are. -/
theorem BackoffFree.sameDelays_afterOffer (h : t.BackoffFree) (hearly : t.delayAt instant ≠ 0)
    (units : Nat) : t.SameDelays (t.afterOffer instant units) where
  backoffFree := h.afterOffer instant units
  frequency := t.frequency_afterOffer instant units
  delayAt other := by
    rw [Throttle.afterOffer, if_neg hearly]
    exact h.delayAt_rollback_examine instant other

theorem SameDelays.trans {t t' t'' : Throttle} (h : t.SameDelays t') (h' : t'.SameDelays t'') :
    t.SameDelays t'' where
  backoffFree := h'.backoffFree
  frequency := h'.frequency.trans h.frequency
  delayAt instant := (h'.delayAt instant).trans (h.delayAt instant)

end Offers

end Throttle

end AdmissionControl
