import AdmissionControl.Throttle.Action

/-!
# The leaves of a throttle

A throttle is a tree of combinations. `Throttle.leaves` lists what is found when all of them are
taken apart: engines, backoffs, throttles that admit everything and throttles that are left out. A
shaper is taken apart too, into its peak engine and its sustained one.

Every action reaches every leaf once, and a leaf is told nothing of the others
(`Throttle.leaves_act`). What a throttle answers is put together from the answers of its leaves:
its delay is the largest of theirs (`Throttle.delayAt_le_iff`, `Throttle.exists_leaf_delayAt_eq`),
and an event keeps to its rules if it keeps to the rules of every leaf
(`Throttle.commitVerdict_examine_iff`).
-/

namespace AdmissionControl

namespace Throttle

/-- The sustained engine of a shaper as a throttle of its own. -/
def ofSustained (charging : Charging) : Option Engine → Throttle
  | none => absent
  | some e => engine charging e

/-- The throttles that a throttle is put together from, in order. -/
@[simp] def leaves : Throttle → List Throttle
  | engine charging e => [engine charging e]
  | shaper charging s => [engine charging s.peak, ofSustained charging s.sustained]
  | geometric g => [geometric g]
  | null charging => [null charging]
  | absent => [absent]
  | present t => t.leaves
  | compound p s => p.leaves ++ s.leaves

/-- A leaf is an engine or a backoff, or else it admits everything. -/
theorem leaf_cases {t leaf : Throttle} (h : leaf ∈ t.leaves) :
    (∃ charging e, leaf = engine charging e) ∨ (∃ g, leaf = geometric g) ∨
      ∀ instant, leaf.delayAt instant = 0 := by
  induction t with
  | engine charging e => exact .inl ⟨charging, e, List.mem_singleton.mp h⟩
  | shaper charging s =>
    obtain ⟨peak, sustained⟩ := s
    rcases List.mem_cons.mp h with rfl | hrest
    · exact .inl ⟨charging, peak, rfl⟩
    · cases List.mem_singleton.mp hrest
      cases sustained with
      | none => exact .inr (.inr fun _ => rfl)
      | some e => exact .inl ⟨charging, e, rfl⟩
  | geometric g => exact .inr (.inl ⟨g, List.mem_singleton.mp h⟩)
  | null _ | absent =>
    cases List.mem_singleton.mp h
    exact .inr (.inr fun _ => rfl)
  | present t ih => exact ih h
  | compound p s ihp ihs =>
    rcases List.mem_append.mp h with hp | hs
    · exact ihp hp
    · exact ihs hs

/-! ### Every action reaches every leaf -/

@[simp] theorem act_present (t : Throttle) (a : Action) :
    ((present t).act a).2 = present (t.act a).2 := by
  cases a <;> rfl

@[simp] theorem act_compound (p s : Throttle) (a : Action) :
    ((compound p s).act a).2 = compound (p.act a).2 (s.act a).2 := by
  cases a <;> rfl

/-- An action on a shaper is one on each of its engines. -/
theorem leaves_act_shaper (charging : Charging) (s : Shaper) (a : Action) :
    ((shaper charging s).act a).2.leaves = (shaper charging s).leaves.map fun l => (l.act a).2 := by
  obtain ⟨peak, sustained⟩ := s
  cases sustained <;> cases a <;> rfl

/-- **Every action reaches every leaf once.** The leaves after an action are the leaves before it,
each after the same action on it alone. -/
theorem leaves_act (t : Throttle) (a : Action) :
    (t.act a).2.leaves = t.leaves.map fun l => (l.act a).2 := by
  induction t with
  | engine _ _ | geometric _ | null _ | absent => cases a <;> rfl
  | shaper charging s => exact leaves_act_shaper charging s a
  | present t ih => rw [act_present, leaves, leaves, ih]
  | compound p s ihp ihs => rw [act_compound, leaves, leaves, List.map_append, ihp, ihs]

section Steps

variable (t : Throttle) (instant : Int) (units : Nat)

@[simp] theorem leaves_resetAt : (t.resetAt instant).leaves = t.leaves.map (resetAt instant) :=
  t.leaves_act (.resetAt instant)

@[simp] theorem leaves_examine : (t.examine instant).leaves = t.leaves.map (examine instant) :=
  t.leaves_act (.examine instant)

@[simp] theorem leaves_commitUnits :
    (t.commitUnits units).leaves = t.leaves.map (commitUnits units) :=
  t.leaves_act (.commitUnits units)

@[simp] theorem leaves_rollback : t.rollback.leaves = t.leaves.map rollback :=
  t.leaves_act .rollback

end Steps

/-- No action changes what the ticks of a throttle are. -/
@[simp] theorem frequency_act (t : Throttle) (a : Action) :
    (t.act a).2.frequency = t.frequency := by
  induction t with
  | engine _ _ | shaper _ _ | geometric _ | null _ | absent => cases a <;> rfl
  | present t ih => rw [act_present, frequency, frequency, ih]
  | compound p s ihp _ => rw [act_compound, frequency, frequency, ihp]

@[simp] theorem frequency_resetAt (t : Throttle) (start : Int) :
    (t.resetAt start).frequency = t.frequency := t.frequency_act (.resetAt start)

@[simp] theorem frequency_examine (t : Throttle) (instant : Int) :
    (t.examine instant).frequency = t.frequency := t.frequency_act (.examine instant)

/-! ### The delay is the largest of the delays of the leaves -/

theorem delayAt_shaper (charging : Charging) (s : Shaper) (instant : Int) :
    (shaper charging s).delayAt instant =
      max (s.peak.delayAt instant) ((ofSustained charging s.sustained).delayAt instant) := by
  obtain ⟨peak, sustained⟩ := s
  cases sustained <;> rfl

/-- A delay is within a bound if those of all leaves are. -/
theorem delayAt_le_iff (t : Throttle) (instant bound : Int) :
    t.delayAt instant ≤ bound ↔ ∀ leaf ∈ t.leaves, leaf.delayAt instant ≤ bound := by
  induction t with
  | engine _ _ | geometric _ | null _ | absent => simp
  | shaper charging s =>
    rw [delayAt_shaper, Int.max_le]
    simp [leaves, delayAt]
  | present t ih => exact ih
  | compound p s ihp ihs =>
    rw [delayAt, Int.max_le, ihp, ihs, leaves, List.forall_mem_append]

/-- Some leaf has the delay of the whole throttle. -/
theorem exists_leaf_delayAt_eq (t : Throttle) (instant : Int) :
    ∃ leaf ∈ t.leaves, leaf.delayAt instant = t.delayAt instant := by
  induction t with
  | engine _ _ | geometric _ | null _ | absent => simp
  | shaper charging s =>
    rw [delayAt_shaper]
    rcases Int.le_total (s.peak.delayAt instant)
        ((ofSustained charging s.sustained).delayAt instant) with h | h
    · exact ⟨_, by simp, (Int.max_eq_right h).symm⟩
    · exact ⟨engine charging s.peak, by simp, (Int.max_eq_left h).symm⟩
  | present t ih => exact ih
  | compound p s ihp ihs =>
    obtain ⟨lp, hp, hpeq⟩ := ihp
    obtain ⟨ls, hs, hseq⟩ := ihs
    rcases Int.le_total (p.delayAt instant) (s.delayAt instant) with h | h
    · exact ⟨ls, List.mem_append_right _ hs, by rw [hseq, delayAt, Int.max_eq_right h]⟩
    · exact ⟨lp, List.mem_append_left _ hp, by rw [hpeq, delayAt, Int.max_eq_left h]⟩

/-- The delay of a backoff is zero or that of a rejection. -/
theorem delay_geometric (g : Geometric) : g.delay = 0 ∨ g.delay = rejected := by
  unfold Geometric.delay
  split
  · exact Or.inr rfl
  · exact Or.inl rfl

/-- A negative delay is that of a rejection. -/
theorem delayAt_eq_rejected_of_neg (t : Throttle) (instant : Int) (h : t.delayAt instant < 0) :
    t.delayAt instant = rejected := by
  induction t with
  | engine _ e => exact absurd h (Int.not_lt.mpr (e.delayAt_nonneg instant))
  | shaper charging s =>
    -- the peak engine alone keeps the larger delay from being negative
    have hpeak := s.peak.delayAt_nonneg instant
    rw [delayAt_shaper] at h
    omega
  | geometric g =>
    rcases delay_geometric g with h0 | h0
    · exact absurd h (Int.not_lt.mpr (Int.le_of_eq h0.symm))
    · exact h0
  | null _ => exact absurd h (Int.lt_irrefl 0)
  | absent => exact absurd h (Int.lt_irrefl 0)
  | present t ih => exact ih h
  | compound p s ihp ihs =>
    -- the larger of two delays is negative only if both are
    rw [delayAt] at h ⊢
    have hp := ihp (by omega)
    have hs := ihs (by omega)
    rw [hp, hs, Int.max_self]

/-! ### Verdicts -/

/-- **A commit keeps to the rules exactly if the event conforms to every leaf.** -/
theorem commitVerdict_examine_iff (t : Throttle) (instant : Int) :
    (t.examine instant).commitVerdict = true ↔ ∀ leaf ∈ t.leaves, leaf.delayAt instant = 0 := by
  induction t with
  | engine _ _ | geometric _ | null _ | absent => simp
  | shaper _ s =>
    obtain ⟨peak, sustained⟩ := s
    cases sustained <;> simp [leaves, ofSustained, Shaper.examine, Shaper.commitVerdict]
  | present t ih => exact ih
  | compound p s ihp ihs =>
    rw [examine, commitVerdict, Bool.and_eq_true, ihp, ihs, leaves, List.forall_mem_append]

/-- After a commit a throttle is alarmed exactly if the commit was answered so. -/
@[simp] theorem isAlarmed_commitUnits (t : Throttle) (units : Nat) :
    (t.commitUnits units).isAlarmed = !t.commitVerdict := by
  induction t with
  | engine _ _ | shaper _ _ | geometric _ | null _ | absent => simp
  | present t ih => exact ih
  | compound p s ihp ihs => rw [commitUnits, isAlarmed, ihp, ihs, commitVerdict, Bool.not_and]

end Throttle

end AdmissionControl
