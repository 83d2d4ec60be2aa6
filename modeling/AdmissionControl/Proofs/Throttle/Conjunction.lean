import AdmissionControl.Proofs.Throttle.Leaves

/-!
# When a compound enforces both halves

A compound is meant to let an event through only if both halves do. Its answer is the larger of
theirs, which is right as long as a half that does not conform answers with a positive delay. A
rejection without a hint is negative, so it is smaller than the zero of a half that conforms, and
the compound then answers zero. The commit that follows is answered with an alarm.

`Throttle.conjunction_iff` says exactly when this happens, and
`Throttle.rejection_masked_by_null` is the smallest case of it.
-/

namespace AdmissionControl

namespace Throttle

/-- Only a backoff ever has a negative delay. -/
theorem delayAt_leaf_nonneg_or_geometric {t leaf : Throttle} (h : leaf ∈ t.leaves)
    (instant : Int) : 0 ≤ leaf.delayAt instant ∨ ∃ g, leaf = geometric g := by
  induction t with
  | engine charging e =>
    rw [List.mem_singleton.mp h]
    exact Or.inl (e.delayAt_nonneg instant)
  | shaper charging s =>
    obtain ⟨peak, sustained⟩ := s
    simp only [leaves, List.mem_cons, List.not_mem_nil, or_false] at h
    rcases h with rfl | rfl
    · exact Or.inl (peak.delayAt_nonneg instant)
    · cases sustained with
      | none => exact Or.inl (Int.le_refl 0)
      | some e => exact Or.inl (e.delayAt_nonneg instant)
  | geometric g => exact Or.inr ⟨g, List.mem_singleton.mp h⟩
  | null charging =>
    rw [List.mem_singleton.mp h]
    exact Or.inl (Int.le_refl 0)
  | absent =>
    rw [List.mem_singleton.mp h]
    exact Or.inl (Int.le_refl 0)
  | present t ih => exact ih h
  | compound p s ihp ihs =>
    rcases List.mem_append.mp h with hp | hs
    · exact ihp hp
    · exact ihs hs

/-- Two answers combined are zero for just the events that conform to both, unless one of them
is zero and the other that of a rejection. -/
theorem max_eq_zero_iff_iff {a b : Int} (ha : a < 0 → a = rejected) (hb : b < 0 → b = rejected) :
    ((max a b = 0 ↔ a = 0 ∧ b = 0) ↔ ¬ (a = 0 ∧ b = rejected ∨ a = rejected ∧ b = 0)) := by
  have hneg : rejected < 0 := by decide
  constructor
  · rintro h (⟨h0, hr⟩ | ⟨hr, h0⟩)
    · have := (h.mp (by omega)).2
      omega
    · have := (h.mp (by omega)).1
      omega
  · intro h
    refine ⟨fun hmax => ?_, fun h0 => by rw [h0.1, h0.2, Int.max_self]⟩
    -- a half that is not zero is negative here, hence a rejection, and the other one is zero
    constructor
    · by_cases h0 : a = 0
      · exact h0
      · exact absurd (Or.inr ⟨ha (by omega), by omega⟩) h
    · by_cases h0 : b = 0
      · exact h0
      · exact absurd (Or.inl ⟨by omega, hb (by omega)⟩) h

/-- An event that a throttle lets through conforms to all leaves if no backoff rejects it. -/
theorem forall_leaf_delayAt_eq_zero_iff {t : Throttle} {instant : Int}
    (h : t.delayAt instant = 0) :
    (∀ leaf ∈ t.leaves, leaf.delayAt instant = 0) ↔ ∀ g, geometric g ∈ t.leaves → g.delay = 0 := by
  constructor
  · intro hall g hg
    exact hall _ hg
  · intro hg leaf hleaf
    have hle : leaf.delayAt instant ≤ 0 := (t.delayAt_le_iff instant 0).mp (Int.le_of_eq h) _ hleaf
    rcases delayAt_leaf_nonneg_or_geometric hleaf instant with hpos | ⟨g, rfl⟩
    · exact Int.le_antisymm hle hpos
    · exact hg g hleaf

/-- **When a compound enforces both halves.** A compound lets through just the events that conform
to both halves, except where one half conforms and the other rejects the event without a hint.
If an event that it lets through is committed, the answer is free of alarm, and so is the
compound, exactly if none of the backoffs in it rejects the event. -/
theorem conjunction_iff (p s : Throttle) (instant : Int) (units : Nat) :
    (((compound p s).delayAt instant = 0 ↔ p.delayAt instant = 0 ∧ s.delayAt instant = 0) ↔
        ¬ (p.delayAt instant = 0 ∧ s.delayAt instant = rejected ∨
          p.delayAt instant = rejected ∧ s.delayAt instant = 0)) ∧
      ((compound p s).delayAt instant = 0 →
        (((compound p s).examine instant).commitVerdict = true ↔
          ∀ g, geometric g ∈ (compound p s).leaves → g.delay = 0) ∧
        (((compound p s).examine instant).commitUnits units).isAlarmed =
          !((compound p s).examine instant).commitVerdict) := by
  refine ⟨?_, fun h => ⟨?_, ?_⟩⟩
  · exact max_eq_zero_iff_iff (p.delayAt_eq_rejected_of_neg instant)
      (s.delayAt_eq_rejected_of_neg instant)
  · rw [commitVerdict_examine_iff, forall_leaf_delayAt_eq_zero_iff h]
  · exact isAlarmed_commitUnits _ units

/-- The third event through a backoff beside a throttle that admits everything is rejected by the
backoff, let through by the compound, and answered with an alarm when it is committed. -/
theorem rejection_masked_by_null :
    let t := ((compound (geometric .fresh) (null .perEvent)).run
      [.examine 0, .commit, .examine 0, .commit]).2
    (∃ p s, t = compound p s ∧ p.delayAt 0 = rejected ∧ s.delayAt 0 = 0) ∧
      t.delayAt 0 = 0 ∧ (t.examine 0).commitVerdict = false ∧
      (t.examine 0).commit.isAlarmed = true :=
  ⟨⟨_, _, rfl, by decide, by decide⟩, by decide, by decide, by decide⟩

end Throttle

end AdmissionControl
