import AdmissionControl.Proofs.Throttle.Built
import AdmissionControl.Proofs.Throttle.Invariants

/-!
# Sound throttles

A throttle is sound if the debts of its engines are spans and its backoffs count in powers of two
(`Throttle.Sound`). Every action keeps this, whether it comes in turn or not, and new throttles and
those that have been reset are sound.

A throttle can also be taken apart while it is in use, and put together in another way.
`Throttle.InUse` are all states that throttles come into then, and all of them are sound
(`Throttle.InUse.sound`).
-/

namespace AdmissionControl

theorem Engine.Sound.isValid {e : Engine} (h : e.Sound) : e.isValid = true :=
  decide_eq_true ⟨h.committed.1, h.tentative.1⟩

/-! ### Backoffs -/

namespace Backoff

/-- The number of the next event to be admitted is a power of two that is a tick count. -/
structure Sound (b : Backoff) : Prop where
  isPowerOfTwo : isPowerOfTwo b.consecutive = true
  le_maxTick : b.consecutive ≤ maxTick

variable {b : Backoff}

theorem Sound.isSpan (h : b.Sound) : IsSpan b.consecutive :=
  ⟨Int.le_of_lt (of_decide_eq_true h.isPowerOfTwo).1, h.le_maxTick⟩

/-- The countdown and the alarm do not matter. -/
theorem Sound.of_consecutive_eq {b' : Backoff} (h : b.Sound)
    (heq : b'.consecutive = b.consecutive) : b'.Sound :=
  ⟨heq ▸ h.isPowerOfTwo, heq ▸ h.le_maxTick⟩

/-- **One more event.** -/
theorem Sound.next (h : b.Sound) : b.next.Sound := by
  obtain ⟨hpos, hpower⟩ := of_decide_eq_true h.isPowerOfTwo
  unfold Backoff.next
  dsimp only
  split
  · exact h.of_consecutive_eq rfl
  · split
    · next hroom =>
      have hdoubled : (2 * b.consecutive).toNat = b.consecutive.toNat * 2 := by omega
      have hnext : (2 * b.consecutive).toNat.isPowerOfTwo := by
        rw [hdoubled]
        exact Nat.isPowerOfTwo_mul_two_of_isPowerOfTwo hpower
      have hpositive : 0 < 2 * b.consecutive := by omega
      exact ⟨decide_eq_true ⟨hpositive, hnext⟩, hroom⟩
    · exact h.of_consecutive_eq rfl

end Backoff

namespace Geometric

/-- Both counters make sense. -/
structure Sound (g : Geometric) : Prop where
  committed : g.committed.Sound
  tentative : g.tentative.Sound

theorem sound_fresh : fresh.Sound := by
  have hone : Backoff.Sound {} := ⟨by decide, by decide⟩
  exact ⟨hone, hone⟩

theorem Sound.isValid {g : Geometric} (h : g.Sound) : g.isValid = true := by
  simp [Geometric.isValid, h.committed.isPowerOfTwo, h.tentative.isPowerOfTwo]

end Geometric

/-! ### Throttles -/

namespace Throttle

/-- All debts are spans, and all backoffs count in powers of two. -/
def Sound : Throttle → Prop
  | engine _ e => e.Sound
  | shaper _ s => s.peak.Sound ∧ ∀ e, s.sustained = some e → e.Sound
  | geometric g => g.Sound
  | null _ | absent => True
  | present t => t.Sound
  | compound p s => p.Sound ∧ s.Sound

section Sound

variable {t : Throttle}

/-- A throttle is sound if all its leaves are. -/
theorem sound_iff_forall_leaves : t.Sound ↔ ∀ leaf ∈ t.leaves, leaf.Sound := by
  induction t with
  | engine _ _ | geometric _ | null _ | absent => simp
  | shaper charging s =>
    obtain ⟨peak, sustained⟩ := s
    cases sustained <;> simp [leaves, ofSustained, Sound]
  | present t ih => exact ih
  | compound p s ihp ihs => simp only [Sound, leaves, List.forall_mem_append, ihp, ihs]

/-- The debts of a sound throttle are spans. -/
theorem Sound.forallEngines (h : t.Sound) : t.ForallEngines Engine.Sound :=
  fun _ _ he => sound_iff_forall_leaves.mp h _ he

/-- What is sound makes sense. -/
theorem Sound.isValid (h : t.Sound) : t.isValid = true := by
  induction t with
  | engine _ e => exact Engine.Sound.isValid h
  | shaper _ s =>
    obtain ⟨peak, sustained⟩ := s
    obtain ⟨hpeak, hsustained⟩ := h
    cases sustained with
    | none => simp [Throttle.isValid, Shaper.isValid, hpeak.isValid]
    | some e => simp [Throttle.isValid, Shaper.isValid, hpeak.isValid, (hsustained e rfl).isValid]
  | geometric _ => exact Geometric.Sound.isValid h
  | null _ | absent => rfl
  | present t ih => exact ih h
  | compound p s ihp ihs => simp [Throttle.isValid, ihp h.1, ihs h.2]

/-- **One action.** -/
theorem Sound.act (h : t.Sound) (a : Action) : (t.act a).2.Sound := by
  induction t with
  | engine _ e =>
    have hafter : (e.act a).Sound := Engine.Sound.act h a
    cases a <;> exact hafter
  | shaper _ s =>
    obtain ⟨peak, sustained⟩ := s
    obtain ⟨hpeak, hsustained⟩ := h
    -- either engine is driven on its own
    have hpeak' : (peak.act a).Sound := hpeak.act a
    cases sustained with
    | none => cases a <;> exact ⟨hpeak', fun _ he => nomatch he⟩
    | some e =>
      have hsustained' : (e.act a).Sound := (hsustained e rfl).act a
      cases a <;>
      · refine ⟨hpeak', ?_⟩
        rintro _ ⟨⟩
        exact hsustained'
  | geometric g =>
    cases a with
    | resetAt _ => exact Geometric.sound_fresh
    | examine _ => exact ⟨h.committed, h.committed.next⟩
    | commit | commitUnits _ => exact ⟨h.tentative, h.tentative⟩
    | rollback => exact ⟨h.tentative.of_consecutive_eq rfl, h.tentative⟩
  | null _ | absent => cases a <;> trivial
  | present t ih =>
    rw [act_present]
    exact ih h
  | compound p s ihp ihs =>
    rw [act_compound]
    exact ⟨ihp h.1, ihs h.2⟩

/-- **A run.** -/
theorem Sound.run (h : t.Sound) (actions : List Action) : (t.run actions).2.Sound := by
  induction actions generalizing t with
  | nil => exact h
  | cons a rest ih => exact ih (h.act a)

end Sound

/-! ### Throttles in use -/

/-- The states that throttles come into: that of a throttle just built, on whatever clock, those
after an action or a reset, and whatever is put together from the leaves of throttles in use. What
an engine is charged for may change too. -/
inductive InUse : Throttle → Prop
  | built {σ : Type} [Clock σ] (b : Blueprint) (env : Ambient σ) : InUse (b.build env).1
  | act {t : Throttle} (h : InUse t) (a : Action) : InUse (t.act a).2
  | reset {σ : Type} [Clock σ] {t : Throttle} (h : InUse t) (env : Ambient σ) :
    InUse (t.reset env).1
  | leaf {t leaf : Throttle} (h : InUse t) (hleaf : leaf ∈ t.leaves) : InUse leaf
  | assembled {t : Throttle} (h : ∀ leaf ∈ t.leaves, InUse leaf) : InUse t
  | charged {charging : Charging} {e : Engine} (h : InUse (engine charging e))
      (charging' : Charging) : InUse (engine charging' e)

section Clocked

variable {σ : Type} [Clock σ]

theorem sound_reset (t : Throttle) (env : Ambient σ) : (t.reset env).1.Sound := by
  induction t generalizing env with
  | engine _ e => exact e.sound_resetAt _
  | shaper _ s =>
    obtain ⟨peak, sustained⟩ := s
    cases sustained with
    | none => exact ⟨peak.sound_resetAt _, fun _ he => nomatch he⟩
    | some e =>
      refine ⟨peak.sound_resetAt _, ?_⟩
      rintro _ ⟨⟩
      exact e.sound_resetAt _
  | geometric _ => exact Geometric.sound_fresh
  | null _ | absent => trivial
  | present t ih => exact ih env
  | compound p s ihp ihs => exact ⟨ihp env, ihs _⟩

theorem sound_build (b : Blueprint) (env : Ambient σ) : (b.build env).1.Sound := by
  have hopened : ∀ pace instant, (Engine.opened pace instant).Sound :=
    fun pace instant => (Engine.opened pace instant).sound_resetAt instant
  induction b generalizing env with
  | engine _ opening pace => exact Blueprint.forallEngines_buildEngine hopened pace opening env
  | shaper charging opening c =>
    exact Blueprint.forallEngines_buildShaper hopened charging.resolution c opening env
  | geometric => exact Geometric.sound_fresh
  | null _ | absent => trivial
  | present b ih => exact ih env
  | compound p s ihp ihs => exact ⟨ihp env, ihs _⟩

end Clocked

/-- **Whatever is in use is sound.** -/
theorem InUse.sound {t : Throttle} (h : t.InUse) : t.Sound := by
  induction h with
  | built b env => exact sound_build b env
  | act _ a ih => exact ih.act a
  | reset _ env _ => exact sound_reset _ env
  | leaf _ hleaf ih => exact sound_iff_forall_leaves.mp ih _ hleaf
  | assembled _ ih => exact sound_iff_forall_leaves.mpr ih
  | charged _ _ ih => exact ih

end Throttle

end AdmissionControl
