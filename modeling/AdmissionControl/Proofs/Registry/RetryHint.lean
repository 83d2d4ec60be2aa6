import AdmissionControl.Proofs.Registry.History
import AdmissionControl.Proofs.Throttle.Built

/-!
# Retry hints

A check that is rejected comes with a hint how long to wait. In a registry whose throttles count
time alone the hint can be relied on: who waits that long is admitted, and who comes back more than
a tick earlier is not (`Registry.retryAfter_sufficient_and_tight`).

The throttle of a key that is only checked is in order for an event at its last use, whatever has
become of the key before (`Registry.Primed.after`). From a rejected check on its delays stand still
as long as no check is admitted (`Registry.sameDelays_after`), so the next check finds what is left
of the delay of the rejected one. The three roundings in between, of the two readings and of the
hint, are weighed against each other in `ticksAt_add_le_of_retryAfter` and
`ticksAt_lt_of_retryAfter`.
-/

namespace AdmissionControl

/-! ### What a check finds -/

/-- There is no backoff in the throttles from the factory. -/
def Factory.BackoffFree : Factory → Prop
  | copying prototype => prototype.BackoffFree
  | building blueprint => blueprint.BackoffFree

theorem Factory.BackoffFree.make {σ : Type} [Clock σ] {factory : Factory} (h : factory.BackoffFree)
    (env : Ambient σ) : (factory.make env).1.BackoffFree := by
  cases factory with
  | copying prototype => exact h
  | building blueprint => exact Blueprint.BackoffFree.build h env

/-- The throttle of a slot counts time alone, and is in order for an event at its last use. -/
structure Slot.Ready (slot : Slot) : Prop where
  backoffFree : slot.throttle.BackoffFree
  readyAt : slot.throttle.ReadyAt (ticksAt slot.lastSeen slot.throttle.frequency)

namespace Slot.Ready

theorem opened {t : Throttle} (h : t.BackoffFree) (nanos : Nat) :
    Slot.Ready ⟨t.resetAt (ticksAt nanos t.frequency), nanos⟩ where
  backoffFree := h.act (.resetAt _)
  readyAt := by
    rw [Throttle.frequency_resetAt]
    exact t.readyAt_resetAt (inRange_ticksAt nanos t.frequency).1

theorem later {slot : Slot} (h : slot.Ready) {nanos : Nat} (hle : slot.lastSeen ≤ nanos) :
    Slot.Ready ⟨slot.throttle, nanos⟩ :=
  ⟨h.backoffFree, h.readyAt.mono (ticksAt_mono hle _)⟩

theorem afterOffer {t : Throttle} {nanos : Nat} (h : Slot.Ready ⟨t, nanos⟩) (units : Nat) :
    Slot.Ready ⟨t.afterOffer (ticksAt nanos t.frequency) units, nanos⟩ where
  backoffFree := h.backoffFree.afterOffer _ units
  readyAt := by
    rw [t.frequency_afterOffer]
    exact h.readyAt.afterOffer units

/-- While the delays of a throttle stand still, an event that had one is admitted when the hint has
been waited out, and rejected more than a tick before. -/
theorem admitted_offer_of_retryAfter {t t' : Throttle} {n m : Nat} (h : Slot.Ready ⟨t, n⟩)
    (hsame : t.SameDelays t') {hint : Duration}
    (hhint : retryAfter (t.delayAt (ticksAt n t.frequency)) t.frequency = some hint)
    (hfits : ceilDiv (t.delayAt (ticksAt n t.frequency) * nanosPerSecond) t.frequency ≤ maxTick)
    (hreading : m * t.frequency / nanosPerSecond ≤ maxTick) (hnm : n ≤ m) (units : Nat) :
    let next := (t'.offer (ticksAt m t'.frequency) units).1
    (n + hint.nanos ≤ m → next.admitted = true) ∧
      (m + ceilDiv nanosPerSecond t.frequency + 1 ≤ n + hint.nanos → next.admitted = false) := by
  intro next
  have helapsed := ticksAt_mono hnm t.frequency
  have hleft : t.delayAt (ticksAt m t.frequency) = max 0 (t.delayAt (ticksAt n t.frequency) -
      (ticksAt m t.frequency - ticksAt n t.frequency)) := by
    have hworked := h.readyAt.delayAt_add h.backoffFree (Int.sub_nonneg.mpr helapsed)
    dsimp only at hworked
    rwa [Int.add_comm, Int.sub_add_cancel] at hworked
  have hadmitted : next.admitted = true ↔ t.delayAt (ticksAt m t.frequency) = 0 := by
    rw [t'.admitted_offer, hsame.frequency, hsame.delayAt]
  constructor
  · intro hwait
    have hworked := ticksAt_add_le_of_retryAfter hhint hfits hreading hwait
    exact hadmitted.mpr (by omega)
  · intro hearly
    have hrest := ticksAt_lt_of_retryAfter hhint hfits hnm hearly
    exact Bool.eq_false_iff.mpr (mt hadmitted.mp (by omega))

end Slot.Ready

namespace Registry

variable {κ σ ρ : Type} [DecidableEq κ] [Clock σ]

/-- If a key is in use, its throttle is in order for events at some readings. -/
def Primed (r : Registry κ) (key : κ) (readings : List Nat) : Prop :=
  ∀ slot, r.slots.find? key = some slot → slot.Ready ∧ ∀ nanos ∈ readings, slot.lastSeen ≤ nanos

section Checks

variable {r : Registry κ} {key : κ} {readings : List Nat}

/-- A check of a primed key finds a throttle that is in order for it, new or not. -/
theorem Primed.throttleFor (h : r.Primed key readings) (hfree : r.factory.BackoffFree) {nanos : Nat}
    (hnanos : nanos ∈ readings) (env : Ambient σ) :
    Slot.Ready ⟨(r.throttleFor key nanos env).1, nanos⟩ := by
  cases hslot : r.slots.find? key with
  | none =>
    rw [throttleFor_of_find?_eq_none hslot]
    exact Slot.Ready.opened (hfree.make env) nanos
  | some slot =>
    obtain ⟨hready, hlast⟩ := h slot hslot
    rw [throttleFor_of_find?_eq_some hslot]
    exact hready.later (hlast nanos hnanos)

/-- **A run.** A key that is only checked, at readings that do not go back, stays primed, also where
it is dropped and comes into use again. -/
theorem Primed.after {ops : List (Operation κ σ ρ)} {env : Ambient σ}
    (hfree : r.factory.BackoffFree) (hchecked : ∀ op ∈ ops, ¬ op.applies key)
    (horder : ((checksOf key (r.history ops env)).map Check.nanos ++ readings).Pairwise (· ≤ ·))
    (h : r.Primed key ((checksOf key (r.history ops env)).map Check.nanos ++ readings)) :
    (r.after ops env).1.Primed key readings := by
  induction ops generalizing r env with
  | nil => exact h
  | cons op rest ih =>
    obtain ⟨happlies, hrest⟩ := List.forall_mem_cons.mp hchecked
    have hfree' : (r.next op env).factory.BackoffFree := by rwa [factory_next]
    rcases r.check?_recordOf env happlies with ⟨hnone, hfind⟩ | ⟨c, hsome, -, hfind⟩
    · rw [checksOf_history_of_eq_none hnone] at horder h
      exact ih hfree' hrest horder (forall_slot_of_find?_eq h hfind)
    · rw [checksOf_history_of_eq_some hsome] at horder h
      obtain ⟨hlater, horder'⟩ := List.pairwise_cons.mp horder
      refine ih hfree' hrest horder' ?_
      intro slot hslot
      cases hfind.symm.trans hslot
      have hready := h.throttleFor hfree (List.mem_cons_self ..)
        { env with clock := (Clock.read env.clock).2 }
      exact ⟨hready.afterOffer c.units, hlater⟩

/-- **A run.** As long as all checks of a key are rejected and it stays in use, the delays of its
throttle stand still. -/
theorem sameDelays_after {ops : List (Operation κ σ ρ)} {env : Ambient σ} {slot : Slot}
    (hslot : r.slots.find? key = some slot) (hfree : slot.throttle.BackoffFree)
    (h : r.Undisturbed key ops env)
    (hrejected : ∀ c ∈ checksOf key (r.history ops env), c.isAdmitted = false) :
    ∃ slot', (r.after ops env).1.slots.find? key = some slot' ∧
      slot.throttle.SameDelays slot'.throttle := by
  induction ops generalizing r env slot with
  | nil => exact ⟨slot, hslot, hfree, rfl, fun _ => rfl⟩
  | cons op rest ih =>
    obtain ⟨happlies, hkept, hlater⟩ := h
    rcases r.check?_recordOf env happlies with ⟨hnone, hfind⟩ | ⟨c, hsome, hdecision, hfind⟩
    · rw [checksOf_history_of_eq_none hnone] at hrejected
      have hslot' := (find?_eq_of_contains hfind hkept).trans hslot
      exact ih hslot' hfree hlater hrejected
    · rw [checksOf_history_of_eq_some hsome] at hrejected
      obtain ⟨hearly, hrejected'⟩ := List.forall_mem_cons.mp hrejected
      rw [throttleFor_of_find?_eq_some hslot] at hdecision hfind
      have hdelay : slot.throttle.delayAt (ticksAt c.nanos slot.throttle.frequency) ≠ 0 := by
        intro hzero
        have hadmitted := (slot.throttle.admitted_offer _ c.units).mpr hzero
        rw [← hdecision] at hadmitted
        cases hearly.symm.trans hadmitted
      have hstep := hfree.sameDelays_afterOffer hdelay c.units
      obtain ⟨slot', hslot', hrun⟩ := ih hfind hstep.backoffFree hlater hrejected'
      exact ⟨slot', hslot', hstep.trans hrun⟩

end Checks

/-! ### The hint -/

/-- **The hint of a rejected check.** In a registry whose throttles count time alone, let a key only
be checked, at readings that do not go back, and let a check of it be rejected with a hint. Until
the next check let no check of the key be admitted and the key not be dropped. The next check is
admitted if it comes when the hint has been waited out, and rejected if it comes more than a tick
before, provided that the hint and the reading are not too large to be told apart from larger
ones. -/
theorem retryAfter_sufficient_and_tight {factory : Factory} (hfree : factory.BackoffFree) {key : κ}
    {before between : List (Operation κ σ ρ)} {start env₀ env₁ env₂ : Ambient σ}
    {r₀ r₁ r₂ : Registry κ} (hbefore : (new factory).after before start = (r₀, env₀))
    (hchecked : ∀ op ∈ before, ¬ op.applies key) {n₀ : Nat}
    (hread₀ : (Clock.read env₀.clock).1 = .ok n₀) {units₀ : Nat} {rejection : Decision}
    (hrejection : r₀.checkUnits key units₀ env₀ = ((.ok rejection, r₁), env₁)) {hint : Duration}
    (hhint : rejection.retryAfter = some hint)
    (hbetween : r₁.after between env₁ = (r₂, env₂)) (hundisturbed : r₁.Undisturbed key between env₁)
    (hwaiting : ∀ c ∈ checksOf key (r₁.history between env₁), c.isAdmitted = false) {n₁ : Nat}
    (hread₁ : (Clock.read env₂.clock).1 = .ok n₁)
    (horder : ((checksOf key ((new factory).history before start)).map Check.nanos ++
      n₀ :: ((checksOf key (r₁.history between env₁)).map Check.nanos ++ [n₁])).Pairwise (· ≤ ·))
    (units₁ : Nat) :
    ∃ slot next, r₁.slots.find? key = some slot ∧
      (r₂.checkUnits key units₁ env₂).1.1 = .ok next ∧
      let frequency := slot.throttle.frequency
      ceilDiv (rejection.delay * nanosPerSecond) frequency ≤ maxTick →
        n₁ * frequency / nanosPerSecond ≤ maxTick →
        (n₀ + hint.nanos ≤ n₁ → next.admitted = true) ∧
          (n₁ + ceilDiv nanosPerSecond frequency + 1 ≤ n₀ + hint.nanos →
            next.admitted = false) := by
  have hfactory : r₀.factory.BackoffFree := by
    have hsame := (new factory).factory_after before start
    rw [hbefore] at hsame
    rwa [hsame]
  have hprimed := Primed.after hfree hchecked horder fun slot hslot => nomatch hslot
  rw [hbefore] at hprimed
  let t := (r₀.throttleFor key n₀ { env₀ with clock := (Clock.read env₀.clock).2 }).1
  have hready : Slot.Ready ⟨t, n₀⟩ := hprimed.throttleFor hfactory (List.mem_cons_self ..) _
  obtain ⟨rfl, hslot⟩ := offer_of_checkUnits_eq_ok hread₀ hrejection
  have hfrequency := t.frequency_afterOffer (ticksAt n₀ t.frequency) units₀
  have hhint' : retryAfter (t.delayAt (ticksAt n₀ t.frequency)) t.frequency = some hint :=
    (congrArg (retryAfter _) hfrequency).symm.trans hhint
  obtain ⟨hdelay, -⟩ := pos_of_retryAfter hhint'
  have hwait := hready.backoffFree.sameDelays_afterOffer (Int.ne_of_gt hdelay) units₀
  obtain ⟨slot, hslot', hsame⟩ := sameDelays_after hslot hwait.backoffFree hundisturbed hwaiting
  rw [hbetween] at hslot'
  refine ⟨_, _, hslot, checkUnits_of_find?_eq_some hslot' hread₁ units₁, ?_⟩
  intro frequency hfits hreading
  have hticks : frequency = t.frequency := hfrequency
  rw [hticks] at hfits hreading ⊢
  have hn : n₀ ≤ n₁ := by
    have hlast := (List.pairwise_append.mp horder).2.1
    exact (List.pairwise_cons.mp hlast).1 n₁ (by simp)
  exact hready.admitted_offer_of_retryAfter (hwait.trans hsame) hhint' hfits hreading hn units₁

/-- Three ticks in ten nanoseconds, and checks at every third nanosecond. A hint of ten nanoseconds
is given at the reading 6. The check at 9 is too early, that at 18 is not. -/
theorem retryAfter_sufficient_and_tight_of_compound :
    let coarse : Resolution := ⟨300000000, by decide, by decide⟩
    let factory : Factory := .building (.compound
      (.present (.engine .perUnit (.atInstant 0) (.clamped coarse 4 0)))
      (.engine .perEvent (.atInstant 0) (.clamped .nanoseconds 3 2)))
    let before : List (Operation Nat ScriptedClock Unit) := [.offer 0 1, .remove 0, .offer 0 1]
    let between : List (Operation Nat ScriptedClock Unit) :=
      [.offer 0 1, .evictIdle 100, .offer 1 1]
    let reached := (new factory : Registry Nat).after before { clock := { step := 3 } }
    let rejected := reached.1.checkUnits 0 1 reached.2
    let waited := rejected.1.2.after between rejected.2
    rejected.1.1 = .ok ⟨false, 3, some ⟨10⟩, false⟩ ∧
      (∃ next, (rejected.1.2.checkUnits 0 1 rejected.2).1.1 = .ok next ∧ next.admitted = false) ∧
      ∃ next, (waited.1.checkUnits 0 1 waited.2).1.1 = .ok next ∧ next.admitted = true := by
  intro coarse factory before between reached rejected waited
  have hfree : factory.BackoffFree := ⟨trivial, trivial⟩
  have hchecked : ∀ op ∈ before, ¬ op.applies 0 := by decide
  have hdecision : rejected.1.1 = .ok ⟨false, 3, some ⟨10⟩, false⟩ := by
    refine congrArg Except.ok (?_ : _ = Decision.mk _ _ _ _)
    decide
  have hrejection : rejected = ((.ok ⟨false, 3, some ⟨10⟩, false⟩, rejected.1.2), rejected.2) :=
    Prod.ext (Prod.ext hdecision rfl) rfl
  have hticks : (rejected.1.2.slots.find? 0).map (·.throttle.frequency) = some 300000000 := by
    decide
  have hfrequency : ∀ slot, rejected.1.2.slots.find? 0 = some slot →
      slot.throttle.frequency = 300000000 := by
    intro slot hslot
    rw [hslot] at hticks
    exact Option.some.inj hticks
  have hbefore : reached = (reached.1, reached.2) := (Prod.eta _).symm
  have hread₀ : (Clock.read reached.2.clock).1 = .ok 6 := rfl
  refine ⟨hdecision, ?_, ?_⟩
  · have hbetween : rejected.1.2.after ([] : List (Operation Nat ScriptedClock Unit)) rejected.2 =
        (rejected.1.2, rejected.2) := rfl
    have hread₁ : (Clock.read rejected.2.clock).1 = .ok 9 := rfl
    obtain ⟨slot, next, hslot, hnext, hhint⟩ := retryAfter_sufficient_and_tight hfree hbefore
      hchecked hread₀ hrejection rfl hbetween trivial (by decide) hread₁ (by decide) 1
    rw [hfrequency slot hslot] at hhint
    exact ⟨next, hnext, (hhint (by decide) (by decide)).2 (by decide)⟩
  · have hbetween : waited = (waited.1, waited.2) := (Prod.eta _).symm
    have hread₁ : (Clock.read waited.2.clock).1 = .ok 18 := by
      have hclock : waited.2.clock = ⟨18, 3, 0⟩ := by decide
      rw [hclock]
      rfl
    obtain ⟨slot, next, hslot, hnext, hhint⟩ := retryAfter_sufficient_and_tight hfree hbefore
      hchecked hread₀ hrejection rfl hbetween (by decide) (by decide) hread₁ (by decide) 1
    rw [hfrequency slot hslot] at hhint
    exact ⟨next, hnext, (hhint (by decide) (by decide)).1 (by decide)⟩

end Registry

end AdmissionControl
