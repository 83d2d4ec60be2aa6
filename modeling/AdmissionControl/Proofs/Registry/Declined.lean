import AdmissionControl.Proofs.Registry.FreshStart
import AdmissionControl.Proofs.Registry.RetryHint
import AdmissionControl.Proofs.Throttle.Glances

/-!
# Declined events

An event that is declined costs the others nothing. For a throttle without backoffs that a caller
drives by hand this is `Throttle.BackoffFree.run_glanced`. In a registry the declined events of a
key are its rejected checks, and any of them can be left out of the history of the key: the throttle
that has decided all of its checks decides those that stay in the same way
(`Throttle.Decides.thin`).

In a registry there is one more thing to see to. The throttle of a key is opened at the reading of
the first check, so leaving out that check would open another throttle. But the first check of a key
is admitted, and it is not among those that are left out (`Registry.found_eq_of_sublist`).
-/

namespace AdmissionControl

namespace Check

/-- The reading of a check and its units, which are not up to the throttle. -/
def request (c : Check) : Nat × Nat := (c.nanos, c.units)

/-- If all admitted checks are among those that stay, a check before them is rejected. -/
theorem isAdmitted_eq_false_of_sublist {c : Check} {kept rest : List Check}
    (hsub : kept.Sublist rest)
    (hadmitted : kept.filter isAdmitted = (c :: rest).filter isAdmitted) :
    c.isAdmitted = false := by
  rw [Bool.eq_false_iff]
  intro hc
  have hlength := (hsub.filter isAdmitted).length_le
  rw [hadmitted, List.filter_cons_of_pos hc, List.length_cons] at hlength
  exact absurd hlength (by omega)

end Check

namespace Throttle

variable {t t' : Throttle} {checks kept : List Check}

/-- What a throttle decides is determined by what it is asked for. -/
theorem Decides.eq_of_requests {checks' : List Check} (h : t.Decides checks)
    (h' : t.Decides checks')
    (hrequests : checks'.map Check.request = checks.map Check.request) : checks' = checks := by
  induction checks generalizing t checks' with
  | nil => exact List.map_eq_nil_iff.mp hrequests
  | cons c rest ih =>
    obtain ⟨c', rest', rfl, hfirst, hlater⟩ := List.map_eq_cons_iff.mp hrequests
    obtain ⟨hdecision, hrest⟩ := h
    obtain ⟨hdecision', hrest'⟩ := h'
    obtain ⟨hnanos, hunits⟩ := Prod.mk.inj hfirst
    have hsame : c' = c := by
      rw [hnanos, hunits, ← hdecision] at hdecision'
      cases c
      cases c'
      cases hnanos
      cases hunits
      cases hdecision'
      rfl
    rw [hsame] at hrest' ⊢
    rw [ih hrest hrest' hlater]

/-- **Leaving out rejected checks.** The others are decided as before, even by a throttle that has
not looked at the rejected ones so far. -/
theorem Decides.thin (h : t'.Decides checks) (hfree : t.BackoffFree) (hsame : t.SameCommitted t')
    (hsub : kept.Sublist checks)
    (hadmitted : kept.filter Check.isAdmitted = checks.filter Check.isAdmitted) :
    t.Decides kept := by
  induction hsub generalizing t t' with
  | slnil => trivial
  | @cons kept rest c hsub ih =>
    obtain ⟨hdecision, hrest⟩ := h
    have hrejected := Check.isAdmitted_eq_false_of_sublist hsub hadmitted
    have hearly : t'.delayAt (ticksAt c.nanos t'.frequency) ≠ 0 := fun hzero =>
      Bool.eq_false_iff.mp hrejected ((isAdmitted_iff hdecision).mpr hzero)
    have hafter := hsame.backoffFree.sameCommitted_afterOffer hearly c.units
    -- the check that is left out has only been looked at by the one throttle
    rw [List.filter_cons_of_neg (Bool.eq_false_iff.mp hrejected)] at hadmitted
    exact ih hrest hfree (hsame.trans hafter) hadmitted
  | @cons_cons kept rest c hsub ih =>
    obtain ⟨hdecision, hrest⟩ := h
    have hoffer := hsame.offer hfree (ticksAt c.nanos t.frequency) c.units
    have hfrequency := (hsame.sameDelays hfree).frequency
    rw [hfrequency, hoffer] at hdecision
    have hafter : t'.afterCheck c = t.afterCheck c := by
      rw [afterCheck, hfrequency]
      exact congrArg Prod.snd hoffer
    -- a check that stays makes the two the same
    rw [hafter] at hrest
    refine ⟨hdecision, ih hrest (hfree.afterOffer _ _) (.refl (hfree.afterOffer _ _)) ?_⟩
    rw [List.filter_cons, List.filter_cons] at hadmitted
    split at hadmitted
    · exact List.tail_eq_of_cons_eq hadmitted
    · exact hadmitted

end Throttle

namespace Registry

variable {κ σ ρ : Type} [DecidableEq κ] [Clock σ] {r r' : Registry κ} {prototype : Throttle}
  {key : κ}

omit [Clock σ] in
theorem backoffFree_found (hfree : prototype.BackoffFree)
    (hslots : ∀ slot, r.slots.find? key = some slot → slot.throttle.BackoffFree) (nanos : Nat) :
    (r.found prototype key nanos).BackoffFree := by
  unfold found
  cases hslot : r.slots.find? key with
  | none => exact hfree.act (.resetAt _)
  | some slot => exact hslots slot hslot

/-- If only rejected checks are left out, the first check that stays finds the throttle that the
first of all finds, even if this one has been left out. -/
theorem found_eq_of_sublist {c k : Check} {rest kept : List Check}
    (hdecides : (r.found prototype key c.nanos).Decides (c :: rest))
    (hsub : (k :: kept).Sublist (c :: rest))
    (hadmitted : (k :: kept).filter Check.isAdmitted = (c :: rest).filter Check.isAdmitted) :
    r.found prototype key k.nanos = r.found prototype key c.nanos := by
  cases hslot : r.slots.find? key with
  | some slot =>
    unfold found
    rw [hslot]
    rfl
  | none =>
    have hfirst : c.isAdmitted = true :=
      (Throttle.isAdmitted_iff hdecides.1).mpr (delayAt_found_of_find?_eq_none hslot _ _)
    cases hsub with
    | cons _ hlater =>
      have hrejected := Check.isAdmitted_eq_false_of_sublist hlater hadmitted
      cases hrejected.symm.trans hfirst
    | cons_cons _ _ => rfl

/-- **Rejected checks of a key.** If some of them are left out, in a run of a registry in which
anything else may be done on other keys and whose clock may be another one, the other checks of the
key are decided as before. -/
theorem checksOf_eq_of_requests {σ' : Type} [Clock σ'] (hfree : r.factory.BackoffFree)
    (hfactory : r'.factory = r.factory) (hslot : r'.slots.find? key = r.slots.find? key)
    (hslots : ∀ slot, r.slots.find? key = some slot → slot.throttle.BackoffFree)
    {ops : List (Operation κ σ ρ)} {env : Ambient σ} (h : r.Undisturbed key ops env)
    {ops' : List (Operation κ σ' ρ)} {env' : Ambient σ'} (h' : r'.Undisturbed key ops' env')
    {kept : List Check} (hsub : kept.Sublist (checksOf key (r.history ops env)))
    (hadmitted : kept.filter Check.isAdmitted =
      (checksOf key (r.history ops env)).filter Check.isAdmitted)
    (hrequests : (checksOf key (r'.history ops' env')).map Check.request =
      kept.map Check.request) :
    checksOf key (r'.history ops' env') = kept := by
  let prototype := (r.factory.make env).1
  have hdesign : r.factory.design = prototype.design := (r.factory.design_make env).symm
  have hdesign' : r'.factory.design = prototype.design := by rw [hfactory, hdesign]
  have hprototype : prototype.BackoffFree := hfree.make env
  cases kept with
  | nil => exact List.map_eq_nil_iff.mp hrequests
  | cons k kept =>
    obtain ⟨c', rest', hchecks', hfirst, -⟩ := List.map_eq_cons_iff.mp hrequests
    have hdecides' := decides_checksOf hdesign' h' hchecks'
    have hnanos : c'.nanos = k.nanos := congrArg Prod.fst hfirst
    cases hchecks : checksOf key (r.history ops env) with
    | nil =>
      rw [hchecks] at hsub
      cases hsub
    | cons c rest =>
      rw [hchecks] at hsub hadmitted
      have hdecides := decides_checksOf hdesign h hchecks
      have hthin := hdecides.thin (backoffFree_found hprototype hslots c.nanos)
        (.refl (backoffFree_found hprototype hslots c.nanos)) hsub hadmitted
      have hfound : r'.found prototype key c'.nanos = r.found prototype key c.nanos := by
        rw [hnanos, ← found_eq_of_sublist hdecides hsub hadmitted]
        unfold found
        rw [hslot]
      rw [hfound] at hdecides'
      rw [hchecks'] at hrequests ⊢
      exact hthin.eq_of_requests hdecides' hrequests

/-- **Declined events cost nothing.** Let there be no backoffs. In a run of actions on a throttle
any number of events may be looked at and left, or looked at and not dealt with, at any instants, as
long as this comes right before an action that turns away from the event under examination: the
actions of the run are answered as they are without it, and the throttle is the same at the end, in
every engine. In a registry any rejected checks of a key that is only checked and not dropped may be
left out: in a run that has the other checks of the key at the readings that they had, each of them
is decided as before. -/
theorem declined_events_cost_nothing :
    (∀ t : Throttle, t.BackoffFree → ∀ rows : List Glanced,
        let plain := t.run (rows.map Glanced.action)
        let padded := t.run (rows.flatMap Glanced.actions)
        Glanced.own rows padded.1 = plain.1 ∧ padded.2 = plain.2) ∧
      ∀ {σ' : Type} [Clock σ'] (r : Registry κ) (r' : Registry κ) (key : κ),
        r.factory.BackoffFree → r'.factory = r.factory →
        r'.slots.find? key = r.slots.find? key →
        (∀ slot, r.slots.find? key = some slot → slot.throttle.BackoffFree) →
        ∀ (ops : List (Operation κ σ ρ)) (env : Ambient σ) (ops' : List (Operation κ σ' ρ))
          (env' : Ambient σ'),
        r.Undisturbed key ops env → r'.Undisturbed key ops' env' →
        let checks := checksOf key (r.history ops env)
        let checks' := checksOf key (r'.history ops' env')
        ∀ kept : List Check, kept.Sublist checks →
          kept.filter Check.isAdmitted = checks.filter Check.isAdmitted →
          checks'.map Check.request = kept.map Check.request → checks' = kept := by
  refine ⟨fun t hfree rows => hfree.run_glanced rows, ?_⟩
  intro σ' _ r r' key hfree hfactory hslot hslots ops env ops' env' h h' checks checks' kept hsub
    hadmitted hrequests
  exact checksOf_eq_of_requests hfree hfactory hslot hslots h h' hsub hadmitted hrequests

/-- A compound looks at three events in between, one of them long gone, and answers as if it had
not. A key is checked four times, every 300 nanoseconds, and the second check is rejected, as is the
third. Without the second one the others are decided as they were. -/
theorem declined_events_cost_nothing_of_two_runs :
    let t : Throttle := .compound (.engine .perUnit (.opened (.clamped .nanoseconds 1000 250) 0))
      (.present (.engine .perEvent (.opened (.clamped .nanoseconds 70 5) 0)))
    let rows : List Glanced := [⟨[], .examine 0, .inl rfl⟩, ⟨[], .commitUnits 2, .inl rfl⟩,
      ⟨[⟨1900, true⟩, ⟨-8000, false⟩, ⟨10, true⟩], .examine 1700, .inr rfl⟩,
      ⟨[], .rollback, .inl rfl⟩, ⟨[⟨1760, false⟩], .examine 1760, .inr rfl⟩,
      ⟨[], .commit, .inl rfl⟩]
    let factory : Factory := .building (.engine .perUnit (.atInstant 0)
      (.clamped .nanoseconds 1000 250))
    let r : Registry Nat := new factory
    let env : Ambient ScriptedClock := { clock := { nanos := 5000, step := 300 } }
    let ops : List (Operation Nat ScriptedClock Unit) := List.replicate 4 (.offer 0 1)
    let ops' : List (Operation Nat ScriptedClock Unit) :=
      [.offer 0 1, .evictIdle 500, .offer 0 1, .offer 0 1]
    let decided (nanos : Nat) (decision : Decision) : Check := ⟨nanos, 1, decision⟩
    let kept := [decided 5000 ⟨true, 0, none, false⟩,
      decided 5600 ⟨false, 150, some ⟨150⟩, false⟩, decided 5900 ⟨true, 0, none, false⟩]
    Glanced.own rows (t.run (rows.flatMap Glanced.actions)).1 =
        [.delay 0, .verdict true, .delay 50, .verdict true, .delay 0, .verdict true] ∧
      (checksOf 0 (r.history ops env)).map Check.isAdmitted = [true, false, false, true] ∧
      checksOf 0 (r.history ops' env) = kept := by
  intro t rows factory r env ops ops' decided kept
  obtain ⟨hrun, hregistry⟩ := @declined_events_cost_nothing Nat ScriptedClock Unit _ _
  have hfree : t.BackoffFree := by
    intro g hg
    simp [t] at hg
  refine ⟨?_, by decide, ?_⟩
  · rw [(hrun t hfree rows).1]
    decide
  · have hnew : ∀ slot, r.slots.find? 0 = some slot → slot.throttle.BackoffFree := by
      intro slot hslot
      cases hslot
    exact hregistry r r 0 trivial rfl rfl hnew ops env ops' env (by decide) (by decide) kept
      (by decide) (by decide) (by decide)

end Registry

end AdmissionControl
