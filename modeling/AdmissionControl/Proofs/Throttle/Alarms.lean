import AdmissionControl.Proofs.Throttle.Delays

/-!
# Alarms

A throttle keeps three books on the same thing. A commit is answered by whether the event keeps to
the rules of every part, the alarm is on if it is on in some part, and the delay is the largest one
of all parts. `Throttle.alarm_bookkeeping` says that they agree, in whatever state the parts are and
however the throttle or its halves have been used.

Where there is no backoff the answers alone tell whether a throttle is alarmed: a `Watch` is what a
caller has to write down for this, and `Throttle.Watched.run` says that it is enough.
-/

namespace AdmissionControl

namespace Throttle

/-! ### What changes the alarm -/

section States

variable (t : Throttle)

/-- Looking at an event does not change the alarm. -/
@[simp] theorem isAlarmed_examine (instant : Int) :
    (t.examine instant).isAlarmed = t.isAlarmed := by
  induction t with
  | engine _ _ | shaper _ _ | geometric _ | null _ | absent => simp
  | present t ih => exact ih
  | compound p s ihp ihs => rw [examine, isAlarmed, ihp, ihs, isAlarmed]

/-- Leaving an event does not change the alarm, not even that of a backoff, which counts it. -/
@[simp] theorem isAlarmed_rollback : t.rollback.isAlarmed = t.isAlarmed := by
  induction t with
  | engine _ _ | shaper _ _ | geometric _ | null _ | absent => simp
  | present t ih => exact ih
  | compound p s ihp ihs => rw [rollback, isAlarmed, ihp, ihs, isAlarmed]

/-- A rollback is answered by whether the throttle is free of alarm. -/
@[simp] theorem rollbackVerdict_eq : t.rollbackVerdict = !t.isAlarmed := by
  induction t with
  | engine _ _ | shaper _ _ | geometric _ | null _ | absent => simp
  | present t ih => exact ih
  | compound p s ihp ihs => rw [rollbackVerdict, ihp, ihs, isAlarmed, Bool.not_or]

/-- A throttle that opens is free of alarm. -/
@[simp] theorem isAlarmed_resetAt (start : Int) : (t.resetAt start).isAlarmed = false := by
  induction t with
  | engine _ _ | shaper _ _ | geometric _ | null _ | absent => simp
  | present t ih => exact ih
  | compound p s ihp ihs => rw [resetAt, isAlarmed, ihp, ihs, Bool.or_false]

/-- **One action.** Only a commit can raise the alarm, and only a commit or a reset can end it. -/
theorem isAlarmed_act (a : Action) :
    (t.act a).2.isAlarmed = match a with
      | .resetAt _ => false
      | .examine _ | .rollback => t.isAlarmed
      | .commit | .commitUnits _ => !t.commitVerdict := by
  cases a with
  | resetAt start => exact t.isAlarmed_resetAt start
  | examine instant => exact t.isAlarmed_examine instant
  | commit => exact t.isAlarmed_commitUnits 1
  | commitUnits units => exact t.isAlarmed_commitUnits units
  | rollback => exact t.isAlarmed_rollback

/-! ### What changes the answer to a commit -/

@[simp] theorem commitVerdict_resetAt (start : Int) :
    (t.resetAt start).commitVerdict = true := by
  induction t with
  | engine _ _ | shaper _ _ | geometric _ | null _ | absent => simp
  | present t ih => exact ih
  | compound p s ihp ihs => rw [resetAt, commitVerdict, ihp, ihs, Bool.and_true]

/-- The same event can be taken in again, with the same answer. -/
@[simp] theorem commitVerdict_commitUnits (units : Nat) :
    (t.commitUnits units).commitVerdict = t.commitVerdict := by
  induction t with
  | engine _ _ | shaper _ _ | geometric _ | null _ | absent => simp
  | present t ih => exact ih
  | compound p s ihp ihs => rw [commitUnits, commitVerdict, ihp, ihs, commitVerdict]

/-- An event that has been left can still be taken in, with the same answer. -/
@[simp] theorem commitVerdict_rollback : t.rollback.commitVerdict = t.commitVerdict := by
  induction t with
  | engine _ _ | shaper _ _ | geometric _ | null _ | absent => simp
  | present t ih => exact ih
  | compound p s ihp ihs => rw [rollback, commitVerdict, ihp, ihs, commitVerdict]

end States

/-- Without a backoff a commit is answered by whether the event is not early. -/
theorem BackoffFree.commitVerdict_examine_eq {t : Throttle} (h : t.BackoffFree) (instant : Int) :
    (t.examine instant).commitVerdict = decide (t.delayAt instant = 0) := by
  by_cases hzero : t.delayAt instant = 0
  · rw [h.commitVerdict_examine hzero, decide_eq_true hzero]
  · obtain ⟨leaf, hleaf, hdelay⟩ := t.exists_leaf_delayAt_eq instant
    rw [decide_eq_false hzero, Bool.eq_false_iff, ne_eq, commitVerdict_examine_iff]
    exact fun hall => hzero (hdelay.symm.trans (hall leaf hleaf))

end Throttle

/-! ### What the answers tell -/

/-- What a caller has seen of a throttle: whether the event under examination is early, and whether
the one that was taken in last was. -/
structure Watch where
  early : Bool := false
  alarmed : Bool := false
deriving DecidableEq, Repr

/-- What a caller has seen after one more action, given the answer to it. -/
def Watch.next (w : Watch) : Action × Reply → Watch
  | (.examine _, .delay ticks) => { w with early := decide (ticks ≠ 0) }
  | (.commit, _) | (.commitUnits _, _) => { w with alarmed := w.early }
  | (.resetAt _, _) => {}
  | _ => w

namespace Throttle

/-- A caller has seen how it stands with a throttle that has no backoffs. -/
structure Watched (t : Throttle) (w : Watch) : Prop where
  backoffFree : t.BackoffFree
  commitVerdict : t.commitVerdict = !w.early
  isAlarmed : t.isAlarmed = w.alarmed

variable {t : Throttle} {w : Watch}

/-- **One action.** Its answer is all that there is to see. -/
theorem Watched.act (h : t.Watched w) (a : Action) :
    (t.act a).2.Watched (w.next (a, (t.act a).1)) := by
  refine ⟨h.backoffFree.act a, ?_, ?_⟩
  · cases a with
    | resetAt start => exact t.commitVerdict_resetAt start
    | examine instant =>
      change (t.examine instant).commitVerdict = !decide (t.delayAt instant ≠ 0)
      rw [h.backoffFree.commitVerdict_examine_eq, decide_not, Bool.not_not]
    | commit => exact (t.commitVerdict_commitUnits 1).trans h.commitVerdict
    | commitUnits units => exact (t.commitVerdict_commitUnits units).trans h.commitVerdict
    | rollback => exact t.commitVerdict_rollback.trans h.commitVerdict
  · rw [isAlarmed_act]
    cases a with
    | resetAt _ => rfl
    | examine _ | rollback => exact h.isAlarmed
    | commit | commitUnits _ =>
      dsimp only
      rw [h.commitVerdict, Bool.not_not]
      rfl

/-- **A run.** The answers are all that there is to see. -/
theorem Watched.run (h : t.Watched w) (actions : List Action) :
    (t.run actions).2.Watched ((actions.zip (t.run actions).1).foldl Watch.next w) := by
  induction actions generalizing t w with
  | nil => exact h
  | cons a rest ih => exact ih (h.act a)

/-- Without a backoff a commit right after the examination is answered by the delay, and leaves the
throttle alarmed if the event is early. -/
theorem BackoffFree.run_examine_commitUnits (h : t.BackoffFree) (instant : Int) (units : Nat) :
    let done := t.run [.examine instant, .commitUnits units]
    done.1 = [.delay (t.delayAt instant), .verdict (decide (t.delayAt instant = 0))] ∧
      done.2.isAlarmed = decide (0 < t.delayAt instant) := by
  intro done
  have hverdict := h.commitVerdict_examine_eq instant
  have halarm : done.2.isAlarmed = !decide (t.delayAt instant = 0) := by
    rw [← hverdict]
    exact (t.examine instant).isAlarmed_commitUnits units
  have hreplies : done.1 =
      [.delay (t.delayAt instant), .verdict (t.examine instant).commitVerdict] := rfl
  refine ⟨by rw [hreplies, hverdict], ?_⟩
  have hnonneg := h.delayAt_nonneg instant
  rw [halarm, ← decide_not]
  exact decide_eq_decide.mpr (by omega)

theorem BackoffFree.watched_resetAt (h : t.BackoffFree) (start : Int) :
    (t.resetAt start).Watched {} :=
  ⟨h.act (.resetAt start), t.commitVerdict_resetAt start, t.isAlarmed_resetAt start⟩

/-! ### The books -/

/-- **The books on the alarm agree.** Take a throttle in any state, also one in which the halves of
a compound have been used one by one. A commit, for one unit or for many, and a rollback are
answered by whether the throttle that they leave is free of alarm. Neither looking at an event nor
leaving it changes the alarm. If there is no backoff, an event that has been examined is taken in
without alarm exactly if the delay that was answered is zero, so that the throttle is alarmed then
exactly if the event was early; and after any run of actions since a reset, in whatever order, the
answers tell whether the throttle is alarmed. -/
theorem alarm_bookkeeping (t : Throttle) :
    ((t.act .commit).1 = .verdict (!(t.act .commit).2.isAlarmed) ∧
        (∀ units, (t.act (.commitUnits units)).1 =
          .verdict (!(t.act (.commitUnits units)).2.isAlarmed)) ∧
        (t.act .rollback).1 = .verdict (!(t.act .rollback).2.isAlarmed)) ∧
      ((∀ instant, (t.act (.examine instant)).2.isAlarmed = t.isAlarmed) ∧
        (t.act .rollback).2.isAlarmed = t.isAlarmed) ∧
      (t.BackoffFree →
        (∀ instant a, (a = .commit ∨ ∃ units, a = .commitUnits units) →
          let done := t.run [.examine instant, a]
          done.1 = [.delay (t.delayAt instant), .verdict (decide (t.delayAt instant = 0))] ∧
            done.2.isAlarmed = decide (0 < t.delayAt instant)) ∧
        ∀ start actions,
          let done := (t.resetAt start).run actions
          done.2.isAlarmed = ((actions.zip done.1).foldl Watch.next {}).alarmed) := by
  have hcommit : ∀ units, t.commitVerdict = !(t.commitUnits units).isAlarmed := fun units => by
    rw [isAlarmed_commitUnits, Bool.not_not]
  refine ⟨⟨?_, fun units => ?_, ?_⟩, ⟨t.isAlarmed_examine, t.isAlarmed_rollback⟩, ?_⟩
  · exact congrArg Reply.verdict (hcommit 1)
  · exact congrArg Reply.verdict (hcommit units)
  · simp [act]
  · intro hfree
    refine ⟨fun instant a ha => ?_, fun start actions => ?_⟩
    · rcases ha with rfl | ⟨units, rfl⟩
      · exact hfree.run_examine_commitUnits instant 1
      · exact hfree.run_examine_commitUnits instant units
    · exact ((hfree.watched_resetAt start).run actions).isAlarmed

/-- A compound whose peak half alone has taken in an event early. The compound is alarmed before
the next event is looked at, and the commit of that event, which is in time, ends the alarm. -/
theorem alarm_bookkeeping_of_halves :
    let peak := ((engine .perUnit (.opened (.clamped .microseconds 1000 250) 0)).run
      [.examine 0, .commit, .examine 10, .commitUnits 2, .rollback]).2
    let t := compound peak (present (engine .perUnit (.opened (.clamped .nanoseconds 50 0) 0)))
    t.isAlarmed = true ∧ (t.act (.examine 2760)).2.isAlarmed = t.isAlarmed ∧
      (t.act .rollback).1 = .verdict (!(t.act .rollback).2.isAlarmed) ∧
      (t.run [.examine 2740, .commitUnits 4]).1 = [.delay 10, .verdict false] ∧
      (t.run [.examine 2740, .commitUnits 4]).2.isAlarmed = true ∧
      (t.run [.examine 2760, .commit]).1 = [.delay 0, .verdict true] ∧
      (t.run [.examine 2760, .commit]).2.isAlarmed = false := by
  intro peak t
  have hfree : t.BackoffFree := by
    intro g hg
    simp [t, peak, leaves, run, act, examine, commit, commitUnits, rollback] at hg
  have hearly : t.delayAt 2740 = 10 := by decide
  have hintime : t.delayAt 2760 = 0 := by decide
  obtain ⟨⟨-, -, hrollback⟩, ⟨hexamine, -⟩, hclock⟩ := t.alarm_bookkeeping
  obtain ⟨hcommit, -⟩ := hclock hfree
  have hfirst := hcommit 2740 (.commitUnits 4) (.inr ⟨4, rfl⟩)
  have hsecond := hcommit 2760 .commit (.inl rfl)
  rw [hearly] at hfirst
  rw [hintime] at hsecond
  exact ⟨by decide, hexamine 2760, hrollback, hfirst.1, hfirst.2, hsecond.1, hsecond.2⟩

end Throttle

end AdmissionControl
