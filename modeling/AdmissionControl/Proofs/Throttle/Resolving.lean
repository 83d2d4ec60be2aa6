import Mathlib.Data.List.Induction
import AdmissionControl.Proofs.Throttle.Alarms

/-!
# Dealing with an event more than once

An event that has been examined is to be taken in or left, once. A caller that does so again, be it
by a retry or for a change of mind, does no harm: what counts of all that it does is the last time
that the event was taken in, or else that it was left (`Throttle.only_last_commit_counts`).

It is enough to see this for the state after two actions (`Throttle.settle_settle`). Both work out
the committed state from the tentative one, which is still there the next time. To leave an event is
to do nothing to an engine, but it does move the counters of a backoff: it moves them to where they
are after a commit, so there is nothing left to do after one. And the answer to an action tells
nothing but how the state is that it leaves (`Throttle.reply_of_resolves`).
-/

namespace AdmissionControl

namespace Action

/-- The action deals with the examined event: it takes the event in or leaves it. -/
def resolves : Action → Bool
  | .commit | .commitUnits _ | .rollback => true
  | .resetAt _ | .examine _ => false

/-- The units for which the action takes the examined event in, if it does. -/
def units? : Action → Option Nat
  | .commit => some 1
  | .commitUnits units => some units
  | .resetAt _ | .examine _ | .rollback => none

/-- The action takes the examined event in. -/
def takesIn (a : Action) : Bool := a.units?.isSome

/-- The action that counts in a row that deals with an event: the last one that takes it in, or to
leave it if there is none. -/
def decisive (actions : List Action) : Action := (actions.filter takesIn).getLast?.getD .rollback

theorem resolves_of_takesIn {a : Action} (h : a.takesIn = true) : a.resolves = true := by
  cases a with
  | commit | commitUnits _ => rfl
  | resetAt _ | examine _ | rollback => cases h

/-- To leave an event is the one way to deal with it without taking it in. -/
theorem eq_rollback_of_resolves {a : Action} (h : a.resolves = true) (hleft : a.takesIn = false) :
    a = .rollback := by
  cases a with
  | rollback => rfl
  | commit | commitUnits _ => cases hleft
  | resetAt _ | examine _ => cases h

/-- An action that takes the event in counts instead of all those before it. -/
theorem decisive_concat (actions : List Action) (last : Action) :
    decisive (actions ++ [last]) = if last.takesIn then last else decisive actions := by
  unfold decisive
  cases htaken : last.takesIn <;> simp [List.filter_append, htaken]

theorem resolves_decisive (actions : List Action) : (decisive actions).resolves = true := by
  unfold decisive
  cases hlast : (actions.filter takesIn).getLast? with
  | none => rfl
  | some a => exact resolves_of_takesIn (List.mem_filter.mp (List.mem_of_getLast? hlast)).2

end Action

namespace Throttle

/-! ### Dealing with an event twice -/

/-- The throttle that has dealt with the examined event: it has taken the event in for some units,
or has left it. -/
def settle (t : Throttle) : Option Nat → Throttle
  | some units => t.commitUnits units
  | none => t.rollback

section Twice

variable (t : Throttle) {first second : Action}

theorem settle_present (units : Option Nat) :
    (present t).settle units = present (t.settle units) := by
  cases units <;> rfl

theorem settle_compound (p s : Throttle) (units : Option Nat) :
    (compound p s).settle units = compound (p.settle units) (s.settle units) := by
  cases units <;> rfl

/-- **The state.** An event that has been dealt with can still be taken in, for other units if it
has been taken in before, and to leave it then changes nothing. -/
theorem settle_settle (first second : Option Nat) :
    (t.settle first).settle second = t.settle (second.or first) := by
  induction t with
  | engine _ _ | geometric _ | null _ | absent => cases first <;> cases second <;> rfl
  | shaper _ s =>
    obtain ⟨peak, sustained⟩ := s
    cases sustained <;> cases first <;> cases second <;> rfl
  | present t ih => rw [settle_present, settle_present, settle_present, ih]
  | compound p s ihp ihs => rw [settle_compound, settle_compound, settle_compound, ihp, ihs]

theorem act_of_resolves {a : Action} (h : a.resolves = true) : (t.act a).2 = t.settle a.units? := by
  cases a with
  | commit | commitUnits _ | rollback => rfl
  | resetAt _ | examine _ => cases h

/-- **The answer.** Whoever deals with an event is told whether the throttle is then free of
alarm. -/
theorem reply_of_resolves {a : Action} (h : a.resolves = true) :
    (t.act a).1 = .verdict (!(t.act a).2.isAlarmed) := by
  cases a with
  | commit | commitUnits _ =>
    rw [isAlarmed_act, Bool.not_not]
    rfl
  | rollback =>
    rw [isAlarmed_act]
    exact congrArg Reply.verdict t.rollbackVerdict_eq
  | resetAt _ | examine _ => cases h

/-- **Dealing with an event twice.** If the second action takes the event in it counts alone, and if
it leaves the event only the first one does. -/
theorem act_act_of_resolves (hfirst : first.resolves = true) (hsecond : second.resolves = true) :
    (t.act first).2.act second = t.act (if second.takesIn then second else first) := by
  let counted := if second.takesIn then second else first
  have hcounted : counted.resolves = true ∧ counted.units? = second.units?.or first.units? := by
    unfold counted
    cases htaken : second.takesIn with
    | true => exact ⟨hsecond, (Option.or_of_isSome htaken).symm⟩
    | false =>
      rw [Action.eq_rollback_of_resolves hsecond htaken]
      exact ⟨hfirst, rfl⟩
  have hstate : ((t.act first).2.act second).2 = (t.act counted).2 := by
    rw [act_of_resolves _ hsecond, act_of_resolves _ hfirst, settle_settle,
      act_of_resolves _ hcounted.1, hcounted.2]
  refine Prod.ext ?_ hstate
  rw [reply_of_resolves _ hsecond, reply_of_resolves _ hcounted.1, hstate]

end Twice

/-! ### Dealing with an event any number of times -/

/-- **Dealing with an event again and again.** The last action of a row comes to the one that
counts, in its answer and in the throttle that it leaves. -/
theorem act_run_of_resolves (t : Throttle) {before : List Action} {last : Action}
    (hbefore : ∀ a ∈ before, a.resolves = true) (hlast : last.resolves = true) :
    (t.run before).2.act last = t.act (Action.decisive (before ++ [last])) := by
  induction before using List.reverseRecOn generalizing last with
  | nil =>
    rw [Action.decisive_concat]
    cases htaken : last.takesIn with
    | true => rfl
    | false =>
      rw [Action.eq_rollback_of_resolves hlast htaken]
      rfl
  | append_singleton earlier a ih =>
    obtain ⟨hearlier, ha⟩ := List.forall_mem_append.mp hbefore
    have hrun : (t.run (earlier ++ [a])).2 = ((t.run earlier).2.act a).2 := by
      rw [run_append]
      rfl
    -- all that has been done so far comes to one action, and the last one comes right after it
    rw [hrun, ih hearlier (ha a (List.mem_singleton_self a)),
      t.act_act_of_resolves (Action.resolves_decisive _) hlast, ← Action.decisive_concat]

/-- **Only the last commit counts.** Take a throttle in any state, put together from whatever
engines and backoffs, and let it examine an event. However often the event is dealt with then, taken
in for one unit or for many or left, in whatever order, the throttle is the same as if it had been
dealt with once: taken in as it was the last time, if it was taken in at all, and left if it was
not. The last answer is the answer to that one action. -/
theorem only_last_commit_counts (t : Throttle) (instant : Int) {actions : List Action}
    (hsome : actions ≠ []) (hresolve : ∀ a ∈ actions, a.resolves = true) :
    let whole := t.run (.examine instant :: actions)
    let once := t.run [.examine instant, Action.decisive actions]
    whole.2 = once.2 ∧ whole.1.getLast? = once.1.getLast? := by
  intro whole once
  obtain ⟨before, last, rfl⟩ : ∃ before last, actions = before ++ [last] :=
    ⟨_, _, (List.dropLast_concat_getLast hsome).symm⟩
  obtain ⟨hbefore, hlast⟩ := List.forall_mem_append.mp hresolve
  have hcounts := (t.examine instant).act_run_of_resolves hbefore
    (hlast last (List.mem_singleton_self last))
  have hreplies : whole.1.getLast? = some (((t.examine instant).run before).2.act last).1 := by
    change (Reply.delay (t.delayAt instant) ::
      ((t.examine instant).run (before ++ [last])).1).getLast? = _
    rw [run_append, ← List.cons_append]
    exact List.getLast?_concat
  have hstate : whole.2 = (((t.examine instant).run before).2.act last).2 := by
    change ((t.examine instant).run (before ++ [last])).2 = _
    rw [run_append]
    rfl
  rw [hreplies, hstate, hcounts]
  exact ⟨rfl, rfl⟩

/-- A compound of a backoff and a shaper at its third event, which comes too early for the shaper
and which the backoff rejects. Taken in twice and left in between, it counts as taken in once, and
left twice it counts as left once, which the backoff does not forget. An engine that has taken in an
event as one of seven units takes it in as one of two. -/
theorem only_last_commit_counts_of_backoff_beside_shaper :
    let t := ((compound (present (geometric .fresh))
      (shaper .perEvent (.opened .microseconds (.variableRate 1000 100 10 3) 0))).run
        [.examine 0, .commit, .examine 1000, .commit]).2
    let taken : List Action := [.rollback, .commit, .rollback, .commit, .rollback]
    let left : List Action := [.rollback, .rollback]
    let e := engine .perUnit (.opened (.clamped .nanoseconds 50 20) 0)
    let changed : List Action := [.commitUnits 7, .rollback, .commitUnits 2]
    (taken ≠ [] ∧ ∀ a ∈ taken, a.resolves = true) ∧
      (t.run (.examine 1500 :: taken)).2 = (t.run [.examine 1500, .commit]).2 ∧
      (t.run (.examine 1500 :: taken)).1.getLast? = some (.verdict false) ∧
      (left ≠ [] ∧ ∀ a ∈ left, a.resolves = true) ∧
      (t.run (.examine 1500 :: left)).2 = (t.run [.examine 1500, .rollback]).2 ∧
      (t.run (.examine 1500 :: left)).1.getLast? = some (.verdict true) ∧
      (t.run (.examine 1500 :: left)).2 ≠ t.examine 1500 ∧
      (changed ≠ [] ∧ ∀ a ∈ changed, a.resolves = true) ∧
      (e.run (.examine 0 :: changed)).2 = (e.run [.examine 0, .commitUnits 2]).2 := by
  intro t taken left e changed
  have htaken : taken ≠ [] ∧ ∀ a ∈ taken, a.resolves = true := by decide
  have hleft : left ≠ [] ∧ ∀ a ∈ left, a.resolves = true := by decide
  have hchanged : changed ≠ [] ∧ ∀ a ∈ changed, a.resolves = true := by decide
  obtain ⟨hcommit, hverdict⟩ := t.only_last_commit_counts 1500 htaken.1 htaken.2
  obtain ⟨hrollback, hcalm⟩ := t.only_last_commit_counts 1500 hleft.1 hleft.2
  obtain ⟨hunits, -⟩ := e.only_last_commit_counts 0 hchanged.1 hchanged.2
  exact ⟨htaken, hcommit, hverdict.trans (by decide), hleft, hrollback, hcalm.trans (by decide),
    by decide, hchanged, hunits⟩

end Throttle

end AdmissionControl
