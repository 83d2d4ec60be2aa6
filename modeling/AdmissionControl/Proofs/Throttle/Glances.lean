import AdmissionControl.Proofs.Throttle.Delays
import AdmissionControl.Proofs.Throttle.Design

/-!
# Glances

A caller may look at an event and not take it in: either it leaves the event, or it does nothing
more about it. In a throttle without backoffs such a `Glance` only touches what is tentative, and
all of that is made anew when the throttle turns to the next event. So glances go unnoticed as long
as they come right before an action that turns away from the event under examination
(`Throttle.BackoffFree.run_glanced`). Before a commit they would not: it takes in whatever event was
looked at last.

The relation that carries this from one throttle to the other is `Throttle.SameCommitted`.
-/

namespace AdmissionControl

/-- An event that is looked at and not taken in. -/
structure Glance where
  instant : Int
  /-- Whether the event is left, or just not dealt with any more. -/
  left : Bool
deriving DecidableEq, Repr

def Glance.actions (glance : Glance) : List Action :=
  if glance.left then [.examine glance.instant, .rollback] else [.examine glance.instant]

/-- The action turns away from the event under examination. -/
def Action.turnsAway : Action → Bool
  | .resetAt _ | .examine _ => true
  | .commit | .commitUnits _ | .rollback => false

/-- An action, and the glances right before it. -/
structure Glanced where
  glances : List Glance := []
  action : Action
  turnsAway : glances = [] ∨ action.turnsAway = true

namespace Glanced

/-- The actions that the glances consist of. -/
def looks (g : Glanced) : List Action := g.glances.flatMap Glance.actions

def actions (g : Glanced) : List Action := g.looks ++ [g.action]

/-- The replies to the actions themselves, among those to all that is done. -/
def own : List Glanced → List Reply → List Reply
  | [], _ => []
  | g :: rest, replies =>
    match replies.drop g.looks.length with
    | [] => []
    | reply :: later => reply :: own rest later

theorem own_cons (g : Glanced) (rest : List Glanced) {looked : List Reply}
    (h : looked.length = g.looks.length) (reply : Reply) (later : List Reply) :
    own (g :: rest) (looked ++ reply :: later) = reply :: own rest later := by
  rw [own, List.drop_left' h]

end Glanced

namespace Throttle

/-- The second throttle has taken in what the first one has: they are the same as soon as they look
at the next event. It has no backoff that could tell them apart. -/
structure SameCommitted (t t' : Throttle) : Prop where
  backoffFree : t'.BackoffFree
  examine : ∀ instant, t'.examine instant = t.examine instant

section Committed

variable {t t' t'' : Throttle}

theorem SameCommitted.refl (h : t.BackoffFree) : t.SameCommitted t := ⟨h, fun _ => rfl⟩

theorem SameCommitted.trans (h : t.SameCommitted t') (h' : t'.SameCommitted t'') :
    t.SameCommitted t'' :=
  ⟨h'.backoffFree, fun instant => (h'.examine instant).trans (h.examine instant)⟩

theorem BackoffFree.sameCommitted_examine (h : t.BackoffFree) (instant : Int) :
    t.SameCommitted (t.examine instant) :=
  ⟨h.act (.examine instant), h.examine_examine instant⟩

theorem SameCommitted.design (h : t.SameCommitted t') : t'.design = t.design := by
  rw [← t'.design_examine 0, h.examine, design_examine]

theorem SameCommitted.sameDelays (h : t.SameCommitted t') (hfree : t.BackoffFree) :
    t.SameDelays t' where
  backoffFree := h.backoffFree
  frequency := frequency_eq_of_design h.design
  delayAt instant := by
    rw [← h.backoffFree.delayAt_examine 0, h.examine, hfree.delayAt_examine]

/-- **One action.** An action that turns to another event, or opens the throttle as new, is answered
the same and leaves the same. -/
theorem SameCommitted.act (h : t.SameCommitted t') (hfree : t.BackoffFree) {a : Action}
    (ha : a.turnsAway = true) : t'.act a = t.act a := by
  cases a with
  | resetAt start => exact congrArg (Prod.mk _) (resetAt_eq_of_design h.design start)
  | examine instant =>
    have hdelay := (h.sameDelays hfree).delayAt instant
    rw [Throttle.act, hdelay, h.examine instant, Throttle.act]
  | commit | commitUnits _ | rollback => cases ha

/-- An event that is offered is given the same decision, and the two are the same after it. -/
theorem SameCommitted.offer (h : t.SameCommitted t') (hfree : t.BackoffFree) (instant : Int)
    (units : Nat) : t'.offer instant units = t.offer instant units := by
  have hdelay := (h.sameDelays hfree).delayAt instant
  have hafter : t'.afterOffer instant units = t.afterOffer instant units := by
    rw [afterOffer, hdelay, h.examine instant, ← afterOffer]
  rw [Throttle.offer, hdelay, hafter, ← Throttle.offer]

/-- An event that is offered too early leaves all that is committed as it is. -/
theorem BackoffFree.sameCommitted_afterOffer (h : t.BackoffFree) {instant : Int}
    (hearly : t.delayAt instant ≠ 0) (units : Nat) :
    t.SameCommitted (t.afterOffer instant units) := by
  rw [Throttle.afterOffer, if_neg hearly, h.rollback_examine]
  exact h.sameCommitted_examine instant

/-! ### Runs with glances -/

/-- **One glance.** -/
theorem BackoffFree.run_glance (h : t.BackoffFree) (glance : Glance) :
    (t.run glance.actions).2 = t.examine glance.instant := by
  unfold Glance.actions
  cases glance.left with
  | true => exact h.rollback_examine glance.instant
  | false => rfl

/-- **A row of glances.** -/
theorem BackoffFree.sameCommitted_run_glances (h : t.BackoffFree) (glances : List Glance) :
    t.SameCommitted (t.run (glances.flatMap Glance.actions)).2 := by
  induction glances generalizing t with
  | nil => exact .refl h
  | cons glance rest ih =>
    have hfirst : t.SameCommitted (t.run glance.actions).2 := by
      rw [h.run_glance]
      exact h.sameCommitted_examine glance.instant
    rw [List.flatMap_cons, run_append]
    exact hfirst.trans (ih hfirst.backoffFree)

/-- **One action with glances before it.** -/
theorem BackoffFree.run_actions (h : t.BackoffFree) (g : Glanced) :
    t.run g.actions =
      ((t.run g.looks).1 ++ [(t.act g.action).1], (t.act g.action).2) := by
  have hact : (t.run g.looks).2.act g.action = t.act g.action := by
    rcases g.turnsAway with hnone | hturns
    · rw [Glanced.looks, hnone]
      rfl
    · exact (h.sameCommitted_run_glances g.glances).act h hturns
  rw [Glanced.actions, run_append, Throttle.run, hact]
  rfl

/-- **A run with glances.** The actions are answered as they are without the glances, and the
throttle is the same at the end. -/
theorem BackoffFree.run_glanced (h : t.BackoffFree) (rows : List Glanced) :
    Glanced.own rows (t.run (rows.flatMap Glanced.actions)).1 =
        (t.run (rows.map Glanced.action)).1 ∧
      (t.run (rows.flatMap Glanced.actions)).2 = (t.run (rows.map Glanced.action)).2 := by
  induction rows generalizing t with
  | nil => exact ⟨rfl, rfl⟩
  | cons g rest ih =>
    -- after each action the two runs have come to the same throttle
    obtain ⟨hreplies, hlast⟩ := ih (h.act g.action)
    rw [List.flatMap_cons, List.map_cons, run_append, h.run_actions g, Throttle.run,
      List.append_assoc]
    refine ⟨?_, hlast⟩
    rw [List.singleton_append, Glanced.own_cons g rest (t.length_run g.looks), hreplies]

end Committed

end Throttle

end AdmissionControl
