import AdmissionControl.Throttle

/-!
# Actions on a throttle

An `Action` is one thing that a caller can do to a throttle at an instant of its own choosing, and
a `Reply` is what is answered. `Throttle.act` does one action and `Throttle.run` a list of them in
order. Nothing here reads a clock. `Throttle.noticesOf` are the notices that an action leaves: an
event that is taken in although it was early is reported for each engine that it was early for.
-/

namespace AdmissionControl

/-- One thing to do to a throttle. -/
inductive Action
  /-- Open it as new at an instant. -/
  | resetAt (instant : Int)
  /-- Examine an event at an instant. -/
  | examine (instant : Int)
  /-- Take in the examined event. -/
  | commit
  /-- Take in the examined event as one of many units. -/
  | commitUnits (units : Nat)
  /-- Leave the examined event. -/
  | rollback
deriving DecidableEq, Repr

/-- What a throttle answers to an action. -/
inductive Reply
  /-- There is nothing to tell. -/
  | done
  /-- The answer to an event that is examined. -/
  | delay (ticks : Int)
  /-- Whether the throttle is free of alarm. -/
  | verdict (calm : Bool)
deriving DecidableEq, Repr

namespace Throttle

/-- What a throttle answers to an action, and the throttle after it. -/
def act (t : Throttle) : Action → Reply × Throttle
  | .resetAt instant => (.done, t.resetAt instant)
  | .examine instant => (.delay (t.delayAt instant), t.examine instant)
  | .commit => (.verdict t.commitVerdict, t.commit)
  | .commitUnits units => (.verdict t.commitVerdict, t.commitUnits units)
  | .rollback => (.verdict t.rollbackVerdict, t.rollback)

/-- The notices that an action leaves. -/
def noticesOf (t : Throttle) : Action → List Notice
  | .commit => t.commit.breaches
  | .commitUnits units => (t.commitUnits units).breaches
  | _ => []

/-- Whether a throttle can do an action: only a weighted one can take in many units at once. -/
def supports (t : Throttle) : Action → Bool
  | .commitUnits _ => t.isWeighted
  | _ => true

/-- The answers to a list of actions in order, and the throttle after them. -/
def run (t : Throttle) : List Action → List Reply × Throttle
  | [] => ([], t)
  | a :: rest =>
    let (reply, t') := t.act a
    let (replies, last) := run t' rest
    (reply :: replies, last)

@[simp] theorem run_nil (t : Throttle) : t.run [] = ([], t) := rfl

@[simp] theorem run_cons (t : Throttle) (a : Action) (rest : List Action) :
    t.run (a :: rest) = ((t.act a).1 :: ((t.act a).2.run rest).1, ((t.act a).2.run rest).2) := rfl

/-- There is one answer to each action. -/
@[simp] theorem length_run (t : Throttle) (actions : List Action) :
    (t.run actions).1.length = actions.length := by
  induction actions generalizing t with
  | nil => rfl
  | cons a rest ih => rw [run_cons, List.length_cons, List.length_cons, ih]

/-- Doing two lists of actions is doing the second where the first has ended. -/
theorem run_append (t : Throttle) (first second : List Action) :
    t.run (first ++ second) =
      ((t.run first).1 ++ ((t.run first).2.run second).1, ((t.run first).2.run second).2) := by
  induction first generalizing t with
  | nil => rfl
  | cons a rest ih => simp only [List.cons_append, run_cons, ih]

end Throttle

end AdmissionControl
