import AdmissionControl.Throttle.Action
import AdmissionControl.Throttle.Clocked
import AdmissionControl.Throttle.Part
import AdmissionControl.Throttle.Traffic

/-!
# Requests to a throttle

A `Request` is anything that can be asked of a throttle: the actions at a given instant, what
needs the clock, the observers, and traffic to send through it. `Throttle.serve` gives the
`Answer`. A `Directed` request goes to a part of a throttle; where the part is missing, or cannot
do what is asked, the answer is `unsupported` and nothing happens.
-/

namespace AdmissionControl

/-- Something to ask of a throttle. -/
inductive Request
  /-- To do something at an instant that the caller chooses. -/
  | act (action : Action)
  /-- To open as new at the present. -/
  | reset
  /-- To examine an event at the present. -/
  | examineNow
  /-- The present instant. -/
  | time
  /-- A reading of the clock of an engine. -/
  | readClock
  /-- The ticks per second. -/
  | frequency
  /-- Whether the throttle is alarmed. -/
  | isAlarmed
  /-- Whether the state of the throttle makes sense. -/
  | isValid
  /-- The throttle itself. -/
  | inspect
  /-- To take traffic. -/
  | drive (traffic : Traffic)
deriving DecidableEq, Repr

/-- What is answered to a request. -/
inductive Answer
  /-- There is nothing to tell. -/
  | done
  /-- A number of ticks. -/
  | ticks (count : Int)
  /-- A yes or a no. -/
  | verdict (value : Bool)
  /-- What a clock gave. -/
  | reading (result : Except ClockError Nat)
  /-- A throttle. -/
  | throttle (state : Throttle)
  /-- What became of some traffic. -/
  | tally (result : Tally)
  /-- The throttle cannot do what was asked. -/
  | unsupported

/-- The answer that passes on the reply to an action. -/
def Answer.ofReply : Reply → Answer
  | .done => done
  | .delay count => ticks count
  | .verdict value => verdict value

/-- A request to a part of a throttle. -/
structure Directed where
  /-- Where the part is. -/
  path : List Part := []
  /-- What is asked of it. -/
  request : Request

namespace Throttle

variable {σ : Type} [Clock σ]

/-- The answer to a request, and the throttle after it. -/
def serve (t : Throttle) : Request → Timed σ (Answer × Throttle)
  | .act action =>
    if t.supports action then do
      Timed.reportAll (t.noticesOf action)
      return (.ofReply (t.act action).1, (t.act action).2)
    else return (.unsupported, t)
  | .reset => return (.done, ← t.reset)
  | .examineNow => do
    let (delay, after) ← t.examineNow
    return (.ticks delay, after)
  | .time => return (.ticks (← t.time), t)
  | .readClock =>
    match t with
    | engine _ _ => return (.reading (← Timed.readClock), t)
    | _ => return (.unsupported, t)
  | .frequency => return (.ticks t.frequency, t)
  | .isAlarmed => return (.verdict t.isAlarmed, t)
  | .isValid => return (.verdict t.isValid, t)
  | .inspect => return (.throttle t, t)
  | .drive traffic => do
    let progress := t.drive traffic
    Timed.reportAll progress.notices.toList
    return (.tally progress.tally, progress.throttle)

/-- The answer of a part to a request, and the whole throttle after it. -/
def serveDirected (t : Throttle) (d : Directed) : Timed σ (Answer × Throttle) :=
  match t.part? d.path with
  | none => return (.unsupported, t)
  | some part => do
    let (answer, part') ← part.serve d.request
    return (answer, t.withPart d.path part')

/-- The answers to requests in order, and the throttle after them. -/
def serveAll (t : Throttle) : List Directed → Timed σ (List Answer × Throttle)
  | [] => return ([], t)
  | d :: rest => do
    let (answer, t') ← t.serveDirected d
    let (answers, last) ← serveAll t' rest
    return (answer :: answers, last)

end Throttle

end AdmissionControl
