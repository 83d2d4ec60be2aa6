import AdmissionControl.Throttle.Blueprint
import AdmissionControl.Throttle.Request

/-!
# Sessions with a throttle

A `Session` is the use of one throttle over time, on a scripted clock. Beside the requests to the
throttle a `Command` can set the clock, keep a copy of the throttle and go back to it, and turn
the throttle into what it is made of. Copies and turns keep the whole state, the event under
examination included.

`Session.transcript` is the record of a session: the answer to each command, the throttle after it
and the notices that were written meanwhile.
-/

namespace AdmissionControl

/-- A throttle in use, and the copy of it that was kept. -/
structure Session where
  /-- The throttle. -/
  throttle : Throttle
  /-- The copy that was kept, if any. -/
  kept : Option Throttle := none
deriving DecidableEq, Repr

namespace Session

/-- Something to do in a session. -/
inductive Command
  /-- To ask something of the throttle or a part of it. -/
  | ask (directed : Directed)
  /-- To set the clock. -/
  | setClock (adjustment : ScriptedClock.Adjustment)
  /-- To keep a copy of the throttle. -/
  | keep
  /-- To go back to the copy that was kept. -/
  | recall
  /-- To let an engine be charged for many units at once. -/
  | weigh
  /-- To let an engine be charged for single events only. -/
  | unweigh
  /-- To go on with the peak half of a compound alone. -/
  | takePeak
  /-- To go on with the sustained half of a compound alone. -/
  | takeSustained

/-- The session with a new throttle, where there is one. -/
def turn (s : Session) : Option Throttle → Answer × Session
  | some t => (.done, { s with throttle := t })
  | none => (.unsupported, s)

/-- Does a command. -/
def perform (s : Session) : Command → Timed ScriptedClock (Answer × Session)
  | .ask directed => do
    let (answer, t) ← s.throttle.serveDirected directed
    return (answer, { s with throttle := t })
  | .setClock adjustment => do
    Timed.setClock (·.adjust adjustment)
    return (.done, s)
  | .keep => return (.done, { s with kept := some s.throttle })
  | .recall => return s.turn s.kept
  | .weigh => return s.turn <| match s.throttle with
    | .engine .perEvent e => some (.engine .perUnit e)
    | _ => none
  | .unweigh => return s.turn <| match s.throttle with
    | .engine .perUnit e => some (.engine .perEvent e)
    | _ => none
  | .takePeak => return s.turn (s.throttle.part? [.peak])
  | .takeSustained => return s.turn (s.throttle.part? [.sustained])

/-- What there is to tell about one command. -/
structure Entry where
  /-- The answer to it. -/
  answer : Answer
  /-- The throttle after it. -/
  throttle : Throttle
  /-- What was reported meanwhile. -/
  notices : List Notice

/-- The record of a list of commands. -/
def entries (s : Session) : List Command → Timed ScriptedClock (List Entry)
  | [] => return []
  | c :: rest => do
    let (answer, s') ← s.perform c
    let notices ← Timed.takeLog
    let later ← entries s' rest
    return ⟨answer, s'.throttle, notices⟩ :: later

/-- The record of a whole session. -/
structure Transcript where
  /-- The throttle as it was built. -/
  built : Throttle
  /-- What was reported while it was built. -/
  notices : List Notice
  /-- What followed. -/
  entries : List Entry

/-- Builds a throttle on a clock and does commands with it. -/
def transcript (clock : ScriptedClock) (blueprint : Blueprint) (commands : List Command) :
    Transcript :=
  let work : Timed ScriptedClock Transcript := do
    let built ← blueprint.build
    let notices ← Timed.takeLog
    return ⟨built, notices, ← Session.entries ⟨built, none⟩ commands⟩
  (work { clock }).1

end Session

end AdmissionControl
