import AdmissionControl.Registry
import AdmissionControl.Throttle.Request

/-!
# Sessions with a registry

The use of one registry over time, on a scripted clock. Keys are texts. A `Registry.Command` is a
use of a key, a look at the registry or a new setting of the clock, and `Registry.transcript` is
the record: the answer to each command, the number of keys after it and the notices that were
written meanwhile.
-/

namespace AdmissionControl

namespace Registry

/-- Something to do with a registry. -/
inductive Command
  /-- To offer an event to the throttle of a key. -/
  | check (key : String)
  /-- To offer an event of many units. -/
  | checkUnits (key : String) (units : Nat)
  /-- To ask the throttle of a key for something, at the instant that the registry tells. -/
  | withThrottle (key : String) (requests : Int → List Directed)
  /-- To drop the keys that have been idle for some time. -/
  | evictIdle (maxIdle : Nat)
  /-- To drop a key. -/
  | remove (key : String)
  /-- Whether a key is in use. -/
  | contains (key : String)
  /-- Whether no key is in use. -/
  | isEmpty
  /-- A reading of the clock. -/
  | readClock
  /-- A text about the registry. -/
  | describe
  /-- To make another handle on the same registry, which all handles share. -/
  | share
  /-- To set the clock. -/
  | setClock (adjustment : ScriptedClock.Adjustment)

/-- What is answered to a command. -/
inductive Answer
  /-- There is nothing to tell. -/
  | done
  /-- The throttles of the registry cannot do what was asked. -/
  | unsupported
  /-- What became of an event that was offered. -/
  | decision (result : Except Fault Decision)
  /-- What the throttle of a key answered, and the instant it was told. -/
  | served (result : Except Fault (Int × List AdmissionControl.Answer))
  /-- How many keys were dropped. -/
  | evicted (result : Except Fault Nat)
  /-- The throttle of a key that was dropped, if it was in use. -/
  | removed (throttle : Option Throttle)
  /-- A yes or a no. -/
  | verdict (value : Bool)
  /-- What the clock gave. -/
  | reading (result : Except Fault Nat)
  /-- A text. -/
  | text (value : String)

/-- Does a command. -/
def perform (r : Registry String) : Command → Timed ScriptedClock (Answer × Registry String)
  | .check key => do
    let (result, r') ← r.check key
    return (.decision result, r')
  | .checkUnits key units =>
    if r.factory.isWeighted then do
      let (result, r') ← r.checkUnits key units
      return (.decision result, r')
    else return (.unsupported, r)
  | .withThrottle key requests => do
    let (result, r') ← r.withThrottle key fun instant t => do
      let (answers, t') ← t.serveAll (requests instant)
      return ((instant, answers), t')
    return (.served result, r')
  | .evictIdle maxIdle => do
    let (result, r') ← r.evictIdle maxIdle
    return (.evicted result, r')
  | .remove key => return (.removed (r.remove key).1, (r.remove key).2)
  | .contains key => return (.verdict (r.contains key), r)
  | .isEmpty => return (.verdict r.isEmpty, r)
  | .readClock => return (.reading ((← Timed.readClock).mapError .clock), r)
  | .describe => return (.text (r.describe ScriptedClock.name), r)
  | .share => return (.done, r)
  | .setClock adjustment => do
    Timed.setClock (·.adjust adjustment)
    return (.done, r)

/-- What there is to tell about one command. -/
structure Entry where
  /-- The answer to it. -/
  answer : Answer
  /-- How many keys were in use after it. -/
  size : Nat
  /-- What was reported meanwhile. -/
  notices : List Notice

/-- The record of a list of commands. -/
def entries (r : Registry String) : List Command → Timed ScriptedClock (List Entry)
  | [] => return []
  | c :: rest => do
    let (answer, r') ← r.perform c
    let notices ← Timed.takeLog
    let later ← entries r' rest
    return ⟨answer, r'.size, notices⟩ :: later

/-- What registry to build. -/
inductive Plan
  /-- One that enforces a contract on each key. -/
  | contract (charging : Charging) (contract : Contract)
  /-- One that builds a throttle for each key. -/
  | blueprint (blueprint : Blueprint)
deriving DecidableEq, Repr

/-- Builds a registry. -/
def Plan.build : Plan → Timed ScriptedClock (Registry String)
  | .contract charging c => ofContract charging c
  | .blueprint b => return new (.building b)

/-- The record of a whole session. -/
structure Transcript where
  /-- What was reported while the registry was built. -/
  notices : List Notice
  /-- What followed. -/
  entries : List Entry

/-- Builds a registry on a clock and does commands with it. -/
def transcript (clock : ScriptedClock) (plan : Plan) (commands : List Command) : Transcript :=
  let work : Timed ScriptedClock Transcript := do
    let r ← plan.build
    let notices ← Timed.takeLog
    return ⟨notices, ← r.entries commands⟩
  (work { clock }).1

end Registry

end AdmissionControl
