import AdmissionControl.Tick

/-!
# Geometric backoff

A `Geometric` admits by counting events instead of time: of the events that it examines it admits
the first, the second, the fourth, the eighth and so on. It is for events that have no sensible
rate, such as a log message that repeats.

An event counts when it has been examined and then committed or rolled back, all the same; only
the alarm is set by a commit alone. A rejection is reported by the negative delay `rejected`,
since there is no time to wait for.
-/

namespace AdmissionControl

/-- The delay of a rejected event, which is no hint how long to wait. -/
def rejected : Int := -1

/-- The counters of a geometric backoff. -/
structure Backoff where
  /-- The number of the next event to be admitted. -/
  consecutive : Int := 1
  /-- How many events there are up to that one. -/
  countdown : Int := 1
  /-- Whether the last event that was taken in was rejected. -/
  alarmed : Bool := false
deriving DecidableEq, Repr

namespace Backoff

/-- The counters after one more event. At the end of the countdown the event is admitted, and the
number of the next one is twice its own, as long as that is a tick count. -/
def next (b : Backoff) : Backoff :=
  let countdown := satSub b.countdown 1
  if countdown ≠ 0 then { b with countdown, alarmed := true }
  else if 2 * b.consecutive ≤ maxTick then
    ⟨2 * b.consecutive, 2 * b.consecutive - b.consecutive, false⟩
  else { b with countdown, alarmed := true }

end Backoff

/-- A throttle that admits the events whose number is a power of two. -/
structure Geometric where
  /-- The counters up to the last event. -/
  committed : Backoff := {}
  /-- The counters with the event under examination. -/
  tentative : Backoff := {}
deriving DecidableEq, Repr

/-- Whether an integer is a power of two. -/
def isPowerOfTwo (v : Int) : Bool := decide (0 < v ∧ v.toNat.isPowerOfTwo)

namespace Geometric

/-- The throttle that has counted nothing. -/
def fresh : Geometric := {}

/-- The delay of the next event: zero, or `rejected`. -/
def delay (g : Geometric) : Int := if g.committed.next.alarmed then rejected else 0

/-- The throttle that examines an event. -/
def examine (g : Geometric) : Geometric := { g with tentative := g.committed.next }

/-- The throttle that takes in the examined event. -/
def commit (g : Geometric) : Geometric := { g with committed := g.tentative }

/-- The throttle that leaves the examined event, which still counts. -/
def rollback (g : Geometric) : Geometric :=
  { g with committed := { g.tentative with alarmed := g.committed.alarmed } }

/-- Whether taking in the examined event keeps to the backoff. -/
def commitVerdict (g : Geometric) : Bool := !g.tentative.alarmed

/-- Whether the last event that was taken in kept to the backoff. -/
def rollbackVerdict (g : Geometric) : Bool := !g.committed.alarmed

/-- Whether the last event that was taken in was rejected. -/
def isAlarmed (g : Geometric) : Bool := g.committed.alarmed

/-- Whether the events to be admitted have powers of two for numbers. -/
def isValid (g : Geometric) : Bool :=
  isPowerOfTwo g.committed.consecutive && isPowerOfTwo g.tentative.consecutive

/-- The first event is admitted. -/
@[simp] theorem delay_fresh : fresh.delay = 0 := by decide

/-! ### Verdicts and alarms -/

section Verdicts

variable (g : Geometric)

@[simp] theorem isAlarmed_fresh : fresh.isAlarmed = false := rfl

@[simp] theorem isAlarmed_examine : g.examine.isAlarmed = g.isAlarmed := rfl

/-- A backoff is alarmed after a commit exactly if the commit was answered so. -/
@[simp] theorem isAlarmed_commit : g.commit.isAlarmed = !g.commitVerdict :=
  (Bool.not_not _).symm

/-- An event that is left counts, but it does not change the alarm. -/
@[simp] theorem isAlarmed_rollback : g.rollback.isAlarmed = g.isAlarmed := rfl

@[simp] theorem commitVerdict_fresh : fresh.commitVerdict = true := rfl

@[simp] theorem commitVerdict_commit : g.commit.commitVerdict = g.commitVerdict := rfl

@[simp] theorem commitVerdict_rollback : g.rollback.commitVerdict = g.commitVerdict := rfl

/-- A rollback is answered by whether the backoff is free of alarm. -/
@[simp] theorem rollbackVerdict_eq : g.rollbackVerdict = !g.isAlarmed := rfl

/-- Taking an event in keeps to the backoff exactly if the event is admitted. -/
@[simp] theorem commitVerdict_examine :
    g.examine.commitVerdict = decide (g.delay = 0) := by
  unfold commitVerdict examine delay
  cases g.committed.next.alarmed <;> rfl

end Verdicts

end Geometric

end AdmissionControl
