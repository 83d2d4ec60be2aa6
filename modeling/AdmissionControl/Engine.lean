import AdmissionControl.Pace
import AdmissionControl.Timed

/-!
# Engines

An `Engine` admits events at a pace. It keeps a debt: the span, counted from the last event taken
in, for which the engine is still busy. An event conforms as long as the debt that is left when it
comes is within the limit, and each event that is taken in adds its increment to the debt.

An event is dealt with in two phases. `examine` looks at an instant and keeps a tentative
schedule; `delayAt` is the answer, zero for an event that conforms and else the span by which it
is early. Then the event is either taken in (`commit`, or `commitUnits` for one of many units),
which makes the tentative schedule the committed one, or left (`rollback`). An engine that has
taken in an event that was early is alarmed.

An engine looks at the clock only in `time`. If there is no reading it stays at the instant that
it saw last.
-/

namespace AdmissionControl

/-- The debt of an engine, and whether the event that led to it was early. -/
structure Schedule where
  /-- The span for which the engine is still busy. -/
  debt : Int := 0
  /-- Whether the last event came too early. -/
  alarmed : Bool := false
deriving DecidableEq, Repr

/-- An engine that admits events at a pace. -/
structure Engine where
  /-- The fixed part. -/
  pace : Pace
  /-- The instant that was seen last. -/
  now : Int
  /-- The instant of the last event that was taken in. -/
  last : Int
  /-- The schedule after that event. -/
  committed : Schedule := {}
  /-- The schedule as it is left by the event under examination. -/
  tentative : Schedule := {}
deriving DecidableEq, Repr

namespace Engine

/-- The engine that has seen nothing before an instant. Its last event counts as one increment
ago. -/
def opened (pace : Pace) (instant : Int) : Engine :=
  { pace, now := instant, last := satSub instant pace.increment }

/-- The engine as it was when new, opened at an instant. -/
def resetAt (e : Engine) (instant : Int) : Engine := opened e.pace instant

/-! ### Examining an event -/

/-- The schedule that an event at an instant finds: the debt that is left by then, and whether it
is over the limit. -/
def scheduleAt (e : Engine) (instant : Int) : Schedule :=
  let elapsed := satSub instant e.last
  if e.committed.debt ≤ elapsed then {}
  else
    let debt := satSub e.committed.debt elapsed
    ⟨debt, decide (e.pace.limit < debt)⟩

/-- By how much an event at an instant is early, or zero if it conforms. -/
def delayAt (e : Engine) (instant : Int) : Int :=
  let s := e.scheduleAt instant
  if s.alarmed then s.debt - e.pace.limit else 0

/-- The engine that examines an event at an instant. -/
def examine (e : Engine) (instant : Int) : Engine :=
  { e with now := instant, tentative := e.scheduleAt instant }

/-! ### Taking an event in, or leaving it -/

/-- The debt after an event of `units` units is taken in. Debts stop at the largest tick. -/
def debtAfter (e : Engine) (units : Nat) : Int :=
  if e.pace.unitsMax < units then maxTick
  else
    let charge := units * e.pace.increment
    if maxTick - charge < e.tentative.debt then maxTick else e.tentative.debt + charge

/-- The engine that takes in the examined event as one of `units` units. -/
def commitUnits (e : Engine) (units : Nat) : Engine :=
  { e with last := e.now, committed := ⟨e.debtAfter units, e.tentative.alarmed⟩ }

/-- The engine that takes in the examined event. -/
def commit (e : Engine) : Engine := e.commitUnits 1

/-- The engine that leaves the examined event: nothing has been committed. -/
def rollback (e : Engine) : Engine := e

/-- Whether taking the examined event in keeps to the pace. -/
def commitVerdict (e : Engine) : Bool := !e.tentative.alarmed

/-- Whether the event before the examined one kept to the pace. -/
def rollbackVerdict (e : Engine) : Bool := !e.committed.alarmed

/-! ### Observers -/

/-- Whether the last event that was taken in came too early. -/
def isAlarmed (e : Engine) : Bool := e.committed.alarmed

/-- Whether both debts make sense. -/
def isValid (e : Engine) : Bool := decide (0 ≤ e.committed.debt ∧ 0 ≤ e.tentative.debt)

/-- The committed debt. -/
def debt (e : Engine) : Int := e.committed.debt

/-- The earliest instant at which the next event conforms. -/
def expected (e : Engine) : Int := satSub (satAdd e.last e.debt) e.pace.limit

/-- Ticks per second. -/
def frequency (e : Engine) : Int := e.pace.resolution.frequency

/-- The notice of the event just taken in, if it was early. -/
def breaches (e : Engine) : List Notice :=
  if e.isAlarmed then [.earlyEventCommitted e.pace.increment e.pace.limit e.debt] else []

/-! ### On the clock -/

section Clocked

variable {σ : Type} [Clock σ]

/-- The instant that the clock gives, or the one seen last if there is no reading. -/
def time (e : Engine) : Timed σ Int := do
  match ← Timed.readClock with
  | .ok nanos => return e.pace.resolution.ofReading nanos
  | .error error =>
    Timed.report (.clockUnavailable error)
    return e.now

/-- The engine as it was when new, opened at the instant that the clock gives. -/
def reset (e : Engine) : Timed σ Engine := do
  let instant ← e.time
  return e.resetAt instant

/-- A new engine, opened at the instant that the clock gives, or at zero if there is no
reading. -/
def build (pace : Pace) : Timed σ Engine := (opened pace 0).reset

end Clocked

/-! ### What a step leaves of an engine -/

section Steps

variable (e : Engine) (pace : Pace) (instant : Int) (units : Nat)

@[simp] theorem pace_opened : (opened pace instant).pace = pace := rfl

@[simp] theorem last_opened : (opened pace instant).last = satSub instant pace.increment := rfl

@[simp] theorem committed_opened : (opened pace instant).committed = {} := rfl

@[simp] theorem pace_resetAt : (e.resetAt instant).pace = e.pace := rfl

@[simp] theorem last_resetAt :
    (e.resetAt instant).last = satSub instant e.pace.increment := rfl

@[simp] theorem committed_resetAt : (e.resetAt instant).committed = {} := rfl

@[simp] theorem pace_examine : (e.examine instant).pace = e.pace := rfl

@[simp] theorem now_examine : (e.examine instant).now = instant := rfl

@[simp] theorem tentative_examine : (e.examine instant).tentative = e.scheduleAt instant := rfl

@[simp] theorem pace_commitUnits : (e.commitUnits units).pace = e.pace := rfl

@[simp] theorem last_commitUnits : (e.commitUnits units).last = e.now := rfl

@[simp] theorem debt_commitUnits : (e.commitUnits units).debt = e.debtAfter units := rfl

@[simp] theorem pace_commit : e.commit.pace = e.pace := rfl

@[simp] theorem rollback_eq : e.rollback = e := rfl

/-! ### Verdicts and alarms -/

@[simp] theorem isAlarmed_resetAt : (e.resetAt instant).isAlarmed = false := rfl

@[simp] theorem isAlarmed_examine : (e.examine instant).isAlarmed = e.isAlarmed := rfl

/-- An engine is alarmed after a commit exactly if the commit was answered so. -/
@[simp] theorem isAlarmed_commitUnits : (e.commitUnits units).isAlarmed = !e.commitVerdict :=
  (Bool.not_not _).symm

@[simp] theorem commitVerdict_resetAt : (e.resetAt instant).commitVerdict = true := rfl

@[simp] theorem commitVerdict_commitUnits :
    (e.commitUnits units).commitVerdict = e.commitVerdict := rfl

/-- A rollback is answered by whether the engine is free of alarm. -/
@[simp] theorem rollbackVerdict_eq : e.rollbackVerdict = !e.isAlarmed := rfl

end Steps

/-! ### What an event finds -/

section Found

variable (e : Engine) (instant : Int)

/-- An event finds the part of the debt that the time since the last event has not worked off. -/
theorem debt_scheduleAt_eq_max : (e.scheduleAt instant).debt =
    max 0 (satSub e.committed.debt (satSub instant e.last)) := by
  unfold scheduleAt
  dsimp only
  by_cases hdone : e.committed.debt ≤ satSub instant e.last
  · have hnone := saturate_nonpos (Int.sub_nonpos_of_le hdone)
    rw [if_pos hdone]
    exact (Int.max_eq_left hnone).symm
  · have hleft := saturate_nonneg (Int.sub_nonneg_of_le (Int.le_of_not_le hdone))
    rw [if_neg hdone]
    exact (Int.max_eq_right hleft).symm

/-- It finds the engine alarmed if that is more than the limit. -/
theorem alarmed_scheduleAt_eq : (e.scheduleAt instant).alarmed =
    decide (e.pace.limit < (e.scheduleAt instant).debt) := by
  unfold scheduleAt
  dsimp only
  split
  · exact (decide_eq_false (Int.not_lt.mpr e.pace.limit_nonneg)).symm
  · rfl

/-- It is early by what is more than the limit. -/
theorem delayAt_eq_max_debt :
    e.delayAt instant = max 0 ((e.scheduleAt instant).debt - e.pace.limit) := by
  unfold delayAt
  dsimp only
  rw [alarmed_scheduleAt_eq]
  by_cases hearly : e.pace.limit < (e.scheduleAt instant).debt
  · rw [if_pos (decide_eq_true hearly)]
    omega
  · rw [if_neg (by simpa using hearly)]
    omega

/-- An event is never early by less than nothing. -/
theorem delayAt_nonneg : 0 ≤ e.delayAt instant := by
  rw [delayAt_eq_max_debt]
  exact Int.le_max_left _ _

/-- The delay is not zero exactly when the schedule at that instant is alarmed. -/
theorem delayAt_eq_zero_iff : e.delayAt instant = 0 ↔ (e.scheduleAt instant).alarmed = false := by
  rw [delayAt_eq_max_debt, alarmed_scheduleAt_eq, decide_eq_false_iff_not]
  omega

/-- Taking an event in keeps to the pace exactly if the event is not early. -/
@[simp] theorem commitVerdict_examine :
    (e.examine instant).commitVerdict = decide (e.delayAt instant = 0) := by
  rw [Bool.eq_iff_iff, decide_eq_true_iff, delayAt_eq_zero_iff, commitVerdict, tentative_examine,
    Bool.not_eq_true']

end Found

/-- A single unit is charged one increment, up to the largest tick. -/
theorem debtAfter_one (e : Engine) :
    e.debtAfter 1 =
      if maxTick - e.pace.increment < e.tentative.debt then maxTick
      else e.tentative.debt + e.pace.increment := by
  have h := e.pace.one_le_unitsMax
  unfold debtAfter
  rw [if_neg (by simpa using h)]
  simp

/-- An event that conforms is taken in without a notice. -/
theorem breaches_commitUnits_examine {e : Engine} {instant : Int} (units : Nat)
    (h : e.delayAt instant ≤ 0) : ((e.examine instant).commitUnits units).breaches = [] := by
  have h0 : e.delayAt instant = 0 := Int.le_antisymm h (e.delayAt_nonneg instant)
  simp [breaches, h0]

end Engine

end AdmissionControl
