import AdmissionControl.Contract.Emission
import AdmissionControl.Engine

/-!
# Shapers

A `Shaper` enforces a traffic contract: it has an engine for the peak rate and, if the rate is
variable, one for the sustained rate. An event has to conform to both. Both examine every event
and both take it in or leave it, so that they never drift apart.
-/

namespace AdmissionControl

/-- The engines that enforce one contract. -/
structure Shaper where
  /-- The engine of the peak rate. -/
  peak : Engine
  /-- The engine of the sustained rate, if the rate is variable. -/
  sustained : Option Engine
deriving DecidableEq, Repr

namespace Shaper

/-- The shaper with each of its engines changed. -/
def mapEngines (f : Engine → Engine) (s : Shaper) : Shaper := ⟨f s.peak, s.sustained.map f⟩

/-- The shaper as it was when new, opened at an instant. -/
def resetAt (s : Shaper) (instant : Int) : Shaper := s.mapEngines (·.resetAt instant)

/-- By how much an event is early for the engine that it is earlier for. -/
def delayAt (s : Shaper) (instant : Int) : Int :=
  max (s.peak.delayAt instant) (s.sustained.elim 0 (·.delayAt instant))

/-- The shaper that examines an event at an instant. -/
def examine (s : Shaper) (instant : Int) : Shaper := s.mapEngines (·.examine instant)

/-- The shaper that takes in the examined event as one of `units` units. -/
def commitUnits (s : Shaper) (units : Nat) : Shaper := s.mapEngines (·.commitUnits units)

/-- The shaper that leaves the examined event. -/
def rollback (s : Shaper) : Shaper := s.mapEngines (·.rollback)

/-- Whether taking the examined event in keeps to the contract. -/
def commitVerdict (s : Shaper) : Bool :=
  s.peak.commitVerdict && s.sustained.all (·.commitVerdict)

/-- Whether the event before the examined one kept to the contract. -/
def rollbackVerdict (s : Shaper) : Bool :=
  s.peak.rollbackVerdict && s.sustained.all (·.rollbackVerdict)

/-- Whether the last event that was taken in came too early for an engine. -/
def isAlarmed (s : Shaper) : Bool := s.peak.isAlarmed || s.sustained.any (·.isAlarmed)

/-- Whether both engines make sense. -/
def isValid (s : Shaper) : Bool := s.peak.isValid && s.sustained.all (·.isValid)

/-- Ticks per second. -/
def frequency (s : Shaper) : Int := s.peak.frequency

/-- The notices of the event just taken in, one for each engine that it was early for. -/
def breaches (s : Shaper) : List Notice :=
  s.peak.breaches ++ s.sustained.elim [] (·.breaches)

/-- The shaper for a contract, opened at an instant. -/
def opened (r : Resolution) (c : Contract) (instant : Int) : Shaper :=
  let e := c.emissions r
  ⟨.opened (.clamped r e.peak.increment e.peak.limit) instant,
    e.sustained.map fun s => .opened (.clamped r s.increment s.limit) instant⟩

/-! ### On the clock -/

section Clocked

variable {σ : Type} [Clock σ]

/-- The instant that the clock gives to the peak engine. -/
def time (s : Shaper) : Timed σ Int := s.peak.time

/-- The shaper as it was when new. The peak engine looks at the clock first, then the sustained
one. -/
def reset (s : Shaper) : Timed σ Shaper := do
  let peak ← s.peak.reset
  match s.sustained with
  | none => return ⟨peak, none⟩
  | some e => return ⟨peak, some (← e.reset)⟩

/-- A new shaper for a contract. After the notices on the contract the sustained engine is built,
if there is one, and then the peak engine. -/
def build (r : Resolution) (c : Contract) : Timed σ Shaper := do
  Timed.reportAll (c.notices r)
  let e := c.emissions r
  match e.sustained with
  | none => return ⟨← Engine.build (.clamped r e.peak.increment e.peak.limit), none⟩
  | some s =>
    let sustained ← Engine.build (.clamped r s.increment s.limit)
    let peak ← Engine.build (.clamped r e.peak.increment e.peak.limit)
    return ⟨peak, some sustained⟩

end Clocked

/-! ### One engine or two -/

section Parts

variable (peak e : Engine) (instant : Int)

@[simp] theorem peak_mapEngines (f : Engine → Engine) (s : Shaper) :
    (s.mapEngines f).peak = f s.peak := rfl

@[simp] theorem sustained_mapEngines (f : Engine → Engine) (s : Shaper) :
    (s.mapEngines f).sustained = s.sustained.map f := rfl

/-- At a constant rate an event is as early as it is for the peak engine. -/
@[simp] theorem delayAt_constant : (⟨peak, none⟩ : Shaper).delayAt instant = peak.delayAt instant :=
  Int.max_eq_left (peak.delayAt_nonneg instant)

@[simp] theorem delayAt_variable : (⟨peak, some e⟩ : Shaper).delayAt instant =
    max (peak.delayAt instant) (e.delayAt instant) := rfl

@[simp] theorem mapEngines_constant (f : Engine → Engine) :
    (⟨peak, none⟩ : Shaper).mapEngines f = ⟨f peak, none⟩ := rfl

@[simp] theorem mapEngines_variable (f : Engine → Engine) :
    (⟨peak, some e⟩ : Shaper).mapEngines f = ⟨f peak, some (f e)⟩ := rfl

end Parts

/-! ### Verdicts and alarms -/

section Verdicts

variable (s : Shaper) (instant : Int) (units : Nat)

@[simp] theorem isAlarmed_resetAt : (s.resetAt instant).isAlarmed = false := by
  obtain ⟨peak, sustained⟩ := s
  cases sustained <;> simp [resetAt, isAlarmed]

@[simp] theorem isAlarmed_examine : (s.examine instant).isAlarmed = s.isAlarmed := by
  obtain ⟨peak, sustained⟩ := s
  cases sustained <;> simp [examine, isAlarmed]

/-- A shaper is alarmed after a commit exactly if the commit was answered so. -/
@[simp] theorem isAlarmed_commitUnits : (s.commitUnits units).isAlarmed = !s.commitVerdict := by
  obtain ⟨peak, sustained⟩ := s
  cases sustained <;> simp [commitUnits, isAlarmed, commitVerdict]

@[simp] theorem rollback_eq : s.rollback = s := by
  obtain ⟨peak, sustained⟩ := s
  cases sustained <;> simp [rollback]

@[simp] theorem commitVerdict_resetAt : (s.resetAt instant).commitVerdict = true := by
  obtain ⟨peak, sustained⟩ := s
  cases sustained <;> simp [resetAt, commitVerdict]

@[simp] theorem commitVerdict_commitUnits :
    (s.commitUnits units).commitVerdict = s.commitVerdict := by
  obtain ⟨peak, sustained⟩ := s
  cases sustained <;> simp [commitUnits, commitVerdict]

/-- A rollback is answered by whether the shaper is free of alarm. -/
@[simp] theorem rollbackVerdict_eq : s.rollbackVerdict = !s.isAlarmed := by
  obtain ⟨peak, sustained⟩ := s
  cases sustained <;> simp [rollbackVerdict, isAlarmed]

end Verdicts

/-- An event that conforms is taken in without a notice. -/
theorem breaches_commitUnits_examine {s : Shaper} {instant : Int} (units : Nat)
    (h : s.delayAt instant ≤ 0) : ((s.examine instant).commitUnits units).breaches = [] := by
  obtain ⟨peak, sustained⟩ := s
  cases sustained with
  | none =>
    rw [delayAt_constant] at h
    have hp := Engine.breaches_commitUnits_examine units h
    simp [breaches, commitUnits, examine, hp]
  | some e =>
    rw [delayAt_variable] at h
    have hp := Engine.breaches_commitUnits_examine units (Int.le_trans (Int.le_max_left _ _) h)
    have hs := Engine.breaches_commitUnits_examine units (Int.le_trans (Int.le_max_right _ _) h)
    simp [breaches, commitUnits, examine, hp, hs]

end Shaper

end AdmissionControl
