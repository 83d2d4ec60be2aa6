/-!
# Clocks

A clock gives the nanoseconds since an arbitrary, fixed origin, or fails to. `Clock` is the class
of the types whose values are clocks: reading one gives the result and the clock as it is
afterwards. `Clock.reading s n` is the result of the `n`-th of a row of readings, and
`Clock.Steady s` says that none of them fails and that they never go back.

`ScriptedClock` is a clock whose readings are set by hand: it grows by a fixed step with each
reading and can be told to fail a number of times first.
-/

namespace AdmissionControl

/-- Why a clock gave no reading. -/
inductive ClockError
  /-- There is no reading to be had at the moment. -/
  | unavailable
deriving DecidableEq, Repr

/-- The wording of a clock error. -/
def ClockError.message : ClockError → String
  | .unavailable => "Clock reading unavailable"

/-- The types whose values are clocks. -/
class Clock (σ : Type) where
  /-- One reading in nanoseconds, and the clock after it. -/
  read : σ → Except ClockError Nat × σ

namespace Clock

variable {σ : Type} [Clock σ]

/-- The clock after `n` readings. -/
def after (s : σ) : Nat → σ
  | 0 => s
  | n + 1 => after (read s).2 n

/-- The result of the reading that comes after `n` others. -/
def reading (s : σ) (n : Nat) : Except ClockError Nat := (read (after s n)).1

/-- No reading fails, and none is before an earlier one. -/
def Steady (s : σ) : Prop :=
  ∃ f : Nat → Nat, (∀ n, reading s n = .ok (f n)) ∧ ∀ n, f n ≤ f (n + 1)

/-- A clock is as it was before the first reading. -/
@[simp] theorem after_zero (s : σ) : after s 0 = s := rfl

/-- The last of a row of readings can be taken off it. -/
theorem after_succ (s : σ) (n : Nat) : after s (n + 1) = (read (after s n)).2 := by
  induction n generalizing s with
  | zero => rfl
  | succ n ih => exact ih (read s).2

/-- No other reading comes before the first. -/
@[simp] theorem reading_zero (s : σ) : reading s 0 = (read s).1 := rfl

/-- The first of a row of readings can be taken off it. -/
@[simp] theorem reading_succ (s : σ) (n : Nat) : reading s (n + 1) = reading (read s).2 n := rfl

/-- A steady clock stays steady when it is read. -/
theorem Steady.read {s : σ} (h : Steady s) : Steady (Clock.read s).2 := by
  obtain ⟨f, hf, hmono⟩ := h
  refine ⟨fun n => f (n + 1), fun n => ?_, fun n => hmono (n + 1)⟩
  rw [← reading_succ, hf]

end Clock

/-- The largest reading of a clock, that of an unsigned 64-bit word. -/
def maxReading : Nat := 18446744073709551615

/-- A clock whose readings are set by hand. -/
structure ScriptedClock where
  /-- The next reading. -/
  nanos : Nat := 0
  /-- How far the clock moves on with a reading. -/
  step : Nat := 0
  /-- How many readings are still to fail. -/
  fail : Nat := 0
deriving DecidableEq, Repr

namespace ScriptedClock

/-- The name that a scripted clock goes by in texts. -/
def name : String := "ScriptClock"

/-- Failing readings come first; any other moves the clock on, up to the largest reading. -/
instance : Clock ScriptedClock where
  read c :=
    if 0 < c.fail then (.error .unavailable, { c with fail := c.fail - 1 })
    else (.ok c.nanos, { c with nanos := min (c.nanos + c.step) maxReading })

/-- New values for some of the settings of a scripted clock. -/
structure Adjustment where
  /-- The next reading, if it is set. -/
  nanos : Option Nat := none
  /-- The step, if it is set. -/
  step : Option Nat := none
  /-- The number of failing readings, if it is set. -/
  fail : Option Nat := none
deriving DecidableEq, Repr

/-- The clock with the new values in place of the old ones. -/
def adjust (c : ScriptedClock) (a : Adjustment) : ScriptedClock :=
  ⟨a.nanos.getD c.nanos, a.step.getD c.step, a.fail.getD c.fail⟩

/-- A clock that is not told to fail gives its reading and moves on. -/
theorem read_of_fail_eq_zero {c : ScriptedClock} (h : c.fail = 0) :
    Clock.read c = (.ok c.nanos, { c with nanos := min (c.nanos + c.step) maxReading }) :=
  if_neg (by omega)

end ScriptedClock

end AdmissionControl
