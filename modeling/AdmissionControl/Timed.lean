import AdmissionControl.Clock
import AdmissionControl.Notice

/-!
# Timed computations

What a throttle does beyond computing is to read the clock and to write notices. `Timed σ` is the
monad of computations that do so: their state, an `Ambient σ`, is the clock, which everything in
one program shares, and the log so far.
-/

namespace AdmissionControl

/-- The clock that a program runs on, and its log so far. -/
structure Ambient (σ : Type) where
  /-- The clock. -/
  clock : σ
  /-- The notices in the order of their writing. -/
  log : Array Notice := #[]
deriving DecidableEq, Repr

/-- A computation that may read the clock and write notices. -/
abbrev Timed (σ : Type) := StateM (Ambient σ)

namespace Timed

variable {σ : Type}

/-- Reads the clock once. -/
def readClock [Clock σ] : Timed σ (Except ClockError Nat) := fun env =>
  ((Clock.read env.clock).1, { env with clock := (Clock.read env.clock).2 })

/-- Writes one notice. -/
def report (notice : Notice) : Timed σ Unit := fun env =>
  ((), { env with log := env.log.push notice })

/-- Writes notices in order. -/
def reportAll (notices : List Notice) : Timed σ Unit := fun env =>
  ((), { env with log := env.log ++ notices })

/-- Takes all notices out of the log. -/
def takeLog : Timed σ (List Notice) := fun env =>
  (env.log.toList, { env with log := #[] })

/-- Changes the clock by hand. -/
def setClock (change : σ → σ) : Timed σ Unit := fun env =>
  ((), { env with clock := change env.clock })

/-- A computation that only answers leaves the clock and the log as they are. -/
@[simp] theorem pure_apply {α : Type} (value : α) (env : Ambient σ) :
    (pure value : Timed σ α) env = (value, env) := rfl

/-- The second of two computations starts where the first has ended. -/
@[simp] theorem bind_apply {α β : Type} (first : Timed σ α) (second : α → Timed σ β)
    (env : Ambient σ) : (first >>= second) env = second (first env).1 (first env).2 := rfl

/-- A reading gives what the clock gives, and moves the clock on. -/
@[simp] theorem readClock_apply [Clock σ] (env : Ambient σ) :
    readClock env = ((Clock.read env.clock).1, { env with clock := (Clock.read env.clock).2 }) :=
  rfl

end Timed

end AdmissionControl
