import AdmissionControl.Fault
import AdmissionControl.Registry.Table
import AdmissionControl.Throttle.Blueprint
import AdmissionControl.Throttle.Offer

/-!
# Registries

A `Registry` keeps one throttle for each key, such as the name of a client. A key gets its
throttle from the factory of the registry when it is first used, opened as new at the reading of
the clock at that moment. With each use the registry notes the reading, and `evictIdle` drops the
keys that have not been used for some time.

Every use reads the clock once, before anything else. If there is no reading the caller is told so
and nothing else happens.
-/

namespace AdmissionControl

/-- Where the throttles of new keys come from. All throttles from a factory are made alike: none
depends on the key or on the throttles made before it. -/
inductive Factory
  /-- Each is a copy of a prototype. -/
  | copying (prototype : Throttle)
  /-- Each is built anew. -/
  | building (blueprint : Blueprint)
deriving DecidableEq, Repr

namespace Factory

/-- A throttle from the factory. -/
def make {σ : Type} [Clock σ] : Factory → Timed σ Throttle
  | copying prototype => pure prototype
  | building blueprint => blueprint.build

/-- Whether the throttles may be charged for many units at once. -/
def isWeighted : Factory → Bool
  | copying prototype => prototype.isWeighted
  | building blueprint => blueprint.isWeighted

end Factory

/-- What a registry keeps for a key. -/
structure Slot where
  /-- The throttle of the key. -/
  throttle : Throttle
  /-- The reading at its last use, in nanoseconds. -/
  lastSeen : Nat
deriving DecidableEq, Repr

/-- One throttle for each key. -/
structure Registry (κ : Type) where
  /-- Where the throttles of new keys come from. -/
  factory : Factory
  /-- The keys that are in use. -/
  slots : Table κ Slot

namespace Registry

variable {κ : Type} [DecidableEq κ] {σ : Type} [Clock σ]

/-! ### Building -/

/-- The registry without keys. -/
def new (factory : Factory) : Registry κ := ⟨factory, .empty⟩

/-- A registry that enforces a contract on each key. The prototype is built at once. -/
def ofContract (charging : Charging) (c : Contract) : Timed σ (Registry κ) := do
  let prototype ← (Blueprint.shaper charging .onClock c).build
  return new (.copying prototype)

/-! ### Using a key -/

/-- The throttle of a key for a use at a reading, which is made for the purpose if the key is
new. -/
def throttleFor (r : Registry κ) (key : κ) (nanos : Nat) : Timed σ Throttle :=
  match r.slots.find? key with
  | some slot => pure slot.throttle
  | none => do
    let made ← r.factory.make
    Timed.report (.keyCreated nanos)
    return made.resetAt (ticksAt nanos made.frequency)

/-- Uses the throttle of a key at the present. The use is told the instant in the ticks of the
throttle. -/
def withThrottle {α : Type} (r : Registry κ) (key : κ)
    (use : Int → Throttle → Timed σ (α × Throttle)) :
    Timed σ (Except Fault α × Registry κ) := do
  match ← Timed.readClock with
  | .error error => return (.error (.clock error), r)
  | .ok nanos =>
    let t ← r.throttleFor key nanos
    let (result, t') ← use (ticksAt nanos t.frequency) t
    return (.ok result, { r with slots := r.slots.insert key ⟨t', nanos⟩ })

/-- Offers an event of `units` units to the throttle of a key. -/
def checkUnits (r : Registry κ) (key : κ) (units : Nat) :
    Timed σ (Except Fault Decision × Registry κ) :=
  r.withThrottle key fun instant t => pure (t.offer instant units)

/-- Offers an event to the throttle of a key. -/
def check (r : Registry κ) (key : κ) : Timed σ (Except Fault Decision × Registry κ) :=
  r.checkUnits key 1

/-! ### Dropping keys -/

/-- The registry without the keys that were last used at a reading or before. -/
def keepAfter (r : Registry κ) (cutoff : Nat) : Registry κ :=
  { r with slots := r.slots.filter fun _ slot => cutoff < slot.lastSeen }

/-- Drops the keys that have been idle for some time, and tells how many they were. -/
def evictIdle (r : Registry κ) (maxIdle : Nat) : Timed σ (Except Fault Nat × Registry κ) := do
  match ← Timed.readClock with
  | .error error => return (.error (.clock error), r)
  | .ok now =>
    let kept := r.keepAfter (now - maxIdle)
    let remaining := kept.slots.size
    let removed := r.slots.size - remaining
    if 0 < removed then Timed.report (.idleEvicted removed remaining)
    return (.ok removed, kept)

/-- Drops a key, and gives the throttle that it had. -/
def remove (r : Registry κ) (key : κ) : Option Throttle × Registry κ :=
  ((r.slots.find? key).map (·.throttle), { r with slots := r.slots.erase key })

/-! ### Observers -/

/-- Whether a key is in use. -/
def contains (r : Registry κ) (key : κ) : Bool := r.slots.contains key

/-- How many keys are in use. -/
def size (r : Registry κ) : Nat := r.slots.size

/-- Whether no key is in use. -/
def isEmpty (r : Registry κ) : Bool := r.size = 0

/-- A text about the registry, given the name of its clock. -/
def describe (r : Registry κ) (clockName : String) : String :=
  "KeyedThrottle \x7b keys: " ++ toString r.size ++ ", clock: " ++ clockName ++ ", .. \x7d"

/-! ### Small facts -/

/-- A use finds nothing but the clock changed if there is no reading. -/
theorem withThrottle_of_read_eq_error {α : Type} (r : Registry κ) (key : κ)
    (use : Int → Throttle → Timed σ (α × Throttle)) {env : Ambient σ} {error : ClockError}
    (h : (Clock.read env.clock).1 = .error error) :
    r.withThrottle key use env =
      ((.error (.clock error), r), { env with clock := (Clock.read env.clock).2 }) := by
  simp only [withThrottle, Timed.bind_apply, Timed.readClock_apply, h, Timed.pure_apply]

/-- The keys that are kept are those that were used after the cutoff. -/
@[simp] theorem find?_keepAfter (r : Registry κ) (cutoff : Nat) (key : κ) :
    (r.keepAfter cutoff).slots.find? key =
      (r.slots.find? key).filter fun slot => cutoff < slot.lastSeen :=
  Table.find?_filter _ _ _

end Registry

end AdmissionControl
