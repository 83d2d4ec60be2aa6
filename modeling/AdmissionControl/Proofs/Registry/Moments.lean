import AdmissionControl.Proofs.Registry.History

/-!
# What happens to one key

A registry is called on many keys, and each call goes through all that the registry keeps.
`Registry.moments` lists what happens to one key in a run of calls: the calls on the key and the
evictions of idle keys, with the readings of the clock that they are given. `Registry.effects` lists
what becomes of the key.

The second is a function of the first (`Registry.effects_eq_life`), and nothing of the other keys is
left in it: a `Moment` acts on what the key has and on the prototype of all throttles.
-/

namespace AdmissionControl

namespace Registry

/-! ### Calls -/

/-- What a use of a throttle that needs no clock comes to: its answer, the throttle after it and
what it reports. -/
structure Response (ρ : Type) where
  answer : ρ
  throttle : Throttle
  notices : List Notice := []

/-- A use of the throttle of a key. -/
inductive Usage (ρ : Type)
  /-- To offer an event of some units. -/
  | offer (units : Nat)
  /-- To do anything that needs no clock, at the instant that the registry tells. -/
  | apply (respond : Int → Throttle → Response ρ)

/-- A call of a registry that leaves all reading of the clock to it. -/
inductive Call (κ ρ : Type)
  /-- To use the throttle of a key. -/
  | use (key : κ) (usage : Usage ρ)
  /-- To drop a key. -/
  | remove (key : κ)
  /-- To drop the keys that have been idle for some time. -/
  | evictIdle (maxIdle : Nat)

variable {κ σ ρ : Type}

def Response.report (response : Response ρ) : Timed σ (ρ × Throttle) := do
  Timed.reportAll response.notices
  return (response.answer, response.throttle)

@[simp] def Usage.operation (key : κ) : Usage ρ → Operation κ σ ρ
  | .offer units => .offer key units
  | .apply respond => .apply key fun instant t => (respond instant t).report

@[simp] def Call.operation : Call κ ρ → Operation κ σ ρ
  | .use key usage => usage.operation key
  | .remove key => .remove key
  | .evictIdle maxIdle => .evictIdle maxIdle

/-- The outcome of a use at an instant, and the throttle after it. -/
def Usage.serve (usage : Usage ρ) (instant : Int) (t : Throttle) : Outcome ρ × Throttle :=
  match usage with
  | .offer units => (.decided (.ok (t.offer instant units).1), (t.offer instant units).2)
  | .apply respond => (.applied (.ok (respond instant t).answer), (respond instant t).throttle)

/-- The outcome of a use that does not come about. -/
def Usage.failed (fault : Fault) : Usage ρ → Outcome ρ
  | .offer _ => .decided (.error fault)
  | .apply _ => .applied (.error fault)

/-- The outcome as far as it is about one key. -/
def Outcome.single? : Outcome ρ → Option (Outcome ρ)
  | .evicted _ => none
  | outcome => some outcome

theorem single?_failed (usage : Usage ρ) (fault : Fault) :
    (usage.failed fault).single? = some (usage.failed fault) := by
  cases usage <;> rfl

theorem single?_serve (usage : Usage ρ) (instant : Int) (t : Throttle) :
    (usage.serve instant t).1.single? = some (usage.serve instant t).1 := by
  cases usage <;> rfl

/-! ### What happens to one key -/

/-- Something that happens to a key, with the reading of the clock that it is given. -/
inductive Moment (ρ : Type)
  /-- The key is used. -/
  | used (usage : Usage ρ) (reading : Except ClockError Nat)
  /-- The key is dropped. -/
  | removed
  /-- The key is dropped if it has been idle for some time. -/
  | evicted (maxIdle : Nat) (reading : Except ClockError Nat)

/-- What becomes of a key at a moment. -/
structure Effect (ρ : Type) where
  /-- What is answered about the key. An eviction only answers how many keys are dropped. -/
  outcome : Option (Outcome ρ)
  /-- What the key has afterwards. -/
  slot : Option Slot

/-- What becomes of a key, given what it has before and where its throttle comes from. -/
def Moment.effect (prototype : Throttle) (slot : Option Slot) : Moment ρ → Effect ρ
  | .used usage (.ok nanos) =>
    let t := (slot.map (·.throttle)).getD
      (prototype.resetAt (ticksAt nanos prototype.frequency))
    let served := usage.serve (ticksAt nanos t.frequency) t
    ⟨some served.1, some ⟨served.2, nanos⟩⟩
  | .used usage (.error error) => ⟨some (usage.failed (.clock error)), slot⟩
  | .removed => ⟨some (.removed (slot.map (·.throttle))), none⟩
  | .evicted maxIdle (.ok nanos) => ⟨none, slot.filter fun s => nanos - maxIdle < s.lastSeen⟩
  | .evicted _ (.error _) => ⟨none, slot⟩

/-- What becomes of a key moment by moment, and what it has at the end. -/
def life (prototype : Throttle) (slot : Option Slot) :
    List (Moment ρ) → List (Effect ρ) × Option Slot
  | [] => ([], slot)
  | m :: rest =>
    let effect := m.effect prototype slot
    let later := life prototype effect.slot rest
    (effect :: later.1, later.2)

/-- The readings that a moment is given. -/
def Moment.reading? : Moment ρ → Option (Except ClockError Nat)
  | .used _ reading | .evicted _ reading => some reading
  | .removed => none

theorem Moment.filterMap_reading?_cons (m : Moment ρ) (later : List (Moment ρ)) :
    (m :: later).filterMap reading? = m.reading?.toList ++ later.filterMap reading? := by
  cases m <;> rfl

/-! ### Runs of calls -/

variable [DecidableEq κ]

/-- The call is on the key, or on all keys. -/
def Call.concerns (key : κ) : Call κ ρ → Bool
  | .use k _ | .remove k => k = key
  | .evictIdle _ => true

/-- What a call is to a key that it concerns. -/
def Call.momentFor? (key : κ) (reading : Except ClockError Nat) : Call κ ρ → Option (Moment ρ)
  | .use k usage => if k = key then some (.used usage reading) else none
  | .remove k => if k = key then some .removed else none
  | .evictIdle maxIdle => some (.evicted maxIdle reading)

section Moments

variable {key : κ}

/-- A call concerns the keys to which something happens with it. -/
theorem Call.isSome_momentFor? (key : κ) (reading : Except ClockError Nat) (call : Call κ ρ) :
    (call.momentFor? key reading).isSome = call.concerns key := by
  cases call with
  | use k usage => by_cases hk : k = key <;> simp [momentFor?, concerns, hk]
  | remove k => by_cases hk : k = key <;> simp [momentFor?, concerns, hk]
  | evictIdle maxIdle => rfl

/-- What a call can be to a key. -/
theorem Call.cases_of_momentFor?_eq_some {call : Call κ ρ} {reading : Except ClockError Nat}
    {m : Moment ρ} (h : call.momentFor? key reading = some m) :
    (∃ usage, call = .use key usage ∧ m = .used usage reading) ∨
      (call = .remove key ∧ m = .removed) ∨
      ∃ maxIdle, call = .evictIdle maxIdle ∧ m = .evicted maxIdle reading := by
  cases call with
  | use k usage =>
    obtain ⟨rfl, hm⟩ := Option.ite_none_right_eq_some.mp h
    exact .inl ⟨usage, rfl, (Option.some.inj hm).symm⟩
  | remove k =>
    obtain ⟨rfl, hm⟩ := Option.ite_none_right_eq_some.mp h
    exact .inr (.inl ⟨rfl, (Option.some.inj hm).symm⟩)
  | evictIdle maxIdle => exact .inr (.inr ⟨maxIdle, rfl, (Option.some.inj h).symm⟩)

/-- With the same readings a call is the same moment. -/
theorem Call.momentFor?_eq_of_readings {call : Call κ ρ} {m m' : Moment ρ}
    {reading reading' : Except ClockError Nat} (h : call.momentFor? key reading = some m)
    (h' : call.momentFor? key reading' = some m') {later later' : List (Except ClockError Nat)}
    (hreadings : m'.reading?.toList ++ later' = m.reading?.toList ++ later) :
    m' = m ∧ later' = later := by
  rcases Call.cases_of_momentFor?_eq_some h with
    ⟨usage, rfl, rfl⟩ | ⟨rfl, rfl⟩ | ⟨maxIdle, rfl, rfl⟩
  · obtain rfl : Moment.used usage reading' = m' :=
      Option.some.inj (Option.ite_none_right_eq_some.mp h').2
    obtain ⟨rfl, hlater⟩ := List.cons.inj hreadings
    exact ⟨rfl, hlater⟩
  · obtain rfl : Moment.removed = m' := Option.some.inj (Option.ite_none_right_eq_some.mp h').2
    exact ⟨rfl, hreadings⟩
  · obtain rfl : Moment.evicted maxIdle reading' = m' := Option.some.inj h'
    obtain ⟨rfl, hlater⟩ := List.cons.inj hreadings
    exact ⟨rfl, hlater⟩

end Moments

variable [Clock σ]

/-- What happens to a key in a run of calls. -/
def moments (key : κ) (r : Registry κ) : List (Call κ ρ) → Ambient σ → List (Moment ρ)
  | [], _ => []
  | call :: rest, env =>
    let later := (r.next call.operation env).moments key rest (r.operate call.operation env).2
    match call.momentFor? key (Clock.read env.clock).1 with
    | none => later
    | some m => m :: later

/-- What becomes of a key in a run of calls. Between the calls that concern it nothing does
(`find?_next_of_not_concerns`). -/
def effects (key : κ) (r : Registry κ) : List (Call κ ρ) → Ambient σ → List (Effect ρ)
  | [], _ => []
  | call :: rest, env =>
    let r' := r.next call.operation env
    let later := r'.effects key rest (r.operate call.operation env).2
    if call.concerns key then
      ⟨(r.operate call.operation env).1.1.single?, r'.slots.find? key⟩ :: later
    else later

/-! ### One call -/

section Step

variable {r : Registry κ} {prototype : Throttle} {key : κ} {env : Ambient σ}

/-- A use without a reading does not come about. -/
theorem operate_usage_of_read_eq_error (r : Registry κ) (key : κ) (usage : Usage ρ)
    {error : ClockError} (hread : (Clock.read env.clock).1 = .error error) :
    (r.operate (usage.operation key) env).1 = (usage.failed (.clock error), r) := by
  cases usage with
  | offer units => exact operate_offer_of_read_eq_error r key units hread
  | apply respond =>
    rw [Usage.operation, operate_apply, withThrottle_of_read_eq_error r key _ hread]
    rfl

/-- A use at a reading serves the throttle that it finds. -/
theorem operate_usage_of_read_eq_ok (hdesign : r.factory.design = prototype.design) (key : κ)
    (usage : Usage ρ) {nanos : Nat} (hread : (Clock.read env.clock).1 = .ok nanos) :
    let t := r.found prototype key nanos
    let served := usage.serve (ticksAt nanos t.frequency) t
    (r.operate (usage.operation key) env).1 =
      (served.1, { r with slots := r.slots.insert key ⟨served.2, nanos⟩ }) := by
  rw [← throttleFor_eq_found hdesign key nanos { env with clock := (Clock.read env.clock).2 }]
  cases usage with
  | offer units => exact operate_offer_of_read_eq_ok r key units hread
  | apply respond =>
    rw [Usage.operation, operate_apply, withThrottle_of_read_eq_ok r key _ hread]
    rfl

/-- A call that does not concern a key leaves it as it is. -/
theorem find?_next_of_not_concerns (r : Registry κ) {call : Call κ ρ}
    (h : call.concerns key = false) (env : Ambient σ) :
    (r.next call.operation env).slots.find? key = r.slots.find? key := by
  cases call with
  | use k usage =>
    have hne : key ≠ k := Ne.symm (of_decide_eq_false h)
    cases usage with
    | offer units =>
      exact r.find?_withThrottle_of_ne hne (fun instant t => pure (t.offer instant units)) env
    | apply respond =>
      exact r.find?_withThrottle_of_ne hne (fun instant t => (respond instant t).report) env
  | remove k => exact (r.slots.find?_erase k key).trans (if_neg (Ne.symm (of_decide_eq_false h)))
  | evictIdle maxIdle => cases h

/-- **One call.** What becomes of a key that a call concerns depends on what the key has and on the
reading. -/
theorem effect_of_momentFor?_eq_some (hfactory : r.factory = .copying prototype) {call : Call κ ρ}
    {m : Moment ρ} (h : call.momentFor? key (Clock.read env.clock).1 = some m) :
    ⟨(r.operate call.operation env).1.1.single?, (r.next call.operation env).slots.find? key⟩ =
      m.effect prototype (r.slots.find? key) := by
  unfold next
  rcases Call.cases_of_momentFor?_eq_some h with
    ⟨usage, rfl, rfl⟩ | ⟨rfl, rfl⟩ | ⟨maxIdle, rfl, rfl⟩
  · rw [Call.operation]
    cases hread : (Clock.read env.clock).1 with
    | error error =>
      rw [operate_usage_of_read_eq_error r key usage hread, single?_failed]
      rfl
    | ok nanos =>
      rw [operate_usage_of_read_eq_ok (congrArg Factory.design hfactory) key usage hread,
        single?_serve, Table.find?_insert_self]
      rfl
  · have herased : (r.slots.erase key).find? key = none :=
      (r.slots.find?_erase key key).trans (if_pos rfl)
    rw [Call.operation, operate_remove, remove, herased]
    rfl
  · rw [Call.operation, operate_evictIdle]
    cases hread : (Clock.read env.clock).1 with
    | error error =>
      rw [r.evictIdle_of_read_eq_error maxIdle hread]
      rfl
    | ok nanos =>
      rw [r.evictIdle_of_read_eq_ok maxIdle hread, find?_keepAfter]
      rfl

end Step

/-! ### A run of calls -/

section Run

variable {r : Registry κ} {prototype : Throttle} {key : κ} {env : Ambient σ} {call : Call κ ρ}

theorem moments_cons_of_eq_none (h : call.momentFor? key (Clock.read env.clock).1 = none)
    (rest : List (Call κ ρ)) :
    r.moments key (call :: rest) env =
      (r.next call.operation env).moments key rest (r.operate call.operation env).2 := by
  rw [moments, h]

theorem moments_cons_of_eq_some {m : Moment ρ}
    (h : call.momentFor? key (Clock.read env.clock).1 = some m) (rest : List (Call κ ρ)) :
    r.moments key (call :: rest) env =
      m :: (r.next call.operation env).moments key rest (r.operate call.operation env).2 := by
  rw [moments, h]

/-- **A run.** What becomes of a key is what its moments make of what it has at first. -/
theorem effects_eq_life (hfactory : r.factory = .copying prototype) (key : κ)
    (calls : List (Call κ ρ)) (env : Ambient σ) :
    (r.effects key calls env, (r.after (calls.map Call.operation) env).1.slots.find? key) =
      life prototype (r.slots.find? key) (r.moments key calls env) := by
  induction calls generalizing r env with
  | nil => rfl
  | cons call rest ih =>
    have hfactory' : (r.next call.operation env).factory = .copying prototype := by
      rw [factory_next, hfactory]
    have hlater := ih hfactory' (r.operate call.operation env).2
    rw [List.map_cons, after, effects]
    have hconcerns := call.isSome_momentFor? key (Clock.read env.clock).1
    cases hm : call.momentFor? key (Clock.read env.clock).1 with
    | none =>
      rw [hm] at hconcerns
      have hother : call.concerns key = false := hconcerns.symm
      rw [find?_next_of_not_concerns r hother env] at hlater
      rw [moments_cons_of_eq_none hm, ← hlater, hother]
      rfl
    | some m =>
      rw [hm] at hconcerns
      have heffect := effect_of_momentFor?_eq_some hfactory hm
      have hslot := congrArg Effect.slot heffect
      dsimp only at hslot
      rw [hslot] at hlater
      rw [moments_cons_of_eq_some hm, life, ← hlater, ← heffect, ← hconcerns]
      rfl

end Run

end Registry

end AdmissionControl
