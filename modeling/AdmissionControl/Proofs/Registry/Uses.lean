import AdmissionControl.Proofs.Throttle.Design
import AdmissionControl.Registry

/-!
# What a use does to a key

The equations of the uses of a registry, for the case that there is a reading of the clock, and
what follows for a single key: a use of another key leaves it alone, and so does dropping keys as
long as it is not among them.
-/

namespace AdmissionControl

/-- The design of the throttles from a factory. -/
def Factory.design : Factory → Design
  | copying prototype => prototype.design
  | building blueprint => blueprint.design

theorem Factory.design_make {σ : Type} [Clock σ] (factory : Factory) (env : Ambient σ) :
    (factory.make env).1.design = factory.design := by
  cases factory with
  | copying prototype => rfl
  | building blueprint => exact blueprint.design_build env

namespace Registry

variable {κ σ : Type} [DecidableEq κ] [Clock σ]

/-! ### What a use finds -/

/-- A use of a key that is in use gets the throttle of the key. -/
theorem throttleFor_of_find?_eq_some {r : Registry κ} {key : κ} {slot : Slot}
    (h : r.slots.find? key = some slot) (nanos : Nat) (env : Ambient σ) :
    (r.throttleFor key nanos env).1 = slot.throttle := by
  unfold throttleFor
  rw [h]
  rfl

/-- A use of a key that is not in use gets a throttle from the factory, opened at the reading. -/
theorem throttleFor_of_find?_eq_none {r : Registry κ} {key : κ} (h : r.slots.find? key = none)
    (nanos : Nat) (env : Ambient σ) :
    let made := (r.factory.make env).1
    (r.throttleFor key nanos env).1 = made.resetAt (ticksAt nanos made.frequency) := by
  unfold throttleFor
  rw [h]
  rfl

/-- The throttle that a use of a key at a reading finds, where new throttles have the design of a
prototype. -/
def found (prototype : Throttle) (r : Registry κ) (key : κ) (nanos : Nat) : Throttle :=
  ((r.slots.find? key).map (·.throttle)).getD
    (prototype.resetAt (ticksAt nanos prototype.frequency))

/-- A use gets the throttle that it finds. -/
theorem throttleFor_eq_found {r : Registry κ} {prototype : Throttle}
    (hdesign : r.factory.design = prototype.design) (key : κ) (nanos : Nat) (env : Ambient σ) :
    (r.throttleFor key nanos env).1 = r.found prototype key nanos := by
  unfold found
  cases hslot : r.slots.find? key with
  | none =>
    have hmade : (r.factory.make env).1.design = prototype.design :=
      (r.factory.design_make env).trans hdesign
    rw [throttleFor_of_find?_eq_none hslot, Throttle.frequency_eq_of_design hmade,
      Throttle.resetAt_eq_of_design hmade]
    rfl
  | some slot => exact throttleFor_of_find?_eq_some hslot nanos env

/-- A use at a reading answers from the throttle of the key, and the key keeps what the use makes
of it. -/
theorem withThrottle_of_read_eq_ok {α : Type} (r : Registry κ) (key : κ)
    (use : Int → Throttle → Timed σ (α × Throttle)) {env : Ambient σ} {nanos : Nat}
    (hread : (Clock.read env.clock).1 = .ok nanos) :
    let made := r.throttleFor key nanos { env with clock := (Clock.read env.clock).2 }
    let used := use (ticksAt nanos made.1.frequency) made.1 made.2
    r.withThrottle key use env =
      ((.ok used.1.1, { r with slots := r.slots.insert key ⟨used.1.2, nanos⟩ }), used.2) := by
  simp only [withThrottle, Timed.bind_apply, Timed.readClock_apply, hread, Timed.pure_apply]

/-- A check at a reading is decided by the throttle of the key. -/
theorem checkUnits_of_read_eq_ok (r : Registry κ) (key : κ) (units : Nat) {env : Ambient σ}
    {nanos : Nat} (hread : (Clock.read env.clock).1 = .ok nanos) :
    let made := (r.throttleFor key nanos { env with clock := (Clock.read env.clock).2 }).1
    let offered := made.offer (ticksAt nanos made.frequency) units
    (r.checkUnits key units env).1 =
      (.ok offered.1, { r with slots := r.slots.insert key ⟨offered.2, nanos⟩ }) := by
  unfold checkUnits
  rw [withThrottle_of_read_eq_ok r key _ hread]
  rfl

/-- A key that has been checked has been given the decision of its throttle, and keeps what the
throttle is afterwards. -/
theorem offer_of_checkUnits_eq_ok {r r' : Registry κ} {key : κ} {units nanos : Nat}
    {env env' : Ambient σ} {decision : Decision} (hread : (Clock.read env.clock).1 = .ok nanos)
    (h : r.checkUnits key units env = ((.ok decision, r'), env')) :
    let t := (r.throttleFor key nanos { env with clock := (Clock.read env.clock).2 }).1
    let instant := ticksAt nanos t.frequency
    decision = (t.offer instant units).1 ∧
      r'.slots.find? key = some ⟨t.afterOffer instant units, nanos⟩ := by
  intro t instant
  have hcheck := checkUnits_of_read_eq_ok r key units hread
  rw [h] at hcheck
  obtain ⟨hdecision, hregistry⟩ := Prod.mk.inj hcheck
  refine ⟨Except.ok.inj hdecision, ?_⟩
  rw [hregistry]
  exact Table.find?_insert_self _ _ _

/-- A check of a key that is in use is decided by the throttle that it has. -/
theorem checkUnits_of_find?_eq_some {r : Registry κ} {key : κ} {slot : Slot}
    (hslot : r.slots.find? key = some slot) {env : Ambient σ} {nanos : Nat}
    (hread : (Clock.read env.clock).1 = .ok nanos) (units : Nat) :
    (r.checkUnits key units env).1.1 =
      .ok (slot.throttle.offer (ticksAt nanos slot.throttle.frequency) units).1 := by
  rw [checkUnits_of_read_eq_ok r key units hread, throttleFor_of_find?_eq_some hslot]

/-- A use changes nothing about where new throttles come from. -/
theorem factory_withThrottle {α : Type} (r : Registry κ) (key : κ)
    (use : Int → Throttle → Timed σ (α × Throttle)) (env : Ambient σ) :
    (r.withThrottle key use env).1.2.factory = r.factory := by
  cases hread : (Clock.read env.clock).1 with
  | error error => rw [withThrottle_of_read_eq_error r key use hread]
  | ok nanos => rw [withThrottle_of_read_eq_ok r key use hread]

/-- A use of a key leaves any other key as it is. -/
theorem find?_withThrottle_of_ne {α : Type} (r : Registry κ) {key other : κ} (hne : other ≠ key)
    (use : Int → Throttle → Timed σ (α × Throttle)) (env : Ambient σ) :
    (r.withThrottle key use env).1.2.slots.find? other = r.slots.find? other := by
  cases hread : (Clock.read env.clock).1 with
  | error error => rw [withThrottle_of_read_eq_error r key use hread]
  | ok nanos =>
    rw [withThrottle_of_read_eq_ok r key use hread]
    exact Table.find?_insert_of_ne _ hne _

/-! ### Dropping keys -/

omit [DecidableEq κ] in
/-- The keys that have been idle for too long are dropped, if there is a reading to tell, and it is
written down how many they are. -/
theorem evictIdle_apply_of_read_eq_ok (r : Registry κ) (maxIdle : Nat) {env : Ambient σ}
    {nanos : Nat} (hread : (Clock.read env.clock).1 = .ok nanos) :
    let kept := r.keepAfter (nanos - maxIdle)
    let removed := r.slots.size - kept.slots.size
    let log := if 0 < removed then env.log.push (.idleEvicted removed kept.slots.size) else env.log
    r.evictIdle maxIdle env = ((.ok removed, kept), ⟨(Clock.read env.clock).2, log⟩) := by
  intro kept removed log
  unfold log
  simp only [evictIdle, Timed.bind_apply, Timed.readClock_apply, hread]
  split <;> rfl

omit [DecidableEq κ] in
theorem evictIdle_of_read_eq_ok (r : Registry κ) (maxIdle : Nat) {env : Ambient σ} {nanos : Nat}
    (hread : (Clock.read env.clock).1 = .ok nanos) :
    (r.evictIdle maxIdle env).1 =
      (.ok (r.slots.size - (r.keepAfter (nanos - maxIdle)).slots.size),
        r.keepAfter (nanos - maxIdle)) := by
  rw [r.evictIdle_apply_of_read_eq_ok maxIdle hread]

omit [DecidableEq κ] in
/-- Nothing but the clock is changed if there is no reading. -/
theorem evictIdle_apply_of_read_eq_error (r : Registry κ) (maxIdle : Nat) {env : Ambient σ}
    {error : ClockError} (hread : (Clock.read env.clock).1 = .error error) :
    r.evictIdle maxIdle env =
      ((.error (.clock error), r), { env with clock := (Clock.read env.clock).2 }) := by
  simp only [evictIdle, Timed.bind_apply, Timed.readClock_apply, hread, Timed.pure_apply]

omit [DecidableEq κ] in
theorem evictIdle_of_read_eq_error (r : Registry κ) (maxIdle : Nat) {env : Ambient σ}
    {error : ClockError} (hread : (Clock.read env.clock).1 = .error error) :
    (r.evictIdle maxIdle env).1 = (.error (.clock error), r) := by
  rw [r.evictIdle_apply_of_read_eq_error maxIdle hread]

omit [DecidableEq κ] in
theorem factory_evictIdle (r : Registry κ) (maxIdle : Nat) (env : Ambient σ) :
    (r.evictIdle maxIdle env).1.2.factory = r.factory := by
  cases hread : (Clock.read env.clock).1 with
  | error error => rw [r.evictIdle_of_read_eq_error maxIdle hread]
  | ok nanos => rw [r.evictIdle_of_read_eq_ok maxIdle hread]; rfl

/-- A key is dropped for being idle, or keeps what it has. -/
theorem find?_evictIdle (r : Registry κ) (maxIdle : Nat) (env : Ambient σ) (key : κ) :
    (r.evictIdle maxIdle env).1.2.slots.find? key = r.slots.find? key ∨
      (r.evictIdle maxIdle env).1.2.slots.find? key = none := by
  cases hread : (Clock.read env.clock).1 with
  | error error =>
    left
    rw [r.evictIdle_of_read_eq_error maxIdle hread]
  | ok nanos =>
    rw [r.evictIdle_of_read_eq_ok maxIdle hread, find?_keepAfter]
    cases r.slots.find? key with
    | none => exact .inl rfl
    | some slot =>
      by_cases hrecent : nanos - maxIdle < slot.lastSeen
      · exact .inl (Option.filter_some_pos (decide_eq_true hrecent))
      · exact .inr (Option.filter_some_neg (decide_eq_false hrecent))

/-- A key is dropped by hand, or keeps what it has. -/
theorem find?_remove (r : Registry κ) (removed key : κ) :
    (r.remove removed).2.slots.find? key = r.slots.find? key ∨
      (r.remove removed).2.slots.find? key = none := by
  have herase : (r.remove removed).2.slots.find? key =
      if key = removed then none else r.slots.find? key :=
    r.slots.find?_erase removed key
  rw [herase]
  by_cases hkey : key = removed
  · exact .inr (if_pos hkey)
  · exact .inl (if_neg hkey)

/-- What is not dropped is as it was. -/
theorem forall_slot_of_find?_eq {P : Slot → Prop} {r r' : Registry κ} {key : κ}
    (h : ∀ slot, r.slots.find? key = some slot → P slot)
    (hfind : r'.slots.find? key = r.slots.find? key ∨ r'.slots.find? key = none) :
    ∀ slot, r'.slots.find? key = some slot → P slot := by
  intro slot hslot
  rcases hfind with hsame | hdropped
  · exact h slot (hsame.symm.trans hslot)
  · cases hdropped.symm.trans hslot

end Registry

end AdmissionControl
