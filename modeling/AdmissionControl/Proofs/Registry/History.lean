import AdmissionControl.Proofs.Registry.Uses
import AdmissionControl.Proofs.Throttle.Checks

/-!
# Histories of a registry

A registry is used over time, by whoever shares it and on whatever keys. `Registry.operate` does
one `Registry.Operation`. `Registry.history` lists what became of the operations of a run, each with
the reading of the clock that it had before it, and `Registry.after` is the registry at the end.

The point of a registry is that the throttle of a key answers as if it were alone.
What one operation does to a key is said once, in `Registry.check?_recordOf`. `Registry.checksOf`
picks the checks of one key out of a history, and as long as the key is only checked and stays in
use, `Registry.decides_checksOf` says that they are decided by one throttle that is used for nothing
else, opened at the first of them if the key is new.
-/

namespace AdmissionControl

namespace Registry

/-! ### Operations -/

/-- A use of a registry. -/
inductive Operation (κ σ ρ : Type)
  /-- To offer an event of some units to the throttle of a key. -/
  | offer (key : κ) (units : Nat)
  /-- To use the throttle of a key in some other way. -/
  | apply (key : κ) (use : Int → Throttle → Timed σ (ρ × Throttle))
  /-- To drop a key. -/
  | remove (key : κ)
  /-- To drop the keys that have been idle for some time. -/
  | evictIdle (maxIdle : Nat)

/-- What became of an operation. -/
inductive Outcome (ρ : Type)
  | decided (result : Except Fault Decision)
  | applied (result : Except Fault ρ)
  | removed (throttle : Option Throttle)
  | evicted (result : Except Fault Nat)

/-- What there is to tell about one operation. -/
structure Record (κ σ ρ : Type) where
  operation : Operation κ σ ρ
  /-- What a clock that is read at that moment gives. -/
  reading : Except ClockError Nat
  outcome : Outcome ρ

variable {κ σ ρ : Type} [DecidableEq κ] [Clock σ]

def operate (r : Registry κ) : Operation κ σ ρ → Timed σ (Outcome ρ × Registry κ)
  | .offer key units => do
    let (result, r') ← r.checkUnits key units
    return (.decided result, r')
  | .apply key use => do
    let (result, r') ← r.withThrottle key use
    return (.applied result, r')
  | .remove key => return (.removed (r.remove key).1, (r.remove key).2)
  | .evictIdle maxIdle => do
    let (result, r') ← r.evictIdle maxIdle
    return (.evicted result, r')

section Operate

variable (r : Registry κ) (key : κ) (env : Ambient σ)

@[simp] theorem operate_offer (units : Nat) :
    r.operate (.offer key units : Operation κ σ ρ) env =
      ((.decided (r.checkUnits key units env).1.1, (r.checkUnits key units env).1.2),
        (r.checkUnits key units env).2) := rfl

@[simp] theorem operate_apply (use : Int → Throttle → Timed σ (ρ × Throttle)) :
    r.operate (.apply key use) env =
      ((.applied (r.withThrottle key use env).1.1, (r.withThrottle key use env).1.2),
        (r.withThrottle key use env).2) := rfl

@[simp] theorem operate_remove :
    r.operate (.remove key : Operation κ σ ρ) env =
      ((.removed (r.remove key).1, (r.remove key).2), env) := rfl

@[simp] theorem operate_evictIdle (maxIdle : Nat) :
    r.operate (.evictIdle maxIdle : Operation κ σ ρ) env =
      ((.evicted (r.evictIdle maxIdle env).1.1, (r.evictIdle maxIdle env).1.2),
        (r.evictIdle maxIdle env).2) := rfl

end Operate

def next (r : Registry κ) (op : Operation κ σ ρ) (env : Ambient σ) : Registry κ :=
  (r.operate op env).1.2

def recordOf (r : Registry κ) (op : Operation κ σ ρ) (env : Ambient σ) : Record κ σ ρ :=
  ⟨op, (Clock.read env.clock).1, (r.operate op env).1.1⟩

/-- The records of the operations of a run. -/
def history (r : Registry κ) : List (Operation κ σ ρ) → Ambient σ → List (Record κ σ ρ)
  | [], _ => []
  | op :: rest, env => r.recordOf op env :: (r.next op env).history rest (r.operate op env).2

/-- The registry after a run of operations, and what is around it then. -/
def after (r : Registry κ) : List (Operation κ σ ρ) → Ambient σ → Registry κ × Ambient σ
  | [], env => (r, env)
  | op :: rest, env => (r.next op env).after rest (r.operate op env).2

omit [Clock σ] in
/-- The check of a key that a record tells of, if it does and there was a reading. -/
def Record.check? (key : κ) : Record κ σ ρ → Option Check
  | ⟨.offer k units, .ok nanos, .decided (.ok decision)⟩ =>
    if k = key then some ⟨nanos, units, decision⟩ else none
  | _ => none

/-- The checks of a key in a history. -/
def checksOf (key : κ) (records : List (Record κ σ ρ)) : List Check :=
  records.filterMap (Record.check? key)

/-- The operation uses a key in some other way than to check it. -/
def Operation.applies (key : κ) : Operation κ σ ρ → Prop
  | .apply k _ => k = key
  | _ => False

instance (key : κ) : (op : Operation κ σ ρ) → Decidable (op.applies key)
  | .apply k _ => inferInstanceAs (Decidable (k = key))
  | .offer _ _ | .remove _ | .evictIdle _ => inferInstanceAs (Decidable False)

/-- In a run of operations a key is only checked, and once it is in use it is not dropped. -/
def Undisturbed (key : κ) (r : Registry κ) : List (Operation κ σ ρ) → Ambient σ → Prop
  | [], _ => True
  | op :: rest, env =>
    ¬ op.applies key ∧ (r.contains key = true → (r.next op env).contains key = true) ∧
      (r.next op env).Undisturbed key rest (r.operate op env).2

instance decidableUndisturbed (key : κ) : (ops : List (Operation κ σ ρ)) → (r : Registry κ) →
    (env : Ambient σ) → Decidable (r.Undisturbed key ops env)
  | [], _, _ => inferInstanceAs (Decidable True)
  | op :: rest, r, env =>
    have := decidableUndisturbed key rest (r.next op env) (r.operate op env).2
    inferInstanceAs (Decidable (_ ∧ _ ∧ _))

/-! ### One operation -/

/-- No operation changes where new throttles come from. -/
theorem factory_next (r : Registry κ) (op : Operation κ σ ρ) (env : Ambient σ) :
    (r.next op env).factory = r.factory := by
  cases op with
  | offer key units =>
    exact r.factory_withThrottle key (fun instant t => pure (t.offer instant units)) env
  | apply key use => exact r.factory_withThrottle key use env
  | remove key => rfl
  | evictIdle maxIdle => exact r.factory_evictIdle maxIdle env

/-- A check of a key without a reading is none, and changes nothing. -/
theorem operate_offer_of_read_eq_error (r : Registry κ) (key : κ) (units : Nat) {env : Ambient σ}
    {error : ClockError} (hread : (Clock.read env.clock).1 = .error error) :
    (r.operate (.offer key units : Operation κ σ ρ) env).1 =
      (.decided (.error (.clock error)), r) := by
  rw [operate_offer]
  unfold checkUnits
  rw [withThrottle_of_read_eq_error r key _ hread]

/-- A check of a key at a reading is decided by the throttle of the key. -/
theorem operate_offer_of_read_eq_ok (r : Registry κ) (key : κ) (units : Nat) {env : Ambient σ}
    {nanos : Nat} (hread : (Clock.read env.clock).1 = .ok nanos) :
    let t := (r.throttleFor key nanos { env with clock := (Clock.read env.clock).2 }).1
    let offered := t.offer (ticksAt nanos t.frequency) units
    (r.operate (.offer key units : Operation κ σ ρ) env).1 =
      (.decided (.ok offered.1), { r with slots := r.slots.insert key ⟨offered.2, nanos⟩ }) := by
  rw [operate_offer, checkUnits_of_read_eq_ok r key units hread]

/-- **One operation.** If a key is not used otherwise, an operation is a check of the key that its
throttle decides, or it leaves the key as it is, or it drops the key. -/
theorem check?_recordOf (r : Registry κ) {key : κ} {op : Operation κ σ ρ} (env : Ambient σ)
    (happlies : ¬ op.applies key) :
    ((r.recordOf op env).check? key = none ∧
        ((r.next op env).slots.find? key = r.slots.find? key ∨
          (r.next op env).slots.find? key = none)) ∨
      ∃ c, (r.recordOf op env).check? key = some c ∧
        let t := (r.throttleFor key c.nanos { env with clock := (Clock.read env.clock).2 }).1
        c.decision = (t.offer (ticksAt c.nanos t.frequency) c.units).1 ∧
          (r.next op env).slots.find? key = some ⟨t.afterCheck c, c.nanos⟩ := by
  cases op with
  | offer k units =>
    cases hread : (Clock.read env.clock).1 with
    | error error =>
      left
      unfold recordOf next
      rw [operate_offer_of_read_eq_error r k units hread, hread]
      exact ⟨rfl, .inl rfl⟩
    | ok nanos =>
      unfold recordOf next
      rw [operate_offer_of_read_eq_ok r k units hread, hread]
      by_cases hk : k = key
      · right
        subst hk
        exact ⟨_, if_pos rfl, rfl, Table.find?_insert_self _ _ _⟩
      · left
        exact ⟨if_neg hk, .inl (Table.find?_insert_of_ne _ (Ne.symm hk) _)⟩
  | apply k use =>
    left
    exact ⟨rfl, .inl (r.find?_withThrottle_of_ne (Ne.symm happlies) use env)⟩
  | remove k =>
    left
    exact ⟨rfl, r.find?_remove k key⟩
  | evictIdle maxIdle =>
    left
    exact ⟨rfl, r.find?_evictIdle maxIdle env key⟩

/-- What is not dropped although it may be is kept as it is. -/
theorem find?_eq_of_contains {r r' : Registry κ} {key : κ}
    (h : r'.slots.find? key = r.slots.find? key ∨ r'.slots.find? key = none)
    (hkept : r.contains key = true → r'.contains key = true) :
    r'.slots.find? key = r.slots.find? key := by
  rcases h with hsame | hnone
  · exact hsame
  · unfold contains Table.contains at hkept
    rw [hnone] at hkept ⊢
    cases hslot : r.slots.find? key with
    | none => rfl
    | some slot =>
      rw [hslot] at hkept
      exact absurd (hkept rfl) (by decide)

/-! ### A run of operations -/

theorem factory_after (r : Registry κ) (ops : List (Operation κ σ ρ)) (env : Ambient σ) :
    (r.after ops env).1.factory = r.factory := by
  induction ops generalizing r env with
  | nil => rfl
  | cons op rest ih => exact (ih _ _).trans (r.factory_next op env)

theorem checksOf_history_of_eq_none {r : Registry κ} {key : κ} {op : Operation κ σ ρ}
    {env : Ambient σ} (h : (r.recordOf op env).check? key = none) (rest : List (Operation κ σ ρ)) :
    checksOf key (r.history (op :: rest) env) =
      checksOf key ((r.next op env).history rest (r.operate op env).2) :=
  List.filterMap_cons_none h

theorem checksOf_history_of_eq_some {r : Registry κ} {key : κ} {op : Operation κ σ ρ}
    {env : Ambient σ} {c : Check} (h : (r.recordOf op env).check? key = some c)
    (rest : List (Operation κ σ ρ)) :
    checksOf key (r.history (op :: rest) env) =
      c :: checksOf key ((r.next op env).history rest (r.operate op env).2) :=
  List.filterMap_cons_some h

/-- **A run.** The checks of a key that is undisturbed are decided by one throttle, that which a use
finds at the time of the first of them. -/
theorem decides_checksOf {r : Registry κ} {prototype : Throttle}
    (hdesign : r.factory.design = prototype.design) {key : κ} {ops : List (Operation κ σ ρ)}
    {env : Ambient σ} (h : r.Undisturbed key ops env) {c : Check} {rest : List Check}
    (hchecks : checksOf key (r.history ops env) = c :: rest) :
    (r.found prototype key c.nanos).Decides (c :: rest) := by
  induction ops generalizing r env c rest with
  | nil => simp [history, checksOf] at hchecks
  | cons op ops ih =>
    obtain ⟨happlies, hkept, hlater⟩ := h
    have hdesign' : (r.next op env).factory.design = prototype.design := by
      rw [factory_next, hdesign]
    rcases r.check?_recordOf env happlies with ⟨hnone, hrest⟩ | ⟨c', hsome, hdecision, hfind⟩
    · have hfind := find?_eq_of_contains hrest hkept
      rw [checksOf_history_of_eq_none hnone] at hchecks
      have hdecides := ih hdesign' hlater hchecks
      unfold found at hdecides ⊢
      rwa [hfind] at hdecides
    · rw [throttleFor_eq_found hdesign] at hdecision hfind
      rw [checksOf_history_of_eq_some hsome] at hchecks
      obtain ⟨rfl, hrest⟩ := List.cons.inj hchecks
      refine ⟨hdecision, ?_⟩
      cases rest with
      | nil => trivial
      | cons c₂ rest =>
        -- the next check finds what this one has left
        have hdecides := ih hdesign' hlater hrest
        unfold found at hdecides
        rwa [hfind] at hdecides

end Registry

end AdmissionControl
