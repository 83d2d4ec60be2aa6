import AdmissionControl.Proofs.Registry.ContractEnforcement
import AdmissionControl.Proofs.Registry.FreshStart
import AdmissionControl.Proofs.Registry.Independence
import AdmissionControl.Proofs.Throttle.Drained

/-!
# Dropping drained keys

A registry that drops a key forgets how it has been used, and the next use of the key opens a new
throttle. This goes unnoticed if the old throttle has nothing left to tell: if all of its engines
have worked off by the next check of the key what they had taken in, be it forced in or not
(`Registry.dropping_drained_key_unnoticed`). Before that check the two throttles are not the same,
but the check makes them one, and with them the lives of the key
(`Registry.life_eq_life_of_offer_eq`).

Of the throttle that is dropped it has to be known that it is still built like a new one and that
its debts are spans, however it has been used (`Registry.RegularAt.after`). If the key has only been
checked, for one unit each time, the time since its last admitted check tells how much there can be
left to work off (`Registry.OwesSince.after`).
-/

namespace AdmissionControl

namespace Registry

variable {κ σ ρ : Type} [DecidableEq κ]

/-! ### What is done with a key -/

/-- Whatever the operation does to the throttle of a key, it only asks it for something. -/
def Operation.ByInterface [Clock σ] (key : κ) : Operation κ σ ρ → Prop
  | .apply k use => k = key → ∀ instant t env, ∃ requests, ∃ env' : Ambient σ,
    (use instant t env).1.2 = (t.serveAll requests env').1.2
  | .offer _ _ | .remove _ | .evictIdle _ => True

/-- If the operation uses a key, it is to check it for a single unit. -/
def Operation.ChecksOnce (key : κ) : Operation κ σ ρ → Prop
  | .offer k units => k = key → units = 1
  | .apply k _ => k ≠ key
  | .remove _ | .evictIdle _ => True

omit [DecidableEq κ] in
theorem Operation.ChecksOnce.not_applies {key : κ} {op : Operation κ σ ρ} (h : op.ChecksOnce key) :
    ¬ op.applies key := by
  cases op with
  | apply k use => exact h
  | offer _ _ | remove _ | evictIdle _ => exact id

/-- The throttle of a key is regular, if the key is in use. -/
def RegularAt (prototype : Throttle) (key : κ) (r : Registry κ) : Prop :=
  ∀ slot, r.slots.find? key = some slot → prototype.Regular slot.throttle

section Regular

variable [Clock σ] {r : Registry κ} {prototype : Throttle} {key : κ}

omit [Clock σ] in
/-- What a use of a key finds is regular, be the key new or not. -/
theorem RegularAt.found (h : r.RegularAt prototype key) (nanos : Nat) :
    prototype.Regular (r.found prototype key nanos) := by
  unfold Registry.found
  cases hslot : r.slots.find? key with
  | none => exact .resetAt prototype _
  | some slot => exact h slot hslot

theorem RegularAt.withThrottle (h : r.RegularAt prototype key)
    (hfactory : r.factory = .copying prototype) {α : Type} {k : κ}
    (use : Int → Throttle → Timed σ (α × Throttle))
    (huse : k = key → ∀ instant t env, prototype.Regular t →
      prototype.Regular (use instant t env).1.2) (env : Ambient σ) :
    (r.withThrottle k use env).1.2.RegularAt prototype key := by
  intro slot hslot
  by_cases hk : k = key
  · subst hk
    cases hread : (Clock.read env.clock).1 with
    | error error =>
      rw [withThrottle_of_read_eq_error r k use hread] at hslot
      exact h slot hslot
    | ok nanos =>
      rw [withThrottle_of_read_eq_ok r k use hread] at hslot
      cases (Table.find?_insert_self _ _ _).symm.trans hslot
      dsimp only
      rw [throttleFor_eq_found (congrArg Factory.design hfactory)]
      exact huse rfl _ _ _ (h.found nanos)
  · rw [find?_withThrottle_of_ne r (Ne.symm hk)] at hslot
    exact h slot hslot

/-- **One operation.** -/
theorem RegularAt.next (h : r.RegularAt prototype key) (hfactory : r.factory = .copying prototype)
    {op : Operation κ σ ρ} (hop : op.ByInterface key) (env : Ambient σ) :
    (r.next op env).RegularAt prototype key := by
  cases op with
  | offer k units =>
    exact h.withThrottle hfactory (fun instant t => pure (t.offer instant units))
      (fun _ instant _ _ ht => ht.afterOffer instant units) env
  | apply k use =>
    refine h.withThrottle hfactory use (fun hk instant t env ht => ?_) env
    obtain ⟨requests, env', hserved⟩ := hop hk instant t env
    rw [hserved]
    exact ht.serveAll requests env'
  | remove k => exact forall_slot_of_find?_eq h (r.find?_remove k key)
  | evictIdle maxIdle => exact forall_slot_of_find?_eq h (r.find?_evictIdle maxIdle env key)

/-- **A run.** -/
theorem RegularAt.after (h : r.RegularAt prototype key) (hfactory : r.factory = .copying prototype)
    {ops : List (Operation κ σ ρ)} (hops : ∀ op ∈ ops, op.ByInterface key) (env : Ambient σ) :
    (r.after ops env).1.RegularAt prototype key := by
  induction ops generalizing r env with
  | nil => exact h
  | cons op rest ih =>
    obtain ⟨hop, hrest⟩ := List.forall_mem_cons.mp hops
    have hfactory' : (r.next op env).factory = .copying prototype := by rw [factory_next, hfactory]
    exact ih (h.next hfactory hop env) hfactory' hrest _

end Regular

/-! ### The last check that was admitted -/

/-- The last admitted check of a key in a history, if there is one. -/
def lastAdmitted? (key : κ) (records : List (Record κ σ ρ)) : Option Check :=
  ((checksOf key records).filter Check.isAdmitted).getLast?

theorem lastAdmitted?_cons (key : κ) (record : Record κ σ ρ) (later : List (Record κ σ ρ)) :
    lastAdmitted? key (record :: later) =
      (lastAdmitted? key later).or (lastAdmitted? key [record]) := by
  have hsplit : checksOf key (record :: later) = checksOf key [record] ++ checksOf key later :=
    List.filterMap_append (l := [record])
  rw [lastAdmitted?, hsplit, List.filter_append, List.getLast?_append]
  rfl

section LastAdmitted

variable [Clock σ] {r : Registry κ} {prototype : Throttle} {key : κ}

omit [Clock σ] in
/-- A check that a record tells of is one for its units. -/
theorem operation_eq_of_check?_eq_some {record : Record κ σ ρ} {c : Check}
    (h : record.check? key = some c) : record.operation = .offer key c.units := by
  unfold Record.check? at h
  split at h
  · obtain ⟨rfl, hc⟩ := Option.ite_none_right_eq_some.mp h
    cases hc
    rfl
  · cases h

/-- If a key is in use, its throttle has no more to work off than what the last of some checks has
left. -/
def OwesSince (key : κ) (r : Registry κ) (last? : Option Check) : Prop :=
  ∀ slot, r.slots.find? key = some slot → slot.throttle.OwesSince last?

/-- **One operation.** -/
theorem OwesSince.next {last? : Option Check} (h : r.OwesSince key last?)
    (hfactory : r.factory = .copying prototype) {op : Operation κ σ ρ} (hop : op.ChecksOnce key)
    (env : Ambient σ) :
    (r.next op env).OwesSince key ((lastAdmitted? key [r.recordOf op env]).or last?) := by
  intro slot hslot
  rcases r.check?_recordOf env hop.not_applies with ⟨hnone, hfind⟩ | ⟨c, hsome, hdecision, hfind⟩
  · have hno : lastAdmitted? key [r.recordOf op env] = none := by
      rw [lastAdmitted?, checksOf, List.filterMap_cons_none hnone]
      rfl
    rw [hno]
    exact forall_slot_of_find?_eq h hfind slot hslot
  · have hunits : c.units = 1 := by
      have hoffer : op = .offer key c.units := operation_eq_of_check?_eq_some hsome
      rw [hoffer] at hop
      exact hop rfl
    have hchecks : checksOf key [r.recordOf op env] = [c] := List.filterMap_cons_some hsome
    rw [throttleFor_eq_found (congrArg Factory.design hfactory)] at hdecision hfind
    cases hfind.symm.trans hslot
    rw [lastAdmitted?, hchecks]
    refine Throttle.owesSince_afterCheck hdecision hunits fun hearly => ?_
    -- the first check of a new key is admitted, so an early one finds the throttle of the key
    cases hkey : r.slots.find? key with
    | none => exact absurd (delayAt_found_of_find?_eq_none hkey _ _) hearly
    | some slot =>
      unfold found
      rw [hkey]
      exact h slot hkey

/-- **A run.** -/
theorem OwesSince.after {last? : Option Check} (h : r.OwesSince key last?)
    (hfactory : r.factory = .copying prototype) {ops : List (Operation κ σ ρ)}
    (hops : ∀ op ∈ ops, op.ChecksOnce key) (env : Ambient σ) :
    (r.after ops env).1.OwesSince key ((lastAdmitted? key (r.history ops env)).or last?) := by
  induction ops generalizing r env last? with
  | nil => exact h
  | cons op rest ih =>
    obtain ⟨hop, hrest⟩ := List.forall_mem_cons.mp hops
    have hfactory' : (r.next op env).factory = .copying prototype := by rw [factory_next, hfactory]
    rw [history, lastAdmitted?_cons, Option.or_assoc]
    exact ih (h.next hfactory hop env) hfactory' hrest _

end LastAdmitted

/-! ### What becomes of a key that has been dropped -/

section Merge

variable {prototype : Throttle} {slot : Slot} {moments : List (Moment ρ)} {nanos units : Nat}
  {later : List (Nat × Usage ρ)}

/-- **The first offer makes the two one.** If the first event that is offered to a key is dealt with
by the throttle of the key as by a new one, the key fares as it would if it had been dropped. -/
theorem life_eq_life_of_offer_eq
    (hnext : moments.filterMap Moment.turn? = (nanos, .offer units) :: later)
    (hoffer : let opened := prototype.resetAt (ticksAt nanos prototype.frequency)
      opened.offer (ticksAt nanos opened.frequency) units =
        slot.throttle.offer (ticksAt nanos slot.throttle.frequency) units) :
    (life prototype (some slot) moments).1.filterMap Effect.served? =
        (life prototype none moments).1.filterMap Effect.served? ∧
      (life prototype (some slot) moments).2 = (life prototype none moments).2 := by
  induction moments with
  | nil => cases hnext
  | cons m rest ih =>
    cases hturn : m.turn? with
    | none =>
      rw [List.filterMap_cons_none hturn] at hnext
      obtain ⟨hserved, hslot⟩ := Moment.effect_of_turn?_eq_none hturn prototype (some slot)
      obtain ⟨hserved', hslot'⟩ := Moment.effect_of_turn?_eq_none hturn prototype none
      rw [or_self] at hslot'
      rw [life, life, hslot']
      dsimp only
      rw [List.filterMap_cons_none hserved, List.filterMap_cons_none hserved']
      -- before the first offer the key may be dropped once more, which leaves no difference
      rcases hslot with hkept | hdropped
      · rw [hkept]
        exact ih hnext
      · rw [hdropped]
        exact ⟨rfl, rfl⟩
    | some turn =>
      rw [List.filterMap_cons_some hturn] at hnext
      cases (List.cons.inj hnext).1
      cases Moment.eq_of_turn?_eq_some hturn
      have heffect : (Moment.used (.offer units : Usage ρ) (.ok nanos)).effect prototype none =
          (Moment.used (.offer units) (.ok nanos)).effect prototype (some slot) :=
        congrArg (fun offered => Effect.mk (some (.decided (.ok offered.1)))
          (some ⟨offered.2, nanos⟩)) hoffer
      rw [life, life, heffect]
      exact ⟨rfl, rfl⟩

end Merge

/-- Nobody can tell two registries apart by a key to which certain things happen: all uses of the
key have the same outcomes, and the key has the same at the end. -/
def Indistinguishable (key : κ) (r r' : Registry κ) (moments : List (Moment ρ)) : Prop :=
  ∀ (σ σ' : Type) [Clock σ] [Clock σ'] (calls calls' : List (Call κ ρ)) (env : Ambient σ)
    (env' : Ambient σ'), r.moments key calls env = moments → r'.moments key calls' env' = moments →
      (r.effects key calls env).filterMap Effect.served? =
          (r'.effects key calls' env').filterMap Effect.served? ∧
        (r.after (calls.map Call.operation) env).1.slots.find? key =
          (r'.after (calls'.map Call.operation) env').1.slots.find? key

/-- **A drained key.** -/
theorem indistinguishable_of_drainedAt {r r' : Registry κ} {prototype : Throttle} {key : κ}
    {slot : Slot} {moments : List (Moment ρ)} {nanos units : Nat} {later : List (Nat × Usage ρ)}
    (hfactory : r.factory = .copying prototype) (hfactory' : r'.factory = .copying prototype)
    (hfree : prototype.BackoffFree) (hslot : r.slots.find? key = some slot)
    (hdesign : slot.throttle.design = prototype.design) (hslot' : r'.slots.find? key = none)
    (hnext : moments.filterMap Moment.turn? = (nanos, .offer units) :: later)
    (hdrained : slot.throttle.DrainedAt (ticksAt nanos slot.throttle.frequency)) :
    r.Indistinguishable key r' moments := by
  have hticks := Throttle.frequency_eq_of_design hdesign
  have hfree' : slot.throttle.BackoffFree := hfree.of_design hdesign
  have hoffer : let opened := prototype.resetAt (ticksAt nanos prototype.frequency)
      opened.offer (ticksAt nanos opened.frequency) units =
        slot.throttle.offer (ticksAt nanos slot.throttle.frequency) units := by
    intro opened
    have hopened : opened = slot.throttle.resetAt (ticksAt nanos slot.throttle.frequency) := by
      rw [Throttle.resetAt_eq_of_design hdesign, hticks]
    rw [hopened, Throttle.frequency_resetAt]
    exact hdrained.offer_resetAt hfree' (inRange_ticksAt nanos slot.throttle.frequency) units
  obtain ⟨houtcomes, hlast⟩ := life_eq_life_of_offer_eq hnext hoffer
  intro σ σ' _ _ calls calls' env env' hmoments hmoments'
  have hlife := effects_eq_life hfactory key calls env
  have hlife' := effects_eq_life hfactory' key calls' env'
  rw [hslot, hmoments] at hlife
  rw [hslot', hmoments'] at hlife'
  rw [← hlife, ← hlife'] at houtcomes hlast
  exact ⟨houtcomes, hlast⟩

/-! ### Registries for a contract -/

section Built

variable [Clock σ] {charging : Charging} {c : Contract} {start env₀ env : Ambient σ}
  {r₀ r : Registry κ} {key : κ} {ops : List (Operation κ σ ρ)} {slot : Slot}

omit [DecidableEq κ] in
theorem factory_of_ofContract_eq (hbuilt : ofContract charging c start = (r₀, env₀)) :
    r₀.factory = .copying (.shaper charging (Shaper.build charging.resolution c start).1) := by
  have hr₀ : r₀ = (ofContract charging c start).1 := by rw [hbuilt]
  rw [hr₀, factory_ofContract]

theorem find?_of_ofContract_eq (hbuilt : ofContract charging c start = (r₀, env₀)) (key : κ) :
    r₀.slots.find? key = none := by
  have hr₀ : r₀ = (ofContract charging c start).1 := by rw [hbuilt]
  rw [hr₀]
  rfl

/-- However a key has been used, its throttle is regular. -/
theorem regular_of_ofContract_eq (hbuilt : ofContract charging c start = (r₀, env₀))
    (hops : ∀ op ∈ ops, op.ByInterface key) (hreached : r₀.after ops env₀ = (r, env))
    (hslot : r.slots.find? key = some slot) :
    (Throttle.shaper charging (Shaper.build charging.resolution c start).1).Regular
      slot.throttle := by
  have hnone : r₀.RegularAt (.shaper charging (Shaper.build charging.resolution c start).1) key :=
    fun slot hslot => by cases (find?_of_ofContract_eq hbuilt key).symm.trans hslot
  have hafter := hnone.after (factory_of_ofContract_eq hbuilt) hops env₀
  rw [hreached] at hafter
  exact hafter slot hslot

/-- If a key has only been checked, for one unit each time, the last admitted check tells what its
throttle may have to work off. -/
theorem owesSince_of_ofContract_eq (hbuilt : ofContract charging c start = (r₀, env₀))
    (hops : ∀ op ∈ ops, op.ChecksOnce key) (hreached : r₀.after ops env₀ = (r, env))
    (hslot : r.slots.find? key = some slot) :
    slot.throttle.OwesSince (lastAdmitted? key (r₀.history ops env₀)) := by
  have hnone : r₀.OwesSince key none :=
    fun slot hslot => by cases (find?_of_ofContract_eq hbuilt key).symm.trans hslot
  have hafter := hnone.after (factory_of_ofContract_eq hbuilt) hops env₀
  rw [hreached, Option.or_none] at hafter
  exact hafter slot hslot

end Built

/-- **Dropping a drained key goes unnoticed.** In a registry that has been built for a contract, let
a key be used in any way, and then be dropped. If its next use is a check at a reading by which each
engine of its throttle has worked off all that it had taken in, counted from the last event that it
took in or from one increment before it was opened, that check and all later uses have the outcomes
that they would have had if the key had not been dropped, and the key has the same afterwards. If
the key had only been checked, for one unit each time, there has been an admitted check, and it is
enough that since the last of them at least the limit and the increment of each engine have
passed. -/
theorem dropping_drained_key_unnoticed [Clock σ] {charging : Charging} {c : Contract}
    {start env₀ env : Ambient σ} {r₀ r : Registry κ}
    (hbuilt : ofContract charging c start = (r₀, env₀)) {key : κ} {ops : List (Operation κ σ ρ)}
    (hops : ∀ op ∈ ops, op.ByInterface key) (hreached : r₀.after ops env₀ = (r, env)) {slot : Slot}
    (hslot : r.slots.find? key = some slot) {drop : Operation κ σ ρ}
    (hdropped : (r.next drop env).slots.find? key = none) {ρ' : Type} {moments : List (Moment ρ')}
    {nanos units : Nat} {later : List (Nat × Usage ρ')}
    (hnext : moments.filterMap Moment.turn? = (nanos, .offer units) :: later) :
    let frequency := slot.throttle.frequency
    (slot.throttle.ForallEngines (fun e => e.last + e.debt ≤ ticksAt nanos frequency) →
        r.Indistinguishable key (r.next drop env) moments) ∧
      ((∀ op ∈ ops, op.ChecksOnce key) →
        ∃ last, lastAdmitted? key (r₀.history ops env₀) = some last ∧
          (slot.throttle.ForallEngines (fun e =>
              e.pace.limit + e.pace.increment ≤
                ticksAt nanos frequency - ticksAt last.nanos frequency) →
            r.Indistinguishable key (r.next drop env) moments)) := by
  intro frequency
  have hfactory : r.factory =
      .copying (.shaper charging (Shaper.build charging.resolution c start).1) := by
    have hsame := r₀.factory_after ops env₀
    rw [hreached] at hsame
    exact hsame.trans (factory_of_ofContract_eq hbuilt)
  have hfactory' := (r.factory_next drop env).trans hfactory
  have hregular := regular_of_ofContract_eq hbuilt hops hreached hslot
  have hdrained : slot.throttle.ForallEngines (fun e => e.target ≤ ticksAt nanos frequency) →
      r.Indistinguishable key (r.next drop env) moments := by
    intro htarget
    exact indistinguishable_of_drainedAt hfactory hfactory'
      (Throttle.backoffFree_shaper charging _) hslot hregular.design hdropped hnext
      fun charging e he => ⟨(hregular.sound charging e he).committed, htarget charging e he⟩
  refine ⟨hdrained, fun honce => ?_⟩
  obtain ⟨last, hlast, howes⟩ := owesSince_of_ofContract_eq hbuilt honce hreached hslot
  refine ⟨last, hlast, fun hpassed => hdrained ?_⟩
  intro charging e he
  have htarget : e.target ≤ ticksAt last.nanos frequency + e.pace.limit + e.pace.increment :=
    howes charging e he
  have htime : e.pace.limit + e.pace.increment ≤
      ticksAt nanos frequency - ticksAt last.nanos frequency := hpassed charging e he
  change e.target ≤ ticksAt nanos frequency
  omega

/-- Two keys are dropped for being idle. Two events of the first one had been forced in, the last of
them early for both engines, and the second one had only been checked. When they are checked again
all that has been worked off, and the check after that is rejected as it would have been. -/
theorem dropping_drained_key_unnoticed_of_two_keys :
    let built : Registry Nat × Ambient ScriptedClock :=
      ofContract .perEvent (.variableRate 1000 500 400 3) { clock := { step := 600000 } }
    let forced (instant : Int) : List Directed :=
      [⟨[], .act (.examine instant)⟩, ⟨[], .act .commit⟩]
    let ops : List (Operation Nat ScriptedClock Unit) :=
      [.offer 0 1, .apply 0 fun instant t => do
        let served ← t.serveAll (forced instant ++ forced instant)
        return ((), served.2), .offer 1 1]
    let reached := built.1.after ops built.2
    let dropped := reached.1.next (.evictIdle 100000 : Operation Nat ScriptedClock Unit) reached.2
    let outcomes (r : Registry Nat) (key : Nat) : List (Outcome Unit) :=
      (r.effects key [.evictIdle 8000000, .use key (.offer 1), .use key (.offer 1)]
        ⟨Replay.mk [.ok 9000000, .ok 9300000, .ok 9600000], #[]⟩).filterMap Effect.served?
    let decision? : Outcome Unit → Option Decision
      | .decided result => result.toOption
      | _ => none
    (reached.1.slots.find? 0).map (·.throttle.isAlarmed) = some true ∧ dropped.isEmpty = true ∧
      outcomes reached.1 0 = outcomes dropped 0 ∧ outcomes reached.1 1 = outcomes dropped 1 ∧
      (outcomes dropped 0).map decision? =
        [some ⟨true, 0, none, false⟩, some ⟨false, 200, some ⟨200000⟩, false⟩] := by
  intro built forced ops reached dropped outcomes decision?
  have hbuilt : ofContract .perEvent (.variableRate 1000 500 400 3)
      { clock := { step := 600000 } } = (built.1, built.2) := rfl
  have hreached : built.1.after ops built.2 = (reached.1, reached.2) := rfl
  have hops : ∀ key, ∀ op ∈ ops, op.ByInterface key := by
    intro key op hop
    simp only [ops, List.mem_cons, List.not_mem_nil, or_false] at hop
    rcases hop with rfl | rfl | rfl
    · trivial
    · intro _ instant t env
      exact ⟨forced instant ++ forced instant, env, rfl⟩
    · trivial
  have hkept : reached.1.factory = built.1.factory := built.1.factory_after ops built.2
  have hfactory : dropped.factory = built.1.factory := (reached.1.factory_next _ _).trans hkept
  have hdropped : ∀ key ∈ [0, 1], dropped.slots.find? key = none := by decide
  let calls (key : Nat) : List (Call Nat Unit) :=
    [.evictIdle 8000000, .use key (.offer 1), .use key (.offer 1)]
  let env : Ambient Replay := ⟨⟨[.ok 9000000, .ok 9300000, .ok 9600000]⟩, #[]⟩
  let moments (key : Nat) : List (Moment Unit) := built.1.moments key (calls key) env
  refine ⟨by decide, by decide, ?_, ?_, by decide⟩
  · obtain ⟨slot, hslot⟩ := Option.isSome_iff_exists.mp
      (show (reached.1.slots.find? 0).isSome = true by decide)
    have hnext : (moments 0).filterMap Moment.turn? =
        [(9300000, .offer 1), (9600000, .offer 1)] := rfl
    have hmoments : ∀ r : Registry Nat, r.factory = built.1.factory →
        r.moments 0 (calls 0) env = moments 0 := fun r hr =>
      moments_replay (hr.trans rfl) built.1 0 (calls 0) env #[]
    have hdrained : ∀ slot ∈ reached.1.slots.find? 0, slot.throttle.ForallEngines fun e =>
        e.last + e.debt ≤ ticksAt 9300000 slot.throttle.frequency := by decide
    have hunnoticed := (dropping_drained_key_unnoticed hbuilt (hops 0) hreached hslot
      (hdropped 0 (by decide)) hnext).1 (hdrained slot hslot)
    exact (hunnoticed Replay Replay (calls 0) (calls 0) env env (hmoments _ hkept)
      (hmoments _ hfactory)).1
  · obtain ⟨slot, hslot⟩ := Option.isSome_iff_exists.mp
      (show (reached.1.slots.find? 1).isSome = true by decide)
    have hnext : (moments 1).filterMap Moment.turn? =
        [(9300000, .offer 1), (9600000, .offer 1)] := rfl
    have hmoments : ∀ r : Registry Nat, r.factory = built.1.factory →
        r.moments 1 (calls 1) env = moments 1 := fun r hr =>
      moments_replay (hr.trans rfl) built.1 1 (calls 1) env #[]
    have honce : ∀ op ∈ ops, op.ChecksOnce 1 := by
      intro op hop
      simp only [ops, List.mem_cons, List.not_mem_nil, or_false] at hop
      rcases hop with rfl | rfl | rfl <;> simp [Operation.ChecksOnce]
    obtain ⟨last, hlast, hpassed⟩ := (dropping_drained_key_unnoticed hbuilt (hops 1) hreached hslot
      (hdropped 1 (by decide)) hnext).2 honce
    have hnanos : (lastAdmitted? 1 (built.1.history ops built.2)).map (·.nanos) = some 2400000 := by
      decide
    rw [hlast] at hnanos
    have hlastNanos : last.nanos = 2400000 := Option.some.inj hnanos
    rw [hlastNanos] at hpassed
    have htime : ∀ slot ∈ reached.1.slots.find? 1, slot.throttle.ForallEngines fun e =>
        e.pace.limit + e.pace.increment ≤ ticksAt 9300000 slot.throttle.frequency -
          ticksAt 2400000 slot.throttle.frequency := by decide
    have hunnoticed := hpassed (htime slot hslot)
    exact (hunnoticed Replay Replay (calls 1) (calls 1) env env (hmoments _ hkept)
      (hmoments _ hfactory)).1

end Registry

end AdmissionControl
