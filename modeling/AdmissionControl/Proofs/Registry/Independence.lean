import AdmissionControl.Proofs.Registry.Moments

/-!
# Keys are independent

The calls on other keys can be left out of a run without a difference to a key, provided that the
calls that stay are given the readings that they had (`Registry.moments_eq_of_readings`). `Replay`
is a clock that gives them. And while a key is in use, its throttle is driven like one that stands
alone and is served by hand, action by action (`Registry.life_eq_alone`).

So a key behaves as if there were no others and its throttle as if there were no registry, which
`Registry.keys_independent` puts together.
-/

namespace AdmissionControl

namespace Registry

variable {κ σ ρ : Type}

/-! ### A throttle that stands alone -/

/-- The use at a reading that a moment is. -/
def Moment.turn? : Moment ρ → Option (Nat × Usage ρ)
  | .used usage (.ok nanos) => some (nanos, usage)
  | _ => none

/-- The outcome of a use that has come about. -/
def Effect.served? : Effect ρ → Option (Outcome ρ)
  | ⟨some (.decided (.ok decision)), _⟩ => some (.decided (.ok decision))
  | ⟨some (.applied (.ok answer)), _⟩ => some (.applied (.ok answer))
  | _ => none

/-- A use of a throttle by the actions that it takes: an event is examined, and then committed if
the answer is a delay of zero and rolled back if not. -/
def Usage.byHand (usage : Usage ρ) (instant : Int) (t : Throttle) : Outcome ρ × Throttle :=
  match usage with
  | .offer units =>
    let delay := t.delayAt instant
    let examined := (t.act (.examine instant)).2
    let after := (examined.act (if delay = 0 then .commitUnits units else .rollback)).2
    (.decided (.ok ⟨delay = 0, delay, retryAfter delay t.frequency, after.isAlarmed⟩), after)
  | .apply respond => (.applied (.ok (respond instant t).answer), (respond instant t).throttle)

/-- The outcomes of uses of a throttle that stands alone, each at a reading in its own ticks, and
the throttle after them. -/
def alone (t : Throttle) : List (Nat × Usage ρ) → List (Outcome ρ) × Throttle
  | [] => ([], t)
  | (nanos, usage) :: rest =>
    let served := usage.byHand (ticksAt nanos t.frequency) t
    let later := alone served.2 rest
    (served.1 :: later.1, later.2)

section Alone

variable {prototype : Throttle}

/-- A registry serves a use as if by hand. -/
theorem Usage.serve_eq_byHand (usage : Usage ρ) (instant : Int) (t : Throttle) :
    usage.serve instant t = usage.byHand instant t := by
  cases usage with
  | apply respond => rfl
  | offer units =>
    simp only [serve, byHand, Throttle.offer, Throttle.afterOffer_eq_act, Throttle.frequency_act]

theorem served?_byHand (usage : Usage ρ) (instant : Int) (t : Throttle) (slot : Option Slot) :
    (Effect.mk (some (usage.byHand instant t).1) slot).served? =
      some (usage.byHand instant t).1 := by
  cases usage <;> rfl

theorem Moment.eq_of_turn?_eq_some {m : Moment ρ} {nanos : Nat} {usage : Usage ρ}
    (h : m.turn? = some (nanos, usage)) : m = .used usage (.ok nanos) := by
  cases m with
  | used usage' reading =>
    cases reading with
    | error error => cases h
    | ok nanos' =>
      cases h
      rfl
  | removed | evicted _ _ => cases h

/-- A use at a reading serves the throttle that the key has. -/
theorem Moment.effect_of_turn?_eq_some {m : Moment ρ} {nanos : Nat} {usage : Usage ρ}
    (h : m.turn? = some (nanos, usage)) (prototype : Throttle) (slot : Slot) :
    let served := usage.byHand (ticksAt nanos slot.throttle.frequency) slot.throttle
    m.effect prototype (some slot) = ⟨some served.1, some ⟨served.2, nanos⟩⟩ := by
  intro served
  unfold served
  rw [Moment.eq_of_turn?_eq_some h, ← usage.serve_eq_byHand]
  rfl

/-- What is no use at a reading serves nothing, and does nothing to a key that it does not drop. -/
theorem Moment.effect_of_turn?_eq_none {m : Moment ρ} (h : m.turn? = none) (prototype : Throttle)
    (slot : Option Slot) :
    (m.effect prototype slot).served? = none ∧
      ((m.effect prototype slot).slot = slot ∨ (m.effect prototype slot).slot = none) := by
  cases m with
  | used usage reading =>
    cases reading with
    | error error => cases usage <;> exact ⟨rfl, .inl rfl⟩
    | ok nanos => cases h
  | removed => exact ⟨rfl, .inr rfl⟩
  | evicted maxIdle reading =>
    cases reading with
    | error error => exact ⟨rfl, .inl rfl⟩
    | ok nanos =>
      refine ⟨rfl, ?_⟩
      cases slot with
      | none => exact .inl rfl
      | some slot =>
        let recent : Slot → Bool := fun s => nanos - maxIdle < s.lastSeen
        cases hrecent : recent slot with
        | true => exact .inl (Option.filter_some_pos hrecent)
        | false => exact .inr (Option.filter_some_neg hrecent)

/-- **One throttle.** While a key is in use, its throttle is driven like one that stands alone. -/
theorem life_eq_alone {slot : Slot} {moments : List (Moment ρ)}
    (hkept : ∀ effect ∈ (life prototype (some slot) moments).1, effect.slot.isSome = true) :
    (life prototype (some slot) moments).1.filterMap Effect.served? =
        (alone slot.throttle (moments.filterMap Moment.turn?)).1 ∧
      (life prototype (some slot) moments).2.map (·.throttle) =
        some (alone slot.throttle (moments.filterMap Moment.turn?)).2 := by
  induction moments generalizing slot with
  | nil => exact ⟨rfl, rfl⟩
  | cons m rest ih =>
    have hfirst := hkept (m.effect prototype (some slot)) (List.mem_cons_self ..)
    have hrest : ∀ effect ∈ (life prototype (m.effect prototype (some slot)).slot rest).1,
        effect.slot.isSome = true := fun effect he => hkept effect (List.mem_cons_of_mem _ he)
    rw [life]
    cases hturn : m.turn? with
    | none =>
      obtain ⟨hserved, hslot⟩ := Moment.effect_of_turn?_eq_none hturn prototype (some slot)
      have hsame := hslot.resolve_right (Option.isSome_iff_ne_none.mp hfirst)
      rw [hsame] at hrest ⊢
      rw [List.filterMap_cons_none hturn, List.filterMap_cons_none hserved]
      exact ih hrest
    | some turn =>
      obtain ⟨nanos, usage⟩ := turn
      have heffect := Moment.effect_of_turn?_eq_some hturn prototype slot
      rw [heffect] at hrest ⊢
      obtain ⟨hanswers, hlast⟩ := ih hrest
      rw [List.filterMap_cons_some hturn, List.filterMap_cons_some (served?_byHand ..), hanswers]
      exact ⟨rfl, hlast⟩

/-- From the use that opens it, the throttle of a key is driven like one that stands alone. -/
theorem life_eq_alone_of_new {usage : Usage ρ} {nanos : Nat} {rest : List (Moment ρ)}
    (hkept : ∀ effect ∈ (life prototype none (.used usage (.ok nanos) :: rest)).1,
      effect.slot.isSome = true) :
    let whole := life prototype none (.used usage (.ok nanos) :: rest)
    let standalone := alone (prototype.resetAt (ticksAt nanos prototype.frequency))
      ((Moment.used usage (.ok nanos) :: rest).filterMap Moment.turn?)
    whole.1.filterMap Effect.served? = standalone.1 ∧
      whole.2.map (·.throttle) = some standalone.2 := by
  intro whole standalone
  let t := prototype.resetAt (ticksAt nanos prototype.frequency)
  let served := usage.byHand (ticksAt nanos t.frequency) t
  have hfirst : (Moment.used usage (.ok nanos)).effect prototype none =
      ⟨some served.1, some ⟨served.2, nanos⟩⟩ := by
    unfold served
    rw [← usage.serve_eq_byHand]
    rfl
  unfold whole
  rw [life, hfirst] at hkept ⊢
  obtain ⟨houtcomes, hstate⟩ := life_eq_alone fun effect he =>
    hkept effect (List.mem_cons_of_mem _ he)
  refine ⟨?_, hstate⟩
  rw [List.filterMap_cons_some (served?_byHand ..), houtcomes]
  rfl

end Alone

variable [DecidableEq κ] [Clock σ]

/-! ### Replayed readings -/

/-- A clock that gives a row of readings, and none after them. -/
structure Replay where
  readings : List (Except ClockError Nat)

instance : Clock Replay where
  read c :=
    match c.readings with
    | [] => (.error .unavailable, c)
    | reading :: rest => (reading, ⟨rest⟩)

section Readings

variable {r : Registry κ} {prototype : Throttle} {key : κ} {env : Ambient σ}

/-- A use of a key reads the clock once, if the use itself does not read it. -/
theorem clock_withThrottle (hfactory : r.factory = .copying prototype) {α : Type}
    (use : Int → Throttle → Timed σ (α × Throttle))
    (huse : ∀ instant t env, (use instant t env).2.clock = env.clock) :
    (r.withThrottle key use env).2.clock = (Clock.read env.clock).2 := by
  have hmade : ∀ nanos (env' : Ambient σ),
      (r.throttleFor key nanos env').2.clock = env'.clock := by
    intro nanos env'
    unfold throttleFor
    rw [hfactory]
    cases r.slots.find? key <;> rfl
  cases hread : (Clock.read env.clock).1 with
  | error error => rw [withThrottle_of_read_eq_error r key use hread]
  | ok nanos =>
    rw [withThrottle_of_read_eq_ok r key use hread]
    exact (huse _ _ _).trans (hmade nanos _)

omit [DecidableEq κ] in
theorem clock_evictIdle (r : Registry κ) (maxIdle : Nat) (env : Ambient σ) :
    (r.evictIdle maxIdle env).2.clock = (Clock.read env.clock).2 := by
  cases hread : (Clock.read env.clock).1 with
  | error error => rw [r.evictIdle_apply_of_read_eq_error maxIdle hread]
  | ok nanos => rw [r.evictIdle_apply_of_read_eq_ok maxIdle hread]

/-- A call reads the clock just where it gives a moment a reading. -/
theorem clock_operate (hfactory : r.factory = .copying prototype) {call : Call κ ρ} {m : Moment ρ}
    {reading : Except ClockError Nat} (h : call.momentFor? key reading = some m) :
    (r.operate call.operation env).2.clock =
      if m.reading?.isSome then (Clock.read env.clock).2 else env.clock := by
  rcases Call.cases_of_momentFor?_eq_some h with
    ⟨usage, rfl, rfl⟩ | ⟨rfl, rfl⟩ | ⟨maxIdle, rfl, rfl⟩
  · cases usage with
    | offer units =>
      exact clock_withThrottle hfactory (fun instant t => pure (t.offer instant units))
        fun _ _ _ => rfl
    | apply respond =>
      exact clock_withThrottle hfactory (fun instant t => (respond instant t).report)
        fun _ _ _ => rfl
  · rfl
  · exact r.clock_evictIdle maxIdle env

omit [Clock σ] in
/-- A call that is replayed is the same moment again, and uses up its reading. -/
theorem Call.momentFor?_replay {call : Call κ ρ} {m : Moment ρ} {reading : Except ClockError Nat}
    (h : call.momentFor? key reading = some m) (readings : List (Except ClockError Nat)) :
    let clock := Replay.mk (m.reading?.toList ++ readings)
    call.momentFor? key (Clock.read clock).1 = some m ∧
      (if m.reading?.isSome then (Clock.read clock).2 else clock) = ⟨readings⟩ := by
  rcases Call.cases_of_momentFor?_eq_some h with
    ⟨usage, rfl, rfl⟩ | ⟨rfl, rfl⟩ | ⟨maxIdle, rfl, rfl⟩
  · exact ⟨h, rfl⟩
  · exact ⟨h, rfl⟩
  · exact ⟨h, rfl⟩

/-- **The same readings.** If all calls but those that concern a key are left out and these are
given the readings that they had, the key has the moments that it had. -/
theorem moments_eq_of_readings {σ' : Type} [Clock σ'] (r r' : Registry κ) (key : κ)
    {calls : List (Call κ ρ)} {env : Ambient σ} {env' : Ambient σ'}
    (hreadings : (r'.moments key (calls.filter (Call.concerns key)) env').filterMap
      Moment.reading? = (r.moments key calls env).filterMap Moment.reading?) :
    r'.moments key (calls.filter (Call.concerns key)) env' = r.moments key calls env := by
  induction calls generalizing r r' env env' with
  | nil => rfl
  | cons call rest ih =>
    have hconcerns := call.isSome_momentFor? key (Clock.read env.clock).1
    have hconcerns' := call.isSome_momentFor? key (Clock.read env'.clock).1
    cases hm : call.momentFor? key (Clock.read env.clock).1 with
    | none =>
      rw [hm] at hconcerns
      have hother := List.filter_cons_of_neg (l := rest) (Bool.eq_false_iff.mp hconcerns.symm)
      rw [hother] at hreadings ⊢
      rw [moments_cons_of_eq_none hm] at hreadings ⊢
      exact ih _ _ hreadings
    | some m =>
      rw [hm] at hconcerns
      have hown := List.filter_cons_of_pos (l := rest) hconcerns.symm
      obtain ⟨m', hm'⟩ := Option.isSome_iff_exists.mp (hconcerns'.trans hconcerns.symm)
      rw [hown] at hreadings ⊢
      rw [moments_cons_of_eq_some hm, moments_cons_of_eq_some hm'] at hreadings ⊢
      rw [Moment.filterMap_reading?_cons, Moment.filterMap_reading?_cons] at hreadings
      obtain ⟨rfl, hlater⟩ := Call.momentFor?_eq_of_readings hm hm' hreadings
      rw [ih _ _ hlater]

/-- **Replayed readings.** If all calls but those that concern a key are left out, a clock that
replays the readings gives the key the moments that it had. -/
theorem moments_replay (hfactory : r.factory = .copying prototype) (r' : Registry κ) (key : κ)
    (calls : List (Call κ ρ)) (env : Ambient σ) (log : Array Notice) :
    r.moments key (calls.filter (Call.concerns key))
        ⟨Replay.mk ((r'.moments key calls env).filterMap Moment.reading?), log⟩ =
      r'.moments key calls env := by
  induction calls generalizing r r' env log with
  | nil => rfl
  | cons call rest ih =>
    have hconcerns := call.isSome_momentFor? key (Clock.read env.clock).1
    cases hm : call.momentFor? key (Clock.read env.clock).1 with
    | none =>
      rw [hm] at hconcerns
      rw [moments_cons_of_eq_none hm, List.filter_cons_of_neg (Bool.eq_false_iff.mp hconcerns.symm)]
      exact ih hfactory _ _ _
    | some m =>
      rw [hm] at hconcerns
      rw [moments_cons_of_eq_some hm, List.filter_cons_of_pos hconcerns.symm]
      let later := (r'.next call.operation env).moments key rest (r'.operate call.operation env).2
      let replay : Ambient Replay :=
        ⟨⟨m.reading?.toList ++ later.filterMap Moment.reading?⟩, log⟩
      have hreplay : Ambient.mk (Replay.mk ((m :: later).filterMap Moment.reading?)) log =
          replay := by rw [Moment.filterMap_reading?_cons]
      obtain ⟨hagain, hused⟩ := Call.momentFor?_replay hm (later.filterMap Moment.reading?)
      have hfactory' : (r.next call.operation replay).factory = .copying prototype := by
        rw [factory_next, hfactory]
      have hclock : (r.operate call.operation replay).2.clock =
          ⟨later.filterMap Moment.reading?⟩ := (clock_operate hfactory hm).trans hused
      have hafter : (r.operate call.operation replay).2 =
          ⟨⟨later.filterMap Moment.reading?⟩, (r.operate call.operation replay).2.log⟩ := by
        rw [← hclock]
      rw [hreplay, moments_cons_of_eq_some hagain, hafter]
      exact congrArg (m :: ·) (ih hfactory' _ _ _)

end Readings

/-! ### Keys -/

/-- **Keys are independent, and each is one throttle.** Let new throttles be copies of a prototype,
and a registry be called on any keys, by whoever shares it. If all calls but those that concern a
key are left out, and these are given the same readings, the same becomes of the key, call by call
and at the end. A clock that replays the readings gives them. From the use that first opens a
throttle for a key until the key is dropped, the outcomes of its uses are those of one throttle that
stands alone: the prototype, opened at the reading of the first of them in its ticks, and used at
each reading in its ticks. It is the throttle that the key is found to have when it is dropped. -/
theorem keys_independent {σ' : Type} [Clock σ'] {r : Registry κ} {prototype : Throttle}
    (hfactory : r.factory = .copying prototype) (key : κ) (calls : List (Call κ ρ))
    (env : Ambient σ) :
    let moments := r.moments key calls env
    let effects := r.effects key calls env
    let last := (r.after (calls.map Call.operation) env).1
    let own := calls.filter (Call.concerns key)
    let readings := moments.filterMap Moment.reading?
    (∀ env' : Ambient σ', (r.moments key own env').filterMap Moment.reading? = readings →
        r.effects key own env' = effects ∧
          (r.after (own.map Call.operation) env').1.slots.find? key = last.slots.find? key) ∧
      (∀ log, (r.moments key own ⟨Replay.mk readings, log⟩).filterMap Moment.reading? = readings) ∧
      ∀ usage nanos rest, r.slots.find? key = none → moments = .used usage (.ok nanos) :: rest →
        (∀ effect ∈ effects, effect.slot.isSome = true) →
        let standalone := alone (prototype.resetAt (ticksAt nanos prototype.frequency))
          (moments.filterMap Moment.turn?)
        effects.filterMap Effect.served? = standalone.1 ∧
          (last.remove key).1 = some standalone.2 := by
  intro moments effects last own readings
  have hlife : (effects, last.slots.find? key) = life prototype (r.slots.find? key) moments :=
    effects_eq_life hfactory key calls env
  refine ⟨?_, ?_, ?_⟩
  · intro env' hreadings
    have hmoments : r.moments key own env' = moments := moments_eq_of_readings r r key hreadings
    have hlife' := effects_eq_life hfactory key own env'
    rw [hmoments, ← hlife] at hlife'
    exact Prod.mk.inj hlife'
  · intro log
    exact congrArg _ (moments_replay hfactory r key calls env log)
  · intro usage nanos rest hnew hfirst hkept
    rw [hnew, hfirst] at hlife
    let whole := life prototype none (.used usage (.ok nanos) :: rest)
    have heffects : effects = whole.1 := congrArg Prod.fst hlife
    have hlast : last.slots.find? key = whole.2 := congrArg Prod.snd hlife
    rw [heffects] at hkept
    obtain ⟨houtcomes, hstate⟩ := life_eq_alone_of_new hkept
    rw [hfirst, heffects]
    refine ⟨houtcomes, ?_⟩
    change (last.slots.find? key).map (·.throttle) = _
    rw [hlast]
    exact hstate

/-- Two keys of a registry for one unit a millisecond. The first key is checked twice, then used by
a caller who changes nothing, and it outlasts an eviction. The second key is used in between, once
for three units but without a reading, and dropped. -/
theorem keys_independent_of_two_keys :
    let env : Ambient Replay := ⟨⟨[.ok 100, .ok 400100, .ok 800100, .error .unavailable,
      .ok 1600100, .ok 2000100, .ok 2400100]⟩, #[]⟩
    let built := Registry.ofContract (κ := Nat) .perUnit (.constantRate 1000 0) env
    let r := built.1
    let calls : List (Call Nat Int) :=
      [.use 2 (.offer 1), .use 1 (.offer 1), .use 2 (.offer 3), .use 1 (.offer 1), .remove 2,
        .use 1 (.apply fun instant t => ⟨t.delayAt instant, t, []⟩), .evictIdle 5000000]
    let own := calls.filter (Call.concerns 1)
    let env' : Ambient Replay := ⟨⟨[.ok 800100, .ok 1600100, .ok 2000100, .ok 2400100]⟩, #[]⟩
    let last := (r.after (calls.map Call.operation) built.2).1
    let decision? : Outcome Int → Option Decision
      | .decided (.ok decision) => some decision
      | _ => none
    own.length = 4 ∧ r.effects 1 own env' = r.effects 1 calls built.2 ∧
      ((r.effects 1 calls built.2).filterMap Effect.served?).map decision? =
        [some ⟨true, 0, none, false⟩, some ⟨false, 200000, some ⟨200000⟩, false⟩, none] ∧
      (last.remove 1).1.map (·.delayAt 1700100) = some 100000 := by
  intro env built r calls own env' last decision?
  let prototype := ((Blueprint.shaper .perUnit .onClock (.constantRate 1000 0)).build env).1
  have hfactory : r.factory = .copying prototype := rfl
  obtain ⟨hsame, -, halone⟩ :=
    @keys_independent Nat Replay Int _ _ Replay _ r prototype hfactory 1 calls built.2
  have hown : (r.moments 1 own env').filterMap Moment.reading? = env'.clock.readings := rfl
  have hall : (r.moments 1 calls built.2).filterMap Moment.reading? = env'.clock.readings := rfl
  have hkept : ∀ effect ∈ r.effects 1 calls built.2, effect.slot.isSome = true := by decide
  obtain ⟨houtcomes, hstate⟩ := halone (.offer 1) 800100 _ rfl rfl hkept
  refine ⟨by decide, (hsame env' (hown.trans hall.symm)).1, ?_, ?_⟩
  · rw [houtcomes]
    decide +kernel
  · rw [hstate]
    decide +kernel

end Registry

end AdmissionControl
