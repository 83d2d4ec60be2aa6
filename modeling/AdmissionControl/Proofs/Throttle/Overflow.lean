import AdmissionControl.Proofs.Resolution.Rounding
import AdmissionControl.Proofs.Throttle.Soundness

/-!
# Overflow

Machine words hold nothing but tick counts, so every sum, difference and product that is not
saturated has to be one. Here a throttle is driven a second time, with a check at each of these
operations (`tick?`): `Throttle.act?` and `Throttle.run?` for what is done to a throttle, and
`Blueprint.design?` for what is worked out when it is built. They give no result if a check fails,
as a program does that stops at an overflow.

The checks never fail (`never_overflows`). The guards of an operation leave room for its result only
where debts are spans and the numbers of a backoff are positive. This holds of all states that a
throttle comes into, since all of them are sound (`Throttle.InUse.sound`).
-/

namespace AdmissionControl

/-- The result of an operation on tick counts, if it is a tick count too. -/
def tick? (v : Int) : Option Int := if InRange v then some v else none

theorem tick?_of_inRange {v : Int} (h : InRange v) : tick? v = some v := if_pos h

theorem tick?_of_isSpan {v : Int} (h : IsSpan v) : tick? v = some v :=
  tick?_of_inRange ⟨Int.le_trans (Int.le_of_lt minTick_neg) h.1, h.2⟩

/-- The part of the largest tick that a span leaves is a tick count. -/
theorem tick?_maxTick_sub {v : Int} (h : IsSpan v) : tick? (maxTick - v) = some (maxTick - v) :=
  tick?_of_isSpan ⟨Int.sub_nonneg_of_le h.2, Int.sub_le_self _ h.1⟩

/-- Units that can be charged are counted in ticks. -/
theorem Pace.unitsMax_le (p : Pace) : p.unitsMax ≤ maxTick := by
  unfold unitsMax
  split
  · exact Int.ediv_le_self _ (Int.le_of_lt maxTick_pos)
  · exact Int.le_refl _

/-! ### Engines -/

/-- A debt with a charge added, or the largest tick if there is no room for the charge. -/
def charge? (debt charge : Int) : Option Int := do
  let room ← tick? (maxTick - charge)
  if room < debt then return maxTick else tick? (debt + charge)

theorem charge?_eq {debt charge : Int} (hdebt : IsSpan debt) (hcharge : IsSpan charge) :
    charge? debt charge = some (if maxTick - charge < debt then maxTick else debt + charge) := by
  have hnonneg : 0 ≤ debt + charge := Int.add_nonneg hdebt.1 hcharge.1
  simp only [charge?, tick?_maxTick_sub hcharge, Option.bind_eq_bind, Option.bind_some]
  split
  · rfl
  · exact tick?_of_isSpan ⟨hnonneg, by omega⟩

namespace Engine

/-- By how much an event at an instant is early. -/
def delayAt? (e : Engine) (instant : Int) : Option Int :=
  let s := e.scheduleAt instant
  if s.alarmed then tick? (s.debt - e.pace.limit) else some 0

/-- The debt after an event of `units` units is taken in. -/
def debtAfter? (e : Engine) (units : Nat) : Option Int :=
  if e.pace.unitsMax < units then some maxTick
  else do
    let count ← tick? units
    let charge ← tick? (count * e.pace.increment)
    charge? e.tentative.debt charge

/-- The engine that takes in the examined event with a debt. -/
def settle (e : Engine) (debt : Int) : Engine :=
  { e with last := e.now, committed := ⟨debt, e.tentative.alarmed⟩ }

/-- What an engine answers to an action, and the engine after it. -/
def act? (e : Engine) : Action → Option (Reply × Engine)
  | .resetAt instant => some (.done, e.resetAt instant)
  | .examine instant => return (.delay (← e.delayAt? instant), e.examine instant)
  | .commit =>
    return (.verdict e.commitVerdict, e.settle (← charge? e.tentative.debt e.pace.increment))
  | .commitUnits units => return (.verdict e.commitVerdict, e.settle (← e.debtAfter? units))
  | .rollback => some (.verdict e.rollbackVerdict, e.rollback)

/-- What an engine answers to an action. -/
def reply (e : Engine) : Action → Reply
  | .resetAt _ => .done
  | .examine instant => .delay (e.delayAt instant)
  | .commit | .commitUnits _ => .verdict e.commitVerdict
  | .rollback => .verdict e.rollbackVerdict

theorem delayAt?_eq (e : Engine) (instant : Int) :
    e.delayAt? instant = some (e.delayAt instant) := by
  by_cases halarmed : (e.scheduleAt instant).alarmed = true
  · have hdelay : e.delayAt instant = (e.scheduleAt instant).debt - e.pace.limit := if_pos halarmed
    have hle : e.delayAt instant ≤ maxTick := by
      have hdebt := (e.isSpan_debt_scheduleAt instant).2
      have hlimit := e.pace.limit_nonneg
      omega
    simp only [delayAt?, halarmed, if_true, ← hdelay]
    exact tick?_of_isSpan ⟨e.delayAt_nonneg instant, hle⟩
  · simp [delayAt?, delayAt, halarmed]

theorem debtAfter?_eq {e : Engine} (h : IsSpan e.tentative.debt) (units : Nat) :
    e.debtAfter? units = some (e.debtAfter units) := by
  unfold debtAfter? debtAfter
  split
  · rfl
  · next hunits =>
    -- the bound on the count leaves room for the count itself and for the product
    have hcount : IsSpan units :=
      ⟨Int.natCast_nonneg _, Int.le_trans (Int.not_lt.mp hunits) e.pace.unitsMax_le⟩
    have hcharge : IsSpan (units * e.pace.increment) :=
      ⟨Int.mul_nonneg hcount.1 e.pace.increment_nonneg,
        Pace.mul_increment_le (Int.not_lt.mp hunits)⟩
    simp only [tick?_of_isSpan hcount, tick?_of_isSpan hcharge, charge?_eq h hcharge,
      Option.bind_eq_bind, Option.bind_some]

/-- **One action on an engine** passes all checks. -/
theorem Sound.act?_eq {e : Engine} (h : e.Sound) (a : Action) :
    e.act? a = some (e.reply a, e.act a) := by
  cases a with
  | resetAt _ | rollback => rfl
  | examine instant =>
    rw [act?, e.delayAt?_eq]
    rfl
  | commit =>
    rw [act?, charge?_eq h.tentative e.pace.isSpan_increment, ← e.debtAfter_one]
    rfl
  | commitUnits units =>
    rw [act?, debtAfter?_eq h.tentative]
    rfl

end Engine

/-! ### Backoffs -/

namespace Backoff

/-- The counters after one more event. An event whose number is half of one that is no tick count is
not admitted. -/
def next? (b : Backoff) : Option Backoff :=
  let countdown := satSub b.countdown 1
  if countdown ≠ 0 then some { b with countdown, alarmed := true }
  else match tick? (2 * b.consecutive) with
    | none => some { b with countdown, alarmed := true }
    | some doubled => return ⟨doubled, ← tick? (doubled - b.consecutive), false⟩

theorem Sound.next?_eq {b : Backoff} (h : b.Sound) : b.next? = some b.next := by
  obtain ⟨hnonneg, hle⟩ := h.isSpan
  unfold next? Backoff.next
  dsimp only
  split
  · rfl
  · by_cases hroom : 2 * b.consecutive ≤ maxTick
    · have hdoubled : IsSpan (2 * b.consecutive) := ⟨by omega, hroom⟩
      have hcountdown : IsSpan (2 * b.consecutive - b.consecutive) := ⟨by omega, by omega⟩
      simp only [tick?_of_isSpan hdoubled, if_pos hroom, tick?_of_isSpan hcountdown,
        Option.bind_eq_bind, Option.bind_some, Option.pure_def]
    · -- positive numbers leave the range at its upper end only
      have hnone : tick? (2 * b.consecutive) = none := if_neg fun hrange => hroom hrange.2
      simp only [hnone, if_neg hroom]

end Backoff

namespace Geometric

/-- What a backoff answers to an action, and the backoff after it. -/
def act? (g : Geometric) : Action → Option (Reply × Geometric)
  | .resetAt _ => some (.done, fresh)
  | .examine _ => do
    let next ← g.committed.next?
    return (.delay (if next.alarmed then rejected else 0), { g with tentative := next })
  | .commit | .commitUnits _ => some (.verdict g.commitVerdict, g.commit)
  | .rollback => some (.verdict g.rollbackVerdict, g.rollback)

end Geometric

/-! ### Throttles -/

/-- The answer of a compound, from those of its halves. -/
def Reply.both : Reply → Reply → Reply
  | .delay p, .delay s => .delay (max p s)
  | .verdict p, .verdict s => .verdict (p && s)
  | reply, _ => reply

namespace Throttle

/-- What a throttle answers to an action, and the throttle after it. -/
def act? (a : Action) : Throttle → Option (Reply × Throttle)
  | engine charging e => do
    let (reply, e') ← e.act? a
    return (reply, engine charging e')
  | shaper charging ⟨peak, none⟩ => do
    let (reply, peak') ← peak.act? a
    return (reply.both (absent.act a).1, shaper charging ⟨peak', none⟩)
  | shaper charging ⟨peak, some sustained⟩ => do
    let (reply, peak') ← peak.act? a
    let (reply', sustained') ← sustained.act? a
    return (reply.both reply', shaper charging ⟨peak', some sustained'⟩)
  | geometric g => do
    let (reply, g') ← g.act? a
    return (reply, geometric g')
  | null charging => some ((null charging).act a)
  | absent => some (absent.act a)
  | present t => do
    let (reply, t') ← t.act? a
    return (reply, present t')
  | compound p s => do
    let (reply, p') ← p.act? a
    let (reply', s') ← s.act? a
    return (reply.both reply', compound p' s')

/-- The answers to a list of actions in order, and the throttle after them. -/
def run? (t : Throttle) : List Action → Option (List Reply × Throttle)
  | [] => some ([], t)
  | a :: rest => do
    let (reply, t') ← t.act? a
    let (replies, last) ← run? t' rest
    return (reply :: replies, last)

variable {t : Throttle}

/-- **One action** passes all checks. -/
theorem Sound.act?_eq (h : t.Sound) (a : Action) : t.act? a = some (t.act a) := by
  induction t with
  | engine charging e =>
    rw [act?, Engine.Sound.act?_eq h]
    cases a <;> rfl
  | shaper charging s =>
    obtain ⟨peak, sustained⟩ := s
    obtain ⟨hpeak, hsustained⟩ := h
    cases sustained with
    | none =>
      rw [act?, hpeak.act?_eq]
      cases a <;> rfl
    | some e =>
      rw [act?, hpeak.act?_eq, (hsustained e rfl).act?_eq]
      cases a <;> rfl
  | geometric g =>
    cases a with
    | examine _ =>
      rw [act?, Geometric.act?, h.committed.next?_eq]
      rfl
    | resetAt _ | commit | commitUnits _ | rollback => rfl
  | null _ | absent => rfl
  | present t ih =>
    rw [act?, ih h]
    cases a <;> rfl
  | compound p s ihp ihs =>
    rw [act?, ihp h.1, ihs h.2]
    cases a <;> rfl

/-- **A run** passes all checks. -/
theorem Sound.run?_eq (h : t.Sound) (actions : List Action) :
    t.run? actions = some (t.run actions) := by
  induction actions generalizing t with
  | nil => rfl
  | cons a rest ih =>
    rw [run?, h.act?_eq]
    simp only [Option.bind_eq_bind, Option.bind_some, ih (h.act a)]
    rfl

end Throttle

/-! ### Building -/

/-- The terms of a contract are tick counts. -/
structure Contract.Representable (c : Contract) : Prop where
  peakRate : InRange c.peakRate
  jitter : InRange c.jitter
  rate : ∀ s, c.sustained = some s → InRange s.rate
  maxBurst : ∀ s, c.sustained = some s → InRange s.maxBurst

/-- The pace with the given increment and limit, each moved to the nearest span. What the increment
leaves of the largest tick is worked out along with it. -/
def Pace.clamped? (r : Resolution) (increment limit : Int) : Option Pace := do
  let _ ← tick? (maxTick - max increment 0)
  return .clamped r increment limit

/-- The emission of a sustained rate beside a peak emission. -/
def Emission.ofSustained? (r : Resolution) (peakRate : Int) (peak : Emission) (s : Sustained) :
    Option Emission :=
  let increment := r.spacing (min s.rate peakRate)
  if 1 < s.maxBurst ∧ 0 < s.rate ∧ s.rate < peakRate then do
    let more ← tick? (s.maxBurst - 1)
    return ⟨increment, satAdd (satMul more (satSub increment peak.increment)) peak.limit⟩
  else some ⟨increment, peak.limit⟩

/-- The emissions of the engines for a contract. -/
def Contract.emissions? (r : Resolution) (c : Contract) : Option Emissions :=
  let peak := Emission.ofPeak r c.peakRate c.jitter
  match c.sustained with
  | none => some ⟨peak, none⟩
  | some s => return ⟨peak, some (← Emission.ofSustained? r c.peakRate peak s)⟩

theorem Pace.clamped?_eq (r : Resolution) {increment : Int} (h : increment ≤ maxTick)
    (limit : Int) : clamped? r increment limit = some (clamped r increment limit) := by
  rw [clamped?, ← clampSpan_eq_max h, tick?_maxTick_sub (isSpan_clampSpan increment)]
  rfl

theorem Emission.ofSustained?_eq (r : Resolution) (peakRate : Int) (peak : Emission) {s : Sustained}
    (h : InRange s.maxBurst) :
    ofSustained? r peakRate peak s = some (ofSustained r peakRate peak s) := by
  unfold ofSustained? ofSustained
  dsimp only
  split
  · next hbursty =>
    obtain ⟨hburst, -, -⟩ := hbursty
    have hmore : IsSpan (s.maxBurst - 1) := ⟨by omega, Int.le_trans (by omega) h.2⟩
    rw [tick?_of_isSpan hmore]
    rfl
  · rfl

theorem Contract.Representable.emissions?_eq {c : Contract} (h : c.Representable) (r : Resolution) :
    c.emissions? r = some (c.emissions r) := by
  obtain ⟨peakRate, jitter, sustained⟩ := c
  cases sustained with
  | none => rfl
  | some s =>
    simp only [emissions?, Emission.ofSustained?_eq r peakRate _ (h.maxBurst s rfl)]
    rfl

namespace Blueprint

/-- The terms of all contracts are tick counts. -/
def Representable : Blueprint → Prop
  | shaper _ _ c => c.Representable
  | engine .. | geometric | null _ | absent => True
  | present b => b.Representable
  | compound p s => p.Representable ∧ s.Representable

/-- The design of the throttle that is built from a blueprint. -/
def design? : Blueprint → Option Design
  | engine charging _ pace =>
    return .engine charging (← Pace.clamped? pace.resolution pace.increment pace.limit)
  | shaper charging _ c => do
    let r := charging.resolution
    let e ← c.emissions? r
    let peak ← Pace.clamped? r e.peak.increment e.peak.limit
    match e.sustained with
    | none => return .shaper charging peak none
    | some s => return .shaper charging peak (some (← Pace.clamped? r s.increment s.limit))
  | geometric => some .geometric
  | null charging => some (.null charging)
  | absent => some .absent
  | present b => return .present (← b.design?)
  | compound p s => return .compound (← p.design?) (← s.design?)

/-- **Building a throttle** passes all checks. -/
theorem Representable.design?_eq {b : Blueprint} (h : b.Representable) :
    b.design? = some b.design := by
  induction b with
  | engine charging opening pace =>
    obtain ⟨r, increment, limit, hincrement, hlimit⟩ := pace
    simp [design?, design, Pace.clamped?_eq r hincrement.2, Pace.clamped,
      clampSpan_of_isSpan hincrement, clampSpan_of_isSpan hlimit]
  | shaper charging opening c =>
    have hemissions := Contract.Representable.emissions?_eq h charging.resolution
    have hspacing : ∀ rate, charging.resolution.spacing rate ≤ maxTick :=
      fun rate => (charging.resolution.isSpan_spacing rate).2
    obtain ⟨peakRate, jitter, sustained⟩ := c
    rw [design?, hemissions]
    cases sustained <;>
      simp [Contract.emissions, Emission.ofPeak, Emission.ofSustained_increment, design,
        Pace.clamped?_eq, hspacing]
  | geometric | null _ | absent => rfl
  | present b ih => simp [design?, design, ih h]
  | compound p s ihp ihs => simp [design?, design, ihp h.1, ihs h.2]

end Blueprint

/-- **No operation overflows.** All checks of the arithmetic are passed when an engine is built with
any increment and limit, and when a throttle is built from a blueprint with any contracts, as long
as all these are tick counts. From there on, whatever throttles are put together and whatever is
done to them, in whatever order, at whatever instants and for whatever numbers of units, all checks
are passed too, all debts lie between zero and the largest tick, and the state makes sense. -/
theorem never_overflows :
    (∀ r increment limit, InRange increment →
      Pace.clamped? r increment limit = some (.clamped r increment limit)) ∧
    (∀ {σ : Type} [Clock σ] (b : Blueprint) (env : Ambient σ), b.Representable →
      b.design? = some (b.build env).1.design) ∧
    ∀ t : Throttle, t.InUse → ∀ actions,
      t.run? actions = some (t.run actions) ∧
        (t.run actions).2.ForallEngines Engine.Sound ∧ (t.run actions).2.isValid = true := by
  refine ⟨fun r increment limit h => Pace.clamped?_eq r h.2 limit, ?_, ?_⟩
  · intro σ _ b env hb
    rw [hb.design?_eq, b.design_build env]
  · intro t ht actions
    have hafter := ht.sound.run actions
    exact ⟨ht.sound.run?_eq actions, hafter.forallEngines, hafter.isValid⟩

/-- An engine with the largest increment that there is stands before a backoff and a shaper with the
largest limit, and all of them are driven out of turn. The debt of the first engine saturates. -/
theorem never_overflows_at_largest_tick :
    let b : Blueprint := .compound
      (.engine .perUnit .onClock (.clamped .nanoseconds maxTick minTick))
      (.compound .geometric
        (.shaper .perEvent (.atInstant minTick) (.variableRate 1000000 maxTick 1 maxTick)))
    let env : Ambient ScriptedClock := { clock := { nanos := 77 } }
    let t := (b.build env).1
    let actions : List Action := [.commit, .rollback, .examine minTick,
      .commitUnits 18446744073709551615, .commit, .examine maxTick, .examine minTick, .commit,
      .commit]
    InRange maxTick ∧
      Pace.clamped? .nanoseconds maxTick minTick = some (.clamped .nanoseconds maxTick minTick) ∧
      b.Representable ∧ b.design? = some t.design ∧
      t.InUse ∧ t.run? actions = some (t.run actions) ∧
      ((t.run actions).2.leaves.filterMap Throttle.engine?).map Engine.debt =
        [maxTick, 3, 3000000] ∧
      (t.run actions).2.ForallEngines Engine.Sound ∧ (t.run actions).2.isValid = true := by
  intro b env t actions
  obtain ⟨hpaces, hbuilding, huse⟩ := never_overflows
  have hlargest : InRange maxTick := by decide
  have hterms : (Contract.variableRate 1000000 maxTick 1 maxTick).Representable := by
    refine ⟨by decide, by decide, ?_, ?_⟩ <;>
    · rintro _ ⟨⟩
      decide
  have hb : b.Representable := ⟨trivial, trivial, hterms⟩
  have ht : t.InUse := .built b env
  obtain ⟨hrun, hdebts, hvalid⟩ := huse t ht actions
  have hsaturated : ((t.run actions).2.leaves.filterMap Throttle.engine?).map Engine.debt =
      [maxTick, 3, 3000000] := by decide
  exact ⟨hlargest, hpaces _ _ _ hlargest, hb, hbuilding b env hb, ht, hrun, hsaturated, hdebts,
    hvalid⟩

end AdmissionControl
