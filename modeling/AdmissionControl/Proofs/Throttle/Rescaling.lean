import AdmissionControl.Proofs.Resolution.Rounding
import AdmissionControl.Proofs.Throttle.Invariants
import AdmissionControl.Proofs.Throttle.Nesting

/-!
# The choice of tick and epoch

What a tick is and from where instants are counted is up to the caller. If a tick is divided into
`c` shorter ones, and instants are counted from `s` of these before the old origin, then an instant
`t` becomes `c * t + s` and a span becomes `c` times as many ticks. A throttle whose increments and
limits are measured in the shorter ticks must then do the same as before. What the resolution of its
paces says about the length of a tick plays no part in this, and is left as it is.

`Throttle.rescaled` is a throttle in the midst of its work, seen in the shorter ticks. An action on
it, at the instant that belongs to it, is what the action on the throttle itself comes to
(`Throttle.Scales.act`), so both runs stay in step. Every step of an engine works out an exact
integer and cuts it off to a span, both when an event is examined and when it is charged
(`Engine.Scales.scheduleAt`, `Engine.Scales.debtAfter`). The largest span is the same for ticks of
any length, so this is where the two runs could part: `clampSpan_mul` holds if ticks are not divided
at all, or else as long as nothing is cut off in the shorter ticks (`Engine.ExactOn`).
-/

namespace AdmissionControl

/-! ### Shorter ticks -/

/-- The pace with its spans measured in ticks of which `c` make up one. -/
def Pace.scaled (c : Int) (p : Pace) : Pace :=
  .clamped p.resolution (c * p.increment) (c * p.limit)

/-- The spans of a pace are tick counts in the shorter ticks too. -/
structure Pace.Scales (c : Int) (p : Pace) : Prop where
  increment_le : c * p.increment ≤ maxTick
  limit_le : c * p.limit ≤ maxTick

instance (c : Int) : DecidablePred (Pace.Scales c) := fun p =>
  decidable_of_iff (c * p.increment ≤ maxTick ∧ c * p.limit ≤ maxTick)
    ⟨fun h => ⟨h.1, h.2⟩, fun h => ⟨h.1, h.2⟩⟩

def Schedule.scaled (c : Int) (s : Schedule) : Schedule := ⟨c * s.debt, s.alarmed⟩

/-- The engine in its present state, seen in ticks of which `c` make up one and which are counted
from `s` of them earlier. -/
def Engine.rescaled (c s : Int) (e : Engine) : Engine :=
  { pace := e.pace.scaled c
    now := c * e.now + s
    last := c * e.last + s
    committed := e.committed.scaled c
    tentative := e.tentative.scaled c }

/-- The action at the instant that is counted so. -/
def Action.moved (c s : Int) : Action → Action
  | .resetAt instant => .resetAt (c * instant + s)
  | .examine instant => .examine (c * instant + s)
  | .commit => .commit
  | .commitUnits units => .commitUnits units
  | .rollback => .rollback

/-- The instant of an action is not negative, and is a tick count in the shorter ticks too. A number
of units is a tick count. -/
def Action.Movable (c s : Int) : Action → Prop
  | .resetAt instant | .examine instant => 0 ≤ instant ∧ c * instant + s ≤ maxTick
  | .commitUnits units => (units : Int) ≤ maxTick
  | .commit | .rollback => True

instance (c s : Int) (a : Action) : Decidable (a.Movable c s) :=
  match a with
  | .resetAt instant | .examine instant =>
    inferInstanceAs (Decidable (0 ≤ instant ∧ c * instant + s ≤ maxTick))
  | .commitUnits units => inferInstanceAs (Decidable ((units : Int) ≤ maxTick))
  | .commit | .rollback => inferInstanceAs (Decidable True)

/-- The debt that an action works out is no more than the largest tick before it is cut off. What an
event finds is what is left to the target, or nothing. -/
def Engine.ExactOn (e : Engine) : Action → Prop
  | .examine instant => e.target - instant ≤ maxTick
  | .commit => e.tentative.debt + (1 : Nat) * e.pace.increment ≤ maxTick
  | .commitUnits units => e.tentative.debt + units * e.pace.increment ≤ maxTick
  | .resetAt _ | .rollback => True

instance (a : Action) : DecidablePred fun e : Engine => e.ExactOn a :=
  match a with
  | .examine instant => fun e => inferInstanceAs (Decidable (e.target - instant ≤ maxTick))
  | .commit => fun e =>
    inferInstanceAs (Decidable (e.tentative.debt + (1 : Nat) * e.pace.increment ≤ maxTick))
  | .commitUnits units => fun e =>
    inferInstanceAs (Decidable (e.tentative.debt + units * e.pace.increment ≤ maxTick))
  | .resetAt _ | .rollback => fun _ => inferInstanceAs (Decidable True)

/-! ### One engine -/

section Engines

variable {c : Int} (hc : 1 ≤ c)

include hc

theorem le_mul_of_nonneg {v : Int} (hv : 0 ≤ v) : v ≤ c * v := by
  have hgrows := Int.mul_le_mul_of_nonneg_right hc hv
  rwa [Int.one_mul] at hgrows

/-- Cutting off to a span commutes with the change of ticks if there is nothing to cut off in the
shorter ones, or if they are as long as the others. -/
theorem clampSpan_mul {v : Int} (h : c = 1 ∨ c * v ≤ maxTick) :
    clampSpan (c * v) = c * clampSpan v := by
  rcases h with rfl | hfits
  · rw [Int.one_mul, Int.one_mul]
  · rcases Int.lt_or_le v 0 with hneg | hnonneg
    · have hscaled : c * v ≤ 0 := Int.mul_nonpos_of_nonneg_of_nonpos (by omega) (by omega)
      have hzero : clampSpan v = 0 := by
        unfold clampSpan
        omega
      rw [hzero, Int.mul_zero]
      unfold clampSpan
      omega
    · have hgrows := le_mul_of_nonneg hc hnonneg
      rw [clampSpan_of_isSpan ⟨hnonneg, by omega⟩, clampSpan_of_isSpan ⟨by omega, hfits⟩]

theorem isSpan_of_isSpan_mul {v : Int} (h : IsSpan (c * v)) : IsSpan v := by
  obtain ⟨hnonneg, hle⟩ := h
  have hv : 0 ≤ v := Int.nonneg_of_mul_nonneg_right hnonneg (by omega)
  have hgrows := le_mul_of_nonneg hc hv
  exact ⟨hv, by omega⟩

theorem Pace.Scales.increment_scaled {p : Pace} (h : p.Scales c) :
    (p.scaled c).increment = c * p.increment :=
  clampSpan_of_isSpan ⟨Int.mul_nonneg (by omega) p.increment_nonneg, h.increment_le⟩

theorem Pace.Scales.limit_scaled {p : Pace} (h : p.Scales c) :
    (p.scaled c).limit = c * p.limit :=
  clampSpan_of_isSpan ⟨Int.mul_nonneg (by omega) p.limit_nonneg, h.limit_le⟩

end Engines

namespace Engine

/-- A charge is added exactly and then cut off to a span. -/
theorem debtAfter_eq_clampSpan {e : Engine} {units : Nat} (hunits : (units : Int) ≤ maxTick)
    (hdebt : 0 ≤ e.tentative.debt) :
    e.debtAfter units = clampSpan (e.tentative.debt + units * e.pace.increment) := by
  have hcharge := mul_increment_nonneg e.pace units
  rw [debtAfter_eq_min (.inr hunits) hdebt]
  unfold clampSpan
  omega

/-- An engine is within the range of ticks in the shorter ticks too. -/
structure Scales (c s : Int) (e : Engine) : Prop where
  pace : e.pace.Scales c
  sound : (e.rescaled c s).Sound
  now_le : (e.rescaled c s).now ≤ maxTick
  last_le : (e.rescaled c s).last ≤ maxTick

/-- What is left to the target is `c` times as many of the shorter ticks. -/
theorem target_rescaled_sub (c s : Int) (e : Engine) (instant : Int) :
    (e.rescaled c s).target - (c * instant + s) = c * (e.target - instant) := by
  have htarget : (e.rescaled c s).target = c * e.last + s + c * e.committed.debt := rfl
  rw [htarget, Int.mul_sub, target, Int.mul_add]
  omega

namespace Scales

variable {c s : Int} (hc : 1 ≤ c) {e : Engine} (h : e.Scales c s)

include hc h

/-- An event of a number of units adds the same time to the debt. -/
theorem debtAfter {units : Nat} (hunits : (units : Int) ≤ maxTick)
    (hexact : c = 1 ∨ (e.rescaled c s).tentative.debt +
      units * (e.rescaled c s).pace.increment ≤ maxTick) :
    (e.rescaled c s).debtAfter units = c * e.debtAfter units := by
  have hspan : IsSpan e.tentative.debt := isSpan_of_isSpan_mul hc h.sound.tentative
  have hsum : (e.rescaled c s).tentative.debt + units * (e.rescaled c s).pace.increment =
      c * (e.tentative.debt + units * e.pace.increment) := by
    have hincrement : (e.rescaled c s).pace.increment = c * e.pace.increment :=
      h.pace.increment_scaled hc
    rw [hincrement, Int.mul_add, Int.mul_left_comm]
    rfl
  rw [hsum] at hexact
  rw [debtAfter_eq_clampSpan hunits h.sound.tentative.1, debtAfter_eq_clampSpan hunits hspan.1,
    hsum, clampSpan_mul hc hexact]

variable (hs : 0 ≤ s)

include hs

theorem last_le_maxTick : e.last ≤ maxTick := by
  have hscaled : c * e.last + s ≤ maxTick := h.last_le
  have hmax := maxTick_pos
  rcases Int.lt_or_le e.last 0 with hneg | hnonneg
  · omega
  · have hgrows := le_mul_of_nonneg hc hnonneg
    omega

/-- An event finds the same schedule. -/
theorem scheduleAt {instant : Int} (hinstant : 0 ≤ instant)
    (hexact : c = 1 ∨ (e.rescaled c s).target - (c * instant + s) ≤ maxTick) :
    (e.rescaled c s).scheduleAt (c * instant + s) = (e.scheduleAt instant).scaled c := by
  have hgrows := le_mul_of_nonneg hc hinstant
  have hspan : IsSpan e.committed.debt := isSpan_of_isSpan_mul hc h.sound.committed
  have hscaled : (e.rescaled c s).pace.limit = c * e.pace.limit := h.pace.limit_scaled hc
  rw [target_rescaled_sub] at hexact
  rw [scheduleAt_of_nonneg h.last_le h.sound.committed (by omega),
    scheduleAt_of_nonneg (h.last_le_maxTick hc hs) hspan hinstant, target_rescaled_sub,
    clampSpan_mul hc hexact, hscaled]
  simp only [Schedule.scaled, Int.mul_lt_mul_left (show 0 < c by omega)]

/-- An event is early by the same time. -/
theorem delayAt {instant : Int} (hinstant : 0 ≤ instant)
    (hexact : c = 1 ∨ (e.rescaled c s).target - (c * instant + s) ≤ maxTick) :
    (e.rescaled c s).delayAt (c * instant + s) = c * e.delayAt instant := by
  have hscaled : (e.rescaled c s).pace.limit = c * e.pace.limit := h.pace.limit_scaled hc
  unfold Engine.delayAt
  dsimp only
  rw [h.scheduleAt hc hs hinstant hexact, hscaled]
  cases halarmed : (e.scheduleAt instant).alarmed with
  | false => simp [Schedule.scaled, halarmed]
  | true => simp [Schedule.scaled, halarmed, Int.mul_sub]

end Scales

section Action

variable {c s : Int} (hc : 1 ≤ c) (hs : 0 ≤ s) {e : Engine}

include hc hs

/-- An engine opens one of its increments ago, and this instant is a tick count. -/
theorem resetAt_rescaled (hpace : e.pace.Scales c) {start : Int} (hstart : 0 ≤ start)
    (hroom : c * start + s ≤ maxTick) :
    (e.rescaled c s).resetAt (c * start + s) = (e.resetAt start).rescaled c s := by
  have hgrows := le_mul_of_nonneg hc hstart
  have hincrement : (e.pace.scaled c).increment = c * e.pace.increment :=
    hpace.increment_scaled hc
  have hnonneg := e.pace.increment_nonneg
  have hmax := e.pace.increment_le
  have hscaled := hpace.increment_le
  have hcost := le_mul_of_nonneg hc hnonneg
  have hmin := minTick_eq
  have hlast : satSub start e.pace.increment = start - e.pace.increment :=
    saturate_of_inRange ⟨by omega, by omega⟩
  have hlast' : satSub (c * start + s) (c * e.pace.increment) =
      c * (start - e.pace.increment) + s := by
    have hsub := Int.mul_sub c start e.pace.increment
    have hrange : InRange (c * start + s - c * e.pace.increment) := ⟨by omega, by omega⟩
    rw [satSub, saturate_of_inRange hrange]
    omega
  have hzero : Schedule.scaled c {} = {} := by simp [Schedule.scaled]
  change ({ pace := e.pace.scaled c
            now := c * start + s
            last := satSub (c * start + s) (e.pace.scaled c).increment } : Engine) =
    { pace := e.pace.scaled c
      now := c * start + s
      last := c * satSub start e.pace.increment + s
      committed := Schedule.scaled c {}
      tentative := Schedule.scaled c {} }
  rw [hincrement, hlast', hlast, hzero]

theorem scales_resetAt (hpace : e.pace.Scales c) {start : Int} (hstart : 0 ≤ start)
    (hroom : c * start + s ≤ maxTick) : (e.resetAt start).Scales c s := by
  have hsquare := resetAt_rescaled hc hs hpace hstart hroom
  refine ⟨hpace, ?_, hroom, ?_⟩
  · rw [← hsquare]
    exact (e.rescaled c s).sound_resetAt _
  · rw [← hsquare]
    exact (inRange_saturate _).2

/-- **One action on an engine.** -/
theorem Scales.act_rescaled (h : e.Scales c s) {a : Action} (ha : a.Movable c s)
    (hexact : c = 1 ∨ (e.rescaled c s).ExactOn (a.moved c s)) :
    (e.rescaled c s).act (a.moved c s) = (e.act a).rescaled c s := by
  have hcommit : ∀ units : Nat, (units : Int) ≤ maxTick →
      c = 1 ∨ (e.rescaled c s).tentative.debt +
        units * (e.rescaled c s).pace.increment ≤ maxTick →
      (e.rescaled c s).commitUnits units = (e.commitUnits units).rescaled c s := by
    intro units hunits hfits
    have hdebt := h.debtAfter hc hunits hfits
    change ({ e.rescaled c s with
        last := c * e.now + s
        committed := ⟨(e.rescaled c s).debtAfter units, e.tentative.alarmed⟩ } : Engine) = _
    rw [hdebt]
    rfl
  cases a with
  | resetAt start => exact resetAt_rescaled hc hs h.pace ha.1 ha.2
  | examine instant =>
    have hschedule := h.scheduleAt hc hs ha.1 hexact
    change ({ e.rescaled c s with
        now := c * instant + s
        tentative := (e.rescaled c s).scheduleAt (c * instant + s) } : Engine) = _
    rw [hschedule]
    rfl
  | commit => exact hcommit 1 (by decide) hexact
  | commitUnits units => exact hcommit units ha hexact
  | rollback => rfl

/-- An engine stays within the range of ticks. -/
theorem Scales.act (h : e.Scales c s) {a : Action} (ha : a.Movable c s)
    (hexact : c = 1 ∨ (e.rescaled c s).ExactOn (a.moved c s)) : (e.act a).Scales c s := by
  have hsound := h.sound.act (a.moved c s)
  rw [h.act_rescaled hc hs ha hexact] at hsound
  cases a with
  | resetAt start => exact scales_resetAt hc hs h.pace ha.1 ha.2
  | examine instant => exact ⟨h.pace, hsound, ha.2, h.last_le⟩
  | commit | commitUnits _ => exact ⟨h.pace, hsound, h.now_le, h.now_le⟩
  | rollback => exact h

end Action

end Engine

/-! ### A tree of engines -/

/-- What is answered to an action, in the shorter ticks. -/
def Reply.scaled (c : Int) : Reply → Reply
  | .done => .done
  | .delay ticks => .delay (c * ticks)
  | .verdict calm => .verdict calm

/-- The design with all spans measured in the shorter ticks. -/
def Design.scaled (c : Int) : Design → Design
  | engine charging pace => .engine charging (pace.scaled c)
  | shaper charging peak sustained =>
    .shaper charging (peak.scaled c) (sustained.map (Pace.scaled c))
  | geometric => .geometric
  | null charging => .null charging
  | absent => .absent
  | present d => .present (d.scaled c)
  | compound p s => .compound (p.scaled c) (s.scaled c)

namespace Throttle

/-- The throttle in its present state, seen in the shorter ticks. -/
def rescaled (c s : Int) : Throttle → Throttle
  | engine charging e => .engine charging (e.rescaled c s)
  | shaper charging sh => .shaper charging (sh.mapEngines (Engine.rescaled c s))
  | geometric g => .geometric g
  | null charging => .null charging
  | absent => .absent
  | present t => .present (t.rescaled c s)
  | compound peak sustained => .compound (peak.rescaled c s) (sustained.rescaled c s)

/-- The debts of all engines, in the order of the leaves. -/
def debts (t : Throttle) : List Int := (t.leaves.filterMap engine?).map Engine.debt

/-- What is seen of a throttle when an action is done to it. -/
structure Observation where
  /-- What is answered. -/
  reply : Reply
  /-- Whether the throttle is alarmed afterwards. -/
  alarmed : Bool
  /-- The debts of its engines afterwards. -/
  debts : List Int
deriving DecidableEq, Repr

def Observation.scaled (c : Int) (o : Observation) : Observation :=
  ⟨o.reply.scaled c, o.alarmed, o.debts.map (c * ·)⟩

def observe (t : Throttle) (a : Action) : Observation :=
  ⟨(t.act a).1, (t.act a).2.isAlarmed, (t.act a).2.debts⟩

/-- What is seen of a throttle in a run of actions, step by step. -/
def observations (t : Throttle) : List Action → List Observation
  | [] => []
  | a :: rest => t.observe a :: (t.act a).2.observations rest

/-- No debt is cut off in a run of actions, neither when an event is examined nor when it is taken
in. -/
def RunsExactly (t : Throttle) : List Action → Prop
  | [] => True
  | a :: rest => t.ForallEngines (·.ExactOn a) ∧ (t.act a).2.RunsExactly rest

instance decidableRunsExactly (t : Throttle) : (actions : List Action) →
    Decidable (t.RunsExactly actions)
  | [] => inferInstanceAs (Decidable True)
  | a :: rest =>
    have : Decidable ((t.act a).2.RunsExactly rest) := decidableRunsExactly _ rest
    inferInstanceAs (Decidable (t.ForallEngines (·.ExactOn a) ∧ (t.act a).2.RunsExactly rest))

/-- A throttle measures nothing but time, and its engines are within the range of ticks in the
shorter ticks too. -/
structure Scales (c s : Int) (t : Throttle) : Prop where
  backoffFree : t.BackoffFree
  engines : t.ForallEngines fun e => e.Scales c s

section Tree

variable {c s : Int} (t : Throttle)

theorem design_rescaled : (t.rescaled c s).design = t.design.scaled c := by
  induction t with
  | engine _ _ | geometric _ | null _ | absent => rfl
  | shaper _ sh =>
    obtain ⟨peak, sustained⟩ := sh
    cases sustained <;> rfl
  | present t ih => exact congrArg Design.present ih
  | compound p s ihp ihs => simp only [rescaled, design, Design.scaled, ihp, ihs]

theorem leaves_rescaled : (t.rescaled c s).leaves = t.leaves.map (rescaled c s) := by
  induction t with
  | engine _ _ | geometric _ | null _ | absent => rfl
  | shaper _ sh =>
    obtain ⟨peak, sustained⟩ := sh
    cases sustained <;> rfl
  | present t ih => exact ih
  | compound p s ihp ihs => simp only [rescaled, leaves, ihp, ihs, List.map_append]

theorem debts_rescaled : (t.rescaled c s).debts = t.debts.map (c * ·) := by
  have hengine : ∀ leaf : Throttle,
      (leaf.rescaled c s).engine? = leaf.engine?.map (Engine.rescaled c s) := by
    intro leaf
    cases leaf <;> rfl
  unfold debts
  rw [leaves_rescaled, List.filterMap_map, List.map_map]
  simp only [Function.comp_def, hengine, ← List.map_filterMap, List.map_map]
  rfl

/-- A question that engines answer alike in either kind of tick is answered so by a throttle. -/
theorem Conjunctive.rescaled {f : Throttle → Bool} (hf : Conjunctive f)
    (hengine : ∀ charging e, f (engine charging (e.rescaled c s)) = f (engine charging e)) :
    f (t.rescaled c s) = f t := by
  induction t with
  | engine charging e => exact hengine charging e
  | shaper charging sh =>
    obtain ⟨peak, sustained⟩ := sh
    rw [Throttle.rescaled, hf.shaper, hf.shaper]
    cases sustained <;>
      simp only [Shaper.mapEngines, Option.map_none, Option.map_some, ofSustained, hengine]
  | geometric _ | null _ | absent => rfl
  | present t ih => rw [Throttle.rescaled, hf.present, hf.present, ih]
  | compound p s ihp ihs => rw [Throttle.rescaled, hf.compound, hf.compound, ihp, ihs]

theorem isAlarmed_rescaled : (t.rescaled c s).isAlarmed = t.isAlarmed := by
  have hcalm := Conjunctive.rollbackVerdict.rescaled (c := c) (s := s) t fun _ _ => rfl
  rwa [rollbackVerdict_eq, rollbackVerdict_eq, Bool.not_inj_iff] at hcalm

variable {t} {a : Action}

/-- If an action comes to the same for all engines, then it does for the throttle. -/
theorem act_rescaled_of_forallEngines
    (h : t.ForallEngines fun e => (e.rescaled c s).act (a.moved c s) = (e.act a).rescaled c s) :
    ((t.rescaled c s).act (a.moved c s)).2 = (t.act a).2.rescaled c s := by
  induction t with
  | engine charging e =>
    have hengine := congrArg (engine charging) (h charging e (List.mem_cons_self ..))
    cases a <;> exact hengine
  | shaper charging sh =>
    obtain ⟨peak, sustained⟩ := sh
    obtain ⟨hpeak, hsustained⟩ := forallEngines_shaper.mp h
    cases sustained with
    | none =>
      have hshaper := congrArg (fun e => shaper charging ⟨e, none⟩) hpeak
      cases a <;> exact hshaper
    | some e =>
      have hshaper :
          shaper charging ⟨(peak.rescaled c s).act (a.moved c s),
            some ((e.rescaled c s).act (a.moved c s))⟩ =
          shaper charging ⟨(peak.act a).rescaled c s, some ((e.act a).rescaled c s)⟩ := by
        rw [hpeak, hsustained e rfl]
      cases a <;> exact hshaper
  | geometric _ | null _ | absent => cases a <;> rfl
  | present t ih =>
    rw [act_present, rescaled, act_present, ih h]
    rfl
  | compound p s ihp ihs =>
    obtain ⟨hp, hs⟩ := ForallEngines.of_compound h
    rw [act_compound, rescaled, act_compound, ihp hp, ihs hs]
    rfl

/-- If all engines find an event early by the same time, then the throttle does. -/
theorem delayAt_rescaled_of_forallEngines (hc : 0 ≤ c) (hfree : t.BackoffFree) {instant : Int}
    (h : t.ForallEngines fun e =>
      (e.rescaled c s).delayAt (c * instant + s) = c * e.delayAt instant) :
    (t.rescaled c s).delayAt (c * instant + s) = c * t.delayAt instant := by
  have hmax : ∀ x y : Int, max (c * x) (c * y) = c * max x y := by
    intro x y
    rcases Int.le_total x y with hle | hle
    · rw [Int.max_eq_right hle, Int.max_eq_right (Int.mul_le_mul_of_nonneg_left hle hc)]
    · rw [Int.max_eq_left hle, Int.max_eq_left (Int.mul_le_mul_of_nonneg_left hle hc)]
  induction t with
  | engine charging e => exact h charging e (List.mem_cons_self ..)
  | shaper charging sh =>
    obtain ⟨peak, sustained⟩ := sh
    obtain ⟨hpeak, hsustained⟩ := forallEngines_shaper.mp h
    rw [delayAt_shaper, ← hmax, ← hpeak]
    cases sustained with
    | none => exact congrArg (max _) (Int.mul_zero c).symm
    | some e => exact congrArg (max _) (hsustained e rfl)
  | geometric g => exact absurd (List.mem_cons_self ..) (hfree g)
  | null _ | absent => exact (Int.mul_zero c).symm
  | present t ih => exact ih hfree h
  | compound p s ihp ihs =>
    obtain ⟨hpfree, hsfree⟩ := hfree.of_compound
    obtain ⟨hp, hs⟩ := ForallEngines.of_compound h
    rw [rescaled, delayAt, delayAt, ihp hpfree hp, ihs hsfree hs, hmax]

/-- An action that is exact on a throttle in the shorter ticks is exact on its engines. -/
theorem Scales.forallEngines (h : t.Scales c s)
    (hexact : c = 1 ∨ (t.rescaled c s).ForallEngines (·.ExactOn (a.moved c s))) :
    t.ForallEngines fun e => e.Scales c s ∧ (c = 1 ∨ (e.rescaled c s).ExactOn (a.moved c s)) := by
  intro charging e he
  refine ⟨h.engines charging e he, hexact.imp_right fun hengines => ?_⟩
  refine hengines charging (e.rescaled c s) ?_
  rw [leaves_rescaled]
  exact List.mem_map_of_mem (f := rescaled c s) he

end Tree

/-! ### Runs -/

section Runs

variable {c s : Int} (hc : 1 ≤ c) (hs : 0 ≤ s) {t : Throttle} (h : t.Scales c s)

include hc hs h

/-- **One action.** -/
theorem Scales.act {a : Action} (ha : a.Movable c s)
    (hexact : c = 1 ∨ (t.rescaled c s).ForallEngines (·.ExactOn (a.moved c s))) :
    (t.rescaled c s).observe (a.moved c s) = (t.observe a).scaled c ∧
      ((t.rescaled c s).act (a.moved c s)).2 = (t.act a).2.rescaled c s ∧
      (t.act a).2.Scales c s := by
  have hengines := h.forallEngines hexact
  have hsquare : ((t.rescaled c s).act (a.moved c s)).2 = (t.act a).2.rescaled c s :=
    act_rescaled_of_forallEngines (hengines.imp fun e he => he.1.act_rescaled hc hs ha he.2)
  have hreply : ((t.rescaled c s).act (a.moved c s)).1 = (t.act a).1.scaled c := by
    cases a with
    | resetAt _ => rfl
    | examine instant =>
      refine congrArg Reply.delay (delayAt_rescaled_of_forallEngines (by omega) h.backoffFree ?_)
      exact hengines.imp fun e he => he.1.delayAt hc hs ha.1 he.2
    | commit | commitUnits _ =>
      exact congrArg Reply.verdict (Conjunctive.commitVerdict.rescaled t fun _ _ => rfl)
    | rollback =>
      exact congrArg Reply.verdict (Conjunctive.rollbackVerdict.rescaled t fun _ _ => rfl)
  refine ⟨?_, hsquare, h.backoffFree.act a, ?_⟩
  · unfold observe
    rw [hsquare, hreply, isAlarmed_rescaled, debts_rescaled]
    rfl
  · exact hengines.act fun e he => he.1.act hc hs ha he.2

/-- **A run.** -/
theorem Scales.observations_rescaled {actions : List Action}
    (hactions : ∀ a ∈ actions, a.Movable c s)
    (hexact : c = 1 ∨ (t.rescaled c s).RunsExactly (actions.map (Action.moved c s))) :
    (t.rescaled c s).observations (actions.map (Action.moved c s)) =
      (t.observations actions).map (Observation.scaled c) := by
  induction actions generalizing t with
  | nil => rfl
  | cons a rest ih =>
    obtain ⟨hfirst, hrest⟩ := List.forall_mem_cons.mp hactions
    obtain ⟨hseen, hsquare, hnext⟩ := h.act hc hs hfirst (hexact.imp_right And.left)
    have hlater : c = 1 ∨
        ((t.act a).2.rescaled c s).RunsExactly (rest.map (Action.moved c s)) := by
      rw [← hsquare]
      exact hexact.imp_right And.right
    rw [List.map_cons, observations, observations, List.map_cons, hseen, hsquare,
      ih hnext hrest hlater]

end Runs

/-- **The choice of tick and epoch does not matter.** Let the spans of a throttle without a backoff
be measured in ticks of which `c` make up one, and let instants be counted from `s` of these before
the origin. Both throttles are opened at an instant, and then the same is done to both, in whatever
order of time, at instants that are not negative and that are tick counts in the shorter ticks too.
If no debt is cut off in the shorter ticks, then at every step all delays and debts are `c` times as
many ticks, and all verdicts and alarms are the same. If the ticks are as long as before, then it
does not matter whether debts are cut off. -/
theorem tick_and_epoch_not_seen {c s : Int} (hc : 1 ≤ c) (hs : 0 ≤ s) {t t' : Throttle}
    (hfree : t.BackoffFree) (hpaces : t.ForallEngines fun e => e.pace.Scales c)
    (hdesign : t'.design = t.design.scaled c) {start : Int} {actions : List Action}
    (hactions : ∀ a ∈ .resetAt start :: actions, a.Movable c s)
    (hexact : c = 1 ∨ t'.RunsExactly ((.resetAt start :: actions).map (Action.moved c s))) :
    t'.observations ((.resetAt start :: actions).map (Action.moved c s)) =
      (t.observations (.resetAt start :: actions)).map (Observation.scaled c) := by
  obtain ⟨⟨hstart, hroom⟩, hrest⟩ := List.forall_mem_cons.mp hactions
  have hopened : t'.resetAt (c * start + s) = (t.resetAt start).rescaled c s := by
    rw [resetAt_eq_of_design (hdesign.trans t.design_rescaled.symm)]
    exact act_rescaled_of_forallEngines (a := .resetAt start)
      (hpaces.imp fun _ he => Engine.resetAt_rescaled hc hs he hstart hroom)
  have hscales : (t.resetAt start).Scales c s := by
    refine ⟨hfree.act (.resetAt start), ?_⟩
    exact ForallEngines.act (a := .resetAt start) hpaces
      fun _ he => Engine.scales_resetAt hc hs he hstart hroom
  have hlater : c = 1 ∨
      ((t.resetAt start).rescaled c s).RunsExactly (actions.map (Action.moved c s)) := by
    rw [← hopened]
    exact hexact.imp_right And.right
  have hrun := hscales.observations_rescaled hc hs hrest hlater
  have hseen : t'.observe (.resetAt (c * start + s)) =
      (t.observe (.resetAt start)).scaled c := by
    change (⟨.done, (t'.resetAt (c * start + s)).isAlarmed,
      (t'.resetAt (c * start + s)).debts⟩ : Observation) = _
    rw [hopened, isAlarmed_rescaled, debts_rescaled]
    rfl
  change t'.observe (.resetAt (c * start + s)) ::
    (t'.resetAt (c * start + s)).observations (actions.map (Action.moved c s)) = _
  rw [hseen, hopened, hrun]
  rfl

/-- Two engines side by side, with instants that go back and a commit that is answered with an
alarm, in ticks a thousand times as short. And an engine without end between its events, whose debts
are cut off, seven ticks later. -/
theorem tick_and_epoch_not_seen_of_two_throttles :
    let pair (c : Int) := compound
      (engine .perUnit (.opened (.clamped .microseconds (c * 1000) (c * 250)) 3))
      (present (engine .perEvent (.opened (.clamped .microseconds (c * 400) (c * 900)) 0)))
    let actions : List Action :=
      [.resetAt 40, .examine 40, .commitUnits 3, .examine 10, .commit, .examine 2000, .rollback]
    let endless := engine .perUnit (.opened (.clamped .microseconds maxTick 250) 0)
    let more : List Action := [.resetAt 0, .examine 9, .commitUnits 5, .examine 4, .commit]
    (pair 1000).observations (actions.map (Action.moved 1000 5)) =
        ((pair 1).observations actions).map (Observation.scaled 1000) ∧
      ((pair 1000).observations (actions.map (Action.moved 1000 5))).map (·.reply) =
        [.done, .delay 0, .verdict true, .delay 2780000, .verdict false, .delay 1790000,
          .verdict false] ∧
      endless.observations (more.map (Action.moved 1 7)) =
        (endless.observations more).map (Observation.scaled 1) ∧
      (endless.observations more).map (·.debts) =
        [[0], [0], [maxTick], [maxTick], [maxTick]] := by
  intro pair actions endless more
  have hfree : (pair 1).BackoffFree := by
    intro g hg
    simp [pair] at hg
  have hpaces : (pair 1).ForallEngines fun e => e.pace.Scales 1000 := by decide
  have hendless : endless.ForallEngines fun e => e.pace.Scales 1 := by decide
  have hactions : ∀ a ∈ actions, a.Movable 1000 5 := by decide
  have hmore : ∀ a ∈ more, a.Movable 1 7 := by decide
  have hdesign : (pair 1000).design = (pair 1).design.scaled 1000 := by decide
  have hsame : endless.design = endless.design.scaled 1 := by decide
  have hexact : (pair 1000).RunsExactly (actions.map (Action.moved 1000 5)) := by decide
  refine ⟨?_, by decide, ?_, by decide⟩
  · exact tick_and_epoch_not_seen (by decide) (by decide) hfree hpaces hdesign hactions
      (.inr hexact)
  · exact tick_and_epoch_not_seen (by decide) (by decide) (backoffFree_engine _ _) hendless hsame
      hmore (.inl rfl)

end Throttle

end AdmissionControl
