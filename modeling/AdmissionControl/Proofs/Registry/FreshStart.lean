import AdmissionControl.Proofs.Engine.Target
import AdmissionControl.Proofs.Registry.Uses
import AdmissionControl.Proofs.Resolution.Rounding
import AdmissionControl.Proofs.Throttle.Alarms
import AdmissionControl.Proofs.Throttle.Design

/-!
# A fresh start

A throttle that is opened at an instant forgets all that has been done with it: what it keeps is
its design (`Throttle.resetAt_eq_opened`), and the first event from that instant on conforms to each
of its leaves (`Throttle.delayAt_resetAt`). This holds for every tick count to start from. At the
lower end of the range an engine cannot place its last event a whole increment before the start, but
its debt is zero and the last event is not after the start, which is all that matters.

A registry opens the throttle of each new key at the instant of its first use, so the first check of
a key is always admitted, whatever the factory hands out (`checkUnits_of_find?_eq_none`).
-/

namespace AdmissionControl

/-- An engine that opens finds the first event from then on in time. -/
theorem Engine.delayAt_resetAt (e : Engine) {start instant : Int} (hstart : InRange start)
    (hle : start ≤ instant) : (e.resetAt start).delayAt instant = 0 := by
  have hready : (e.resetAt start).ReadyAt instant := (e.readyAt_resetAt hstart.1).mono hle
  have htarget := e.target_resetAt hstart.2
  have hlimit : 0 ≤ (e.resetAt start).pace.limit := e.pace.limit_nonneg
  have hincrement := e.pace.increment_nonneg
  have hlow := hstart.1
  rw [hready.delayAt_eq_max, htarget]
  omega

namespace Throttle

section Opened

variable (t : Throttle) {start instant : Int}

/-- **The first event conforms**, at whatever instant from the start on it comes. -/
theorem delayAt_resetAt (hstart : InRange start) (hle : start ≤ instant) :
    (t.resetAt start).delayAt instant = 0 := by
  induction t with
  | engine _ e => exact e.delayAt_resetAt hstart hle
  | shaper charging s =>
    obtain ⟨peak, sustained⟩ := s
    have hpeak := peak.delayAt_resetAt hstart hle
    cases sustained with
    | none => simp [Shaper.resetAt, hpeak]
    | some e =>
      have hsustained := e.delayAt_resetAt hstart hle
      simp [Shaper.resetAt, hpeak, hsustained]
  | geometric _ => exact Geometric.delay_fresh
  | null _ | absent => rfl
  | present t ih => exact ih
  | compound p s ihp ihs => rw [resetAt, delayAt, ihp, ihs, Int.max_self]

/-- The first event is taken in without alarm. A delay of zero is not enough for this where there
are backoffs, so it is shown leaf by leaf. -/
theorem commitVerdict_examine_resetAt (hstart : InRange start) (hle : start ≤ instant) :
    ((t.resetAt start).examine instant).commitVerdict = true := by
  rw [commitVerdict_examine_iff, leaves_resetAt]
  intro opened hopened
  obtain ⟨leaf, -, rfl⟩ := List.mem_map.mp hopened
  exact leaf.delayAt_resetAt hstart hle

/-- The first event is answered by a delay of zero, and its commit without alarm. -/
theorem run_resetAt (hstart : InRange start) (hle : start ≤ instant) {a : Action}
    (ha : a = .commit ∨ ∃ units, a = .commitUnits units) :
    ((t.resetAt start).run [.examine instant, a]).1 = [.delay 0, .verdict true] := by
  have hdelay := t.delayAt_resetAt hstart hle
  have hverdict := t.commitVerdict_examine_resetAt hstart hle
  rcases ha with rfl | ⟨units, rfl⟩ <;> simp only [run, act, hdelay, hverdict]

/-- The decision on the first event. -/
theorem offer_resetAt (hstart : InRange start) (units : Nat) :
    ((t.resetAt start).offer start units).1 = ⟨true, 0, none, false⟩ := by
  have hdelay := t.delayAt_resetAt hstart (Int.le_refl start)
  have hverdict := t.commitVerdict_examine_resetAt hstart (Int.le_refl start)
  have halarm : ((t.resetAt start).afterOffer start units).isAlarmed = false := by
    simp [afterOffer, hdelay, hverdict]
  rw [offer, halarm, hdelay]
  rfl

end Opened

end Throttle

namespace Registry

variable {κ σ : Type} [DecidableEq κ] [Clock σ]

omit [Clock σ] in
/-- A use of a key that is not in use finds a throttle that has the event in time. -/
theorem delayAt_found_of_find?_eq_none {r : Registry κ} {key : κ}
    (hnew : r.slots.find? key = none) (prototype : Throttle) (nanos : Nat) :
    (r.found prototype key nanos).delayAt
      (ticksAt nanos (r.found prototype key nanos).frequency) = 0 := by
  let start := ticksAt nanos prototype.frequency
  have hfound : r.found prototype key nanos = prototype.resetAt start := by
    unfold found
    rw [hnew]
    rfl
  rw [hfound, Throttle.frequency_resetAt]
  exact prototype.delayAt_resetAt (inRange_ticksAt nanos prototype.frequency) (Int.le_refl start)

/-- A check of a key that is not in use is admitted. -/
theorem checkUnits_of_find?_eq_none {r : Registry κ} {key : κ} (hnew : r.slots.find? key = none)
    {env : Ambient σ} {nanos : Nat} (hread : (Clock.read env.clock).1 = .ok nanos) (units : Nat) :
    (r.checkUnits key units env).1.1 = .ok ⟨true, 0, none, false⟩ := by
  let made := (r.factory.make { env with clock := (Clock.read env.clock).2 }).1
  let start := ticksAt nanos made.frequency
  have hstart : InRange start := inRange_ticksAt nanos made.frequency
  rw [checkUnits_of_read_eq_ok r key units hread, throttleFor_of_find?_eq_none hnew,
    Throttle.frequency_resetAt, made.offer_resetAt hstart units]

end Registry

/-- **A reset is a fresh start.** A throttle that is opened at an instant is the one of its design
that opens there, in every part of its state. So two throttles of the same design are the same once
they are opened at an instant, and so is a throttle with which anything whatever has been done in
between. It is free of alarm, the first event from then on has a delay of zero, and its commit is
answered without alarm, be it for one unit or for many. In a registry the first check of a key is
admitted with a delay of zero, wherever new throttles come from. -/
theorem Throttle.reset_erases_history {κ σ : Type} [DecidableEq κ] [Clock σ] (t : Throttle)
    {start : Int} (hstart : InRange start) :
    t.resetAt start = t.design.opened start ∧
      (∀ t' : Throttle, t'.design = t.design → t'.resetAt start = t.resetAt start) ∧
      (∀ (requests : List Directed) (env : Ambient σ),
        (t.serveAll requests env).1.2.resetAt start = t.resetAt start) ∧
      (t.resetAt start).isAlarmed = false ∧
      (∀ instant, start ≤ instant →
        ((t.resetAt start).run [.examine instant, .commit]).1 = [.delay 0, .verdict true] ∧
          ∀ units, ((t.resetAt start).run [.examine instant, .commitUnits units]).1 =
            [.delay 0, .verdict true]) ∧
      ∀ (r : Registry κ) (key : κ) (units : Nat) (env : Ambient σ) (nanos : Nat),
        r.slots.find? key = none → (Clock.read env.clock).1 = .ok nanos →
          (r.checkUnits key units env).1.1 = .ok ⟨true, 0, none, false⟩ := by
  refine ⟨t.resetAt_eq_opened start, ?_, ?_, t.isAlarmed_resetAt start, ?_, ?_⟩
  · intro t' hdesign
    exact resetAt_eq_of_design hdesign start
  · intro requests env
    exact resetAt_eq_of_design (t.design_serveAll requests env) start
  · intro instant hle
    constructor
    · exact t.run_resetAt hstart hle (.inl rfl)
    · intro units
      exact t.run_resetAt hstart hle (.inr ⟨units, rfl⟩)
  · intro r key units env nanos hnew hread
    exact Registry.checkUnits_of_find?_eq_none hnew hread units

/-- A compound in which an engine without end between its events is alarmed with its debt at the
largest tick, a backoff has just rejected an event and a shaper has one under examination. All of
this is gone when it opens at the smallest tick: it is the one of its design that opens there, and
a registry that copies it admits the first check of a key. -/
theorem Throttle.reset_erases_history_at_minTick :
    let fresh : Throttle := .compound
      (.engine .perUnit (.opened (.clamped .nanoseconds maxTick 250) 0))
      (.compound
        (.present (.shaper .perUnit (.opened .nanoseconds (.variableRate 500 250 200 10) 0)))
        (.geometric .fresh))
    let used := (fresh.run [.examine 0, .commit, .examine 10, .commitUnits 7, .examine 20, .commit,
      .examine 30]).2
    let r : Registry Nat := .new (.copying used)
    let env : Ambient ScriptedClock := { clock := { nanos := 4000 } }
    used.isAlarmed = true ∧ used.delayAt 30 = maxTick - 260 ∧
      used.resetAt minTick = used.design.opened minTick ∧
      used.resetAt minTick = fresh.resetAt minTick ∧
      ((used.resetAt minTick).run [.examine 5, .commitUnits 9]).1 = [.delay 0, .verdict true] ∧
      (r.checkUnits 3 2 env).1.1 = .ok ⟨true, 0, none, false⟩ := by
  intro fresh used r env
  have hstart : InRange minTick := by decide
  have hread : (Clock.read env.clock).1 = .ok 4000 := rfl
  have hdesign : fresh.design = used.design := by decide
  obtain ⟨hopened, hsame, -, -, hfirst, hcheck⟩ := used.reset_erases_history
    (κ := Nat) (σ := ScriptedClock) hstart
  refine ⟨by decide, by decide, hopened, (hsame fresh hdesign).symm, (hfirst 5 (by decide)).2 9, ?_⟩
  exact hcheck r 3 2 env 4000 rfl hread

end AdmissionControl
