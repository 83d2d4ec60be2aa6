import AdmissionControl.Proofs.Resolution.Rounding
import AdmissionControl.Proofs.Throttle.Invariants

/-!
# Resets on the clock

A reset opens each engine at a reading of its own, in its own ticks. An event that is examined on
the clock comes at one instant for all of them, in the ticks of the peak half. So the two need not
go together: a sustained half with more ticks to a second opens at a number that the instant of the
peak half does not come near, and a throttle that has just been reset may be shut.

`Throttle.clocked_reset_reopens_iff` says when it is open: exactly if no engine has opened later
than its increment and limit allow, counted from the instant at which the event is examined. This is
so wherever no engine has more ticks to a second than the throttle as a whole, whatever the clock
does between its readings.
-/

namespace AdmissionControl

/-! ### Steady clocks -/

section Clocks

variable {σ : Type} [Clock σ]

/-- A steady clock that has come to a reading. -/
structure Clock.SteadyFrom (s : σ) (nanos : Nat) : Prop where
  steady : Clock.Steady s
  nanos_le : ∀ next, (Clock.read s).1 = .ok next → nanos ≤ next

theorem Clock.Steady.steadyFrom {s : σ} (h : Clock.Steady s) : Clock.SteadyFrom s 0 :=
  ⟨h, fun _ _ => Nat.zero_le _⟩

/-- A steady clock gives a reading, and has then come to it. -/
theorem Clock.SteadyFrom.read {s : σ} {nanos : Nat} (h : Clock.SteadyFrom s nanos) :
    ∃ next, (Clock.read s).1 = .ok next ∧ nanos ≤ next ∧
      Clock.SteadyFrom (Clock.read s).2 next := by
  obtain ⟨f, hf, hmono⟩ := h.steady
  have hfirst := hf 0
  have hsecond := hf 1
  rw [Clock.reading_zero] at hfirst
  rw [Clock.reading_succ, Clock.reading_zero] at hsecond
  refine ⟨f 0, hfirst, h.nanos_le _ hfirst, h.steady.read, ?_⟩
  intro next hnext
  rw [hsecond] at hnext
  cases hnext
  exact hmono 0

/-- A scripted clock that is told of no failure is steady. -/
theorem ScriptedClock.steady (c : ScriptedClock) (hfail : c.fail = 0)
    (hnanos : c.nanos ≤ maxReading) : Clock.Steady c := by
  have hafter : ∀ n, (Clock.after c n).fail = 0 ∧ (Clock.after c n).nanos ≤ maxReading := by
    intro n
    induction n with
    | zero =>
      rw [Clock.after_zero]
      exact ⟨hfail, hnanos⟩
    | succ n ih =>
      rw [Clock.after_succ, ScriptedClock.read_of_fail_eq_zero ih.1]
      exact ⟨ih.1, Nat.min_le_right _ _⟩
  refine ⟨fun n => (Clock.after c n).nanos, ?_, ?_⟩
  · intro n
    rw [Clock.reading, ScriptedClock.read_of_fail_eq_zero (hafter n).1]
  · intro n
    dsimp only
    rw [Clock.after_succ, ScriptedClock.read_of_fail_eq_zero (hafter n).1]
    exact Nat.le_min.mpr ⟨Nat.le_add_right _ _, (hafter n).2⟩

end Clocks

/-! ### Engines -/

namespace Engine

/-- **When a new engine is open.** An event may come before the start of the engine, by as much as
its increment and its limit together. -/
theorem delayAt_opened_eq_zero_iff (pace : Pace) {start instant : Int} (hstart : IsSpan start)
    (hinstant : IsSpan instant) :
    (opened pace start).delayAt instant = 0 ↔ start ≤ instant + pace.increment + pace.limit := by
  obtain ⟨hstartNonneg, hstartLe⟩ := hstart
  obtain ⟨hinstantNonneg, hinstantLe⟩ := hinstant
  have hincrement := pace.increment_nonneg
  have hincrementLe := pace.increment_le
  have hlimit := pace.limit_nonneg
  have hmin := minTick_eq
  rw [delayAt_eq_max_satSub, committed_opened, last_opened, pace_opened]
  dsimp only
  unfold satSub saturate
  omega

variable {σ : Type} [Clock σ]

/-- The time of an engine is the reading in its ticks. -/
theorem time_of_read_eq_ok (e : Engine) {env : Ambient σ} {nanos : Nat}
    (h : (Clock.read env.clock).1 = .ok nanos) :
    e.time env = (ticksAt nanos e.frequency, { env with clock := (Clock.read env.clock).2 }) := by
  have hticks : ticksAt nanos e.frequency = e.pace.resolution.ofReading nanos :=
    if_neg (Int.not_le.mpr e.pace.resolution.frequency_pos)
  rw [hticks]
  simp only [time, Timed.bind_apply, Timed.readClock_apply, h, Timed.pure_apply]

theorem reset_of_read_eq_ok (e : Engine) {env : Ambient σ} {nanos : Nat}
    (h : (Clock.read env.clock).1 = .ok nanos) :
    e.reset env = (e.resetAt (ticksAt nanos e.frequency),
      { env with clock := (Clock.read env.clock).2 }) := by
  unfold reset
  rw [Timed.bind_apply, e.time_of_read_eq_ok h, Timed.pure_apply]

end Engine

namespace Throttle

/-! ### What a reset leaves -/

/-- A throttle is as it is when it opens, at a reading that is not after `latest`. -/
def OpenedBy (latest : Nat) (leaf : Throttle) : Prop :=
  ∃ nanos, nanos ≤ latest ∧ leaf.resetAt (ticksAt nanos leaf.frequency) = leaf

theorem OpenedBy.mono {a b : Nat} {leaf : Throttle} (h : leaf.OpenedBy a) (hab : a ≤ b) :
    leaf.OpenedBy b := by
  obtain ⟨nanos, hle, heq⟩ := h
  exact ⟨nanos, Nat.le_trans hle hab, heq⟩

section Clocked

variable {σ : Type} [Clock σ] {env : Ambient σ} {nanos : Nat}

theorem openedBy_reset_engine (charging : Charging) (e : Engine)
    (hread : (Clock.read env.clock).1 = .ok nanos) :
    (engine charging (e.reset env).1).OpenedBy nanos := by
  rw [e.reset_of_read_eq_ok hread]
  exact ⟨nanos, Nat.le_refl nanos, rfl⟩

/-- **A reset on a steady clock.** Each leaf opens at a reading of its own, and no later reading is
before any of these. -/
theorem openedBy_reset (t : Throttle) (h : Clock.SteadyFrom env.clock nanos) :
    ∃ latest, nanos ≤ latest ∧ Clock.SteadyFrom (t.reset env).2.clock latest ∧
      ∀ leaf ∈ (t.reset env).1.leaves, leaf.OpenedBy latest := by
  induction t generalizing env nanos with
  | engine charging e =>
    obtain ⟨next, hread, hle, hnext⟩ := h.read
    refine ⟨next, hle, ?_, ?_⟩
    · rw [reset, Timed.bind_apply, e.reset_of_read_eq_ok hread]
      exact hnext
    · intro leaf hleaf
      cases List.mem_singleton.mp hleaf
      exact openedBy_reset_engine charging e hread
  | shaper charging s =>
    obtain ⟨peak, sustained⟩ := s
    obtain ⟨first, hread, hle, hfirst⟩ := h.read
    have hpeak : (engine charging (peak.reset env).1).OpenedBy first :=
      openedBy_reset_engine charging peak hread
    have hclock : (peak.reset env).2.clock = (Clock.read env.clock).2 := by
      rw [peak.reset_of_read_eq_ok hread]
    rw [← hclock] at hfirst
    cases sustained with
    | none =>
      refine ⟨first, hle, hfirst, ?_⟩
      intro leaf hleaf
      rcases List.mem_cons.mp hleaf with rfl | hrest
      · exact hpeak
      · cases List.mem_singleton.mp hrest
        exact ⟨first, Nat.le_refl first, rfl⟩
    | some e =>
      obtain ⟨second, hread', hle', hsecond⟩ := hfirst.read
      refine ⟨second, Nat.le_trans hle hle', ?_, ?_⟩
      · change Clock.SteadyFrom (e.reset (peak.reset env).2).2.clock second
        rw [e.reset_of_read_eq_ok hread']
        exact hsecond
      · intro leaf hleaf
        rcases List.mem_cons.mp hleaf with rfl | hrest
        · exact hpeak.mono hle'
        · cases List.mem_singleton.mp hrest
          exact openedBy_reset_engine charging e hread'
  | geometric _ | null _ | absent =>
    refine ⟨nanos, Nat.le_refl nanos, h, ?_⟩
    intro leaf hleaf
    cases List.mem_singleton.mp hleaf
    exact ⟨nanos, Nat.le_refl nanos, rfl⟩
  | present t ih => exact ih h
  | compound p s ihp ihs =>
    obtain ⟨first, hle, hfirst, hp⟩ := ihp h
    obtain ⟨second, hle', hsecond, hs⟩ := ihs hfirst
    refine ⟨second, Nat.le_trans hle hle', hsecond, ?_⟩
    intro leaf hleaf
    rcases List.mem_append.mp hleaf with hpeak | hsustained
    · exact (hp leaf hpeak).mono hle'
    · exact hs leaf hsustained

/-- On a steady clock the time of a throttle is a reading in its ticks. -/
theorem exists_time_eq_ticksAt (t : Throttle) (h : Clock.SteadyFrom env.clock nanos) :
    ∃ next, nanos ≤ next ∧ (t.time env).1 = ticksAt next t.frequency := by
  induction t with
  | engine _ e =>
    obtain ⟨next, hread, hle, -⟩ := h.read
    refine ⟨next, hle, ?_⟩
    rw [time, e.time_of_read_eq_ok hread, frequency]
  | shaper _ s =>
    obtain ⟨next, hread, hle, -⟩ := h.read
    refine ⟨next, hle, ?_⟩
    rw [time, Shaper.time, s.peak.time_of_read_eq_ok hread]
    rfl
  | geometric _ | null _ | absent => exact ⟨nanos, Nat.le_refl nanos, rfl⟩
  | present t ih => exact ih
  | compound p _ ihp _ => exact ihp

/-- What is fixed about the engines of a throttle is the same after a reset. -/
theorem ForallEngines.reset {P : Engine → Prop} {t : Throttle} (h : t.ForallEngines P)
    (hpace : ∀ e instant, P (e.resetAt instant) ↔ P e) (env : Ambient σ) :
    (t.reset env).1.ForallEngines P :=
  h.reset_of_resetAt (fun e instant => (hpace e instant).mpr) env

theorem frequency_reset (t : Throttle) (env : Ambient σ) :
    (t.reset env).1.frequency = t.frequency :=
  frequency_eq_of_design (t.design_reset env)

end Clocked

/-! ### The first event -/

/-- A throttle all of whose leaves have just opened answers an event by zero, and its commit without
alarm, exactly if none of its engines has opened too late for it. -/
theorem open_iff_of_openedBy {t : Throttle} {latest : Nat}
    (h : ∀ leaf ∈ t.leaves, leaf.OpenedBy latest) {instant : Int} (hinstant : IsSpan instant) :
    (t.delayAt instant = 0 ∧ (t.examine instant).commitVerdict = true) ↔
      t.ForallEngines fun e => e.now ≤ instant + e.pace.increment + e.pace.limit := by
  have hengine : ∀ charging e, engine charging e ∈ t.leaves →
      (e.delayAt instant = 0 ↔ e.now ≤ instant + e.pace.increment + e.pace.limit) := by
    intro charging e he
    obtain ⟨nanos, -, heq⟩ := h _ he
    have hopened : e.resetAt (ticksAt nanos e.frequency) = e := by
      injection heq
    have hstart := isSpan_ticksAt nanos e.frequency
    have hiff := Engine.delayAt_opened_eq_zero_iff e.pace hstart hinstant
    change (e.resetAt (ticksAt nanos e.frequency)).delayAt instant = 0 ↔
      (e.resetAt (ticksAt nanos e.frequency)).now ≤ _ at hiff
    rwa [hopened] at hiff
  constructor
  · rintro ⟨-, hverdict⟩ charging e he
    exact (hengine charging e he).mp ((t.commitVerdict_examine_iff instant).mp hverdict _ he)
  · intro hopen
    have hleaves : ∀ leaf ∈ t.leaves, leaf.delayAt instant = 0 := by
      intro leaf hleaf
      rcases leaf_cases hleaf with ⟨charging, e, rfl⟩ | ⟨g, rfl⟩ | hnull
      · exact (hengine charging e hleaf).mpr (hopen charging e hleaf)
      · -- a backoff that has opened is as new
        obtain ⟨nanos, -, heq⟩ := h _ hleaf
        have hfresh : Geometric.fresh = g := by injection heq
        rw [← hfresh]
        exact Geometric.delay_fresh
      · exact hnull instant
    refine ⟨?_, (t.commitVerdict_examine_iff instant).mpr hleaves⟩
    obtain ⟨leaf, hleaf, heq⟩ := t.exists_leaf_delayAt_eq instant
    rw [← heq]
    exact hleaves leaf hleaf

/-- **When a reset on the clock opens a throttle.** On a steady clock the event that is examined
right after a reset is answered by zero, and its commit without alarm, exactly if no engine has
opened later than its increment and its limit allow, counted from the instant of the event in the
ticks of the whole throttle. This is so wherever no engine has more ticks to a second than the whole
throttle. -/
theorem clocked_reset_reopens_iff {σ : Type} [Clock σ] (t : Throttle) {env : Ambient σ}
    (hsteady : Clock.Steady env.clock) :
    let opened := t.reset env
    let instant := (opened.1.time opened.2).1
    let examined := opened.1.examineNow opened.2
    ((examined.1.1 = 0 ∧ examined.1.2.commitVerdict = true) ↔
        opened.1.ForallEngines fun e => e.now ≤ instant + e.pace.increment + e.pace.limit) ∧
      (t.ForallEngines (fun e => e.frequency ≤ t.frequency) →
        examined.1.1 = 0 ∧ examined.1.2.commitVerdict = true) := by
  intro opened instant examined
  obtain ⟨latest, -, hfrom, hopenedBy⟩ := t.openedBy_reset hsteady.steadyFrom
  obtain ⟨next, hnext, htime⟩ := opened.1.exists_time_eq_ticksAt hfrom
  have hinstant : instant = ticksAt next t.frequency := by
    rw [← t.frequency_reset env]
    exact htime
  have hspan : IsSpan instant := hinstant ▸ isSpan_ticksAt next t.frequency
  have hiff := open_iff_of_openedBy hopenedBy hspan
  refine ⟨hiff, ?_⟩
  intro hfrequency
  have hafter : opened.1.ForallEngines fun e => e.frequency ≤ t.frequency :=
    hfrequency.reset (fun _ _ => Iff.rfl) env
  refine hiff.mpr ?_
  intro charging e he
  obtain ⟨nanos, hle, heq⟩ := hopenedBy _ he
  have hopened : e.resetAt (ticksAt nanos e.frequency) = e := by injection heq
  have hnow : e.now = ticksAt nanos e.frequency := (congrArg Engine.now hopened).symm
  have hincrement := e.pace.increment_nonneg
  have hlimit := e.pace.limit_nonneg
  calc e.now = ticksAt nanos e.frequency := hnow
    _ ≤ ticksAt nanos t.frequency := ticksAt_le_of_frequency_le nanos (hafter charging e he)
    _ ≤ ticksAt next t.frequency := ticksAt_mono (Nat.le_trans hle hnext) t.frequency
    _ = instant := hinstant.symm
    _ ≤ instant + e.pace.increment + e.pace.limit := by omega

/-- A throttle that counts nanoseconds in front and microseconds behind is open after a reset, on a
clock that moves on with every reading. Before that it is shut, with its debts far over its
limits. -/
theorem clocked_reset_reopens_nanoseconds_in_front :
    let front : Throttle := .present (.engine .perUnit (.opened (.clamped .nanoseconds 1000 250) 0))
    let back : Throttle := .compound (.geometric .fresh)
      (.engine .perEvent (.opened (.clamped .microseconds 70 5) 0))
    let used := ((compound front back).run
      [.examine 2000, .commitUnits 900, .examine 2000, .commitUnits 900]).2
    let env : Ambient ScriptedClock := { clock := { nanos := 500000, step := 7 } }
    let opened := used.reset env
    let examined := opened.1.examineNow opened.2
    used.delayAt 3000 = 1798750 ∧ examined.1.1 = 0 ∧ examined.1.2.commitVerdict = true := by
  intro front back used env opened examined
  have hsteady : Clock.Steady env.clock := env.clock.steady rfl (by decide)
  refine ⟨by decide, (used.clocked_reset_reopens_iff hsteady).2 ?_⟩
  intro charging e he
  have hleaves : ∀ leaf ∈ used.leaves, leaf.frequency ≤ used.frequency := by decide
  exact hleaves _ he

/-- With microseconds in front of nanoseconds a throttle that has just been built and reset is
shut. One second after the origin its front half examines the event at a million, where its back
half opens at a billion. -/
theorem clocked_reset_shuts_microseconds_in_front :
    let b : Blueprint := .compound (.engine .perEvent .onClock (.clamped .microseconds 1000 250))
      (.engine .perEvent .onClock (.clamped .nanoseconds 1000 250))
    let env : Ambient ScriptedClock := { clock := { nanos := 1000000000 } }
    let built := b.build env
    let opened := built.1.reset built.2
    let examined := opened.1.examineNow opened.2
    Clock.Steady env.clock ∧ examined.1.1 = 998998750 ∧ examined.1.2.commitVerdict = false := by
  intro b env built opened examined
  exact ⟨env.clock.steady rfl (by decide), by decide, by decide⟩

end Throttle

end AdmissionControl
