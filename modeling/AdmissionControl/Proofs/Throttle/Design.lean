import AdmissionControl.Proofs.Throttle.Leaves
import AdmissionControl.Proofs.Throttle.Requests
import AdmissionControl.Throttle.Blueprint

/-!
# What is fixed about a throttle

A `Design` is what a throttle is built with: how it is put together, and the pace of each of its
engines. `Throttle.design` reads it off a throttle in whatever state. It is the design of the
blueprint that the throttle was built from (`Blueprint.design_build`), and nothing that can be asked
of a throttle or of its parts changes it (`Throttle.design_serveAll`).

A throttle that is opened as new keeps nothing else: it is the throttle of its design that opens at
that instant (`Throttle.resetAt_eq_opened`).
-/

namespace AdmissionControl

/-- What a throttle is built with. -/
inductive Design
  | engine (charging : Charging) (pace : Pace)
  | shaper (charging : Charging) (peak : Pace) (sustained : Option Pace)
  | geometric
  | null (charging : Charging)
  | absent
  | present (inner : Design)
  | compound (peak sustained : Design)
deriving DecidableEq, Repr

/-- The throttle of a design that opens at an instant. -/
def Design.opened (instant : Int) : Design → Throttle
  | engine charging pace => .engine charging (.opened pace instant)
  | shaper charging peak sustained =>
    .shaper charging ⟨.opened peak instant, sustained.map (.opened · instant)⟩
  | geometric => .geometric .fresh
  | null charging => .null charging
  | absent => .absent
  | present d => .present (d.opened instant)
  | compound p s => .compound (p.opened instant) (s.opened instant)

/-- The design of the throttle that is built from a blueprint. -/
def Blueprint.design : Blueprint → Design
  | engine charging _ pace => .engine charging pace
  | shaper charging _ c =>
    let r := charging.resolution
    let e := c.emissions r
    .shaper charging (.clamped r e.peak.increment e.peak.limit)
      (e.sustained.map fun s => .clamped r s.increment s.limit)
  | geometric => .geometric
  | null charging => .null charging
  | absent => .absent
  | present b => .present b.design
  | compound p s => .compound p.design s.design

namespace Throttle

/-- The design of a throttle. -/
def design : Throttle → Design
  | engine charging e => .engine charging e.pace
  | shaper charging s => .shaper charging s.peak.pace (s.sustained.map (·.pace))
  | geometric _ => .geometric
  | null charging => .null charging
  | absent => .absent
  | present t => .present t.design
  | compound p s => .compound p.design s.design

/-- **Opening a throttle keeps its design and nothing else.** -/
theorem resetAt_eq_opened (t : Throttle) (instant : Int) :
    t.resetAt instant = t.design.opened instant := by
  induction t with
  | engine _ _ | geometric _ | null _ | absent => rfl
  | shaper _ s =>
    obtain ⟨peak, sustained⟩ := s
    cases sustained <;> rfl
  | present t ih => exact congrArg present ih
  | compound p s ihp ihs => simp only [resetAt, design, Design.opened, ihp, ihs]

theorem resetAt_eq_of_design {t t' : Throttle} (h : t'.design = t.design) (instant : Int) :
    t'.resetAt instant = t.resetAt instant := by
  rw [resetAt_eq_opened, h, ← resetAt_eq_opened]

/-- The ticks of a throttle are part of its design. -/
theorem frequency_eq_of_design {t t' : Throttle} (h : t'.design = t.design) :
    t'.frequency = t.frequency := by
  rw [← t'.frequency_resetAt 0, resetAt_eq_of_design h, frequency_resetAt]

/-! ### Actions -/

@[simp] theorem design_act (t : Throttle) (a : Action) : (t.act a).2.design = t.design := by
  induction t with
  | engine _ _ | geometric _ | null _ | absent => cases a <;> rfl
  | shaper _ s =>
    obtain ⟨peak, sustained⟩ := s
    cases sustained <;> cases a <;> rfl
  | present t ih => rw [act_present, design, design, ih]
  | compound p s ihp ihs => rw [act_compound, design, design, ihp, ihs]

@[simp] theorem design_examine (t : Throttle) (instant : Int) :
    (t.examine instant).design = t.design := t.design_act (.examine instant)

/-- No run of actions changes the design. -/
@[simp] theorem design_run (t : Throttle) (actions : List Action) :
    (t.run actions).2.design = t.design := by
  induction actions generalizing t with
  | nil => rfl
  | cons a rest ih => exact (ih _).trans (t.design_act a)

/-! ### Requests -/

/-- Putting a part of the same design in the place of a part keeps the design of the whole. -/
theorem design_withPart {path : List Part} {t part new : Throttle} (h : t.part? path = some part)
    (hnew : new.design = part.design) : (t.withPart path new).design = t.design := by
  fun_induction part? path t with
  | case1 t =>
    cases h
    exact hnew
  | case2 path p s ih => exact congrArg (Design.compound · s.design) (ih h)
  | case3 path p s ih => exact congrArg (Design.compound p.design) (ih h)
  | case4 path t ih => exact congrArg Design.present (ih h)
  | case5 => simp at h

variable {σ : Type} [Clock σ]

@[simp] theorem design_reset (t : Throttle) (env : Ambient σ) :
    (t.reset env).1.design = t.design := by
  induction t generalizing env with
  | engine _ _ | geometric _ | null _ | absent => rfl
  | shaper _ s =>
    obtain ⟨peak, sustained⟩ := s
    cases sustained <;> rfl
  | present t ih => exact congrArg Design.present (ih env)
  | compound p s ihp ihs =>
    change Design.compound (p.reset env).1.design (s.reset (p.reset env).2).1.design = _
    rw [ihp, ihs, design]

/-- No request changes the design. -/
theorem design_serve (t : Throttle) (request : Request) (env : Ambient σ) :
    (t.serve request env).1.2.design = t.design := by
  rcases t.serve_cases request env with ⟨actions, hrun⟩ | hreset
  · rw [hrun, design_run]
  · rw [hreset, design_reset]

theorem design_serveDirected (t : Throttle) (d : Directed) (env : Ambient σ) :
    (t.serveDirected d env).1.2.design = t.design := by
  unfold serveDirected
  cases hpart : t.part? d.path with
  | none => rfl
  | some part => exact design_withPart hpart (part.design_serve d.request env)

/-- **No row of requests changes the design**, to whatever parts of the throttle they go. -/
theorem design_serveAll (t : Throttle) (requests : List Directed) (env : Ambient σ) :
    (t.serveAll requests env).1.2.design = t.design := by
  induction requests generalizing t env with
  | nil => rfl
  | cons d rest ih => exact (ih _ _).trans (t.design_serveDirected d env)

end Throttle

/-- A throttle has the design of the blueprint that it is built from. -/
theorem Blueprint.design_build {σ : Type} [Clock σ] (b : Blueprint) (env : Ambient σ) :
    (b.build env).1.design = b.design := by
  induction b generalizing env with
  | engine _ opening _ => cases opening <;> rfl
  | shaper _ opening c =>
    obtain ⟨peakRate, jitter, sustained⟩ := c
    cases sustained <;> cases opening <;> rfl
  | geometric | null _ | absent => rfl
  | present b ih => exact congrArg Design.present (ih env)
  | compound p s ihp ihs =>
    change Design.compound (p.build env).1.design (s.build (p.build env).2).1.design = _
    rw [ihp, ihs, design]

end AdmissionControl
