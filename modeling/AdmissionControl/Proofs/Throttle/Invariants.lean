import AdmissionControl.Proofs.Throttle.Delays
import AdmissionControl.Proofs.Throttle.Design

/-!
# Invariants of a throttle

What every action on an engine keeps, all that can be asked of a throttle keeps of its engines
(`Throttle.ForallEngines.serveAll`), also where a request goes to a part of the throttle alone or
opens each engine at a reading of its own. With the design, which no request changes either, this
gives what a throttle always is: `Throttle.Regular`.
-/

namespace AdmissionControl

/-- An engine that opens has no debts. -/
theorem Engine.sound_resetAt (e : Engine) (start : Int) : (e.resetAt start).Sound :=
  ⟨isSpan_zero, isSpan_zero⟩

namespace Throttle

section Engines

variable {P : Engine → Prop} {t : Throttle}

/-- The engines of a part are engines of the whole. -/
theorem ForallEngines.part? {path : List Part} {part : Throttle} (h : t.ForallEngines P)
    (hpart : t.part? path = some part) : part.ForallEngines P := by
  fun_induction Throttle.part? path t with
  | case1 t =>
    cases hpart
    exact h
  | case2 path p s ih => exact ih h.of_compound.1 hpart
  | case3 path p s ih => exact ih h.of_compound.2 hpart
  | case4 path t ih => exact ih h hpart
  | case5 => simp at hpart

/-- The engines of a throttle with another one in the place of a part are engines of the two. -/
theorem ForallEngines.withPart {path : List Part} {new : Throttle} (h : t.ForallEngines P)
    (hnew : new.ForallEngines P) : (t.withPart path new).ForallEngines P := by
  fun_induction Throttle.withPart path t new with
  | case1 => exact hnew
  | case2 path p s new ih =>
    obtain ⟨hp, hs⟩ := ForallEngines.of_compound h
    exact forallEngines_compound.mpr ⟨ih hp hnew, hs⟩
  | case3 path p s new ih =>
    obtain ⟨hp, hs⟩ := ForallEngines.of_compound h
    exact forallEngines_compound.mpr ⟨hp, ih hs hnew⟩
  | case4 path t new ih => exact ih h hnew
  | case5 => exact h

variable {σ : Type} [Clock σ]

/-- A reset opens each engine at some instant. -/
theorem ForallEngines.reset_of_resetAt (h : t.ForallEngines P)
    (hopen : ∀ e instant, P e → P (e.resetAt instant)) (env : Ambient σ) :
    (t.reset env).1.ForallEngines P := by
  induction t generalizing env with
  | engine charging e =>
    intro charging' e' he'
    cases List.mem_singleton.mp he'
    exact hopen e _ (h charging e (List.mem_cons_self ..))
  | shaper charging s =>
    obtain ⟨peak, sustained⟩ := s
    obtain ⟨hpeak, hsustained⟩ := forallEngines_shaper.mp h
    cases sustained with
    | none => exact forallEngines_shaper.mpr ⟨hopen peak _ hpeak, fun e he => nomatch he⟩
    | some e =>
      refine forallEngines_shaper.mpr ⟨hopen peak _ hpeak, ?_⟩
      rintro e' ⟨⟩
      exact hopen e _ (hsustained e rfl)
  | geometric _ => exact fun charging e he => nomatch List.mem_singleton.mp he
  | null _ | absent => exact h
  | present t ih => exact ih h env
  | compound p s ihp ihs =>
    obtain ⟨hp, hs⟩ := ForallEngines.of_compound h
    exact forallEngines_compound.mpr ⟨ihp hp env, ihs hs _⟩

/-- **One request.** -/
theorem ForallEngines.serve (h : t.ForallEngines P) (hstep : ∀ a e, P e → P (e.act a))
    (request : Request) (env : Ambient σ) : (t.serve request env).1.2.ForallEngines P := by
  rcases t.serve_cases request env with ⟨actions, hrun⟩ | hreset
  · rw [hrun]
    exact h.run hstep actions
  · rw [hreset]
    exact h.reset_of_resetAt (fun e instant he => hstep (.resetAt instant) e he) env

theorem ForallEngines.serveDirected (h : t.ForallEngines P) (hstep : ∀ a e, P e → P (e.act a))
    (d : Directed) (env : Ambient σ) : (t.serveDirected d env).1.2.ForallEngines P := by
  unfold Throttle.serveDirected
  cases hpart : t.part? d.path with
  | none => exact h
  | some part => exact h.withPart ((h.part? hpart).serve hstep d.request env)

/-- **A row of requests.** What every action on an engine keeps, all requests keep, to whatever
parts of the throttle they go. -/
theorem ForallEngines.serveAll (h : t.ForallEngines P) (hstep : ∀ a e, P e → P (e.act a))
    (requests : List Directed) (env : Ambient σ) :
    (t.serveAll requests env).1.2.ForallEngines P := by
  induction requests generalizing t env with
  | nil => exact h
  | cons d rest ih => exact ih (h.serveDirected hstep d env) _

end Engines

/-- No backoff comes into a throttle but by its design. -/
theorem BackoffFree.of_design {t t' : Throttle} (h : t.BackoffFree)
    (hdesign : t'.design = t.design) : t'.BackoffFree := by
  have hopened : (t'.resetAt 0).BackoffFree := by
    rw [resetAt_eq_of_design hdesign]
    exact h.act (.resetAt 0)
  intro g hg
  refine hopened .fresh ?_
  rw [leaves_resetAt]
  exact List.mem_map_of_mem hg

/-! ### Regular throttles -/

/-- The throttle is built like a prototype, and all debts of its engines are spans. -/
structure Regular (prototype t : Throttle) : Prop where
  design : t.design = prototype.design
  sound : t.ForallEngines Engine.Sound

namespace Regular

variable {prototype t : Throttle}

theorem resetAt (prototype : Throttle) (start : Int) :
    prototype.Regular (prototype.resetAt start) where
  design := prototype.design_act (.resetAt start)
  sound := prototype.forallEngines_resetAt fun e => e.sound_resetAt start

theorem act (h : prototype.Regular t) (a : Action) : prototype.Regular (t.act a).2 where
  design := (t.design_act a).trans h.design
  sound := ForallEngines.act h.sound fun _ he => he.act a

theorem afterOffer (h : prototype.Regular t) (instant : Int) (units : Nat) :
    prototype.Regular (t.afterOffer instant units) := by
  rw [afterOffer_eq_act]
  exact (h.act _).act _

/-- A throttle stays regular, whatever is asked of it. -/
theorem serveAll {σ : Type} [Clock σ] (h : prototype.Regular t) (requests : List Directed)
    (env : Ambient σ) : prototype.Regular (t.serveAll requests env).1.2 where
  design := (t.design_serveAll requests env).trans h.design
  sound := h.sound.serveAll (fun a _ he => he.act a) requests env

end Regular

end Throttle

end AdmissionControl
