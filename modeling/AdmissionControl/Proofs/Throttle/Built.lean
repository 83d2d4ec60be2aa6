import AdmissionControl.Proofs.Throttle.Delays
import AdmissionControl.Throttle.Blueprint

/-!
# What a blueprint builds

Whatever the clock gives while a throttle is built, each of its engines is one that has just been
opened (`Blueprint.forallEngines_build`), and there is a backoff in it only if the blueprint asks
for one (`Blueprint.BackoffFree.build`).
-/

namespace AdmissionControl

namespace Blueprint

/-- The blueprint asks for no backoff. -/
def BackoffFree : Blueprint → Prop
  | geometric => False
  | engine .. | shaper .. | null _ | absent => True
  | present b => b.BackoffFree
  | compound p s => p.BackoffFree ∧ s.BackoffFree

variable {σ : Type} [Clock σ] {P : Engine → Prop}

theorem forallEngines_buildEngine (hopened : ∀ pace instant, P (.opened pace instant))
    (pace : Pace) (opening : Opening) (env : Ambient σ) : P (buildEngine pace opening env).1 := by
  cases opening <;> exact hopened _ _

theorem forallEngines_buildShaper (hopened : ∀ pace instant, P (.opened pace instant))
    (r : Resolution) (c : Contract) (opening : Opening) (env : Ambient σ) :
    P (buildShaper r c opening env).1.peak ∧
      ∀ e, (buildShaper r c opening env).1.sustained = some e → P e := by
  obtain ⟨peakRate, jitter, sustained⟩ := c
  cases sustained with
  | none =>
    cases opening <;> exact ⟨hopened _ _, fun e he => nomatch he⟩
  | some s =>
    cases opening <;>
    · refine ⟨hopened _ _, ?_⟩
      rintro e ⟨⟩
      exact hopened _ _

/-- What holds of an engine that has just been opened holds of all engines of a new throttle. -/
theorem forallEngines_build (b : Blueprint) (hopened : ∀ pace instant, P (.opened pace instant))
    (env : Ambient σ) : (b.build env).1.ForallEngines P := by
  induction b generalizing env with
  | engine charging opening pace =>
    intro charging' e he
    cases List.mem_singleton.mp he
    exact forallEngines_buildEngine hopened pace opening env
  | shaper charging opening c =>
    exact Throttle.forallEngines_shaper.mpr
      (forallEngines_buildShaper hopened charging.resolution c opening env)
  | geometric | null _ | absent =>
    intro charging e he
    nomatch List.mem_singleton.mp he
  | present b ih => exact ih env
  | compound p s ihp ihs =>
    intro charging e he
    rcases List.mem_append.mp he with hp | hs
    · exact ihp env charging e hp
    · exact ihs (p.build env).2 charging e hs

theorem BackoffFree.build {b : Blueprint} (h : b.BackoffFree) (env : Ambient σ) :
    (b.build env).1.BackoffFree := by
  induction b generalizing env with
  | geometric => exact h.elim
  | shaper charging _ _ => exact Throttle.backoffFree_shaper charging _
  | engine _ _ _ | null _ | absent =>
    intro g hg
    nomatch List.mem_singleton.mp hg
  | present b ih => exact ih h env
  | compound p s ihp ihs =>
    obtain ⟨hp, hs⟩ := h
    intro g hg
    rcases List.mem_append.mp hg with hpeak | hsustained
    · exact ihp hp env g hpeak
    · exact ihs hs (p.build env).2 g hsustained

end Blueprint

end AdmissionControl
