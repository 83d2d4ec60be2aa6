import AdmissionControl.Throttle.Request

/-!
# What requests come to

However much can be asked of a throttle, it only ever does two things: a run of actions at instants
that it is told, or a reset on the clock (`Throttle.serve_cases`). Traffic is a run of actions too
(`Throttle.exists_run_eq_drive`), so what every action keeps is kept by all traffic.
-/

namespace AdmissionControl

namespace Throttle

/-- Whatever becomes of an event, it is a run of actions. -/
theorem exists_run_eq_handle (t : Throttle) (early : EarlyPolicy) (instant : Int) :
    ∃ actions, (t.handle early instant).after = (t.run actions).2 := by
  unfold handle
  dsimp only
  by_cases hzero : t.delayAt instant = 0
  · rw [if_pos hzero]
    exact ⟨[.examine instant, .commit], rfl⟩
  · rw [if_neg hzero]
    cases early with
    | rollback => exact ⟨[.examine instant, .rollback], rfl⟩
    | commit => exact ⟨[.examine instant, .commit], rfl⟩
    | wait =>
      dsimp only
      unfold putOff
      split
      · exact ⟨[.examine instant, .rollback, .examine (satAdd instant (t.delayAt instant)),
          .commit], rfl⟩
      · exact ⟨[.examine instant, .rollback], rfl⟩

/-- All traffic is a run of actions. -/
theorem exists_run_eq_drive (t : Throttle) (traffic : Traffic) :
    ∃ actions, (t.drive traffic).throttle = (t.run actions).2 := by
  have hrepeat : ∀ count, ∃ actions,
      (Nat.repeat (Progress.next traffic) count ⟨t, { now := traffic.start }, #[]⟩).throttle =
        (t.run actions).2 := by
    intro count
    induction count with
    | zero => exact ⟨[], rfl⟩
    | succ count ih =>
      obtain ⟨before, hbefore⟩ := ih
      let p := Nat.repeat (Progress.next traffic) count ⟨t, { now := traffic.start }, #[]⟩
      obtain ⟨last, hlast⟩ := p.throttle.exists_run_eq_handle traffic.early p.tally.now
      refine ⟨before ++ last, ?_⟩
      rw [run_append, ← hbefore]
      exact hlast
  exact hrepeat traffic.count

/-- **One request.** It comes to a run of actions, or it is a reset on the clock. -/
theorem serve_cases {σ : Type} [Clock σ] (t : Throttle) (request : Request) (env : Ambient σ) :
    (∃ actions, (t.serve request env).1.2 = (t.run actions).2) ∨
      (t.serve request env).1.2 = (t.reset env).1 := by
  cases request with
  | act action =>
    left
    by_cases hsupports : t.supports action = true
    · simp only [serve, if_pos hsupports]
      exact ⟨[action], rfl⟩
    · simp only [serve, if_neg hsupports]
      exact ⟨[], rfl⟩
  | reset => exact .inr rfl
  | examineNow => exact .inl ⟨[.examine _], rfl⟩
  | readClock => cases t <;> exact .inl ⟨[], rfl⟩
  | drive traffic => exact .inl (t.exists_run_eq_drive traffic)
  | time | frequency | isAlarmed | isValid | inspect => exact .inl ⟨[], rfl⟩

end Throttle

end AdmissionControl
