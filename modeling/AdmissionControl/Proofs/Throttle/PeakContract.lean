import AdmissionControl.Proofs.Throttle.Design
import AdmissionControl.Proofs.Throttle.Nesting

/-!
# Contracts whose sustained rate is no limit

A contract with a sustained rate that is not below its peak rate is not bursty. The slower of the
two rates is then the peak rate, and no burst is allowed for, whatever the contract says about it.
So the sustained engine gets the emission of the peak engine (`Emission.ofSustained_eq_of_le`), and
its throttle enforces one and the same pace twice. As the two engines see the same events this is
not stricter than to enforce it once: a throttle for the contract cannot be told from one for its
peak rate alone (`Throttle.sameAnswers_constantRate`).
-/

namespace AdmissionControl

/-- At no less than the peak rate, the sustained emission is that of the peak rate. -/
theorem Emission.ofSustained_eq_of_le (r : Resolution) {peakRate : Int} (jitter : Int)
    {s : Sustained} (hrate : peakRate ≤ s.rate) :
    ofSustained r peakRate (ofPeak r peakRate jitter) s = ofPeak r peakRate jitter := by
  have hslower : min s.rate peakRate = peakRate := Int.min_eq_right hrate
  have hsteady : ¬ (1 < s.maxBurst ∧ 0 < s.rate ∧ s.rate < peakRate) := by omega
  unfold ofSustained
  rw [hslower, if_neg hsteady]
  rfl

/-- Such a contract puts the pace of the peak rate in both places of its design. -/
theorem Blueprint.design_variableRate_of_le (charging : Charging) (opening : Opening)
    {peakRate rate : Int} (hrate : peakRate ≤ rate) (jitter burst : Int) :
    let peak := Emission.ofPeak charging.resolution peakRate jitter
    let pace := Pace.clamped charging.resolution peak.increment peak.limit
    (shaper charging opening (.variableRate peakRate jitter rate burst)).design =
      .shaper charging pace (some pace) := by
  intro peak pace
  have hsustained : ((Contract.variableRate peakRate jitter rate burst).emissions
      charging.resolution).sustained = some peak :=
    congrArg some (Emission.ofSustained_eq_of_le _ jitter hrate)
  unfold design
  dsimp only
  rw [hsustained]
  rfl

namespace Throttle

/-- A shaper does no other work with its engine in both places than with it in one. -/
theorem mem_working_shaper_twice (charging : Charging) (e : Engine) (leaf : Throttle) :
    leaf ∈ (shaper charging ⟨e, some e⟩).working ↔ leaf ∈ (shaper charging ⟨e, none⟩).working := by
  simp [working, leaves, ofSustained, isIdle]

/-- **A contract that is not bursty is its peak contract.** Let the sustained rate of a contract be
no less than its peak rate, positive or not. A throttle for the contract and one for its peak rate
alone are opened at the same instant, whatever they have been used for. Then nothing that is done to
both tells them apart, whatever burst the contract allows for. -/
theorem sameAnswers_constantRate {σ : Type} [Clock σ] (charging : Charging)
    (opening opening' : Opening) {peakRate rate : Int} (hrate : peakRate ≤ rate)
    (jitter burst : Int) (env env' : Ambient σ) (requests requests' : List Directed)
    (start : Int) :
    let bursty := Blueprint.shaper charging opening (.variableRate peakRate jitter rate burst)
    let steady := Blueprint.shaper charging opening' (.constantRate peakRate jitter)
    let t := ((bursty.build env).1.serveAll requests env).1.2
    let t' := ((steady.build env').1.serveAll requests' env').1.2
    (t.resetAt start).SameAnswers (t'.resetAt start) := by
  intro bursty steady t t'
  let peak := Emission.ofPeak charging.resolution peakRate jitter
  let e := Engine.opened (.clamped charging.resolution peak.increment peak.limit) start
  have hopened : t.resetAt start = shaper charging ⟨e, some e⟩ := by
    rw [resetAt_eq_opened, design_serveAll, Blueprint.design_build,
      Blueprint.design_variableRate_of_le charging opening hrate jitter burst]
    rfl
  have hopened' : t'.resetAt start = shaper charging ⟨e, none⟩ := by
    rw [resetAt_eq_opened, design_serveAll, Blueprint.design_build]
    rfl
  rw [hopened, hopened']
  exact bisimulation_same_working.sameAnswers
    ⟨backoffFree_shaper charging _, mem_working_shaper_twice charging e⟩

/-- The sustained rate of this contract is twice its peak rate. Its throttle has taken in events
that were early before it is opened, the other one is new. After packets of two bytes and of one,
either of them finds a third packet early by an increment less the tolerance. -/
theorem sameAnswers_constantRate_of_faster_rate :
    let bursty := Blueprint.shaper .perUnit (.atInstant 3) (.variableRate 1000 40 2000 9)
    let steady := Blueprint.shaper .perUnit .onClock (.constantRate 1000 40)
    let env : Ambient ScriptedClock := { clock := { nanos := 12345678, step := 9 } }
    let requests : List Directed := [⟨[], .drive ⟨12345, 0, 4, .commit⟩⟩, ⟨[], .examineNow⟩]
    let t := ((bursty.build env).1.serveAll requests env).1.2
    let t' := ((steady.build env).1.serveAll [] env).1.2
    let actions : List Action := [.examine 0, .commitUnits 2, .examine 1999970, .commit,
      .examine 2000000, .rollback]
    (1000 : Int) ≤ 2000 ∧ t.isAlarmed = true ∧ (t.resetAt 0).SameAnswers (t'.resetAt 0) ∧
      ((t.resetAt 0).run actions).1 =
        [.delay 0, .verdict true, .delay 0, .verdict true, .delay 999960, .verdict true] := by
  intro bursty steady env requests t t' actions
  have hrate : (1000 : Int) ≤ 2000 := by decide
  have hsame := sameAnswers_constantRate .perUnit (.atInstant 3) .onClock hrate 40 9 env env
    requests [] 0
  have hsteady : ((t'.resetAt 0).run actions).1 =
      [.delay 0, .verdict true, .delay 0, .verdict true, .delay 999960, .verdict true] := by
    decide
  have halarmed : t.isAlarmed = true := by decide
  -- nothing is left to compute here, in particular not what the requests do
  with_reducible exact ⟨hrate, halarmed, hsame, (hsame.replies actions).trans hsteady⟩

end Throttle

end AdmissionControl
