import AdmissionControl.Proofs.Throttle.Built

/-!
# Callers who wait

The delay of a throttle is a promise to whoever waits for it. As long as nothing else is taken in
it shrinks by one with each tick, to nothing at the instant that it points to, and a caller who
waits out every delay before the event is committed is never answered with an alarm
(`Throttle.delays_are_exact`).

A `Visit` is what such a caller does about one event. The events need not be taken in: the caller
may look at any number of them and leave them again.
-/

namespace AdmissionControl

/-- What a caller does about an event that comes at an instant. -/
inductive Visit
  /-- The event is examined and left. -/
  | look (instant : Int)
  /-- The event is examined, put off for as long as it is early, and taken in as some units. -/
  | take (instant : Int) (units : Nat)
deriving DecidableEq, Repr

/-- The instant at which an event comes. -/
def Visit.instant : Visit → Int
  | look instant | take instant _ => instant

namespace Throttle

/-- The throttle that examines an event after its delay: at once if there is none, and again at the
end of the delay otherwise. -/
def waitedOut (t : Throttle) (instant : Int) : Throttle :=
  if t.delayAt instant = 0 then t.examine instant
  else (t.examine instant).rollback.examine (instant + t.delayAt instant)

/-- The instant at which the caller is done with an event. -/
def doneAt (t : Throttle) : Visit → Int
  | .look instant => instant
  | .take instant _ => instant + t.delayAt instant

def afterVisit (t : Throttle) : Visit → Throttle
  | .look instant => (t.examine instant).rollback
  | .take instant units => (t.waitedOut instant).commitUnits units

/-- The answer to the commit of an event, if it is taken in. -/
def verdictOn (t : Throttle) : Visit → Option Bool
  | .look _ => none
  | .take instant _ => some (t.waitedOut instant).commitVerdict

/-- The answers to all commits of a caller. -/
def verdicts (t : Throttle) : List Visit → List Bool
  | [] => []
  | v :: rest => (t.verdictOn v).toList ++ (t.afterVisit v).verdicts rest

/-- The caller starts at an instant, never goes back in time and waits for no instant beyond the
largest tick. -/
def Forward (t : Throttle) (seen : Int) : List Visit → Prop
  | [] => True
  | v :: rest =>
    seen ≤ v.instant ∧ t.doneAt v ≤ maxTick ∧ (t.afterVisit v).Forward (t.doneAt v) rest

section Visits

variable {t : Throttle} {seen : Int}

theorem BackoffFree.waitedOut_eq (h : t.BackoffFree) (instant : Int) :
    t.waitedOut instant = t.examine (instant + t.delayAt instant) := by
  unfold waitedOut
  by_cases hzero : t.delayAt instant = 0
  · rw [if_pos hzero, hzero, Int.add_zero]
  · rw [if_neg hzero, h.examine_rollback_examine]

theorem BackoffFree.afterVisit_take (h : t.BackoffFree) (instant : Int) (units : Nat) :
    t.afterVisit (.take instant units) =
      (t.examine (instant + t.delayAt instant)).commitUnits units :=
  congrArg (commitUnits units) (h.waitedOut_eq instant)

theorem BackoffFree.afterVisit (h : t.BackoffFree) (v : Visit) : (t.afterVisit v).BackoffFree := by
  cases v with
  | look instant => exact (h.act (.examine instant)).act .rollback
  | take instant units =>
    rw [h.afterVisit_take]
    exact (h.act (.examine _)).act (.commitUnits units)

/-- **One event.** A caller who waits is answered without alarm, and leaves every engine in order
for what comes next. -/
theorem ReadyAt.visit (h : t.ReadyAt seen) (hfree : t.BackoffFree) {v : Visit}
    (hseen : seen ≤ v.instant) :
    (∀ calm ∈ t.verdictOn v, calm = true) ∧ (t.afterVisit v).ReadyAt (t.doneAt v) := by
  cases v with
  | look instant =>
    refine ⟨fun calm hcalm => absurd hcalm (by simp [verdictOn]), ?_⟩
    exact (h.mono hseen).rollback_examine instant
  | take instant units =>
    have hready : t.ReadyAt instant := h.mono hseen
    have hnonneg := hfree.delayAt_nonneg instant
    have hover : t.delayAt (instant + t.delayAt instant) = 0 := by
      rw [hready.delayAt_add hfree hnonneg]
      omega
    constructor
    · rintro calm ⟨⟩
      rw [hfree.waitedOut_eq]
      exact hfree.commitVerdict_examine hover
    · rw [hfree.afterVisit_take]
      exact (hready.mono (by omega)).commitUnits_examine units

/-- **A row of events.** A caller who waits is never answered with an alarm. -/
theorem ReadyAt.verdicts_calm (h : t.ReadyAt seen) (hfree : t.BackoffFree) {visits : List Visit}
    (hforward : t.Forward seen visits) : ∀ calm ∈ t.verdicts visits, calm = true := by
  induction visits generalizing t seen with
  | nil => exact fun calm hcalm => absurd hcalm (List.not_mem_nil)
  | cons v rest ih =>
    obtain ⟨hseen, -, hrest⟩ := hforward
    obtain ⟨hcalm, hnext⟩ := h.visit hfree hseen
    intro calm hmem
    rcases List.mem_append.mp hmem with hfirst | hlater
    · exact hcalm calm (Option.mem_toList.mp hfirst)
    · exact ih hnext (hfree.afterVisit v) hrest calm hlater

end Visits

/-- **Delays are exact.** Take a throttle without backoffs and any run of actions on it. The delays
that it then answers are not negative and do not grow with the instant. Where no engine has its
last event after an instant (the last event of an engine that has only been opened is before it
opens), the delay at that instant shrinks with the time by just that time. And if the throttle is
opened at some instant, a caller who goes on from there, and waits out the delay of every event
that is to be taken in, has every commit answered without alarm. -/
theorem delays_are_exact {σ : Type} [Clock σ] {b : Blueprint} (hfree : b.BackoffFree)
    (env : Ambient σ) (actions : List Action) :
    let t := ((b.build env).1.run actions).2
    (∀ early late, early ≤ late →
        0 ≤ t.delayAt late ∧ t.delayAt late ≤ t.delayAt early) ∧
      (∀ instant wait, t.ForallEngines (fun e => e.last ≤ instant) → 0 ≤ wait →
        wait ≤ t.delayAt instant →
          (t.examine instant).rollback.delayAt (instant + wait) = t.delayAt instant - wait) ∧
      ∀ start visits, InRange start → (t.resetAt start).Forward start visits →
        ∀ calm ∈ (t.resetAt start).verdicts visits, calm = true := by
  intro t
  have hfree' : t.BackoffFree := (hfree.build env).run actions
  have hsound : t.ForallEngines Engine.Sound :=
    (b.forallEngines_build (fun _ _ => ⟨isSpan_zero, isSpan_zero⟩) env).run
      (fun a _ he => he.act a) actions
  refine ⟨fun early late hle => ⟨hfree'.delayAt_nonneg late, t.delayAt_anti hle⟩, ?_, ?_⟩
  · intro instant wait hlast hwait hle
    have hready : t.ReadyAt instant := fun charging e he =>
      ⟨hlast charging e he, (hsound charging e he).committed⟩
    rw [hfree'.delayAt_rollback_examine, hready.delayAt_add hfree' hwait]
    omega
  · intro start visits hstart hforward
    have hopened : (t.resetAt start).BackoffFree := hfree'.act (.resetAt start)
    exact (t.readyAt_resetAt hstart.1).verdicts_calm hopened hforward

/-- Two engines of different ticks, of which the second has taken in an event early. At 900 the
delay is its delay, 7600 ticks, while at the smallest tick it is cut off. After a new start a caller
waits twice, and looks at an event in between. -/
theorem delays_are_exact_of_compound :
    let b : Blueprint := .compound
      (.engine .perUnit (.atInstant 0) (.clamped .microseconds 1000 250))
      (.present (.engine .perUnit .onClock (.clamped .nanoseconds 3000 500)))
    let env : Ambient ScriptedClock := { clock := { nanos := 7 } }
    let t := ((b.build env).1.run [.resetAt 0, .examine 0, .commit, .examine 900, .commitUnits 2]).2
    let visits : List Visit := [.take 5000 1, .look 5100, .take 5500 3]
    b.BackoffFree ∧ t.delayAt 900 = 7600 ∧ t.delayAt minTick = maxTick - 250 ∧
      (0 ≤ t.delayAt 900 ∧ t.delayAt 900 ≤ t.delayAt minTick) ∧
      (t.examine 900).rollback.delayAt (900 + 7599) = 7600 - 7599 ∧
      (t.resetAt 5000).verdicts visits = [true, true] ∧
      ∀ calm ∈ (t.resetAt 5000).verdicts visits, calm = true := by
  intro b env t visits
  have hfree : b.BackoffFree := ⟨trivial, trivial⟩
  have hdelay : t.delayAt 900 = 7600 := by decide
  have hlast : t.ForallEngines fun e => e.last ≤ 900 := by
    intro charging e he
    rcases List.mem_cons.mp he with heq | hrest
    · cases heq
      decide
    · cases List.mem_singleton.mp hrest
      decide
  have hforward : (t.resetAt 5000).Forward 5000 visits :=
    ⟨by decide, by decide, by decide, by decide, by decide, by decide, trivial⟩
  obtain ⟨hmono, hexact, hcalm⟩ := delays_are_exact hfree env
    [.resetAt 0, .examine 0, .commit, .examine 900, .commitUnits 2]
  refine ⟨hfree, hdelay, by decide, hmono minTick 900 (by decide), ?_, by decide, ?_⟩
  · rw [← hdelay]
    exact hexact 900 7599 hlast (by decide) (by decide)
  · exact hcalm 5000 visits (by decide) hforward

end Throttle

end AdmissionControl
