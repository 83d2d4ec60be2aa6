import AdmissionControl.Proofs.Engine.Target
import AdmissionControl.Proofs.Throttle.Admitted

/-!
# Looser engines admit no fewer events

An engine that is looser than another, with a shorter increment and a wider limit, need not admit
every event that the other one admits: it may still be busy with events that the other has turned
away. But it never falls behind in their number (`Throttle.length_picked_le_length_admitted`), even
if the caller of the stricter engine is free to leave events that conform. In particular, of all
ways to choose among the events that conform none lets an engine take in more of them than to take
each one as it comes.

The proof runs both engines side by side. What the looser engine has to work off beyond the
stricter one is paid for by the events that it is ahead, at one of its increments for each
(`Leads`). If it turns away an event that the stricter engine takes in, it has more to work off by
then, so it is ahead by at least one event.
-/

namespace AdmissionControl

/-- An event of a single unit, and whether the caller wants it to be taken in. -/
structure Bid where
  instant : Int
  wanted : Bool
deriving DecidableEq, Repr

def Bid.event (bid : Bid) : Event := ⟨bid.instant, 1⟩

/-- The events that are taken in if those that conform and are wanted are committed, and all others
are left. -/
def Throttle.picked (t : Throttle) : List Bid → List Event
  | [] => []
  | bid :: rest =>
    if bid.wanted = true ∧ t.delayAt bid.instant = 0 then
      bid.event :: (t.examine bid.instant).commit.picked rest
    else (t.examine bid.instant).rollback.picked rest

/-! ### One event -/

namespace Engine

variable {e : Engine} {instant : Int}

theorem ReadyAt.target_commit_le (h : e.ReadyAt instant) :
    (e.examine instant).commit.target ≤ max e.target instant + e.pace.increment := by
  rw [h.target_commit_examine_eq]
  omega

theorem ReadyAt.le_target_commit (h : e.ReadyAt instant) (hzero : e.delayAt instant = 0)
    (hfits : e.pace.increment + e.pace.limit ≤ maxTick) :
    max e.target instant + e.pace.increment ≤ (e.examine instant).commit.target := by
  have hone : ((1 : Nat) : Int) * e.pace.increment + e.pace.limit ≤ maxTick := by
    rwa [Int.natCast_one, Int.one_mul]
  have hmoved := h.le_target_commitUnits_examine (Int.le_of_eq hzero) hone
  rwa [Int.natCast_one, Int.one_mul] at hmoved

end Engine

/-- Two engines side by side at an instant, the second at least as loose as the first. What the
second has to work off beyond the first is no more than its increments for the events that it is
ahead. -/
structure Leads (strict loose : Engine) (instant : Int) (ahead : Nat) : Prop where
  increment_le : loose.pace.increment ≤ strict.pace.increment
  limit_le : strict.pace.limit ≤ loose.pace.limit
  fits : strict.pace.increment + strict.pace.limit ≤ maxTick
  strict_readyAt : strict.ReadyAt instant
  loose_readyAt : loose.ReadyAt instant
  target_le : max loose.target instant ≤
    max strict.target instant + ahead * loose.pace.increment

namespace Leads

variable {strict loose : Engine} {instant : Int} {ahead : Nat}

/-- Time that passes works off as much for the first engine as for the second, or all of it. -/
theorem later (h : Leads strict loose instant ahead) {next : Int} (hle : instant ≤ next) :
    Leads strict loose next ahead := by
  refine ⟨h.increment_le, h.limit_le, h.fits, h.strict_readyAt.mono hle, h.loose_readyAt.mono hle,
    ?_⟩
  have htarget := h.target_le
  have hahead := Engine.mul_increment_nonneg loose.pace ahead
  omega

theorem neither (h : Leads strict loose instant ahead) :
    Leads (strict.examine instant) (loose.examine instant) instant ahead :=
  { h with
    strict_readyAt := h.strict_readyAt.examine instant
    loose_readyAt := h.loose_readyAt.examine instant }

theorem both (h : Leads strict loose instant ahead) (hzero : strict.delayAt instant = 0) :
    Leads (strict.examine instant).commit (loose.examine instant).commit instant ahead := by
  refine ⟨h.increment_le, h.limit_le, h.fits, h.strict_readyAt.commitUnits_examine 1,
    h.loose_readyAt.commitUnits_examine 1, ?_⟩
  have htarget := h.target_le
  have hstrict := h.strict_readyAt.le_target_commit hzero h.fits
  have hloose := h.loose_readyAt.target_commit_le
  have hincrement := h.increment_le
  have hcost := strict.pace.increment_nonneg
  rw [Engine.pace_commit, Engine.pace_examine]
  have hahead := Engine.mul_increment_nonneg loose.pace ahead
  omega

/-- The second engine pays for an event of its own with the event that it is ahead by then. -/
theorem onlyLoose (h : Leads strict loose instant ahead) :
    Leads (strict.examine instant) (loose.examine instant).commit instant (ahead + 1) := by
  refine ⟨h.increment_le, h.limit_le, h.fits, h.strict_readyAt.examine instant,
    h.loose_readyAt.commitUnits_examine 1, ?_⟩
  have htarget := h.target_le
  have hloose := h.loose_readyAt.target_commit_le
  have hcost := loose.pace.increment_nonneg
  have hahead := Engine.mul_increment_nonneg loose.pace ahead
  rw [Engine.target_examine, Engine.pace_commit, Engine.pace_examine, Int.natCast_add,
    Int.natCast_one, Int.add_mul, Int.one_mul]
  omega

/-- An event that only the first engine takes in finds the second one ahead. -/
theorem onlyStrict (h : Leads strict loose instant ahead) (hzero : strict.delayAt instant = 0)
    (hearly : loose.delayAt instant ≠ 0) :
    ∃ fewer, ahead = fewer + 1 ∧
      Leads (strict.examine instant).commit (loose.examine instant) instant fewer := by
  have htarget := h.target_le
  have hlimit := h.limit_le
  have hconforms := h.strict_readyAt.target_le_of_delayAt_le_zero (Int.le_of_eq hzero)
  have hbusy : instant + loose.pace.limit < loose.target := by
    have hdelay := h.loose_readyAt.delayAt_eq_max
    omega
  have hroom := strict.pace.limit_nonneg
  cases ahead with
  | zero =>
    rw [Int.natCast_zero, Int.zero_mul] at htarget
    omega
  | succ fewer =>
    refine ⟨fewer, rfl, h.increment_le, h.limit_le, h.fits,
      h.strict_readyAt.commitUnits_examine 1, h.loose_readyAt.examine instant, ?_⟩
    have hstrict := h.strict_readyAt.le_target_commit hzero h.fits
    have hincrement := h.increment_le
    rw [Int.natCast_add, Int.natCast_one, Int.add_mul, Int.one_mul] at htarget
    rw [Engine.target_examine, Engine.pace_examine]
    omega

end Leads

/-! ### A row of events -/

namespace Throttle

section Engine

variable {charging : Charging} {e : Engine} {bid : Bid} {rest : List Bid}

theorem picked_engine_of_taken (h : bid.wanted = true ∧ e.delayAt bid.instant = 0) :
    (engine charging e).picked (bid :: rest) =
      bid.event :: (engine charging (e.examine bid.instant).commit).picked rest :=
  if_pos h

theorem picked_engine_of_left (h : ¬ (bid.wanted = true ∧ e.delayAt bid.instant = 0)) :
    (engine charging e).picked (bid :: rest) =
      (engine charging (e.examine bid.instant)).picked rest :=
  if_neg h

theorem admitted_engine_of_taken (h : e.delayAt bid.instant = 0) :
    (engine charging e).admitted ((bid :: rest).map Bid.event) = bid.event ::
      (engine charging (e.examine bid.instant).commit).admitted (rest.map Bid.event) := by
  have htaken : (engine charging e).delayAt bid.event.instant = 0 := h
  rw [List.map_cons, admitted, if_pos htaken, afterOffer, if_pos htaken]
  rfl

theorem admitted_engine_of_left (h : e.delayAt bid.instant ≠ 0) :
    (engine charging e).admitted ((bid :: rest).map Bid.event) =
      (engine charging (e.examine bid.instant)).admitted (rest.map Bid.event) := by
  have hleft : ¬ (engine charging e).delayAt bid.event.instant = 0 := h
  rw [List.map_cons, admitted, if_neg hleft, afterOffer, if_neg hleft]
  rfl

end Engine

end Throttle

/-- **A row of events.** The first engine never catches up with the second by more events than the
second is ahead. -/
theorem Leads.length_picked_le {strict loose : Engine} {instant : Int} {ahead : Nat}
    (h : Leads strict loose instant ahead) (charging charging' : Charging) {bids : List Bid}
    (horder : Event.Chronological instant (bids.map Bid.event)) :
    ((Throttle.engine charging strict).picked bids).length ≤
      ((Throttle.engine charging' loose).admitted (bids.map Bid.event)).length + ahead := by
  induction bids generalizing strict loose instant ahead with
  | nil => exact Nat.zero_le _
  | cons bid rest ih =>
    obtain ⟨hle, hrest⟩ := horder.cons
    have hnow : Leads strict loose bid.instant ahead := h.later hle
    by_cases hpicked : bid.wanted = true ∧ strict.delayAt bid.instant = 0
    · rw [Throttle.picked_engine_of_taken hpicked, List.length_cons]
      by_cases hzero : loose.delayAt bid.instant = 0
      · have hlater := ih (hnow.both hpicked.2) hrest
        rw [Throttle.admitted_engine_of_taken hzero, List.length_cons]
        omega
      · obtain ⟨fewer, rfl, hnext⟩ := hnow.onlyStrict hpicked.2 hzero
        have hlater := ih hnext hrest
        rw [Throttle.admitted_engine_of_left hzero]
        omega
    · rw [Throttle.picked_engine_of_left hpicked]
      by_cases hzero : loose.delayAt bid.instant = 0
      · have hlater := ih hnow.onlyLoose hrest
        rw [Throttle.admitted_engine_of_taken hzero, List.length_cons]
        omega
      · have hlater := ih hnow.neither hrest
        rw [Throttle.admitted_engine_of_left hzero]
        exact hlater

/-- Two engines that open at the same instant have nothing to work off beyond each other. -/
theorem leads_resetAt {strict loose : Engine}
    (hincrement : loose.pace.increment ≤ strict.pace.increment)
    (hlimit : strict.pace.limit ≤ loose.pace.limit)
    (hfits : strict.pace.increment + strict.pace.limit ≤ maxTick) {start : Int}
    (hstart : InRange start) : Leads (strict.resetAt start) (loose.resetAt start) start 0 := by
  refine ⟨hincrement, hlimit, hfits, strict.readyAt_resetAt hstart.1,
    loose.readyAt_resetAt hstart.1, ?_⟩
  have hcost := loose.pace.increment_nonneg
  have hlow := hstart.1
  rw [loose.target_resetAt hstart.2, Int.natCast_zero, Int.zero_mul]
  omega

namespace Throttle

/-- **Looser engines admit no fewer events.** Let two engines open at the same instant, the second
with an increment that is no longer and a limit that is no narrower. Whichever of the events that
conform the first takes in, at any time the second has taken in at least as many, if it takes in
each event that conforms to it. -/
theorem length_picked_le_length_admitted {strict loose : Engine} (charging charging' : Charging)
    (hincrement : loose.pace.increment ≤ strict.pace.increment)
    (hlimit : strict.pace.limit ≤ loose.pace.limit)
    (hfits : strict.pace.increment + strict.pace.limit ≤ maxTick) {start : Int}
    (hstart : InRange start) {bids : List Bid}
    (horder : Event.Chronological start (bids.map Bid.event)) (count : Nat) :
    ((engine charging (strict.resetAt start)).picked (bids.take count)).length ≤
      ((engine charging' (loose.resetAt start)).admitted
        ((bids.take count).map Bid.event)).length := by
  have hleads := leads_resetAt hincrement hlimit hfits hstart
  refine hleads.length_picked_le charging charging' (horder.sublist ?_)
  rw [List.map_map, List.map_map]
  exact ((List.take_sublist count bids).map _).cons_cons start

/-- The looser engine turns away the event at 10, which conforms to the stricter one, since it has
taken in the one at 4. After the third event the two have taken in as many events. -/
theorem length_picked_le_length_admitted_at_tie :
    let strict := Engine.opened (.clamped .microseconds 10 0) 0
    let loose := Engine.opened (.clamped .microseconds 9 5) 0
    let bids : List Bid := [⟨0, true⟩, ⟨4, true⟩, ⟨10, true⟩, ⟨13, false⟩]
    let picked := (engine .perEvent (strict.resetAt 0)).picked (bids.take 3)
    let admitted := (engine .perUnit (loose.resetAt 0)).admitted ((bids.take 3).map Bid.event)
    picked = [⟨0, 1⟩, ⟨10, 1⟩] ∧ admitted = [⟨0, 1⟩, ⟨4, 1⟩] ∧ picked.length ≤ admitted.length := by
  intro strict loose bids picked admitted
  have horder : Event.Chronological 0 (bids.map Bid.event) := by
    unfold Event.Chronological
    decide
  have hincrement : loose.pace.increment ≤ strict.pace.increment := by decide
  have hlimit : strict.pace.limit ≤ loose.pace.limit := by decide
  refine ⟨by decide, by decide, ?_⟩
  exact length_picked_le_length_admitted .perEvent .perUnit hincrement hlimit (by decide)
    (by decide) horder 3

end Throttle

end AdmissionControl
