import AdmissionControl.Proofs.Engine.Target

/-!
# Engines are virtual schedulers

The textbook describes the virtual scheduler by one unbounded instant, the theoretical arrival
time of the next event. An event is early by what that instant, less the limit, is ahead of it, and
an event of `k` units moves the instant on by `k` increments, counted from the event itself if the
instant has passed. `VirtualScheduler` is this scheduler, where nothing saturates but the bounds at
the two ends of the range of ticks: the first instant is not before `minTick`, and no more than
`maxTick` is ever left to work off.

An `Engine` keeps two instants and two schedules instead, all within that range. Nevertheless it
cannot be told from a virtual scheduler (`trace_engine_eq_trace_virtualScheduler`): in any row of
rounds whose instants do not go back, both answer every event with the same delay, commit with the
same verdict, and have the same debt afterwards.
-/

namespace AdmissionControl

/-! ### Rounds -/

/-- What becomes of an event that has been examined. -/
inductive Settlement
  /-- It is left. -/
  | leave
  /-- It is taken in. -/
  | take
  /-- It is taken in as one of many units. -/
  | takeUnits (units : Nat)
deriving DecidableEq, Repr

/-- One round with a scheduler. -/
inductive Round
  /-- The scheduler is opened as new at an instant. -/
  | reopen (instant : Int)
  /-- An event at an instant is examined and settled. -/
  | event (instant : Int) (settlement : Settlement)
deriving DecidableEq, Repr

/-- What is seen of a round from outside. -/
inductive Sight
  /-- There is nothing to see. -/
  | reopened
  /-- The delay of an event that was left. -/
  | left (delay : Int)
  /-- The delay of an event that was taken in, the answer to the commit and the debt after it. -/
  | taken (delay : Int) (calm : Bool) (debt : Int)
deriving DecidableEq, Repr

/-- The units of an event are charged exactly: there is an increment to charge for them, or they
are no more than a tick count. -/
def Settlement.IsChargeable (increment : Int) : Settlement → Prop
  | leave | take => True
  | takeUnits units => 1 ≤ increment ∨ (units : Int) ≤ maxTick

/-- The rounds keep to the range of ticks and to the order of time: no event is before the one
that precedes it, or before the instant at which the scheduler was opened last. -/
def Orderly (increment : Int) : Int → List Round → Prop
  | _, [] => True
  | _, .reopen instant :: rest => InRange instant ∧ Orderly increment instant rest
  | seen, .event instant settlement :: rest =>
    seen ≤ instant ∧ instant ≤ maxTick ∧ settlement.IsChargeable increment ∧
      Orderly increment instant rest

/-- What is seen of a row of rounds with a scheduler. -/
def trace {α : Type} (serve : α → Round → Sight × α) : α → List Round → List Sight
  | _, [] => []
  | scheduler, round :: rest =>
    (serve scheduler round).1 :: trace serve (serve scheduler round).2 rest

/-- One round with an engine. -/
def Engine.serve (e : Engine) : Round → Sight × Engine
  | .reopen instant => (.reopened, e.resetAt instant)
  | .event instant .leave => (.left (e.delayAt instant), (e.examine instant).rollback)
  | .event instant .take =>
    (.taken (e.delayAt instant) (e.examine instant).commitVerdict (e.examine instant).commit.debt,
      (e.examine instant).commit)
  | .event instant (.takeUnits units) =>
    (.taken (e.delayAt instant) (e.examine instant).commitVerdict
      ((e.examine instant).commitUnits units).debt, (e.examine instant).commitUnits units)

/-! ### The virtual scheduler -/

/-- The virtual scheduler of the textbook. -/
structure VirtualScheduler where
  /-- The span from one event to the next. -/
  increment : Int
  /-- How far ahead of that an event may come. -/
  limit : Int
  /-- The instant by which all events that were taken in are worked off. -/
  target : Int
deriving DecidableEq, Repr

namespace VirtualScheduler

/-- The scheduler that opens at an instant. -/
def opened (increment limit start : Int) : VirtualScheduler :=
  ⟨increment, limit, max (start - increment) minTick⟩

/-- By how much an event at an instant is early. -/
def delayAt (v : VirtualScheduler) (instant : Int) : Int := max 0 (v.target - v.limit - instant)

/-- The scheduler that takes in an event of `units` units at an instant. -/
def charge (v : VirtualScheduler) (instant : Int) (units : Nat) : VirtualScheduler :=
  { v with target := min (max v.target instant + units * v.increment) (instant + maxTick) }

@[simp] theorem target_charge (v : VirtualScheduler) (instant : Int) (units : Nat) :
    (v.charge instant units).target =
      min (max v.target instant + units * v.increment) (instant + maxTick) := rfl

/-- What is seen when an event is taken in: it is answered well if it was not early. -/
def taken (v : VirtualScheduler) (instant : Int) (units : Nat) : Sight :=
  .taken (v.delayAt instant) (v.delayAt instant = 0) ((v.charge instant units).target - instant)

/-- One round with a virtual scheduler. -/
def serve (v : VirtualScheduler) : Round → Sight × VirtualScheduler
  | .reopen instant => (.reopened, opened v.increment v.limit instant)
  | .event instant .leave => (.left (v.delayAt instant), v)
  | .event instant .take => (v.taken instant 1, v.charge instant 1)
  | .event instant (.takeUnits units) => (v.taken instant units, v.charge instant units)

/-! ### The simulation -/

/-- An engine and a virtual scheduler are at the same point: they work at the same pace towards the
same target, and the engine is in order for what comes from an instant on. -/
structure Tracks (e : Engine) (v : VirtualScheduler) (seen : Int) : Prop where
  increment_eq : v.increment = e.pace.increment
  limit_eq : v.limit = e.pace.limit
  target_eq : v.target = e.target
  readyAt : e.ReadyAt seen

/-- Engine and scheduler are at the same point when both open at an instant. -/
theorem tracks_opened (e : Engine) {start : Int} (hstart : InRange start) :
    Tracks (e.resetAt start) (opened e.pace.increment e.pace.limit start) start where
  increment_eq := rfl
  limit_eq := rfl
  target_eq := (e.target_resetAt hstart.2).symm
  readyAt := e.readyAt_resetAt hstart.1

section Step

variable {e : Engine} {v : VirtualScheduler} {seen instant : Int}

/-- Examining an event does not move an engine away from the scheduler. -/
theorem Tracks.examine (h : Tracks e v seen) (hseen : seen ≤ instant) :
    Tracks (e.examine instant) v instant where
  increment_eq := h.increment_eq
  limit_eq := h.limit_eq
  target_eq := h.target_eq
  readyAt := (h.readyAt.mono hseen).examine instant

theorem Tracks.delayAt_eq (h : Tracks e v seen) (hseen : seen ≤ instant) :
    e.delayAt instant = v.delayAt instant := by
  rw [(h.readyAt.mono hseen).delayAt_eq_max, delayAt, h.target_eq, h.limit_eq]

/-- The commit of an engine is answered well exactly if the scheduler finds the event in time. -/
theorem Tracks.commitVerdict_examine (h : Tracks e v seen) (hseen : seen ≤ instant) :
    (e.examine instant).commitVerdict = decide (v.delayAt instant = 0) := by
  rw [e.commitVerdict_examine, h.delayAt_eq hseen]

/-- The target of an engine moves with an event as that of the scheduler does. -/
theorem Tracks.target_charge (h : Tracks e v seen) (hseen : seen ≤ instant) {units : Nat}
    (hunits : 0 < e.pace.increment ∨ (units : Int) ≤ maxTick) :
    (v.charge instant units).target = ((e.examine instant).commitUnits units).target := by
  rw [(h.readyAt.mono hseen).target_commitUnits_examine_eq hunits, v.target_charge, h.target_eq,
    h.increment_eq]
  omega

/-- Engine and scheduler stay together when both take in an event. -/
theorem Tracks.charge (h : Tracks e v seen) (hseen : seen ≤ instant) {units : Nat}
    (hunits : 0 < e.pace.increment ∨ (units : Int) ≤ maxTick) :
    Tracks ((e.examine instant).commitUnits units) (v.charge instant units) instant where
  increment_eq := h.increment_eq
  limit_eq := h.limit_eq
  target_eq := h.target_charge hseen hunits
  readyAt := (h.readyAt.mono hseen).commitUnits_examine units

/-- The debt of an engine is what is left to the target, counted from the event. -/
theorem Tracks.taken_eq (h : Tracks e v seen) (hseen : seen ≤ instant) {units : Nat}
    (hunits : 0 < e.pace.increment ∨ (units : Int) ≤ maxTick) :
    Sight.taken (e.delayAt instant) (e.examine instant).commitVerdict
        ((e.examine instant).commitUnits units).debt = v.taken instant units := by
  have hdebt : ((e.examine instant).commitUnits units).debt =
      (v.charge instant units).target - instant := by
    rw [h.target_charge hseen hunits, Engine.target_commitUnits_examine, Engine.debt_commitUnits]
    omega
  rw [hdebt, h.delayAt_eq hseen, h.commitVerdict_examine hseen, taken]

/-- **One round.** Engine and scheduler show the same, and are at the same point for the rounds
that are left. -/
theorem Tracks.serve (h : Tracks e v seen) {round : Round} {rest : List Round}
    (horderly : Orderly e.pace.increment seen (round :: rest)) :
    (e.serve round).1 = (v.serve round).1 ∧
      ∃ seen', Tracks (e.serve round).2 (v.serve round).2 seen' ∧
        Orderly (e.serve round).2.pace.increment seen' rest := by
  cases round with
  | reopen start =>
    obtain ⟨hstart, hrest⟩ := horderly
    refine ⟨rfl, start, ?_, hrest⟩
    have hopened := tracks_opened e hstart
    rw [← h.increment_eq, ← h.limit_eq] at hopened
    exact hopened
  | event instant settlement =>
    obtain ⟨hseen, -, hunits, hrest⟩ := horderly
    cases settlement with
    | leave =>
      refine ⟨?_, instant, h.examine hseen, hrest⟩
      exact congrArg Sight.left (h.delayAt_eq hseen)
    | take =>
      have hone : 0 < e.pace.increment ∨ ((1 : Nat) : Int) ≤ maxTick := Or.inr (by decide)
      exact ⟨h.taken_eq hseen hone, instant, h.charge hseen hone, hrest⟩
    | takeUnits units =>
      exact ⟨h.taken_eq hseen hunits, instant, h.charge hseen hunits, hrest⟩

end Step

/-- **A row of rounds.** Engine and scheduler show the same as long as the rounds are in order. -/
theorem Tracks.trace_eq {e : Engine} {v : VirtualScheduler} {seen : Int} {rounds : List Round}
    (h : Tracks e v seen) (horderly : Orderly e.pace.increment seen rounds) :
    trace Engine.serve e rounds = trace VirtualScheduler.serve v rounds := by
  induction rounds generalizing e v seen with
  | nil => rfl
  | cons round rest ih =>
    obtain ⟨hsight, seen', hnext, hrest⟩ := h.serve horderly
    rw [trace, trace, hsight, ih hnext hrest]

/-- **Engines are virtual schedulers.** From the instant at which it opens, an engine shows in any
row of rounds exactly what the virtual scheduler of its increment and limit shows. -/
theorem trace_engine_eq_trace_virtualScheduler (e : Engine) {start : Int} {rounds : List Round}
    (hstart : InRange start) (horderly : Orderly e.pace.increment start rounds) :
    trace Engine.serve (e.resetAt start) rounds =
      trace serve (opened e.pace.increment e.pace.limit start) rounds :=
  (tracks_opened e hstart).trace_eq horderly

/-- An engine without end between its events is charged up to the largest tick at both ends of the
range, and one of its events is taken in although it is early. -/
theorem trace_engine_of_infinite_increment :
    let pace : Pace := .clamped .microseconds maxTick 250
    let rounds : List Round :=
      [.event minTick (.takeUnits 3), .event 10 .take, .event 20 .leave, .reopen maxTick,
        .event maxTick .take]
    InRange minTick ∧ Orderly pace.increment minTick rounds ∧
      trace Engine.serve ((Engine.opened pace 0).resetAt minTick) rounds =
        trace serve (opened pace.increment pace.limit minTick) rounds :=
  have hstart : InRange minTick := by decide
  have horderly : Orderly maxTick minTick
      [.event minTick (.takeUnits 3), .event 10 .take, .event 20 .leave, .reopen maxTick,
        .event maxTick .take] := by
    simp only [Orderly, Settlement.IsChargeable]
    decide
  ⟨hstart, horderly, trace_engine_eq_trace_virtualScheduler
    (Engine.opened (.clamped .microseconds maxTick 250) 0) hstart horderly⟩

end VirtualScheduler

end AdmissionControl
