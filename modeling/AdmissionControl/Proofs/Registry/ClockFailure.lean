import AdmissionControl.Proofs.Registry.Independence

/-!
# Failing clocks

A registry reads the clock before all else, and if there is no reading it tells the caller so and
does nothing: no throttle is built, no use is begun, and nothing is written down. So an operation
that fails leaves no trace, and it can be left out of a run (`Registry.course_filter_not_fails`).

What it does leave is another clock, since a reading that fails is a reading too. To compare a run
with the same run less the failing operations, each operation is therefore given the clock that it
finds: a `Registry.Turn`. A call that leaves all reading of the clock to the registry needs only the
reading itself, of whatever clock: a `Registry.Visit`.
-/

namespace AdmissionControl

namespace Registry

variable {κ σ ρ : Type}

/-! ### Operations that fail -/

/-- The operation needs a reading of the clock, and there is none. -/
def Operation.failsOn [Clock σ] (clock : σ) : Operation κ σ ρ → Bool
  | .offer _ _ | .apply _ _ | .evictIdle _ => !(Clock.read clock).1.isOk
  | .remove _ => false

/-- The outcome is that the operation has failed. -/
def Outcome.isFault : Outcome ρ → Bool
  | .decided result => !result.isOk
  | .applied result => !result.isOk
  | .evicted result => !result.isOk
  | .removed _ => false

section OneOperation

variable [Clock σ]

theorem Operation.exists_error_of_failsOn {op : Operation κ σ ρ} {clock : σ}
    (h : op.failsOn clock = true) : ∃ error, (Clock.read clock).1 = .error error := by
  cases hread : (Clock.read clock).1 with
  | error error => exact ⟨error, rfl⟩
  | ok nanos =>
    cases op with
    | remove _ => cases h
    | offer _ _ | apply _ _ | evictIdle _ =>
      rw [failsOn, hread] at h
      cases h

/-- Idle keys are dropped exactly if there is a reading. -/
theorem isOk_evictIdle (r : Registry κ) (maxIdle : Nat) (env : Ambient σ) :
    (r.evictIdle maxIdle env).1.1.isOk = (Clock.read env.clock).1.isOk := by
  cases hread : (Clock.read env.clock).1 with
  | error error =>
    rw [r.evictIdle_of_read_eq_error maxIdle hread]
    rfl
  | ok nanos =>
    rw [r.evictIdle_of_read_eq_ok maxIdle hread]
    rfl

variable [DecidableEq κ]

theorem checkUnits_of_read_eq_error (r : Registry κ) (key : κ) (units : Nat) {env : Ambient σ}
    {error : ClockError} (hread : (Clock.read env.clock).1 = .error error) :
    r.checkUnits key units env =
      ((.error (.clock error), r), { env with clock := (Clock.read env.clock).2 }) :=
  r.withThrottle_of_read_eq_error key (fun instant t => pure (t.offer instant units)) hread

/-- A throttle is used exactly if there is a reading. -/
theorem isOk_withThrottle (r : Registry κ) (key : κ) {α : Type}
    (use : Int → Throttle → Timed σ (α × Throttle)) (env : Ambient σ) :
    (r.withThrottle key use env).1.1.isOk = (Clock.read env.clock).1.isOk := by
  cases hread : (Clock.read env.clock).1 with
  | error error =>
    rw [r.withThrottle_of_read_eq_error key use hread]
    rfl
  | ok nanos =>
    rw [r.withThrottle_of_read_eq_ok key use hread]
    rfl

/-- **One operation.** It fails exactly if it needs a reading and there is none. -/
theorem isFault_operate (r : Registry κ) (op : Operation κ σ ρ) (env : Ambient σ) :
    (r.operate op env).1.1.isFault = op.failsOn env.clock := by
  cases op with
  | remove key => rfl
  | offer key units =>
    have hok : (r.checkUnits key units env).1.1.isOk = (Clock.read env.clock).1.isOk :=
      r.isOk_withThrottle key _ env
    exact congrArg not hok
  | apply key use => exact congrArg not (r.isOk_withThrottle key use env)
  | evictIdle maxIdle => exact congrArg not (r.isOk_evictIdle maxIdle env)

/-- **One operation that fails.** The registry and the log stay as they are. -/
theorem operate_of_failsOn (r : Registry κ) {op : Operation κ σ ρ} (env : Ambient σ)
    (h : op.failsOn env.clock = true) :
    r.next op env = r ∧ (r.operate op env).2.log = env.log := by
  obtain ⟨error, hread⟩ := Operation.exists_error_of_failsOn h
  cases op with
  | remove key => cases h
  | offer key units =>
    rw [next, operate_offer, r.checkUnits_of_read_eq_error key units hread]
    exact ⟨rfl, rfl⟩
  | apply key use =>
    rw [next, operate_apply, r.withThrottle_of_read_eq_error key use hread]
    exact ⟨rfl, rfl⟩
  | evictIdle maxIdle =>
    rw [next, operate_evictIdle, r.evictIdle_apply_of_read_eq_error maxIdle hread]
    exact ⟨rfl, rfl⟩

end OneOperation

/-! ### Operations at their turns -/

/-- An operation at its turn, with the clock as the operation finds it. -/
structure Turn (κ σ ρ : Type) where
  operation : Operation κ σ ρ
  clock : σ

/-- The operation fails at its turn. -/
def Turn.fails [Clock σ] (turn : Turn κ σ ρ) : Bool := turn.operation.failsOn turn.clock

/-- What comes of a row of operations. -/
structure Course (κ ρ : Type) where
  /-- The outcomes of the operations. -/
  outcomes : List (Outcome ρ)
  /-- The registry after them. -/
  registry : Registry κ
  /-- The log by then. -/
  log : Array Notice

namespace Course

/-- The course of a row with one more operation before it. -/
def cons (outcome : Outcome ρ) (c : Course κ ρ) : Course κ ρ :=
  { c with outcomes := outcome :: c.outcomes }

/-- The course without the outcomes of operations that have failed. -/
def withoutFaults (c : Course κ ρ) : Course κ ρ :=
  { c with outcomes := c.outcomes.filter fun outcome => !outcome.isFault }

@[simp] theorem registry_withoutFaults (c : Course κ ρ) :
    c.withoutFaults.registry = c.registry := rfl

theorem withoutFaults_cons (outcome : Outcome ρ) (c : Course κ ρ) :
    (cons outcome c).withoutFaults =
      if outcome.isFault then c.withoutFaults else cons outcome c.withoutFaults := by
  cases hfault : outcome.isFault <;> simp [withoutFaults, cons, hfault]

end Course

section Course

variable [DecidableEq κ] [Clock σ]

/-- What comes of operations that take their turns, while the clock goes its own way in between. -/
def course (r : Registry κ) (log : Array Notice) : List (Turn κ σ ρ) → Course κ ρ
  | [] => ⟨[], r, log⟩
  | turn :: rest =>
    let env : Ambient σ := ⟨turn.clock, log⟩
    .cons (r.operate turn.operation env).1.1
      ((r.next turn.operation env).course (r.operate turn.operation env).2.log rest)

/-- The operations of a run, each with the clock as it finds it. -/
def turns (r : Registry κ) : List (Operation κ σ ρ) → Ambient σ → List (Turn κ σ ρ)
  | [], _ => []
  | op :: rest, env => ⟨op, env.clock⟩ :: (r.next op env).turns rest (r.operate op env).2

/-- What comes of a run. -/
def courseOf (r : Registry κ) (ops : List (Operation κ σ ρ)) (env : Ambient σ) : Course κ ρ :=
  ⟨(r.history ops env).map Record.outcome, (r.after ops env).1, (r.after ops env).2.log⟩

theorem courseOf_cons (r : Registry κ) (op : Operation κ σ ρ) (rest : List (Operation κ σ ρ))
    (env : Ambient σ) :
    r.courseOf (op :: rest) env =
      .cons (r.operate op env).1.1 ((r.next op env).courseOf rest (r.operate op env).2) := rfl

/-- A run is a row of turns. -/
theorem course_turns (r : Registry κ) (ops : List (Operation κ σ ρ)) (env : Ambient σ) :
    r.course env.log (r.turns ops env) = r.courseOf ops env := by
  induction ops generalizing r env with
  | nil => rfl
  | cons op rest ih => rw [turns, course, ih, courseOf_cons]

/-- **Leaving out what fails.** Where the operations that fail are left out, all others have the
outcomes that they had, and the registry and the log come out the same. -/
theorem course_filter_not_fails (r : Registry κ) (log : Array Notice) (turns : List (Turn κ σ ρ)) :
    r.course log (turns.filter fun turn => !turn.fails) = (r.course log turns).withoutFaults := by
  induction turns generalizing r log with
  | nil => rfl
  | cons turn rest ih =>
    have hfault := r.isFault_operate turn.operation ⟨turn.clock, log⟩
    rw [course, Course.withoutFaults_cons, hfault]
    cases hfails : turn.operation.failsOn turn.clock with
    | true =>
      obtain ⟨hnext, hlog⟩ := r.operate_of_failsOn ⟨turn.clock, log⟩ hfails
      rw [List.filter_cons_of_neg (by simp [Turn.fails, hfails]), ih, if_pos rfl, hnext, hlog]
    | false =>
      rw [List.filter_cons_of_pos (by simp [Turn.fails, hfails]), course, ih]
      rfl

end Course

/-! ### Calls at their readings -/

/-- What a call is given of the clock, if it needs a reading. -/
def Call.reading? [Clock σ] (clock : σ) : Call κ ρ → Option (Except ClockError Nat)
  | .use _ _ | .evictIdle _ => some (Clock.read clock).1
  | .remove _ => none

/-- A call with what it is given of the clock. -/
structure Visit (κ ρ : Type) where
  call : Call κ ρ
  reading? : Option (Except ClockError Nat)

/-- The call needs a reading, and there is none. -/
def Visit.fails (visit : Visit κ ρ) : Bool := visit.reading?.any fun reading => !reading.isOk

section Visits

variable [DecidableEq κ] [Clock σ] {σ' : Type} [Clock σ']

/-- The calls of a run, each with what it is given of the clock. -/
def visits (r : Registry κ) : List (Call κ ρ) → Ambient σ → List (Visit κ ρ)
  | [], _ => []
  | call :: rest, env =>
    ⟨call, call.reading? env.clock⟩ ::
      (r.next call.operation env).visits rest (r.operate call.operation env).2

omit [DecidableEq κ] in
theorem Call.failsOn_operation (call : Call κ ρ) (clock : σ) :
    (call.operation : Operation κ σ ρ).failsOn clock =
      (Visit.mk call (call.reading? clock)).fails := by
  cases call with
  | use key usage => cases usage <;> rfl
  | remove _ | evictIdle _ => rfl

/-- **One call.** Of the clock, only the reading that it is given matters to it. -/
theorem operate_eq_of_reading?_eq (r : Registry κ) (call : Call κ ρ) {env : Ambient σ}
    {env' : Ambient σ'} (h : call.reading? env'.clock = call.reading? env.clock) :
    (r.operate call.operation env').1 = (r.operate call.operation env).1 := by
  cases call with
  | remove key => rfl
  | use key usage =>
    have hread' : (Clock.read env'.clock).1 = (Clock.read env.clock).1 := Option.some.inj h
    rw [Call.operation, Call.operation]
    cases hread : (Clock.read env.clock).1 with
    | error error =>
      rw [operate_usage_of_read_eq_error r key usage hread,
        operate_usage_of_read_eq_error r key usage (hread'.trans hread)]
    | ok nanos =>
      have hdesign : r.factory.design = (r.factory.make env).1.design :=
        (r.factory.design_make env).symm
      rw [operate_usage_of_read_eq_ok hdesign key usage hread,
        operate_usage_of_read_eq_ok hdesign key usage (hread'.trans hread)]
  | evictIdle maxIdle =>
    have hread' : (Clock.read env'.clock).1 = (Clock.read env.clock).1 := Option.some.inj h
    have hsame : (r.evictIdle maxIdle env').1 = (r.evictIdle maxIdle env).1 := by
      cases hread : (Clock.read env.clock).1 with
      | error error =>
        rw [r.evictIdle_of_read_eq_error maxIdle hread,
          r.evictIdle_of_read_eq_error maxIdle (hread'.trans hread)]
      | ok nanos =>
        rw [r.evictIdle_of_read_eq_ok maxIdle hread,
          r.evictIdle_of_read_eq_ok maxIdle (hread'.trans hread)]
    rw [Call.operation, Call.operation, operate_evictIdle, operate_evictIdle, hsame]

/-- **The same readings.** A run of the calls that do not fail, on a clock that gives them the
readings that they had, comes to the same. -/
theorem courseOf_eq_of_visits_eq (r : Registry κ) {calls own : List (Call κ ρ)} {env : Ambient σ}
    {env' : Ambient σ'}
    (h : r.visits own env' = (r.visits calls env).filter fun visit => !visit.fails) :
    let whole := (r.courseOf (calls.map Call.operation) env).withoutFaults
    let rest := r.courseOf (own.map Call.operation) env'
    rest.outcomes = whole.outcomes ∧ rest.registry = whole.registry := by
  induction calls generalizing r own env env' with
  | nil =>
    cases own with
    | nil => exact ⟨rfl, rfl⟩
    | cons call own => cases h
  | cons call calls ih =>
    have hfault := r.isFault_operate (call.operation : Operation κ σ ρ) env
    rw [Call.failsOn_operation] at hfault
    rw [visits] at h
    rw [List.map_cons, courseOf_cons, Course.withoutFaults_cons, hfault]
    cases hfails : (Visit.mk call (call.reading? env.clock)).fails with
    | true =>
      obtain ⟨hnext, -⟩ :=
        r.operate_of_failsOn env ((call.failsOn_operation env.clock).trans hfails)
      rw [List.filter_cons_of_neg (by simp [hfails]), hnext] at h
      rw [if_pos rfl, hnext]
      exact ih r h
    | false =>
      rw [List.filter_cons_of_pos (by simp [hfails])] at h
      cases own with
      | nil => cases h
      | cons call' own =>
        obtain ⟨hvisit, hlater⟩ := List.cons.inj h
        obtain ⟨rfl, hreading⟩ := Visit.mk.inj hvisit
        have hsame := r.operate_eq_of_reading?_eq call' hreading
        have hnext : r.next call'.operation env' = r.next call'.operation env :=
          congrArg Prod.snd hsame
        rw [hnext] at hlater
        obtain ⟨houtcomes, hregistry⟩ := ih _ hlater
        rw [List.map_cons, courseOf_cons, hsame, hnext]
        exact ⟨congrArg (List.cons _) houtcomes, hregistry⟩

/-! ### No trace -/

/-- **A failing clock leaves no trace.** If there is no reading, a check for one unit or for many,
any use of any key and a dropping of idle keys tell the caller so. The registry is the same then,
with all its keys, throttles and last readings, and so is the log; and as the clock has been read
just once, nothing has been built or begun. Hence, if operations take their turns while the clock
goes its own way, and those that fail are left out, all others have the outcomes that they had, and
the registry and the log come out the same. A run of operations is a row of such turns. And whatever
clock gives calls that leave all reading to the registry the readings that they had, they have the
outcomes that they had without the calls that failed. -/
theorem clock_failures_leave_no_trace :
    (∀ (r : Registry κ) (env : Ambient σ) (error : ClockError),
        (Clock.read env.clock).1 = .error error →
        let missed : Ambient σ := { env with clock := (Clock.read env.clock).2 }
        (∀ key, r.check key env = ((.error (.clock error), r), missed)) ∧
          (∀ key units, r.checkUnits key units env = ((.error (.clock error), r), missed)) ∧
          (∀ {α : Type} key (use : Int → Throttle → Timed σ (α × Throttle)),
            r.withThrottle key use env = ((.error (.clock error), r), missed)) ∧
          ∀ maxIdle, r.evictIdle maxIdle env = ((.error (.clock error), r), missed)) ∧
      (∀ (r : Registry κ) (log : Array Notice) (turns : List (Turn κ σ ρ)),
        r.course log (turns.filter fun turn => !turn.fails) =
          (r.course log turns).withoutFaults) ∧
      (∀ (r : Registry κ) (ops : List (Operation κ σ ρ)) (env : Ambient σ),
        r.course env.log (r.turns ops env) = r.courseOf ops env) ∧
      ∀ (r : Registry κ) (calls own : List (Call κ ρ)) (env : Ambient σ) (env' : Ambient σ'),
        r.visits own env' = (r.visits calls env).filter (fun visit => !visit.fails) →
        let whole := (r.courseOf (calls.map Call.operation) env).withoutFaults
        let rest := r.courseOf (own.map Call.operation) env'
        rest.outcomes = whole.outcomes ∧ rest.registry = whole.registry := by
  refine ⟨?_, course_filter_not_fails, course_turns, fun r _ _ _ _ => r.courseOf_eq_of_visits_eq⟩
  intro r env error hread missed
  exact ⟨fun key => r.checkUnits_of_read_eq_error key 1 hread,
    fun key units => r.checkUnits_of_read_eq_error key units hread,
    fun key use => r.withThrottle_of_read_eq_error key use hread,
    fun maxIdle => r.evictIdle_apply_of_read_eq_error maxIdle hread⟩

/-- Of seven calls the second, the third and the fourth get no reading: a check of a new key, a
forced commit on a key in use and a dropping of idle keys. The other four have the outcomes that
they have alone. -/
theorem clock_failures_leave_no_trace_of_seven_calls :
    let prototype : Throttle :=
      .compound (.engine .perUnit (.opened (.clamped .nanoseconds 1000 250) 0)) (.geometric .fresh)
    let r : Registry Nat := new (.copying prototype)
    let force : Usage Bool := .apply fun instant t =>
      ⟨(t.examine instant).commitVerdict, (t.examine instant).commit, []⟩
    let failing : List (Call Nat Bool) := [.use 1 (.offer 1), .use 0 force, .evictIdle 0]
    let later : List (Call Nat Bool) := [.use 0 (.offer 1), .use 1 (.offer 1), .evictIdle 300]
    let calls := .use 0 (.offer 1) :: (failing ++ later)
    let own := .use 0 (.offer 1) :: later
    let missing : Except ClockError Nat := .error .unavailable
    let env : Ambient Replay :=
      ⟨⟨[.ok 1000, missing, missing, missing, .ok 1500, .ok 1700, .ok 1900]⟩, #[]⟩
    let env' : Ambient Replay := ⟨⟨[.ok 1000, .ok 1500, .ok 1700, .ok 1900]⟩, #[]⟩
    let whole := r.courseOf (calls.map Call.operation) env
    let rest := r.courseOf (own.map Call.operation) env'
    let stuck : Ambient Replay := ⟨⟨[missing, .ok 1500]⟩, #[.keyCreated 1000]⟩
    r.visits own env' = (r.visits calls env).filter (fun visit => !visit.fails) ∧
      whole.outcomes.map Outcome.isFault = [false, true, true, true, false, false, false] ∧
      rest.outcomes = whole.withoutFaults.outcomes ∧ rest.registry = whole.registry ∧
      whole.registry.size = 1 ∧
      (Clock.read stuck.clock).1 = .error .unavailable ∧
      whole.registry.check 7 stuck =
        ((.error (.clock .unavailable), whole.registry), ⟨⟨[.ok 1500]⟩, #[.keyCreated 1000]⟩) := by
  intro prototype r force failing later calls own missing env env' whole rest stuck
  obtain ⟨hfail, -, -, hreadings⟩ := @clock_failures_leave_no_trace Nat Replay Bool _ _ Replay _
  have hvisits : r.visits own env' = (r.visits calls env).filter (fun visit => !visit.fails) := rfl
  have hstuck : (Clock.read stuck.clock).1 = .error .unavailable := rfl
  obtain ⟨houtcomes, hregistry⟩ := hreadings r calls own env env' hvisits
  obtain ⟨hcheck, -⟩ := hfail whole.registry stuck .unavailable hstuck
  exact ⟨hvisits, by decide, houtcomes, hregistry.trans (Course.registry_withoutFaults _),
    by decide, hstuck, hcheck 7⟩

end Visits

end Registry

end AdmissionControl
