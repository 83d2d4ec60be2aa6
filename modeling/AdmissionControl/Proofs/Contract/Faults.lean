import AdmissionControl.Contract.Emission

/-!
# The faults of a contract

A contract is looked over in two places. The strict check turns it away with the first fault that it
comes upon. A throttle is built for it in any case, and then what had to be put right on the way is
meant to stand in the log as a warning. Both are lists of range checks, written apart, and nothing
ties them together.

Here both are held against the list of all faults of a contract (`Contract.faults`). The check names
the first of them (`Contract.validate_eq_outcome_faults`). The warnings tell of them one by one and
in their order, whatever the resolution, but for a burst of less than one event
(`Contract.filterMap_fault?_notices`): it counts as a burst of one without a word
(`Contract.burst_below_one_counts_as_one`). So a contract is turned away in silence where this is
its only fault, and nowhere else (`Contract.warned_iff_rejected_iff`).
-/

namespace AdmissionControl

/-- The fault that a notice warns of. -/
def Notice.fault? : Notice → Option Fault
  | peakRateNotPositive _ | sustainedRateNotPositive _ => some .rateNotPositive
  | jitterNegative _ => some .toleranceNegative
  | clockUnavailable error => some (.clock error)
  | emissionsDerived .. | earlyEventCommitted .. | keyCreated _ | idleEvicted .. => none

/-- The warnings are the notices that tell of a fault. -/
theorem Notice.severity_eq_warn_iff (n : Notice) :
    n.severity = .warn ↔ ∃ fault, n.fault? = some fault := by
  cases n <;> simp [severity, fault?]

/-- The answer of a check that finds some faults: it names the first of them. -/
def Fault.outcome : List Fault → Except Fault Unit
  | [] => .ok ()
  | fault :: _ => .error fault

theorem Fault.exists_outcome_eq_error_iff (faults : List Fault) :
    (∃ fault, outcome faults = .error fault) ↔ ∃ fault, fault ∈ faults := by
  cases faults <;> simp [outcome]

/-- The faults of a sustained half. -/
def Sustained.faults (s : Sustained) : List Fault :=
  (if s.rate ≤ 0 then [.rateNotPositive] else []) ++
    (if s.maxBurst < 1 then [.burstBelowOne] else [])

namespace Contract

/-- The faults of the peak rate and of the tolerance for jitter. -/
def peakFaults (c : Contract) : List Fault :=
  (if c.peakRate ≤ 0 then [.rateNotPositive] else []) ++
    (if c.jitter < 0 then [.toleranceNegative] else [])

/-- All faults of a contract. -/
def faults (c : Contract) : List Fault :=
  c.peakFaults ++ c.sustained.elim [] Sustained.faults

end Contract

/-! ### The strict check -/

/-- The strict check of a sustained half names its first fault. -/
theorem Sustained.validate_eq_outcome_faults (s : Sustained) :
    s.validate = Fault.outcome s.faults := by
  unfold validate faults
  split
  · rfl
  · split <;> rfl

/-- The strict check of a contract names its first fault. -/
theorem Contract.validate_eq_outcome_faults (c : Contract) :
    c.validate = Fault.outcome c.faults := by
  unfold validate faults peakFaults
  split
  · rfl
  · split
    · rfl
    · cases c.sustained with
      | none => rfl
      | some s => exact s.validate_eq_outcome_faults

/-! ### The warnings -/

/-- The warnings about a peak rate and its tolerance tell of all of their faults. -/
theorem Emission.filterMap_fault?_peakNotices (c : Contract) :
    (peakNotices c.peakRate c.jitter).filterMap Notice.fault? = c.peakFaults := by
  unfold peakNotices Contract.peakFaults
  rw [List.filterMap_append]
  congr 1 <;> split <;> rfl

/-- The warnings about a sustained rate do not tell of the burst. -/
theorem Emission.filterMap_fault?_sustainedNotices (s : Sustained) :
    (sustainedNotices s.rate).filterMap Notice.fault? =
      s.faults.filter (· ≠ .burstBelowOne) := by
  unfold sustainedNotices Sustained.faults
  split <;> split <;> rfl

namespace Contract

/-- A burst has no part in the faults of the peak rate and of the tolerance. -/
theorem filter_peakFaults (c : Contract) :
    c.peakFaults.filter (· ≠ .burstBelowOne) = c.peakFaults := by
  unfold peakFaults
  split <;> split <;> rfl

/-- The warnings about a contract tell of its faults in their order, except for that of the
burst. -/
theorem filterMap_fault?_notices (r : Resolution) (c : Contract) :
    (c.notices r).filterMap Notice.fault? = c.faults.filter (· ≠ .burstBelowOne) := by
  have hsustained : (c.sustained.elim [] fun s => Emission.sustainedNotices s.rate).filterMap
      Notice.fault? = (c.sustained.elim [] Sustained.faults).filter (· ≠ .burstBelowOne) := by
    cases c.sustained with
    | none => rfl
    | some s => exact Emission.filterMap_fault?_sustainedNotices s
  have hderived : [(c.emissions r).notice r].filterMap Notice.fault? = [] := rfl
  rw [notices, List.filterMap_append, List.filterMap_append,
    Emission.filterMap_fault?_peakNotices, hsustained, hderived, List.append_nil, faults,
    List.filter_append, filter_peakFaults]

/-- So there is a warning just for a contract with a fault other than that of the burst. -/
theorem exists_warning_iff (r : Resolution) (c : Contract) :
    (∃ n ∈ c.notices r, n.severity = .warn) ↔ ∃ fault ∈ c.faults, fault ≠ .burstBelowOne := by
  have hmem (fault : Fault) : (∃ n ∈ c.notices r, n.fault? = some fault) ↔
      fault ∈ c.faults ∧ fault ≠ .burstBelowOne := by
    rw [← List.mem_filterMap, filterMap_fault?_notices, List.mem_filter, decide_eq_true_iff]
  constructor
  · rintro ⟨n, hn, hwarn⟩
    obtain ⟨fault, hfault⟩ := n.severity_eq_warn_iff.mp hwarn
    exact ⟨fault, (hmem fault).mp ⟨n, hn, hfault⟩⟩
  · rintro ⟨fault, hfault⟩
    obtain ⟨n, hn, htells⟩ := (hmem fault).mpr hfault
    exact ⟨n, hn, n.severity_eq_warn_iff.mpr ⟨fault, htells⟩⟩

/-! ### The burst -/

/-- A burst of less than one event counts as a burst of one. It makes no difference to the
emissions, and nothing in the log tells of it. -/
theorem burst_below_one_counts_as_one (r : Resolution) {c : Contract} {s : Sustained}
    (hsustained : c.sustained = some s) (hburst : s.maxBurst < 1) :
    let d := c.revise (.sustained s.rate 1)
    c.emissions r = d.emissions r ∧ c.notices r = d.notices r := by
  intro d
  have hemissions : c.emissions r = d.emissions r := by
    have hnarrow : ¬(1 < s.maxBurst ∧ 0 < s.rate ∧ s.rate < c.peakRate) := by omega
    simp [emissions, d, revise, hsustained, Emission.ofSustained, hnarrow]
  refine ⟨hemissions, ?_⟩
  rw [notices, notices, hemissions, hsustained]
  rfl

/-- The checks that a contract can fail, each with its fault. -/
theorem mem_faults_iff (c : Contract) (fault : Fault) :
    fault ∈ c.faults ↔
      c.peakRate ≤ 0 ∧ fault = .rateNotPositive ∨ c.jitter < 0 ∧ fault = .toleranceNegative ∨
        ∃ s, c.sustained = some s ∧
          (s.rate ≤ 0 ∧ fault = .rateNotPositive ∨ s.maxBurst < 1 ∧ fault = .burstBelowOne) := by
  unfold faults peakFaults
  cases c.sustained with
  | none => simp
  | some s => simp [Sustained.faults]

/-- The burst is all that is at fault with a contract if it is of less than one event and the other
terms are in range. -/
theorem forall_mem_faults_eq_burstBelowOne_iff (c : Contract) :
    ((∃ fault, fault ∈ c.faults) ∧ ∀ fault ∈ c.faults, fault = .burstBelowOne) ↔
      0 < c.peakRate ∧ 0 ≤ c.jitter ∧
        ∃ s, c.sustained = some s ∧ 0 < s.rate ∧ s.maxBurst < 1 := by
  constructor
  · rintro ⟨⟨fault, hfault⟩, hall⟩
    -- a term out of range would bring a fault of its own, so all but the burst are in range
    have hrate : .rateNotPositive ∉ c.faults := fun h => nomatch hall _ h
    have htolerance : .toleranceNegative ∉ c.faults := fun h => nomatch hall _ h
    rw [hall fault hfault] at hfault
    simp only [mem_faults_iff, reduceCtorEq, and_false, and_true, or_false, false_or, exists_false,
      not_or, Int.not_le, Int.not_lt] at hrate htolerance hfault
    obtain ⟨s, hsustained, hburst⟩ := hfault
    have hslow : 0 < s.rate := Int.not_le.mp fun h => hrate.2 ⟨s, hsustained, h⟩
    exact ⟨hrate.1, htolerance, s, hsustained, hslow, hburst⟩
  · rintro ⟨hpeak, hjitter, s, hsustained, hslow, hburst⟩
    refine ⟨⟨.burstBelowOne, ?_⟩, fun fault hfault => ?_⟩
    · exact (c.mem_faults_iff _).mpr (.inr (.inr ⟨s, hsustained, .inr ⟨hburst, rfl⟩⟩))
    · rcases (c.mem_faults_iff fault).mp hfault with
        ⟨h, -⟩ | ⟨h, -⟩ | ⟨d, hd, ⟨h, -⟩ | ⟨-, rfl⟩⟩
      · omega
      · omega
      · obtain rfl : s = d := Option.some.inj (hsustained.symm.trans hd)
        omega
      · rfl

/-- **A contract that the strict check turns away is warned of, unless only its burst is at
fault.** Whatever the terms of a contract are and at whatever resolution, there is a warning while
its emissions are worked out exactly if the strict check finds a fault. The only exception are the
contracts that promise a burst of less than one event and are in range otherwise: the check turns
them away, and there is no warning. -/
theorem warned_iff_rejected_iff (r : Resolution) (c : Contract) :
    ((∃ n ∈ c.notices r, n.severity = .warn) ↔ ∃ fault, c.validate = .error fault) ↔
      ¬(0 < c.peakRate ∧ 0 ≤ c.jitter ∧
        ∃ s, c.sustained = some s ∧ 0 < s.rate ∧ s.maxBurst < 1) := by
  rw [exists_warning_iff, validate_eq_outcome_faults, Fault.exists_outcome_eq_error_iff,
    ← forall_mem_faults_eq_burstBelowOne_iff]
  constructor
  · -- where the burst is all that is at fault, the check finds it and no warning tells of it
    rintro hagree ⟨hfaulty, hburst⟩
    obtain ⟨fault, hfault, hother⟩ := hagree.mpr hfaulty
    exact hother (hburst fault hfault)
  · intro hother
    refine ⟨fun ⟨fault, hfault, _⟩ => ⟨fault, hfault⟩, fun hfaulty => ?_⟩
    by_cases hburst : ∀ fault ∈ c.faults, fault = .burstBelowOne
    · exact absurd ⟨hfaulty, hburst⟩ hother
    · simpa using hburst

/-- Nothing is said about this contract, although it promises a burst of no events. -/
theorem empty_burst_not_warned_of :
    let c := variableRate 500 0 200 0
    c.validate = .error .burstBelowOne ∧
      ¬∃ n ∈ c.notices .microseconds, n.severity = .warn :=
  ⟨rfl, by decide⟩

end Contract

end AdmissionControl
