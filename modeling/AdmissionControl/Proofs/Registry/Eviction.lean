import AdmissionControl.Proofs.Registry.History

/-!
# Dropping idle keys

A registry drops the keys that have been idle for longer than a window. How long a key has been
idle is told by the readings of the clock: `Registry.lastUse?` is the reading at the last use of
the key in a history, and `Registry.lastUse?_history` says that the registry has it on record for
every key that is in use.

The window is applied by way of a cutoff, which is the present less the window, or zero if the clock
is not that old yet. A key is kept if it was used after the cutoff. This is what the window says
(`Registry.evictIdle_respects_window`), but for keys last used at the origin of the clock, which are
dropped too soon if the window is longer than the clock is old. A window of zero empties the
registry: it drops even the keys that were used at this very reading.
-/

namespace AdmissionControl

namespace Registry

variable {κ σ ρ : Type} [DecidableEq κ]

/-! ### The keys in use -/

/-- The keys that are in use. -/
def keys (r : Registry κ) : List κ := r.slots.entries.map Prod.fst

theorem mem_keys_iff {r : Registry κ} {key : κ} :
    key ∈ r.keys ↔ ∃ slot, r.slots.find? key = some slot := by
  unfold keys
  constructor
  · intro h
    obtain ⟨⟨k, slot⟩, hmem, rfl⟩ := List.mem_map.mp h
    exact ⟨slot, (r.slots.find?_eq_some_iff k slot).mpr hmem⟩
  · rintro ⟨slot, hslot⟩
    exact List.mem_map.mpr ⟨_, (r.slots.find?_eq_some_iff key slot).mp hslot, rfl⟩

/-- A key is kept if it was last used after the cutoff. -/
theorem mem_keys_keepAfter_iff {r : Registry κ} {key : κ} {slot : Slot}
    (hslot : r.slots.find? key = some slot) (cutoff : Nat) :
    key ∈ (r.keepAfter cutoff).keys ↔ cutoff < slot.lastSeen := by
  rw [mem_keys_iff, find?_keepAfter, hslot]
  constructor
  · rintro ⟨kept, hkept⟩
    obtain ⟨hsame, hafter⟩ := Option.filter_eq_some_iff.mp hkept
    cases hsame
    exact of_decide_eq_true hafter
  · intro hafter
    exact ⟨slot, Option.filter_eq_some_iff.mpr ⟨rfl, decide_eq_true hafter⟩⟩

/-- What is kept of a key is all that there was. -/
theorem find?_keepAfter_of_mem {r : Registry κ} {cutoff : Nat} {key : κ}
    (hkept : key ∈ (r.keepAfter cutoff).keys) :
    (r.keepAfter cutoff).slots.find? key = r.slots.find? key := by
  obtain ⟨slot, hslot⟩ := mem_keys_iff.mp hkept
  rw [hslot]
  rw [find?_keepAfter] at hslot
  exact (Option.filter_eq_some_iff.mp hslot).1.symm

/-- By how much a registry shrinks is the number of the keys that it loses. -/
theorem size_sub_size_keepAfter (r : Registry κ) (cutoff : Nat) :
    r.slots.size - (r.keepAfter cutoff).slots.size =
      (r.keys.filter fun key => key ∉ (r.keepAfter cutoff).keys).length := by
  let recent (entry : κ × Slot) : Bool := cutoff < entry.2.lastSeen
  let lost (key : κ) : Bool := key ∉ (r.keepAfter cutoff).keys
  have hkept : (r.keepAfter cutoff).slots.size = r.slots.entries.countP recent :=
    List.countP_eq_length_filter.symm
  have hentry : ∀ entry ∈ r.slots.entries, (lost entry.1 = true ↔ decide ¬recent entry = true) := by
    rintro ⟨key, slot⟩ hmem
    have hslot := (r.slots.find?_eq_some_iff key slot).mpr hmem
    rw [decide_eq_true_iff, decide_eq_true_iff, mem_keys_keepAfter_iff hslot, decide_eq_true_iff]
  have hlost : r.keys.countP lost = r.slots.entries.countP fun entry => decide ¬recent entry := by
    unfold keys
    rw [List.countP_map]
    exact List.countP_congr hentry
  have hsplit : r.slots.size = _ := List.length_eq_countP_add_countP recent
  calc r.slots.size - (r.keepAfter cutoff).slots.size
      = r.keys.countP lost := by rw [hlost, hkept, hsplit, Nat.add_sub_cancel_left]
    _ = (r.keys.filter lost).length := List.countP_eq_length_filter

/-! ### The last use of a key -/

/-- The operation uses the throttle of a key. -/
def Operation.uses (key : κ) : Operation κ σ ρ → Bool
  | .offer k _ | .apply k _ => k = key
  | .remove _ | .evictIdle _ => false

/-- The reading at which a record has a key used, if it has. -/
def Record.useOf? (key : κ) (record : Record κ σ ρ) : Option Nat :=
  if record.operation.uses key then record.reading.toOption else none

/-- The reading at the last use of a key in a history, if there is one. -/
def lastUse? (key : κ) : List (Record κ σ ρ) → Option Nat
  | [] => none
  | record :: later => (lastUse? key later).or (record.useOf? key)

section LastUse

variable [Clock σ] {r : Registry κ} {key : κ} {slot : Slot}

/-- A use at a reading puts the reading on record for its key, and for no other. -/
theorem lastSeen_withThrottle {α : Type} {k : κ} {use : Int → Throttle → Timed σ (α × Throttle)}
    {env : Ambient σ} (hslot : (r.withThrottle k use env).1.2.slots.find? key = some slot) :
    (if k = key then (Clock.read env.clock).1.toOption else none).or
        ((r.slots.find? key).map (·.lastSeen)) = some slot.lastSeen := by
  by_cases hk : k = key
  · subst hk
    rw [if_pos rfl]
    cases hread : (Clock.read env.clock).1 with
    | error error =>
      rw [withThrottle_of_read_eq_error r k use hread] at hslot
      exact congrArg (Option.map _) hslot
    | ok nanos =>
      rw [withThrottle_of_read_eq_ok r k use hread] at hslot
      cases (Table.find?_insert_self _ _ _).symm.trans hslot
      rfl
  · rw [find?_withThrottle_of_ne r (Ne.symm hk)] at hslot
    rw [if_neg hk, hslot]
    rfl

/-- **One operation.** The reading on record for a key is that of the operation if it uses the key,
and the one that was on record else. -/
theorem lastSeen_next {op : Operation κ σ ρ} {env : Ambient σ}
    (hslot : (r.next op env).slots.find? key = some slot) :
    ((r.recordOf op env).useOf? key).or ((r.slots.find? key).map (·.lastSeen)) =
      some slot.lastSeen := by
  unfold Record.useOf? recordOf
  cases op with
  | offer k units =>
    have hoffered : (r.withThrottle k (fun instant t => pure (t.offer instant units))
      env).1.2.slots.find? key = some slot := hslot
    have huse := lastSeen_withThrottle hoffered
    simpa only [Operation.uses, decide_eq_true_eq] using huse
  | apply k use =>
    have huse := lastSeen_withThrottle hslot
    simpa only [Operation.uses, decide_eq_true_eq] using huse
  | remove k =>
    have hrest : (if key = k then none else r.slots.find? key) = some slot :=
      (r.slots.find?_erase k key).symm.trans hslot
    obtain ⟨-, hfound⟩ := Option.ite_none_left_eq_some.mp hrest
    rw [hfound]
    rfl
  | evictIdle maxIdle =>
    have hkept : (r.evictIdle maxIdle env).1.2.slots.find? key = some slot := hslot
    cases hread : (Clock.read env.clock).1 with
    | error error =>
      rw [evictIdle_of_read_eq_error r maxIdle hread] at hkept
      exact congrArg (Option.map _) hkept
    | ok nanos =>
      rw [evictIdle_of_read_eq_ok r maxIdle hread, find?_keepAfter] at hkept
      rw [(Option.filter_eq_some_iff.mp hkept).1]
      rfl

/-- **A run.** The reading on record for a key is that of its last use in the run, and the one that
was on record before if there is none. -/
theorem lastSeen_after {ops : List (Operation κ σ ρ)} {env : Ambient σ}
    (hslot : (r.after ops env).1.slots.find? key = some slot) :
    (lastUse? key (r.history ops env)).or ((r.slots.find? key).map (·.lastSeen)) =
      some slot.lastSeen := by
  induction ops generalizing r env with
  | nil => exact congrArg (Option.map _) hslot
  | cons op rest ih =>
    have hlater := ih hslot
    rw [history, lastUse?, Option.or_assoc]
    cases hlast : lastUse? key ((r.next op env).history rest (r.operate op env).2) with
    | some used =>
      rw [hlast] at hlater
      exact hlater
    | none =>
      -- no later use, so the key has kept what the first operation put on record
      rw [hlast] at hlater
      obtain ⟨slot', hslot', hsame⟩ := Option.map_eq_some_iff.mp hlater
      have hstep := lastSeen_next hslot'
      rwa [hsame] at hstep

/-- A registry has the reading at the last use of a key on record. -/
theorem lastUse?_history {factory : Factory} {ops : List (Operation κ σ ρ)} {start : Ambient σ}
    (hslot : ((new factory).after ops start).1.slots.find? key = some slot) :
    lastUse? key ((new factory).history ops start) = some slot.lastSeen := by
  have hseen := lastSeen_after hslot
  have hnone : (new factory : Registry κ).slots.find? key = none := Table.find?_empty key
  rwa [hnone, Option.map_none, Option.or_none] at hseen

end LastUse

/-! ### The window -/

/-- **Dropping idle keys.** In a registry that has come about in any way, let the keys that have
been idle for some time be dropped. What is kept of a key is all that there was, and the answer is
the number of the keys that are not kept. A key that has been idle for longer than the window is not
kept. One that has been idle for less, or has not been idle at all, is kept unless its last use was
at the origin of the clock, which the window goes back beyond, or at this very reading and the
window is zero. -/
theorem evictIdle_respects_window [Clock σ] {factory : Factory} {ops : List (Operation κ σ ρ)}
    {start env : Ambient σ} {r : Registry κ} (hreached : (new factory).after ops start = (r, env))
    {now : Nat} (hnow : (Clock.read env.clock).1 = .ok now) (window : Nat) :
    ∃ kept : Registry κ,
      (r.evictIdle window env).1 = (.ok (r.keys.filter fun key => key ∉ kept.keys).length, kept) ∧
      kept.factory = r.factory ∧
      (∀ key ∈ kept.keys, kept.slots.find? key = r.slots.find? key) ∧
      ∀ key ∈ r.keys, ∃ used, lastUse? key ((new factory).history ops start) = some used ∧
        (used + window < now → key ∉ kept.keys) ∧
        ((now < used + window ∨ now ≤ used → key ∈ kept.keys) ↔
          ¬ (used = 0 ∧ now < window ∨ used = now ∧ window = 0)) := by
  refine ⟨r.keepAfter (now - window), ?_, rfl, fun key => find?_keepAfter_of_mem, ?_⟩
  · rw [evictIdle_of_read_eq_ok r window hnow, size_sub_size_keepAfter]
  · intro key hkey
    obtain ⟨slot, hslot⟩ := mem_keys_iff.mp hkey
    have hlast : lastUse? key ((new factory).history ops start) = some slot.lastSeen :=
      lastUse?_history (by rw [hreached, hslot])
    refine ⟨slot.lastSeen, hlast, ?_⟩
    rw [mem_keys_keepAfter_iff hslot]
    omega

/-- Three keys that have been idle for 25, 10 and 15 nanoseconds, and a window of 12. -/
theorem evictIdle_respects_window_of_three_keys :
    let ops : List (Operation Nat ScriptedClock Unit) :=
      [.offer 0 1, .offer 1 1, .offer 2 1, .apply 1 fun _ t => pure ((), t.commit), .offer 3 1,
        .remove 3]
    let reached := (new (.copying (.geometric .fresh)) : Registry Nat).after ops
      { clock := { step := 5 } }
    (Clock.read reached.2.clock).1 = .ok 25 ∧
      ∃ kept : Registry Nat, (reached.1.evictIdle 12 reached.2).1 = (.ok 2, kept) ∧
        0 ∉ kept.keys ∧ 1 ∈ kept.keys ∧ 2 ∉ kept.keys ∧
        kept.slots.find? 1 = reached.1.slots.find? 1 := by
  intro ops reached
  have hnow : (Clock.read reached.2.clock).1 = .ok 25 := rfl
  obtain ⟨kept, hanswer, -, hsame, hwindow⟩ := evictIdle_respects_window rfl hnow 12
  have hkeys : reached.1.keys = [1, 2, 0] := by decide
  rw [hkeys] at hanswer hwindow
  have hzero : 0 ∉ kept.keys := by
    obtain ⟨used, hused, hidle, -⟩ := hwindow 0 (by decide)
    cases (show _ = some 0 by decide).symm.trans hused
    exact hidle (by decide)
  have hone : 1 ∈ kept.keys := by
    obtain ⟨used, hused, -, hrecent⟩ := hwindow 1 (by decide)
    cases (show _ = some 15 by decide).symm.trans hused
    exact hrecent.mpr (by decide) (by decide)
  have htwo : 2 ∉ kept.keys := by
    obtain ⟨used, hused, hidle, -⟩ := hwindow 2 (by decide)
    cases (show _ = some 10 by decide).symm.trans hused
    exact hidle (by decide)
  refine ⟨hnow, kept, ?_, hzero, hone, htwo, hsame 1 hone⟩
  simpa [hzero, hone, htwo] using hanswer

/-- A key that has been used 5 nanoseconds ago, at the origin of the clock, is dropped for having
been idle for 10. -/
theorem recent_key_dropped_at_origin :
    let ops : List (Operation Nat ScriptedClock Unit) := [.offer 0 1]
    let fresh : Registry Nat := new (.building (.null .perEvent))
    let start : Ambient ScriptedClock := { clock := { step := 5 } }
    let reached := fresh.after ops start
    let evicted := (reached.1.evictIdle 10 reached.2).1
    (Clock.read reached.2.clock).1 = .ok 5 ∧ 0 ∈ reached.1.keys ∧
      lastUse? 0 (fresh.history ops start) = some 0 ∧ 5 < 0 + 10 ∧
      evicted.1 = .ok 1 ∧ 0 ∉ evicted.2.keys :=
  ⟨rfl, by decide, rfl, by decide, rfl, by decide⟩

end Registry

end AdmissionControl
