import AdmissionControl.Proofs.Throttle.Alarms

/-!
# The nesting of compounds

Compounds can be nested in any way, and the halves of each can be given in either order. None of
this is seen from outside: every action reaches every leaf, what is answered is put together from
the answers of the leaves, and neither the largest of some delays nor the conjunction of some
verdicts depends on order or brackets. So throttles with the same leaves give the same answers
(`Throttle.bisimulation_perm_leaves`).

A leaf that admits everything answers every event with zero, which is not above the delay of an
engine, and is never alarmed. Where no leaf is a backoff such leaves are not seen at all, and what
counts are the leaves that do some work, once each (`Throttle.bisimulation_same_working`). Beside a
backoff they are seen, since they hide that it rejects an event.
-/

namespace AdmissionControl

namespace Throttle

/-! ### Leaves that admit everything -/

/-- The throttle admits everything and keeps no account of it. -/
def isIdle : Throttle → Bool
  | null _ | absent => true
  | engine _ _ | shaper _ _ | geometric _ | present _ | compound _ _ => false

/-- The leaves that do not just admit everything. -/
def working (t : Throttle) : List Throttle := t.leaves.filter fun leaf => !leaf.isIdle

section Working

variable (t : Throttle)

theorem mem_working_iff {leaf : Throttle} :
    leaf ∈ t.working ↔ leaf ∈ t.leaves ∧ leaf.isIdle = false := by
  simp [working]

/-- A throttle on its own works as it does beside one that admits everything. -/
theorem working_peakOnly : (peakOnly t).working = t.working := by
  simp [working, peakOnly, leaves, isIdle]

theorem isIdle_act (a : Action) : (t.act a).2.isIdle = t.isIdle := by
  cases t <;> cases a <;> rfl

theorem working_act (a : Action) :
    (t.act a).2.working = t.working.map fun leaf => (leaf.act a).2 := by
  simp only [working, leaves_act, List.filter_map, Function.comp_def, isIdle_act]

end Working

/-! ### The answers of the leaves -/

/-- A question that a throttle affirms just if both its halves do. One that admits everything
affirms it too. -/
structure Conjunctive (f : Throttle → Bool) : Prop where
  shaper : ∀ charging s,
    f (shaper charging s) = (f (engine charging s.peak) && f (ofSustained charging s.sustained))
  null : ∀ charging, f (null charging) = true
  absent : f absent = true
  present : ∀ t, f (present t) = f t
  compound : ∀ p s, f (compound p s) = (f p && f s)

namespace Conjunctive

variable {f : Throttle → Bool}

theorem commitVerdict : Conjunctive commitVerdict := by
  refine ⟨?_, fun _ => rfl, rfl, fun _ => rfl, fun _ _ => rfl⟩
  rintro charging ⟨peak, sustained⟩
  cases sustained <;> rfl

theorem rollbackVerdict : Conjunctive rollbackVerdict := by
  refine ⟨?_, fun _ => rfl, rfl, fun _ => rfl, fun _ _ => rfl⟩
  rintro charging ⟨peak, sustained⟩
  cases sustained <;> rfl

theorem isValid : Conjunctive isValid := by
  refine ⟨?_, fun _ => rfl, rfl, fun _ => rfl, fun _ _ => rfl⟩
  rintro charging ⟨peak, sustained⟩
  cases sustained <;> rfl

/-- A throttle affirms what all its leaves affirm. -/
theorem all_leaves (h : Conjunctive f) (t : Throttle) : t.leaves.all f = f t := by
  induction t with
  | engine _ _ | geometric _ | null _ | absent => simp
  | shaper charging s => simp [leaves, h.shaper]
  | present t ih => rw [leaves, ih, h.present]
  | compound p s ihp ihs => rw [leaves, List.all_append, ihp, ihs, h.compound]

/-- It is enough to ask those that do some work. -/
theorem all_working (h : Conjunctive f) (t : Throttle) : t.working.all f = f t := by
  rw [← h.all_leaves t, working, List.all_filter]
  congr 1
  funext leaf
  cases leaf with
  | null charging => simp [isIdle, h.null]
  | absent => simp [isIdle, h.absent]
  | engine _ _ | shaper _ _ | geometric _ | present _ | compound _ _ => rfl

end Conjunctive

section Leaves

variable (t : Throttle)

/-- A throttle is alarmed if some leaf is. -/
theorem any_isAlarmed_leaves : t.leaves.any isAlarmed = t.isAlarmed := by
  have hcalm := Conjunctive.rollbackVerdict.all_leaves t
  rw [rollbackVerdict_eq, List.all_eq_not_any_not, Bool.not_inj_iff] at hcalm
  simpa only [rollbackVerdict_eq, Bool.not_not] using hcalm

/-- The delay of a throttle is the largest one of its leaves. -/
theorem max?_delayAt_leaves (instant : Int) :
    (t.leaves.map (delayAt instant)).max? = some (t.delayAt instant) := by
  rw [List.max?_eq_some_iff]
  constructor
  · obtain ⟨leaf, hleaf, heq⟩ := t.exists_leaf_delayAt_eq instant
    exact List.mem_map.mpr ⟨leaf, hleaf, heq⟩
  · intro delay hdelay
    obtain ⟨leaf, hleaf, rfl⟩ := List.mem_map.mp hdelay
    exact (t.delayAt_le_iff instant _).mp (Int.le_refl _) leaf hleaf

/-- A bound that is not negative holds for the delay if it holds for those of the leaves that
work. -/
theorem delayAt_le_iff_working (instant : Int) {bound : Int} (hbound : 0 ≤ bound) :
    t.delayAt instant ≤ bound ↔ ∀ leaf ∈ t.working, leaf.delayAt instant ≤ bound := by
  rw [delayAt_le_iff]
  constructor
  · intro h leaf hleaf
    exact h leaf (t.mem_working_iff.mp hleaf).1
  · intro h leaf hleaf
    cases leaf with
    | null _ | absent => exact hbound
    | engine _ _ | shaper _ _ | geometric _ | present _ | compound _ _ =>
      exact h _ (t.mem_working_iff.mpr ⟨hleaf, rfl⟩)

/-- **Every leaf is on its own.** After a run each leaf is what the same run makes of it alone. -/
theorem leaves_run (actions : List Action) :
    (t.run actions).2.leaves = t.leaves.map fun leaf => (leaf.run actions).2 := by
  induction actions generalizing t with
  | nil => exact (List.map_id _).symm
  | cons a rest ih =>
    simp only [run_cons, ih, leaves_act, List.map_map, Function.comp_def]

end Leaves

/-! ### The same answers -/

/-- Two throttles cannot be told apart: whatever is done to both, each action has the same reply,
both are alarmed or neither is, and both states make sense or neither does. -/
structure SameAnswers (t t' : Throttle) : Prop where
  replies : ∀ actions, (t.run actions).1 = (t'.run actions).1
  isAlarmed : ∀ actions, (t.run actions).2.isAlarmed = (t'.run actions).2.isAlarmed
  isValid : ∀ actions, (t.run actions).2.isValid = (t'.run actions).2.isValid

/-- A relation under which no single look tells throttles apart, and which every action keeps. -/
structure Bisimulation (R : Throttle → Throttle → Prop) : Prop where
  act : ∀ {t t'}, R t t' → ∀ a, R (t.act a).2 (t'.act a).2
  delayAt : ∀ {t t'}, R t t' → ∀ instant, t.delayAt instant = t'.delayAt instant
  conjunctive : ∀ {t t'}, R t t' → ∀ {f : Throttle → Bool}, Conjunctive f → f t = f t'

namespace Bisimulation

variable {R : Throttle → Throttle → Prop} {t t' : Throttle}

/-- **One action.** -/
theorem reply_eq (h : Bisimulation R) (hR : R t t') (a : Action) :
    (t.act a).1 = (t'.act a).1 := by
  cases a with
  | resetAt _ => rfl
  | examine instant => exact congrArg Reply.delay (h.delayAt hR instant)
  | commit | commitUnits _ => exact congrArg Reply.verdict (h.conjunctive hR .commitVerdict)
  | rollback => exact congrArg Reply.verdict (h.conjunctive hR .rollbackVerdict)

/-- **A run.** -/
theorem run (h : Bisimulation R) (hR : R t t') (actions : List Action) :
    (t.run actions).1 = (t'.run actions).1 ∧ R (t.run actions).2 (t'.run actions).2 := by
  induction actions generalizing t t' with
  | nil => exact ⟨rfl, hR⟩
  | cons a rest ih =>
    obtain ⟨hreplies, hlast⟩ := ih (h.act hR a)
    refine ⟨?_, hlast⟩
    rw [run_cons, run_cons, h.reply_eq hR a, hreplies]

theorem sameAnswers (h : Bisimulation R) (hR : R t t') : t.SameAnswers t' where
  replies actions := (h.run hR actions).1
  isAlarmed actions := by
    have hcalm := h.conjunctive (h.run hR actions).2 .rollbackVerdict
    rwa [rollbackVerdict_eq, rollbackVerdict_eq, Bool.not_inj_iff] at hcalm
  isValid actions := h.conjunctive (h.run hR actions).2 .isValid

end Bisimulation

/-- Delays are the same if the same bounds hold for them. -/
theorem delayAt_eq_of_le_iff {t t' : Throttle} {instant : Int}
    (h : ∀ bound, t.delayAt instant ≤ bound ↔ t'.delayAt instant ≤ bound) :
    t.delayAt instant = t'.delayAt instant :=
  Int.le_antisymm ((h _).mpr (Int.le_refl _)) ((h _).mp (Int.le_refl _))

/-- **The same leaves give the same answers**, however they are nested and in whatever order. -/
theorem bisimulation_perm_leaves : Bisimulation fun t t' => t.leaves.Perm t'.leaves where
  act {t t'} hperm a := by
    rw [leaves_act, leaves_act]
    exact hperm.map _
  delayAt {t t'} hperm instant := by
    refine delayAt_eq_of_le_iff fun bound => ?_
    rw [t.delayAt_le_iff, t'.delayAt_le_iff]
    simp only [hperm.mem_iff]
  conjunctive {t t'} hperm {f} hf := by
    rw [← hf.all_leaves t, hperm.all_eq, hf.all_leaves]

/-- Backoffs are among the leaves that work. -/
theorem BackoffFree.of_mem_working_iff {t t' : Throttle} (h : t.BackoffFree)
    (hsame : ∀ leaf, leaf ∈ t.working ↔ leaf ∈ t'.working) : t'.BackoffFree := by
  intro g hg
  have hworking : geometric g ∈ t'.working := t'.mem_working_iff.mpr ⟨hg, rfl⟩
  exact h g (t.mem_working_iff.mp ((hsame _).mpr hworking)).1

/-- **Without a backoff the leaves that work give the answers**, whatever other leaves there are
and however often each of them is there. -/
theorem bisimulation_same_working :
    Bisimulation fun t t' => t.BackoffFree ∧ ∀ leaf, leaf ∈ t.working ↔ leaf ∈ t'.working where
  act {t t'} h a := by
    refine ⟨h.1.act a, fun leaf => ?_⟩
    rw [working_act, working_act]
    simp only [List.mem_map, h.2]
  delayAt {t t'} h instant := by
    obtain ⟨hfree, hsame⟩ := h
    refine delayAt_eq_of_le_iff fun bound => ?_
    by_cases hbound : 0 ≤ bound
    · rw [t.delayAt_le_iff_working instant hbound, t'.delayAt_le_iff_working instant hbound]
      simp only [hsame]
    · -- no delay is negative here
      have hnonneg := hfree.delayAt_nonneg instant
      have hnonneg' := (hfree.of_mem_working_iff hsame).delayAt_nonneg instant
      omega
  conjunctive {t t'} h {f} hf := by
    rw [← hf.all_working t, ← hf.all_working t', Bool.eq_iff_iff, List.all_eq_true,
      List.all_eq_true]
    simp only [h.2]

/-- **The nesting of compounds is not seen.** The delay of a throttle is the largest one of its
leaves. Commits and rollbacks are answered well just if all leaves answer them well, a throttle is
alarmed just if some leaf is, its state makes sense just if those of all leaves do, and each leaf is
after a run what the same run makes of it alone. So two throttles that are put together from the
same leaves, in the same states, give the same answers to whatever is done to both, whatever the
brackets are and in whatever order the halves come. Where no leaf is a backoff, it is enough that
the leaves that work are the same. In particular nobody sees whether a throttle might have been left
out, and, without a backoff, whether it stands beside one that admits everything. -/
theorem nesting_not_seen (t t' : Throttle) :
    ((∀ instant, (t.leaves.map (delayAt instant)).max? = some (t.delayAt instant)) ∧
      t.commitVerdict = t.leaves.all commitVerdict ∧
      t.rollbackVerdict = t.leaves.all rollbackVerdict ∧
      t.isAlarmed = t.leaves.any isAlarmed ∧ t.isValid = t.leaves.all isValid ∧
      ∀ actions, (t.run actions).2.leaves = t.leaves.map fun leaf => (leaf.run actions).2) ∧
    (t.leaves.Perm t'.leaves → t.SameAnswers t') ∧
    (t.BackoffFree → t.working.Perm t'.working → t.SameAnswers t') ∧
    (t.SameAnswers (present t) ∧ (t.BackoffFree → t.SameAnswers (peakOnly t))) := by
  refine ⟨⟨t.max?_delayAt_leaves, ?_, ?_, t.any_isAlarmed_leaves.symm, ?_, t.leaves_run⟩, ?_, ?_,
    ?_, ?_⟩
  · exact (Conjunctive.commitVerdict.all_leaves t).symm
  · exact (Conjunctive.rollbackVerdict.all_leaves t).symm
  · exact (Conjunctive.isValid.all_leaves t).symm
  · exact fun hperm => bisimulation_perm_leaves.sameAnswers hperm
  · exact fun hfree hperm => bisimulation_same_working.sameAnswers ⟨hfree, fun _ => hperm.mem_iff⟩
  · exact bisimulation_perm_leaves.sameAnswers (.refl _)
  · intro hfree
    refine bisimulation_same_working.sameAnswers ⟨hfree, fun leaf => ?_⟩
    rw [working_peakOnly]

/-- Two engines and a backoff, one engine and the backoff in the midst of their work, are enforced
in two nestings, and then the engines alone beside two throttles that admit everything. -/
theorem nesting_not_seen_in_midst_of_work :
    let a := ((engine .perUnit (.opened (.clamped .microseconds 1000 250) 0)).run
      [.examine 0, .commitUnits 3, .examine 40]).2
    let b := engine .perUnit (.opened (.clamped .nanoseconds 700 50) 0)
    let g := ((geometric .fresh).run [.examine 0, .commit, .examine 0]).2
    let t := compound (compound a (present g)) b
    let t' := compound g (compound b a)
    let u := compound a b
    let u' := compound (null .perUnit) (compound b (compound absent a))
    (t.leaves.Perm t'.leaves ∧ t.SameAnswers t') ∧
      u.BackoffFree ∧ u.working.Perm u'.working ∧ u.SameAnswers u' := by
  intro a b g t t' u u'
  have hleaves : t.leaves.Perm t'.leaves := by decide
  have hfree : u.BackoffFree := by
    intro g' hg
    simp [u, a, b, act] at hg
  have hworking : u.working.Perm u'.working := by decide
  obtain ⟨-, hnested, -, -⟩ := nesting_not_seen t t'
  obtain ⟨-, -, hbeside, -⟩ := nesting_not_seen u u'
  exact ⟨⟨hleaves, hnested hleaves⟩, hfree, hworking, hbeside hfree hworking⟩

end Throttle

end AdmissionControl
