import Mathlib.Algebra.Group.Nat.Defs
import Mathlib.Order.Bounds.Defs
import AdmissionControl.Throttle.Action
import AdmissionControl.Throttle.Blueprint

/-!
# The events that a backoff admits

A backoff counts down to the next event that it admits, and doubles the number of that event when
it comes. Its two counters say where it stands: after `n` events the number is the least power of
two above `n`, and the countdown is what is missing to it (`Backoff.Counted`). One more event keeps
this (`Backoff.Counted.next`), whether it is taken in or left, so what a caller makes of the answers
has no influence on them (`Throttle.backoff_admits_powers_of_two`).

The count ends where the number can no longer be doubled within the range of ticks.
-/

namespace AdmissionControl

/-! ### The next power of two -/

/-- A number is the least power of two above another one. -/
def IsNextPower (n next : Nat) : Prop := IsLeast {p : Nat | p.isPowerOfTwo ∧ n < p} next

theorem isNextPower_zero : IsNextPower 0 1 :=
  ⟨⟨Nat.isPowerOfTwo_one, Nat.one_pos⟩, fun _ hp => hp.2⟩

/-- A power of two that is above another one is at least twice as large. -/
theorem two_mul_le_of_isPowerOfTwo {p q : Nat} (hp : p.isPowerOfTwo) (hq : q.isPowerOfTwo)
    (hlt : p < q) : 2 * p ≤ q := by
  obtain ⟨i, rfl⟩ := hp
  obtain ⟨j, rfl⟩ := hq
  have hij : i < j := (Nat.pow_lt_pow_iff_right (by decide)).mp hlt
  calc 2 * 2 ^ i = 2 ^ (i + 1) := (Nat.pow_succ' ..).symm
    _ ≤ 2 ^ j := Nat.pow_le_pow_right (by decide) hij

namespace IsNextPower

variable {n next : Nat}

theorem lt (h : IsNextPower n next) : n < next := h.1.2

theorem isPowerOfTwo (h : IsNextPower n next) : next.isPowerOfTwo := h.1.1

/-- A number is a power of two exactly if it is the next one after its predecessor. -/
theorem isPowerOfTwo_succ_iff (h : IsNextPower n next) : (n + 1).isPowerOfTwo ↔ next = n + 1 := by
  constructor
  · intro hpower
    exact Nat.le_antisymm (h.2 ⟨hpower, Nat.lt_succ_self n⟩) h.lt
  · rintro rfl
    exact h.isPowerOfTwo

theorem le_two_pow (h : IsNextPower n next) {k : Nat} (hlt : n < 2 ^ k) : next ≤ 2 ^ k :=
  h.2 ⟨⟨k, rfl⟩, hlt⟩

/-- As long as it is not reached, the next power of two stays the next. -/
theorem succ (h : IsNextPower n next) (hlt : n + 1 < next) : IsNextPower (n + 1) next :=
  ⟨⟨h.isPowerOfTwo, hlt⟩, fun _ hp => h.2 ⟨hp.1, Nat.lt_of_succ_lt hp.2⟩⟩

/-- When it is reached, the next power of two is its double. -/
theorem double (h : IsNextPower n (n + 1)) : IsNextPower (n + 1) (2 * (n + 1)) := by
  refine ⟨⟨?_, by omega⟩, fun p hp => two_mul_le_of_isPowerOfTwo h.isPowerOfTwo hp.1 hp.2⟩
  rw [Nat.mul_comm]
  exact Nat.isPowerOfTwo_mul_two_of_isPowerOfTwo h.isPowerOfTwo

end IsNextPower

/-! ### The counters -/

namespace Backoff

/-- The counters of a backoff after some number of events. -/
def Counted (b : Backoff) (n : Nat) : Prop :=
  ∃ next : Nat, IsNextPower n next ∧ b.consecutive = next ∧ b.countdown = next - n

theorem counted_fresh : (Geometric.fresh.committed).Counted 0 :=
  ⟨1, isNextPower_zero, rfl, rfl⟩

variable {b : Backoff} {n : Nat}

/-- **One more event.** It is free of alarm exactly if its number is a power of two. -/
theorem Counted.next (h : b.Counted n) (hn : n + 1 < 2 ^ 62) :
    b.next.Counted (n + 1) ∧ b.next.alarmed = !decide (n + 1).isPowerOfTwo := by
  obtain ⟨next, hnext, hconsecutive, hcountdown⟩ := h
  have hlt := hnext.lt
  have hle : next ≤ 2 ^ 62 := hnext.le_two_pow (by omega)
  have hleft : satSub b.countdown 1 = next - (n + 1 : Nat) := by
    have hrange : InRange ((next : Int) - n - 1) := by
      unfold InRange minTick maxTick
      omega
    rw [hcountdown, satSub, saturate_of_inRange hrange]
    omega
  unfold Backoff.next
  dsimp only
  rw [hleft, hconsecutive]
  by_cases hreached : next = n + 1
  · subst hreached
    have hdouble : 2 * ((n + 1 : Nat) : Int) ≤ maxTick := by
      unfold maxTick
      omega
    rw [if_neg (by omega), if_pos hdouble]
    refine ⟨⟨2 * (n + 1), hnext.double, by push_cast; rfl, by push_cast; rfl⟩, ?_⟩
    simp [hnext.isPowerOfTwo]
  · rw [if_pos (by omega)]
    refine ⟨⟨next, hnext.succ (by omega), rfl, rfl⟩, ?_⟩
    simp [hnext.isPowerOfTwo_succ_iff, hreached]

end Backoff

/-- The counters of a backoff with no event under examination, after some number of events. -/
structure Geometric.Counted (g : Geometric) (n : Nat) : Prop where
  committed : g.committed.Counted n
  tentative : g.tentative.consecutive = g.committed.consecutive

namespace Geometric.Counted

variable {g : Geometric} {n : Nat}

theorem fresh : Geometric.fresh.Counted 0 := ⟨Backoff.counted_fresh, rfl⟩

/-- The answer to the next event. -/
theorem delay_eq (h : g.Counted n) (hn : n + 1 < 2 ^ 62) :
    g.delay = if (n + 1).isPowerOfTwo then 0 else rejected := by
  unfold delay
  rw [(h.committed.next hn).2]
  by_cases hpower : (n + 1).isPowerOfTwo <;> simp [hpower]

/-- Both ways to end an event move the counters on. -/
theorem commit_examine (h : g.Counted n) (hn : n + 1 < 2 ^ 62) :
    g.examine.commit.Counted (n + 1) :=
  ⟨(h.committed.next hn).1, rfl⟩

theorem rollback_examine (h : g.Counted n) (hn : n + 1 < 2 ^ 62) :
    g.examine.rollback.Counted (n + 1) :=
  ⟨(h.committed.next hn).1, rfl⟩

theorem isValid (h : g.Counted n) : g.isValid = true := by
  obtain ⟨⟨next, hnext, hconsecutive, -⟩, htentative⟩ := h
  have hpower : isPowerOfTwo next = true :=
    decide_eq_true ⟨by exact_mod_cast Nat.zero_lt_of_lt hnext.lt, hnext.isPowerOfTwo⟩
  rw [Geometric.isValid, htentative, hconsecutive, hpower]
  rfl

end Geometric.Counted

/-! ### Rows of events -/

/-- An event that is examined at an instant and then taken in or left, whatever the answer. -/
structure Trial where
  instant : Int
  /-- Whether the event is taken in. -/
  taken : Bool
deriving DecidableEq, Repr

/-- What is done about an event. -/
def Trial.actions (e : Trial) : List Action :=
  [.examine e.instant, if e.taken then .commit else .rollback]

/-- The delay that is answered, if the reply is one to an examination. -/
def Reply.delay? : Reply → Option Int
  | .delay ticks => some ticks
  | .done | .verdict _ => none

namespace Throttle

variable {g : Geometric} {n : Nat}

/-- **One event.** Its number decides on the answer, and it counts whatever becomes of it. -/
theorem run_trial (h : g.Counted n) (hn : n + 1 < 2 ^ 62) (e : Trial) :
    ∃ g' calm, g'.Counted (n + 1) ∧ (geometric g).run e.actions =
      ([.delay (if (n + 1).isPowerOfTwo then 0 else rejected), .verdict calm], geometric g') := by
  rw [← h.delay_eq hn]
  obtain ⟨instant, taken⟩ := e
  cases taken with
  | true => exact ⟨_, _, h.commit_examine hn, rfl⟩
  | false => exact ⟨_, _, h.rollback_examine hn, rfl⟩

/-- **A row of events.** The answers are decided by the numbers of the events. -/
theorem run_trials (h : g.Counted n) {events : List Trial} (hn : n + events.length < 2 ^ 62) :
    ((geometric g).run (events.flatMap Trial.actions)).1.filterMap Reply.delay? =
        (List.range' (n + 1) events.length).map (fun k =>
          if k.isPowerOfTwo then 0 else rejected) ∧
      ∃ g', g'.Counted (n + events.length) ∧
        ((geometric g).run (events.flatMap Trial.actions)).2 = geometric g' := by
  induction events generalizing g n with
  | nil => exact ⟨rfl, g, h, rfl⟩
  | cons e rest ih =>
    rw [List.length_cons] at hn ⊢
    obtain ⟨g', calm, hcounted, hrun⟩ := run_trial h (by omega) e
    obtain ⟨hdelays, g'', hlast, hrest⟩ := ih hcounted (by omega)
    rw [List.flatMap_cons, run_append, hrun]
    refine ⟨?_, g'', ?_, hrest⟩
    · rw [List.filterMap_append, hdelays]
      rfl
    · rwa [Nat.add_right_comm, Nat.add_assoc] at hlast

/-- **A backoff admits the powers of two.** Let a backoff be new or have just been reset, at an
instant or on the clock. Let fewer than `2 ^ 62` events be examined, at any instants, and let each
be taken in or left as the caller likes. The events whose numbers are powers of two are answered
with zero, and all others are rejected. After them the backoff has the number of the next event to
be admitted, which is the least power of two above theirs, and how many events there are up to it,
and its state makes sense. -/
theorem backoff_admits_powers_of_two {σ : Type} [Clock σ] {t : Throttle}
    (hnew : (∃ env : Ambient σ, t = (Blueprint.geometric.build env).1) ∨
      ∃ g, (∃ start, t = (geometric g).resetAt start) ∨
        ∃ env : Ambient σ, t = ((geometric g).reset env).1)
    {events : List Trial} (hn : events.length < 2 ^ 62) :
    let done := t.run (events.flatMap Trial.actions)
    done.1.filterMap Reply.delay? =
        (List.range' 1 events.length).map (fun n => if n.isPowerOfTwo then 0 else rejected) ∧
      ∃ g next, done.2 = geometric g ∧ IsNextPower events.length next ∧
        g.committed.consecutive = next ∧
        g.committed.countdown = g.committed.consecutive - events.length ∧ g.isValid = true := by
  intro done
  have hfresh : t = geometric .fresh := by
    rcases hnew with ⟨env, rfl⟩ | ⟨g, ⟨start, rfl⟩ | ⟨env, rfl⟩⟩ <;> rfl
  subst hfresh
  have hbound : 0 + events.length < 2 ^ 62 := by rwa [Nat.zero_add]
  obtain ⟨hdelays, g, hcounted, hlast⟩ := run_trials Geometric.Counted.fresh hbound
  rw [Nat.zero_add] at hdelays hcounted
  obtain ⟨next, hnext, hconsecutive, hcountdown⟩ := hcounted.committed
  refine ⟨hdelays, g, next, hlast, hnext, hconsecutive, ?_, hcounted.isValid⟩
  rw [hcountdown, hconsecutive]

/-- Five events through a backoff that has been reset. The caller takes in two of those that are
rejected, and leaves one that is not. -/
theorem backoff_admits_powers_of_two_of_five :
    let used : Geometric := ⟨⟨4, 1, true⟩, ⟨8, 4, false⟩⟩
    let events : List Trial := [⟨7, true⟩, ⟨3, false⟩, ⟨3, true⟩, ⟨-9, true⟩, ⟨maxTick, true⟩]
    let done := ((geometric used).resetAt 11).run (events.flatMap Trial.actions)
    let last : Geometric := ⟨⟨8, 3, true⟩, ⟨8, 3, true⟩⟩
    done.1.filterMap Reply.delay? = [0, 0, rejected, 0, rejected] ∧ done.2 = geometric last ∧
      IsNextPower 5 8 ∧ last.committed.countdown = 8 - 5 ∧ last.isValid = true := by
  intro used events done last
  have hlength : events.length < 2 ^ 62 := by decide
  obtain ⟨hdelays, g, next, hstate, hnext, hconsecutive, hcountdown, hvalid⟩ :=
    backoff_admits_powers_of_two (σ := ScriptedClock) (.inr ⟨used, .inl ⟨11, rfl⟩⟩) hlength
  have hdone : done.2 = geometric last := by decide
  cases hdone.symm.trans hstate
  have hsame : (next : Int) = 8 := hconsecutive.symm
  obtain rfl : next = 8 := by omega
  exact ⟨hdelays.trans (by decide), hdone, hnext, hcountdown, hvalid⟩

end Throttle

end AdmissionControl
