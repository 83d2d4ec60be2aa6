/-!
# Tables

A `Table` holds at most one value for each key. Its view is `Table.find?`; the lemmas say what
each operation does to it: `find?_insert`, `find?_erase` and `find?_filter`. The number of keys
is `Table.size`.
-/

namespace AdmissionControl

/-- At most one value for each key. -/
structure Table (κ α : Type) where
  /-- The keys with their values. -/
  entries : List (κ × α)
  nodup : (entries.map Prod.fst).Nodup

namespace Table

variable {κ α : Type} [DecidableEq κ]

/-- The table without keys. -/
def empty : Table κ α := ⟨[], List.nodup_nil⟩

/-- The value of a key. -/
def find? (t : Table κ α) (key : κ) : Option α :=
  (t.entries.find? fun e => e.1 = key).map Prod.snd

/-- Whether a key has a value. -/
def contains (t : Table κ α) (key : κ) : Bool := (t.find? key).isSome

/-- How many keys there are. -/
def size (t : Table κ α) : Nat := t.entries.length

/-- The entries that a test accepts. -/
def filter (accept : κ → α → Bool) (t : Table κ α) : Table κ α :=
  ⟨t.entries.filter fun e => accept e.1 e.2,
    t.nodup.sublist (List.filter_sublist.map Prod.fst)⟩

/-- The table without a key. -/
def erase (t : Table κ α) (key : κ) : Table κ α := t.filter fun k _ => k ≠ key

/-- The table with a value for a key, in place of any other. -/
def insert (t : Table κ α) (key : κ) (value : α) : Table κ α :=
  ⟨(key, value) :: (t.erase key).entries, by
    refine List.nodup_cons.2 ⟨?_, (t.erase key).nodup⟩
    simp [erase, filter]⟩

/-! ### The view -/

/-- The value of a key is the one it is entered with. -/
theorem find?_eq_some_iff (t : Table κ α) (key : κ) (value : α) :
    t.find? key = some value ↔ (key, value) ∈ t.entries := by
  obtain ⟨entries, nodup⟩ := t
  simp only [find?]
  induction entries with
  | nil => simp
  | cons e rest ih =>
    obtain ⟨hnot, hrest⟩ := List.nodup_cons.1 nodup
    obtain ⟨k, v⟩ := e
    by_cases hk : k = key
    · subst hk
      have hmem : (k, value) ∉ rest := fun h => hnot (List.mem_map.2 ⟨_, h, rfl⟩)
      simp [hmem, eq_comm]
    · have hk' : ¬ key = k := fun h => hk h.symm
      simp [hk, hk', ih hrest]

/-- Nothing is found in the empty table. -/
@[simp] theorem find?_empty (key : κ) : (empty : Table κ α).find? key = none := rfl

/-- What a test accepts is found with the value it had. -/
@[simp] theorem find?_filter (accept : κ → α → Bool) (t : Table κ α) (key : κ) :
    (t.filter accept).find? key = (t.find? key).filter (accept key) := by
  refine Option.ext fun value => ?_
  rw [find?_eq_some_iff, Option.filter_eq_some_iff, find?_eq_some_iff]
  simp [filter]

/-- A key that is erased is not found, and any other as before. -/
theorem find?_erase (t : Table κ α) (key other : κ) :
    (t.erase key).find? other = if other = key then none else t.find? other := by
  rw [erase, find?_filter]
  split <;> cases t.find? other <;> simp_all

/-- A key that is inserted is found with the new value, and any other as before. -/
theorem find?_insert (t : Table κ α) (key other : κ) (value : α) :
    (t.insert key value).find? other = if other = key then some value else t.find? other := by
  have h := t.find?_erase key other
  by_cases hk : other = key
  · subst hk
    simp [insert, find?]
  · have hk' : ¬ key = other := fun h => hk h.symm
    simp only [hk, if_false] at h ⊢
    rw [← h]
    simp [insert, find?, hk']

@[simp] theorem find?_insert_self (t : Table κ α) (key : κ) (value : α) :
    (t.insert key value).find? key = some value :=
  (t.find?_insert key key value).trans (if_pos rfl)

theorem find?_insert_of_ne (t : Table κ α) {key other : κ} (h : other ≠ key) (value : α) :
    (t.insert key value).find? other = t.find? other :=
  (t.find?_insert key other value).trans (if_neg h)

end Table

end AdmissionControl
