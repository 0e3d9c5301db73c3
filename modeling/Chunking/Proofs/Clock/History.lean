import Chunking.Proofs.Clock.Contents

/-!
# What a cache remembers

A cache that was empty at first is a partial function from keys to values after any sequence of
requests: a key has the value that was written last under it since the entries were dropped, or it
has none.  The index and the slots represent this function, each key by one slot, and neither a
lookup nor the sweep of the hand leaves the row of slots.
-/

namespace Chunking.Clock

variable {α : Type}

/-- The cache after a sequence of requests. -/
def after (capacity : Nat) (h : 0 < capacity) (requests : List (Request α)) : Clock α :=
  (run serve (empty capacity h) requests).2

theorem consistent_after (capacity : Nat) (h : 0 < capacity) (requests : List (Request α)) :
  (after capacity h requests).Consistent
  := by
  apply run_invariant (P := Consistent)
  · intro request _ c hc
    apply hc.serve
  · apply consistent_empty

theorem capacity_serve (c : Clock α) (request : Request α) :
  (c.serve request).2.capacity = c.capacity
  := by
  cases request with
  | get key =>
    simp only [serve, get]
    split
    · rfl
    · rfl
  | insert key value =>
    simp only [serve, insert]
    split
    · rfl
    · split
      · rfl
      · rfl
  | clear => rfl

theorem capacity_after (capacity : Nat) (h : 0 < capacity) (requests : List (Request α)) :
  (after capacity h requests).capacity = capacity
  := by
  apply run_invariant (P := fun c : Clock α => c.capacity = capacity)
  · intro request _ c hc
    rw [capacity_serve, hc]
  · rfl

/-! ### The last write -/

/-- The value written under a key by the last insertion of the key, if no request after it drops
all entries. -/
def LastWritten (key : String) (value : α) (requests : List (Request α)) : Prop :=
  ∃ earlier later, requests = earlier ++ .insert key value :: later
    ∧ .clear ∉ later ∧ ∀ other, .insert key other ∉ later

theorem lastWritten_concat (key : String) (value : α) (requests : List (Request α)) :
  LastWritten key value (requests ++ [.insert key value])
  := by
  use requests, []
  simp

/-- A further request that neither writes the key nor drops the entries leaves the last write. -/
theorem LastWritten.concat {key : String} {value : α} {requests : List (Request α)}
    (h : LastWritten key value requests) {request : Request α} (hclear : request ≠ .clear)
    (hinsert : ∀ other, request ≠ .insert key other) :
  LastWritten key value (requests ++ [request])
  := by
  obtain ⟨earlier, later, rfl, hlater, hothers⟩ := h
  use earlier, later ++ [request]
  constructor
  · simp
  constructor
  · simp [hlater, hclear.symm]
  · intro other
    simp [hothers other, (hinsert other).symm]

/-- What is stored under a key is what was written last under it. -/
theorem lastWritten_of_value? {capacity : Nat} {h : 0 < capacity} {requests : List (Request α)}
    {key : String} {value : α} (hstored : (after capacity h requests).value? key = some value) :
  LastWritten key value requests
  := by
  suffices (after capacity h requests).Consistent ∧ ∀ key value,
      (after capacity h requests).value? key = some value → LastWritten key value requests from
    this.2 key value hstored
  clear hstored key value
  apply run_history (P := fun past (c : Clock α) =>
    c.Consistent ∧ ∀ key value, c.value? key = some value → LastWritten key value past)
  · rintro past request c ⟨hc, hpast⟩
    use hc.serve request
    intro key value hstored
    cases request with
    | get looked =>
      apply (hpast key value _).concat
      · rintro ⟨⟩
      · rintro other ⟨⟩
      · rwa [← value?_get c looked key]
    | insert written new =>
      by_cases hkey : key = written
      · subst hkey
        have hnew : (c.insert key new).value? key = some new := value?_insert_self hc key new
        obtain rfl := Option.some.inj (hnew.symm.trans hstored)
        apply lastWritten_concat
      · apply (hpast key value _).concat
        · rintro ⟨⟩
        · rintro other ⟨⟩
          contradiction
        · apply value?_of_insert_of_ne hc hkey hstored
    | clear => cases hstored
  · constructor
    · apply consistent_empty
    · intro key value hstored
      cases hstored

/-! ### Representation -/

/-- A table of at most `capacity` slots whose index and slots hold the same keys, each at one place,
and in which no access leaves the row of slots. -/
structure Table.Represented (capacity : Nat) (t : Table α) : Prop where
  index_iff (key : String) (i : Nat) :
    t.index[key]? = some i ↔ ∃ slot, t.slots[i]? = some slot ∧ slot.key = key
  nodup_keys : t.keys.Nodup
  size_index : t.index.size = t.slots.size
  size_le : t.slots.size ≤ capacity
  /-- The hand does not move before all slots are in use. -/
  hand_eq_zero (hroom : t.slots.size < capacity) : t.hand = 0
  hand_lt : t.hand < max 1 t.slots.size
  /-- A sweep of a full table inspects slots only. -/
  hand_lt_of_passes (hfull : t.slots.size = capacity) {u : Table α}
    (h : Relation.ReflTransGen Passes t u) : u.hand < u.slots.size
  victim_lt (hfull : t.slots.size = capacity) : t.sweep.1 < t.sweep.2.slots.size

theorem Consistent.represented {c : Clock α} (h : c.Consistent) :
  c.table.Represented c.capacity
  := by
  have hhand (hfull : c.table.slots.size = c.capacity) : c.table.hand < c.table.slots.size := by
    apply hand_lt_of_full h
    apply Nat.not_lt.mpr hfull.ge
  constructor
  · intro key i
    rw [h.table.index_iff, Table.getElem?_keys, Option.map_eq_some_iff]
  · apply Table.nodup_keys h.table
  · apply Table.size_index h.table
  · apply h.size_le
  · apply h.hand_eq_zero
  · apply h.table.hand_lt
  · intro hfull u hpasses
    apply Table.hand_lt_of_passes hpasses (hhand hfull)
  · intro hfull
    apply (Table.swept_sweep (hhand hfull)).victim_lt

/-! ### Meaning -/

/-- A cache that answers lookups by the requests made so far. -/
structure Remembers (c : Clock α) (requests : List (Request α)) : Prop where
  /-- What is found was written last. -/
  lastWritten_of_get {key : String} {value : α} (hfound : (c.get key).1 = some value) :
    LastWritten key value requests
  get_get (key other : String) : ((c.get key).2.get other).1 = (c.get other).1
  get_insert_self (key : String) (value : α) : ((c.insert key value).get key).1 = some value
  /-- Only an absent key in a full cache makes other keys lose their values. -/
  get_insert_of_ne {key other : String} (value : α)
    (hroom : (c.get key).1 ≠ none ∨ c.size < c.capacity) (hne : other ≠ key) :
    ((c.insert key value).get other).1 = (c.get other).1
  /-- It makes exactly one other key lose its value. -/
  exists_dropped {key : String} (value : α) (habsent : (c.get key).1 = none)
    (hfull : c.size = c.capacity) :
    ∃ dropped, dropped ≠ key ∧ (c.get dropped).1 ≠ none
      ∧ ((c.insert key value).get dropped).1 = none
      ∧ ∀ other, other ≠ key → other ≠ dropped →
        ((c.insert key value).get other).1 = (c.get other).1

theorem remembers_after (capacity : Nat) (h : 0 < capacity) (requests : List (Request α)) :
  (after capacity h requests).Remembers requests
  := by
  have hconsistent := consistent_after capacity h requests
  constructor
  · intro key value
    rw [fst_get]
    apply lastWritten_of_value?
  · intro key other
    rw [fst_get, fst_get, value?_get]
  · intro key value
    rw [fst_get, value?_insert_self hconsistent]
  · intro key other value hroom hne
    rw [fst_get] at hroom
    rw [fst_get, fst_get, value?_insert_of_ne hconsistent hroom hne]
  · intro key value habsent hfull
    rw [fst_get] at habsent
    simp only [fst_get]
    apply exists_dropped_insert hconsistent habsent
    apply Nat.not_lt.mpr hfull.ge

/-- After any sequence of requests, the index and the slots represent the contents of the cache, and
the contents are what the requests have written last and no eviction has dropped. -/
theorem after_represented_and_remembers (capacity : Nat) (h : 0 < capacity)
    (requests : List (Request α)) :
  (after capacity h requests).table.Represented capacity
    ∧ (after capacity h requests).capacity = capacity
    ∧ (after capacity h requests).Remembers requests
  := by
  have hcapacity := capacity_after capacity h requests
  constructor
  · have hrepresented := (consistent_after capacity h requests).represented
    rwa [hcapacity] at hrepresented
  · exact ⟨hcapacity, remembers_after capacity h requests⟩

/-- In a full cache of two entries a new one takes the place of exactly one, of `cold`, since the
other one was read. -/
theorem after_hot_cold_represented :
  let c : Clock Nat := after 2 (by decide) [.insert "hot" 0, .insert "cold" 1, .get "hot"]
  0 < 2
    ∧ c.table.Represented 2
    ∧ c.size = c.capacity ∧ (c.get "new").1 = none
    ∧ (∃ dropped, dropped ≠ "new" ∧ (c.get dropped).1 ≠ none
      ∧ ((c.insert "new" 2).get dropped).1 = none
      ∧ ∀ other, other ≠ "new" → other ≠ dropped →
        ((c.insert "new" 2).get other).1 = (c.get other).1)
    ∧ ((c.insert "new" 2).get "hot").1 = some 0
    ∧ ((c.insert "new" 2).get "cold").1 = none
  := by
  intro c
  obtain ⟨hrepresented, -, hremembers⟩ := after_represented_and_remembers 2 (by decide)
    [.insert "hot" 0, .insert "cold" 1, .get "hot"]
  have hfull : c.size = c.capacity := by decide +kernel
  have habsent : (c.get "new").1 = none := by decide +kernel
  constructor
  · decide
  constructor
  · apply hrepresented
  constructor
  · apply hfull
  constructor
  · apply habsent
  constructor
  · apply hremembers.exists_dropped 2 habsent hfull
  · decide +kernel

end Chunking.Clock
