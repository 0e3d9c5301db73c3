import Chunking.Proofs.Clock.History
import Mathlib.Data.Nat.ModEq

/-!
# The victim of a sweep

A sweep passes the marked slots from the hand on, in cyclic order and for one lap at most, and
clears their marks.  Its victim is the first slot without a mark, which is the slot under the hand
when a whole lap was passed.  Hence an insertion evicts a marked entry only when all entries are
marked and the hand stands on that one.
-/

namespace Chunking.Clock

variable {α : Type}

/-- A slot without its mark. -/
def Slot.unmarked (slot : Slot α) : Slot α :=
  { slot with marked := false }

namespace Table

/-! ### Cyclic positions -/

/-- The position of the hand after `j` steps. -/
def ahead (t : Table α) (j : Nat) : Nat :=
  (t.hand + j) % t.slots.size

theorem ahead_succ (t : Table α) (j : Nat) :
  t.ahead (j + 1) = (t.ahead j + 1) % t.slots.size
  := by
  rw [ahead, ahead, Nat.mod_add_mod, Nat.add_assoc]

/-- No slot is reached twice in a lap. -/
theorem ahead_inj {t : Table α} {j k : Nat} (hj : j < t.slots.size) (hk : k < t.slots.size)
    (heq : t.ahead j = t.ahead k) :
  j = k
  := by
  have hmod : Nat.ModEq t.slots.size j k := Nat.ModEq.add_left_cancel' t.hand heq
  rwa [Nat.ModEq, Nat.mod_eq_of_lt hj, Nat.mod_eq_of_lt hk] at hmod

section

variable {t : Table α} (h : t.hand < t.slots.size)
include h

theorem ahead_lt (j : Nat) :
  t.ahead j < t.slots.size
  := Nat.mod_lt _ (Nat.zero_lt_of_lt h)

theorem ahead_zero :
  t.ahead 0 = t.hand
  := Nat.mod_eq_of_lt h

/-- After a lap the hand is back where it was. -/
theorem ahead_size :
  t.ahead t.slots.size = t.hand
  := by
  rw [ahead, Nat.add_mod_right, Nat.mod_eq_of_lt h]

end

/-! ### The slots in front of the victim -/

/-- The mark of the slot at a position. -/
def markAt? (t : Table α) (i : Nat) : Option Bool :=
  t.slots[i]?.map Slot.marked

/-- The number of marked slots in a row from the hand on. -/
def lead (t : Table α) : Nat :=
  t.queue.findIdx fun slot => !slot.marked

theorem markAt?_ahead {t : Table α} {j : Nat} (hj : j < t.slots.size) :
  t.markAt? (t.ahead j) = t.queue[j]?.map Slot.marked
  := by
  rw [markAt?, queue, List.getElem?_rotate hj, Array.getElem?_toList, Array.length_toList, ahead,
    Nat.add_comm]

theorem lead_le (t : Table α) :
  t.lead ≤ t.slots.size
  := by
  rw [← size, ← length_queue]
  apply List.findIdx_le_length

theorem markAt?_of_lt_lead {t : Table α} {j : Nat} (hj : j < t.lead) :
  t.markAt? (t.ahead j) = some true
  := by
  have hsize := Nat.lt_of_lt_of_le hj t.lead_le
  have hmarked := List.not_of_lt_findIdx hj
  rw [markAt?_ahead hsize, List.getElem?_eq_getElem (by rwa [length_queue]), Option.map_some]
  simpa using hmarked

theorem markAt?_lead {t : Table α} (h : t.lead < t.slots.size) :
  t.markAt? (t.ahead t.lead) = some false
  := by
  have hlt : t.lead < t.queue.length := by rwa [length_queue]
  have hmarked : (!t.queue[t.lead].marked) = true := List.findIdx_getElem (w := hlt)
  rw [markAt?_ahead h, List.getElem?_eq_getElem hlt, Option.map_some]
  simpa using hmarked

/-- The lead is a whole lap exactly when all slots are marked. -/
theorem lead_eq_size_iff (t : Table α) :
  t.lead = t.slots.size ↔ ∀ slot ∈ t.slots, slot.marked = true
  := by
  rw [← size, ← length_queue, lead, List.findIdx_eq_length]
  simp only [queue, List.mem_rotate, Array.mem_toList_iff, Bool.not_eq_false']

/-! ### The table on the way -/

/-- The table when the hand has passed `j` slots and cleared their marks. -/
def passing (t : Table α) (j : Nat) : Table α :=
  { t with
    slots := t.slots.mapIdx fun i slot => if ∃ k < j, t.ahead k = i then slot.unmarked else slot
    hand := t.ahead j }

@[simp]
theorem size_passing (t : Table α) (j : Nat) :
  (t.passing j).slots.size = t.slots.size
  := by
  simp [passing]

theorem getElem?_passing (t : Table α) (j i : Nat) :
  (t.passing j).slots[i]?
    = t.slots[i]?.map fun slot => if ∃ k < j, t.ahead k = i then slot.unmarked else slot
  := by
  simp [passing]

theorem passing_zero {t : Table α} (h : t.hand < t.slots.size) :
  t.passing 0 = t
  := by
  have hslots : (t.passing 0).slots = t.slots := by
    apply Array.ext_getElem?
    intro i
    simp [getElem?_passing]
  calc t.passing 0
    _ = { t with slots := (t.passing 0).slots, hand := t.ahead 0 } := rfl
    _ = t := by rw [hslots, ahead_zero h]

theorem getElem?_passing_of_lt {t : Table α} {j k : Nat} (hk : k < j) :
  (t.passing j).slots[t.ahead k]? = t.slots[t.ahead k]?.map Slot.unmarked
  := by
  have hpassed : ∃ l < j, t.ahead l = t.ahead k := ⟨k, hk, rfl⟩
  rw [getElem?_passing]
  simp only [hpassed, if_true]

theorem getElem?_passing_of_ne {t : Table α} {j i : Nat} (hi : ∀ k < j, t.ahead k ≠ i) :
  (t.passing j).slots[i]? = t.slots[i]?
  := by
  have hpassed : ¬∃ k < j, t.ahead k = i := by
    rintro ⟨k, hk, heq⟩
    apply hi k hk heq
  rw [getElem?_passing]
  simp only [hpassed, if_false]
  apply Option.map_id'

/-- The slot that the hand comes to in the first lap is as it was at the start. -/
theorem markAt?_passing {t : Table α} {j : Nat} (hj : j < t.slots.size) :
  (t.passing j).markAt? (t.ahead j) = t.markAt? (t.ahead j)
  := by
  rw [markAt?, markAt?, getElem?_passing_of_ne]
  intro k hk heq
  apply hk.ne
  apply ahead_inj (hk.trans hj) hj heq

/-- Passing one more slot clears its mark. -/
theorem getElem?_passing_succ {t : Table α} {j i : Nat} :
  (t.passing (j + 1)).slots[i]?
    = if t.ahead j = i then (t.passing j).slots[i]?.map Slot.unmarked else (t.passing j).slots[i]?
  := by
  simp only [getElem?_passing, Nat.exists_lt_succ_right, Option.map_map]
  by_cases hi : t.ahead j = i
  · rw [if_pos hi]
    congr 1
    funext slot
    simp only [hi, or_true, if_true, Function.comp_apply]
    split
    · rfl
    · rfl
  · simp only [hi, or_false, if_false]

/-- A marked slot is passed. -/
theorem passes_passing {t : Table α} (h : t.hand < t.slots.size) {j : Nat}
    (hmarked : (t.passing j).markAt? (t.ahead j) = some true) :
  Passes (t.passing j) (t.passing (j + 1))
  := by
  have hlt : t.ahead j < (t.passing j).slots.size := by
    rw [size_passing]
    apply ahead_lt h
  have hslots : (t.passing j).slots.set (t.ahead j) (t.passing j).slots[t.ahead j].unmarked
      = (t.passing (j + 1)).slots := by
    apply Array.ext_getElem?
    intro i
    rw [Array.getElem?_set, getElem?_passing_succ]
    split
    next hi =>
      subst hi
      rw [Array.getElem?_eq_getElem hlt, Option.map_some]
    next => rfl
  rw [markAt?, Array.getElem?_eq_getElem hlt, Option.map_some] at hmarked
  calc (t.passing j).inspect
    _ = (none,
        { t.passing j with
          slots := (t.passing j).slots.set (t.ahead j) (t.passing j).slots[t.ahead j].unmarked
          hand := (t.ahead j + 1) % (t.passing j).slots.size }) :=
      inspect_of_marked (t := t.passing j) hlt (Option.some.inj hmarked)
    _ = (none, t.passing (j + 1)) := by
      rw [hslots, size_passing, ← ahead_succ]
      rfl

/-! ### The inspections of a sweep -/

/-- A search for a victim with the positions that it inspects, one after the other: the slots that
it passes are marked, and the last one is the victim.  The result is the position of the victim and
the table at the end. -/
inductive Inspects : Table α → List Nat → Nat × Table α → Prop where
  | stops {t : Table α} {result : Nat × Table α} (h : t.inspect = (some result.1, result.2)) :
    Inspects t [t.hand] result
  | passes {t u : Table α} {positions : List Nat} {result : Nat × Table α} (h : Passes t u)
      (hrest : Inspects u positions result) :
    Inspects t (t.hand :: positions) result

/-- A search has the result of the sweep. -/
theorem sweep_eq_of_inspects {t : Table α} {positions : List Nat} {result : Nat × Table α}
    (h : Inspects t positions result) :
  t.sweep = result
  := by
  induction h with
  | stops hinspect =>
    rw [sweep]
    split
    next hfound =>
      rw [hinspect] at hfound
      cases hfound
      rfl
    next hpassed =>
      rw [hinspect] at hpassed
      cases hpassed
  | passes hpasses _ ih =>
    rw [Passes] at hpasses
    rw [sweep]
    split
    next hfound =>
      rw [hpasses] at hfound
      cases hfound
    next hpassed =>
      rw [hpasses] at hpassed
      cases hpassed
      apply ih

/-- The slots that a lead passes are inspected in cyclic order. -/
theorem inspects_of_inspects_passing {t : Table α} (h : t.hand < t.slots.size) {j : Nat}
    (hj : j ≤ t.lead) {positions : List Nat} {result : Nat × Table α}
    (hrest : Inspects (t.passing j) positions result) :
  Inspects t ((List.range j).map t.ahead ++ positions) result
  := by
  -- The slot passed last is taken off first, hence the inspections behind it are arbitrary.
  induction j generalizing positions with
  | zero =>
    rw [passing_zero h] at hrest
    apply hrest
  | succ j ih =>
    have hsize : j < t.slots.size := Nat.lt_of_lt_of_le hj t.lead_le
    rw [List.range_succ, List.map_append, List.append_assoc]
    apply ih (Nat.le_of_succ_le hj)
    apply Inspects.passes _ hrest
    apply passes_passing h
    rw [markAt?_passing hsize]
    apply markAt?_of_lt_lead hj

/-- When the lead was passed, the slot under the hand has no mark: it had none, or it was the first
one to be passed. -/
theorem markAt?_passing_lead {t : Table α} (h : t.hand < t.slots.size) :
  (t.passing t.lead).markAt? (t.ahead t.lead) = some false
  := by
  rcases Nat.lt_or_eq_of_le t.lead_le with hlt | hlap
  · rw [markAt?_passing hlt, markAt?_lead hlt]
  · -- The hand is back on the slot that was passed first.
    have hfirst : t.ahead t.lead = t.ahead 0 := by rw [hlap, ahead_size h, ahead_zero h]
    have hpos : 0 < t.lead := by
      rw [hlap]
      apply Nat.zero_lt_of_lt h
    rw [hfirst, markAt?, getElem?_passing_of_lt hpos, ahead_zero h, Array.getElem?_eq_getElem h]
    rfl

/-- A sweep inspects the slots of the lead and the one behind it. -/
theorem inspects_lead {t : Table α} (h : t.hand < t.slots.size) :
  Inspects t ((List.range (t.lead + 1)).map t.ahead)
    (t.ahead t.lead, { t.passing t.lead with hand := t.ahead (t.lead + 1) })
  := by
  have hlt : t.ahead t.lead < (t.passing t.lead).slots.size := by
    rw [size_passing]
    apply ahead_lt h
  have hmarked := markAt?_passing_lead h
  rw [markAt?, Array.getElem?_eq_getElem hlt, Option.map_some] at hmarked
  rw [List.range_succ, List.map_append]
  apply inspects_of_inspects_passing h le_rfl
  apply Inspects.stops
  rw [inspect_of_not_marked (t := t.passing t.lead) hlt
    (Bool.eq_false_iff.mp (Option.some.inj hmarked)), size_passing, ahead_succ]
  rfl

theorem sweep_eq {t : Table α} (h : t.hand < t.slots.size) :
  t.sweep = (t.ahead t.lead, { t.passing t.lead with hand := t.ahead (t.lead + 1) })
  := sweep_eq_of_inspects (inspects_lead h)

/-- A marked slot is the victim only when a whole lap of marked slots is passed. -/
theorem fst_sweep_eq_iff {t : Table α} (h : t.hand < t.slots.size) {i : Nat}
    (hi : t.markAt? i = some true) :
  t.sweep.1 = i ↔ (∀ slot ∈ t.slots, slot.marked = true) ∧ t.hand = i
  := by
  rw [sweep_eq h, ← lead_eq_size_iff]
  constructor
  · rintro rfl
    have hlap : t.lead = t.slots.size := by
      apply Nat.le_antisymm t.lead_le
      apply Nat.not_lt.mp
      intro hlt
      rw [markAt?_lead hlt] at hi
      cases hi
    exact ⟨hlap, by rw [hlap, ahead_size h]⟩
  · rintro ⟨hlap, rfl⟩
    rw [hlap, ahead_size h]

/-- What a sweep of `t` does that passes `passed` slots, finds a victim and leaves the table `u`. -/
structure Lap (t : Table α) (passed victim : Nat) (u : Table α) : Prop where
  /-- The slots that are passed are inspected in cyclic order, and after them the victim: as
  `passed_le` holds, these are at most one more than the table has. -/
  inspects : Inspects t ((List.range (passed + 1)).map t.ahead) (victim, u)
  passed_le : passed ≤ t.slots.size
  marked_of_lt {j : Nat} (hj : j < passed) : t.markAt? (t.ahead j) = some true
  victim_eq : victim = t.ahead passed
  /-- The victim has no mark, if there is a slot without one. -/
  unmarked_of_exists (h : ∃ slot ∈ t.slots, slot.marked = false) :
    passed < t.slots.size ∧ t.markAt? victim = some false
  /-- When all slots are marked, a whole lap is passed and the victim is the slot where it began. -/
  victim_eq_hand (h : ∀ slot ∈ t.slots, slot.marked = true) :
    passed = t.slots.size ∧ victim = t.hand
  /-- The slots that are passed lose their marks, and nothing else is changed. -/
  getElem?_of_lt {j : Nat} (hj : j < passed) :
    u.slots[t.ahead j]? = t.slots[t.ahead j]?.map Slot.unmarked
  getElem?_of_ne {i : Nat} (hi : ∀ j < passed, t.ahead j ≠ i) : u.slots[i]? = t.slots[i]?
  index_eq : u.index = t.index
  hand_eq : u.hand = (victim + 1) % t.slots.size

theorem lap_sweep {t : Table α} (h : t.hand < t.slots.size) :
  t.Lap t.lead t.sweep.1 t.sweep.2
  := by
  rw [sweep_eq h]
  constructor
  · apply inspects_lead h
  · apply lead_le
  · apply markAt?_of_lt_lead
  · rfl
  · rintro ⟨slot, hslot, hmarked⟩
    have hlt : t.lead < t.slots.size := by
      apply Nat.lt_of_le_of_ne t.lead_le
      intro hlap
      have hall := t.lead_eq_size_iff.mp hlap slot hslot
      rw [hmarked] at hall
      cases hall
    exact ⟨hlt, markAt?_lead hlt⟩
  · intro hall
    have hlap := t.lead_eq_size_iff.mpr hall
    exact ⟨hlap, by rw [hlap, ahead_size h]⟩
  · apply getElem?_passing_of_lt
  · apply getElem?_passing_of_ne
  · rfl
  · apply ahead_succ

/-- A key is no longer there exactly when another key was written in its place. -/
theorem not_mem_set_keys_iff {t : Table α} (h : t.Consistent) {i j : Nat} {old key : String}
    (hold : t.keys[i]? = some old) (hne : key ≠ old) :
  old ∉ t.keys.set j key ↔ j = i
  := by
  constructor
  · intro hgone
    by_contra hj
    apply hgone
    apply List.mem_iff_getElem?.mpr
    use i
    rw [List.getElem?_set_ne hj, hold]
  · rintro rfl hmem
    obtain ⟨k, hk⟩ := List.mem_iff_getElem?.mp hmem
    by_cases hjk : j = k
    · rw [List.getElem?_set, if_pos hjk] at hk
      split at hk
      · apply hne (Option.some.inj hk)
      · cases hk
    · rw [List.getElem?_set_ne hjk] at hk
      apply hjk
      apply position_unique h hold hk

end Table

/-! ### Evictions -/

/-- An insertion evicts the entry at a position if the slot there holds another key afterwards. -/
def Evicts (c : Clock α) (key : String) (value : α) (i : Nat) : Prop :=
  ∃ old new, c.table.keys[i]? = some old ∧ (c.insert key value).table.keys[i]? = some new
    ∧ new ≠ old

section

variable {c : Clock α} {key : String} {value : α}

theorem keys_insert_of_found (h : c.table.find? key ≠ none) :
  (c.insert key value).table.keys = c.table.keys
  := by
  obtain ⟨⟨i, slot⟩, hfind⟩ := Option.ne_none_iff_exists'.mp h
  simp only [insert, hfind]
  apply Table.keys_modify
  intro slot
  rfl

theorem keys_insert_of_room (h : c.table.find? key = none) (hroom : c.size < c.capacity) :
  (c.insert key value).table.keys = c.table.keys ++ [key]
  := by
  simp only [insert, h, if_pos hroom, Table.keys_append]

theorem keys_insert_of_full (h : c.table.find? key = none) (hfull : ¬c.size < c.capacity)
    (hhand : c.table.hand < c.table.slots.size) :
  (c.insert key value).table.keys = c.table.keys.set c.table.sweep.1 key
  := by
  simp only [insert, h, if_neg hfull]
  apply keys_evict hhand

/-- An insertion evicts an entry when the cache is full, the key is absent and the entry is the
victim of the sweep. -/
theorem evicts_iff (hhand : c.table.hand < c.table.slots.size) {i : Nat} {old : String}
    (hold : c.table.keys[i]? = some old) :
  c.Evicts key value i
    ↔ c.table.find? key = none ∧ key ≠ old ∧ c.capacity ≤ c.size ∧ c.table.sweep.1 = i
  := by
  have hi := (List.getElem?_eq_some_iff.mp hold).1
  simp only [Evicts, hold, Option.some.injEq, exists_and_left, exists_eq_left']
  -- Of the three ways to insert, only the last one gives a slot that is in use another key.
  by_cases hfind : c.table.find? key = none
  · by_cases hroom : c.size < c.capacity
    · rw [keys_insert_of_room hfind hroom, List.getElem?_append_left hi, hold]
      simp [Nat.not_le.mpr hroom]
    · rw [keys_insert_of_full hfind hroom hhand, List.getElem?_set, hold]
      by_cases hvictim : c.table.sweep.1 = i
      · simp [hfind, Nat.not_lt.mp hroom, hvictim, hi]
      · simp [hvictim]
  · rw [keys_insert_of_found hfind, hold]
    simp [hfind]

/-- In a consistent cache the key of an entry that is evicted is no longer found. -/
theorem Consistent.evicts_iff_value?_eq_none (h : c.Consistent) {i : Nat} {old : String}
    (hold : c.table.keys[i]? = some old) :
  c.Evicts key value i ↔ (c.insert key value).value? old = none
  := by
  have hmem := List.mem_of_getElem? hold
  have hhand : c.table.hand < c.table.slots.size := by
    apply h.table.hand_lt_size
    rw [← Table.length_keys]
    apply List.length_pos_of_mem hmem
  rw [evicts_iff hhand hold, value?, Option.map_eq_none_iff,
    Table.find?_eq_none_iff (h.insert key value).table]
  by_cases hfind : c.table.find? key = none
  · by_cases hroom : c.size < c.capacity
    · rw [keys_insert_of_room hfind hroom]
      simp [Nat.not_le.mpr hroom, hmem]
    · have hne : key ≠ old := by
        rintro rfl
        apply (Table.find?_eq_none_iff h.table).mp hfind hmem
      rw [keys_insert_of_full hfind hroom hhand, Table.not_mem_set_keys_iff h.table hold hne]
      simp [hfind, hne, Nat.not_lt.mp hroom]
  · rw [keys_insert_of_found hfind]
    simp [hfind, hmem]

end

/-- A sweep ends after one lap and one more slot at most: it passes the marked slots from the hand
on, clears their marks, and stops at the first slot without a mark, or at the slot where it began
when all are marked.  So a marked entry is evicted exactly when an absent key is inserted into a
full cache in which all entries are marked and the hand stands on that one. -/
theorem sweep_lap_and_evicts_iff {t : Table α} (h : t.hand < t.slots.size) :
  (∃ passed, t.Lap passed t.sweep.1 t.sweep.2)
    ∧ ∀ c : Clock α, c.table = t → ∀ (key : String) (value : α) (i : Nat) (slot : Slot α),
      t.slots[i]? = some slot → slot.marked = true →
      (c.Evicts key value i
        ↔ t.find? key = none ∧ key ≠ slot.key ∧ c.capacity ≤ c.size
          ∧ (∀ other ∈ t.slots, other.marked = true) ∧ t.hand = i)
  := by
  constructor
  · exact ⟨t.lead, t.lap_sweep h⟩
  · rintro c rfl key value i slot hslot hmarked
    have hold : c.table.keys[i]? = some slot.key := by
      rw [Table.getElem?_keys, hslot, Option.map_some]
    have hmark : c.table.markAt? i = some true := by
      rw [Table.markAt?, hslot, Option.map_some, hmarked]
    rw [evicts_iff h hold, Table.fst_sweep_eq_iff h hmark]

/-- In a full cache of three entries whose hand has moved on to the second one and in which all
entries were read, a new key evicts the second entry, although it is marked. -/
theorem sweep_lap_and_evicts_all_marked :
  let c : Clock Nat := after 3 (by decide)
    [.insert "a" 0, .insert "b" 1, .insert "c" 2, .insert "d" 3, .get "b", .get "c", .get "d"]
  c.table.hand < c.table.slots.size
    ∧ (∃ passed, c.table.Lap passed c.table.sweep.1 c.table.sweep.2)
    ∧ (∃ slot, c.table.slots[1]? = some slot ∧ slot.marked = true)
    ∧ c.Evicts "e" 4 1
    ∧ ((c.insert "e" 4).get "b").1 = none
  := by
  intro c
  have hhand : c.table.hand < c.table.slots.size := by decide +kernel
  have hmark : c.table.markAt? 1 = some true := by decide +kernel
  have hold : c.table.keys[1]? = some "b" := by decide +kernel
  obtain ⟨slot, hslot, hmarked⟩ := Option.map_eq_some_iff.mp hmark
  obtain ⟨hlap, hevicts⟩ := sweep_lap_and_evicts_iff hhand
  have hevicted : c.Evicts "e" 4 1 := by
    have hkey := hold
    rw [Table.getElem?_keys, hslot] at hkey
    apply (hevicts c rfl "e" 4 1 slot hslot hmarked).mpr
    rw [Option.some.inj hkey]
    decide +kernel
  constructor
  · apply hhand
  constructor
  · apply hlap
  constructor
  · exact ⟨slot, hslot, hmarked⟩
  constructor
  · apply hevicted
  · rw [fst_get]
    apply ((consistent_after 3 _ _).evicts_iff_value?_eq_none hold).mp hevicted

end Chunking.Clock
