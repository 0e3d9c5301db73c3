import Chunking.Proofs.Clock.Simulation

/-!
# The contents of a cache

A cache is a partial function from keys to values, `Clock.value?`.  A lookup answers by it and does
not change it; an insertion gives the key its new value, and every other key keeps its value or
loses it to an eviction.
-/

namespace Chunking

variable {α : Type}

/-! ### Entries of a second-chance queue -/

namespace SecondChance

/-- The key and the value of an entry. -/
def content (entry : Clock.Slot α) : String × α :=
  (entry.key, entry.value)

/-- Exactly one entry is dropped as a victim, and nothing but marks is changed of the others. -/
theorem exists_perm_withoutVictim {entries : List (Clock.Slot α)} (h : entries ≠ []) :
  ∃ victim, (victim :: (withoutVictim entries).map content).Perm (entries.map content)
  := by
  fun_induction withoutVictim entries with
  | case1 => contradiction
  | case2 front rest _ ih =>
    obtain ⟨victim, hperm⟩ := ih (List.append_ne_nil_of_right_ne_nil rest (List.cons_ne_nil _ _))
    use victim
    apply hperm.trans
    rw [List.map_append]
    apply List.perm_append_singleton
  | case3 front rest _ =>
    use content front
    rw [List.map_cons]

/-- The entries that are left after a victim has been dropped were there before, up to marks. -/
theorem exists_of_mem_withoutVictim {entries : List (Clock.Slot α)} {entry : Clock.Slot α}
    (h : entry ∈ withoutVictim entries) :
  ∃ old ∈ entries, old.key = entry.key ∧ old.value = entry.value
  := by
  have hne : entries ≠ [] := by
    rintro rfl
    rw [withoutVictim] at h
    cases h
  obtain ⟨victim, hperm⟩ := exists_perm_withoutVictim hne
  have hmem := hperm.mem_iff.mp (List.mem_cons_of_mem _ (List.mem_map_of_mem h))
  obtain ⟨old, hold, hsame⟩ := List.mem_map.mp hmem
  use old, hold
  apply Prod.mk.inj hsame

/-- After an insertion there is an entry of the key with the value. -/
theorem exists_mem_insert (q : SecondChance α) (key : String) (value : α) :
  ∃ entry ∈ (q.insert key value).entries, entry.key = key ∧ entry.value = value
  := by
  have hnew (entries : List (Clock.Slot α)) :
      ∃ entry ∈ entries ++ [⟨key, value, false⟩], entry.key = key ∧ entry.value = value :=
    ⟨_, List.mem_append_right entries List.mem_cons_self, rfl, rfl⟩
  simp only [insert]
  cases hfind : q.find? key with
  | some entry =>
    rw [find?] at hfind
    have hkey : entry.key = key := by simpa using List.find?_some hfind
    use { entry with value := value, marked := true }
    constructor
    · apply List.mem_map.mpr
      use entry, List.mem_of_find?_eq_some hfind
      rw [if_pos hkey]
    · exact ⟨hkey, rfl⟩
  | none =>
    dsimp only
    split
    · apply hnew
    · apply hnew

/-- The entries of other keys were there before an insertion, up to marks. -/
theorem exists_of_mem_insert {q : SecondChance α} {key : String} {value : α}
    {entry : Clock.Slot α} (h : entry ∈ (q.insert key value).entries) (hne : entry.key ≠ key) :
  ∃ old ∈ q.entries, old.key = entry.key ∧ old.value = entry.value
  := by
  have hnew {entries : List (Clock.Slot α)} (hmem : entry ∈ entries ++ [⟨key, value, false⟩]) :
      entry ∈ entries := by
    rcases List.mem_append.mp hmem with hmem | hmem
    · apply hmem
    · obtain rfl := List.mem_singleton.mp hmem
      contradiction
  simp only [insert] at h
  cases hfind : q.find? key with
  | some found =>
    rw [hfind] at h
    obtain ⟨old, hold, rfl⟩ := List.mem_map.mp h
    split at hne
    next hkey => contradiction
    next hkey =>
      use old, hold
      rw [if_neg hkey]
      exact ⟨rfl, rfl⟩
  | none =>
    rw [hfind] at h
    dsimp only at h
    split at h
    · use entry, hnew h
    · apply exists_of_mem_withoutVictim (hnew h)

/-- The entries of other keys are there after an insertion that need not make room. -/
theorem mem_insert_of_ne {q : SecondChance α} {key : String} {entry : Clock.Slot α}
    (hroom : q.find? key ≠ none ∨ q.entries.length < q.capacity) (h : entry ∈ q.entries)
    (hne : entry.key ≠ key) (value : α) :
  entry ∈ (q.insert key value).entries
  := by
  simp only [insert]
  cases hfind : q.find? key with
  | some found =>
    apply List.mem_map.mpr
    use entry, h
    rw [if_neg hne]
  | none =>
    have hlt := hroom.resolve_left (absurd hfind)
    dsimp only
    rw [if_pos hlt]
    apply List.mem_append_left _ h

/-- An insertion of an absent key into a full queue takes one entry away and adds the new one,
whatever the marks are. -/
theorem exists_perm_insert {q : SecondChance α} {key : String} (hkey : q.find? key = none)
    (hfull : ¬q.entries.length < q.capacity) (hne : q.entries ≠ []) (value : α) :
  ∃ victim ∈ q.entries.map content,
    (victim :: (q.insert key value).entries.map content).Perm
      ((key, value) :: q.entries.map content)
  := by
  obtain ⟨victim, hperm⟩ := exists_perm_withoutVictim hne
  use victim, hperm.mem_iff.mp List.mem_cons_self
  simp only [insert, hkey, if_neg hfull, List.map_append]
  rw [← List.cons_append]
  apply (hperm.append_right _).trans
  apply List.perm_append_singleton

end SecondChance

/-! ### The cache as a partial function -/

namespace Clock

/-- The value stored under a key. -/
def value? (c : Clock α) (key : String) : Option α :=
  (c.table.find? key).map fun found => found.2.value

/-- A lookup answers with the value stored. -/
theorem fst_get (c : Clock α) (key : String) :
  (c.get key).1 = c.value? key
  := by
  rw [get, value?]
  split
  next hfind => rw [hfind]; rfl
  next hfind => rw [hfind]; rfl

/-- A value is stored under a key exactly when an entry of the queue has the two. -/
theorem value?_eq_some_iff {c : Clock α} (h : c.Consistent) {key : String} {value : α} :
  c.value? key = some value ↔ ∃ entry ∈ c.queue.entries, entry.key = key ∧ entry.value = value
  := by
  rw [value?, Option.map_eq_some_iff]
  constructor
  · rintro ⟨⟨i, slot⟩, hfind, rfl⟩
    obtain ⟨hslot, hkey⟩ := (Table.find?_eq_some_iff h.table).mp hfind
    exact ⟨slot, Table.mem_queue_iff.mpr ⟨i, hslot⟩, hkey, rfl⟩
  · rintro ⟨slot, hmem, hkey, rfl⟩
    obtain ⟨i, hslot⟩ := Table.mem_queue_iff.mp hmem
    exact ⟨(i, slot), (Table.find?_eq_some_iff h.table).mpr ⟨hslot, hkey⟩, rfl⟩

theorem value?_empty (capacity : Nat) (h : 0 < capacity) (key : String) :
  (empty capacity h : Clock α).value? key = none
  := rfl

theorem value?_clear (c : Clock α) (key : String) :
  c.clear.value? key = none
  := rfl

/-- A lookup does not change what is stored. -/
theorem value?_get (c : Clock α) (key other : String) :
  (c.get key).2.value? other = c.value? other
  := by
  have hmark (i : Nat) : value? { c with table := c.table.mark i } other = c.value? other := by
    simp only [value?, Table.find?, Table.mark, Option.map_bind, Array.getElem?_modify]
    congr 1
    funext j
    simp only [Function.comp_apply, Option.map_map]
    split
    · rw [Option.map_map]
      rfl
    · rfl
  rw [get]
  split
  · apply hmark
  · rfl

theorem value?_insert_self {c : Clock α} (h : c.Consistent) (key : String) (value : α) :
  (c.insert key value).value? key = some value
  := by
  rw [value?_eq_some_iff (h.insert key value), ← insert_queue h]
  apply SecondChance.exists_mem_insert

/-- A key and a value are among the contents of the queue exactly when the value is stored under
the key. -/
theorem mem_map_content_iff {c : Clock α} (h : c.Consistent) {key : String} {value : α} :
  (key, value) ∈ c.queue.entries.map SecondChance.content ↔ c.value? key = some value
  := by
  rw [value?_eq_some_iff h, List.mem_map]
  simp only [SecondChance.content, Prod.mk.injEq]

/-- The keys of the contents together with an absent key are pairwise distinct. -/
theorem nodup_cons_keys {c : Clock α} (h : c.Consistent) {key : String}
    (hkey : c.value? key = none) :
  (key :: (c.queue.entries.map SecondChance.content).map Prod.fst).Nodup
  := by
  apply List.nodup_cons.mpr
  constructor
  · intro hmem
    obtain ⟨⟨_, stored⟩, hstored, rfl⟩ := List.mem_map.mp hmem
    rw [mem_map_content_iff h, hkey] at hstored
    cases hstored
  · rw [List.map_map]
    change ((c.table.slots.toList.rotate c.table.hand).map Slot.key).Nodup
    rw [List.map_rotate, List.nodup_rotate]
    apply Table.nodup_keys h.table

/-- An insertion does not give values to other keys. -/
theorem value?_of_insert_of_ne {c : Clock α} (h : c.Consistent) {key other : String}
    {value stored : α} (hne : other ≠ key)
    (hstored : (c.insert key value).value? other = some stored) :
  c.value? other = some stored
  := by
  rw [value?_eq_some_iff (h.insert key value), ← insert_queue h] at hstored
  obtain ⟨entry, hmem, rfl, rfl⟩ := hstored
  rw [value?_eq_some_iff h]
  apply SecondChance.exists_of_mem_insert hmem hne

/-- The value stored under a key is that of the entry of the key. -/
theorem value?_eq_map_find?_queue {c : Clock α} (h : c.Consistent) (key : String) :
  c.value? key = (c.queue.find? key).map Slot.value
  := by
  rw [find?_queue h, Option.map_map]
  rfl

/-- An insertion that need not make room leaves the values of other keys as they are. -/
theorem value?_insert_of_ne {c : Clock α} (h : c.Consistent) {key other : String}
    (hroom : c.value? key ≠ none ∨ c.size < c.capacity) (hne : other ≠ key) (value : α) :
  (c.insert key value).value? other = c.value? other
  := by
  apply Option.ext
  intro stored
  constructor
  · apply value?_of_insert_of_ne h hne
  · intro hstored
    rw [value?_eq_some_iff h] at hstored
    obtain ⟨entry, hmem, rfl, rfl⟩ := hstored
    rw [value?_eq_some_iff (h.insert key value), ← insert_queue h]
    have hroom : c.queue.find? key ≠ none ∨ c.queue.entries.length < c.queue.capacity := by
      rwa [length_queue, ne_eq, ← Option.map_eq_none_iff, ← value?_eq_map_find?_queue h]
    exact ⟨entry, SecondChance.mem_insert_of_ne hroom hmem hne value, rfl, rfl⟩

/-- An insertion of an absent key into a full cache drops exactly one other key, and leaves the
values of the remaining ones as they are. -/
theorem exists_dropped_insert {c : Clock α} (h : c.Consistent) {key : String}
    (hkey : c.value? key = none) (hfull : ¬c.size < c.capacity) (value : α) :
  ∃ dropped, dropped ≠ key ∧ c.value? dropped ≠ none
    ∧ (c.insert key value).value? dropped = none
    ∧ ∀ other, other ≠ key → other ≠ dropped →
      (c.insert key value).value? other = c.value? other
  := by
  have habsent : c.queue.find? key = none := by
    rwa [value?_eq_map_find?_queue h, Option.map_eq_none_iff] at hkey
  have hentries : c.queue.entries ≠ [] := by
    apply List.ne_nil_of_length_pos
    have hcapacity := c.capacity_pos
    rw [length_queue]
    omega
  have hqueue : ¬c.queue.entries.length < c.queue.capacity := by
    rwa [length_queue]
  obtain ⟨⟨dropped, old⟩, hold, hperm⟩ :=
    SecondChance.exists_perm_insert habsent hqueue hentries value
  rw [insert_queue h] at hperm
  have hdropped : c.value? dropped = some old := (mem_map_content_iff h).mp hold
  have hne : dropped ≠ key := by
    rintro rfl
    rw [hkey] at hdropped
    cases hdropped
  have hnodup := (hperm.map Prod.fst).nodup_iff.mpr (nodup_cons_keys h hkey)
  use dropped, hne
  constructor
  · rw [hdropped]
    exact Option.some_ne_none old
  constructor
  · apply Option.eq_none_iff_forall_ne_some.mpr
    intro stored hstored
    rw [← mem_map_content_iff (h.insert key value)] at hstored
    apply (List.nodup_cons.mp hnodup).1
    apply List.mem_map_of_mem hstored
  · intro other hother hkept
    apply Option.ext
    intro stored
    have hmem := hperm.mem_iff (a := (other, stored))
    simp only [List.mem_cons, Prod.mk.injEq, hother, hkept, false_and, false_or] at hmem
    rw [← mem_map_content_iff (h.insert key value), ← mem_map_content_iff h]
    apply hmem

end Clock

end Chunking
