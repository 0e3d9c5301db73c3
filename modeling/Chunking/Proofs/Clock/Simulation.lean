import Chunking.Proofs.Clock.Sweep
import Chunking.Proofs.Run

/-!
# The clock cache as a second-chance queue

The cache stays consistent under all requests, and its queue changes as a second-chance queue does.
Hence the two give the same answers and statistics to every sequence of requests.
-/

namespace Chunking.Clock

variable {α : Type}

/-- A cache in a state that it can reach: the table is consistent and not too large, and the hand
has not moved before all slots are in use. -/
structure Consistent (c : Clock α) : Prop where
  table : c.table.Consistent
  size_le : c.size ≤ c.capacity
  hand_eq_zero (h : c.size < c.capacity) : c.table.hand = 0

theorem consistent_empty (capacity : Nat) (h : 0 < capacity) :
  (empty capacity h : Clock α).Consistent
  := by
  constructor
  · apply Table.consistent_empty
  · apply Nat.zero_le
  · intro _
    rfl

/-- Counting does not matter to consistency. -/
theorem Consistent.counted {c : Clock α} (h : c.Consistent) (counts : Counts) :
  Consistent { c with counts := counts }
  := ⟨h.table, h.size_le, h.hand_eq_zero⟩

/-- The queue that a cache is: the slots read cyclically from the hand on. -/
def queue (c : Clock α) : SecondChance α :=
  ⟨c.capacity, c.table.queue, c.counts⟩

theorem stats_queue (c : Clock α) :
  c.queue.stats = c.stats
  := by
  simp only [SecondChance.stats, queue, stats, size, Table.length_queue]

theorem length_queue (c : Clock α) :
  c.queue.entries.length = c.size
  := c.table.length_queue

theorem find?_queue {c : Clock α} (h : c.Consistent) (key : String) :
  c.queue.find? key = (c.table.find? key).map Prod.snd
  := Table.find?_queue h.table key

/-! ### Lookups -/

theorem Consistent.get {c : Clock α} (h : c.Consistent) (key : String) :
  (c.get key).2.Consistent
  := by
  rw [Clock.get]
  split
  next i slot _ =>
    constructor
    · apply h.table.mark
    · simpa [size, Table.mark, Table.size] using h.size_le
    · simpa [size, Table.mark, Table.size] using h.hand_eq_zero
  next => apply h.counted

/-- A lookup in the cache is a lookup in the queue. -/
theorem get_queue {c : Clock α} (h : c.Consistent) (key : String) :
  c.queue.get key = ((c.get key).1, (c.get key).2.queue)
  := by
  rw [SecondChance.get, find?_queue h, Clock.get]
  cases hfind : c.table.find? key with
  | none => rfl
  | some found =>
    obtain ⟨i, slot⟩ := found
    simp only [Option.map_some, queue, Table.mark, Table.queue_modify h.table hfind]

/-! ### Insertions -/

/-- An eviction writes the key in the place of that of the victim. -/
theorem keys_evict {c : Clock α} (h : c.table.hand < c.table.slots.size) (key : String)
    (value : α) :
  (c.evict key value).table.keys = c.table.keys.set c.table.sweep.1 key
  := by
  have hswept := Table.swept_sweep h
  rw [evict, Table.keys_replace hswept.victim_lt, hswept.keys_eq]

section

variable {c : Clock α} (h : c.Consistent) (hfull : ¬c.size < c.capacity)
include h hfull

/-- In a full cache the hand stands on a slot. -/
theorem hand_lt_of_full :
  c.table.hand < c.table.slots.size
  := by
  apply h.table.hand_lt_size
  apply Nat.lt_of_lt_of_le c.capacity_pos (Nat.not_lt.mp hfull)

theorem size_evict (key : String) (value : α) :
  (c.evict key value).size = c.size
  := by
  rw [size, ← Table.length_keys, keys_evict (hand_lt_of_full h hfull), List.length_set,
    Table.length_keys, size]

theorem Consistent.evict {key : String} (hkey : key ∉ c.table.keys) (value : α) :
  (c.evict key value).Consistent
  := by
  have hhand := hand_lt_of_full h hfull
  have hswept := Table.swept_sweep hhand
  constructor
  · apply (h.table.sweep hhand).replace hswept.victim_lt
    rwa [hswept.keys_eq]
  · rw [size_evict h hfull]
    apply h.size_le
  · rw [size_evict h hfull]
    intro hlt
    contradiction

/-- An eviction drops the victim from the queue and adds the new entry at the back. -/
theorem queue_evict (key : String) (value : α) :
  (c.evict key value).queue
    = { c.queue with
        entries := SecondChance.withoutVictim c.queue.entries ++ [⟨key, value, false⟩]
        counts := { c.counts with evictions := c.counts.evictions + 1 } }
  := by
  have hswept := Table.swept_sweep (hand_lt_of_full h hfull)
  simp only [evict, queue]
  rw [Table.queue_replace hswept.victim_lt hswept.hand_eq, hswept.dropLast_queue]

end

theorem Consistent.insert {c : Clock α} (h : c.Consistent) (key : String) (value : α) :
  (c.insert key value).Consistent
  := by
  simp only [Clock.insert]
  cases hfind : c.table.find? key with
  | some found =>
    constructor
    · apply h.table.overwrite
    · simpa [size, Table.overwrite, Table.size] using h.size_le
    · simpa [size, Table.overwrite, Table.size] using h.hand_eq_zero
  | none =>
    have hkey := (Table.find?_eq_none_iff h.table).mp hfind
    dsimp only
    split
    next hroom =>
      constructor
      · apply h.table.append hkey
      · simpa [size, Table.append, Table.size, Nat.succ_le_iff] using hroom
      · intro _
        apply h.hand_eq_zero hroom
    next hfull =>
      apply Consistent.evict (h.counted { c.counts with insertions := c.counts.insertions + 1 })
      · apply hfull
      · apply hkey

/-- An insertion into the cache is an insertion into the queue. -/
theorem insert_queue {c : Clock α} (h : c.Consistent) (key : String) (value : α) :
  c.queue.insert key value = (c.insert key value).queue
  := by
  simp only [SecondChance.insert, Clock.insert, find?_queue h, length_queue]
  cases hfind : c.table.find? key with
  | some found =>
    obtain ⟨i, slot⟩ := found
    simp only [Option.map_some, queue, Table.overwrite, Table.queue_modify h.table hfind]
  | none =>
    simp only [Option.map_none]
    by_cases hroom : c.size < c.capacity
    · rw [if_pos hroom, if_pos (show c.size < c.queue.capacity from hroom)]
      simp only [queue, Table.queue_append (h.hand_eq_zero hroom)]
    · rw [if_neg hroom, if_neg (show ¬c.size < c.queue.capacity from hroom)]
      have hcounted := h.counted { c.counts with insertions := c.counts.insertions + 1 }
      rw [queue_evict hcounted hroom]
      rfl

/-! ### The simulation -/

theorem consistent_clear {c : Clock α} :
  c.clear.Consistent
  := by
  constructor
  · apply Table.consistent_empty
  · apply Nat.zero_le
  · intro _
    rfl

theorem Consistent.serve {c : Clock α} (h : c.Consistent) (request : Request α) :
  (c.serve request).2.Consistent
  := by
  cases request with
  | get key => apply h.get
  | insert key value => apply h.insert
  | clear => apply consistent_clear

/-- The service of a request by the cache is the service by the queue. -/
theorem serve_queue {c : Clock α} (h : c.Consistent) (request : Request α) :
  c.queue.serve request = ((c.serve request).1, (c.serve request).2.queue)
  := by
  cases request with
  | get key => simp only [SecondChance.serve, Clock.serve, get_queue h, stats_queue]
  | insert key value => simp only [SecondChance.serve, Clock.serve, insert_queue h, stats_queue]
  | clear => rfl

/-- The clock cache refines the second-chance queue: no sequence of requests tells them apart, and
after it the queue is the row of slots, read cyclically from the hand on. -/
theorem run_serve_eq_run_queue (capacity : Nat) (h : 0 < capacity) (requests : List (Request α)) :
  (run Clock.serve (empty capacity h) requests).1
      = (run SecondChance.serve (SecondChance.empty capacity) requests).1
    ∧ (run SecondChance.serve (SecondChance.empty capacity) requests).2.entries
      = (run Clock.serve (empty capacity h) requests).2.table.slots.toList.rotate
          (run Clock.serve (empty capacity h) requests).2.table.hand
  := by
  have hstep : ∀ request ∈ requests, ∀ (c : Clock α) (q : SecondChance α),
      c.Consistent ∧ c.queue = q →
      (c.serve request).1 = (q.serve request).1
        ∧ (c.serve request).2.Consistent ∧ (c.serve request).2.queue = (q.serve request).2 := by
    rintro request - c q ⟨hc, rfl⟩
    rw [serve_queue hc]
    exact ⟨rfl, hc.serve request, rfl⟩
  have hempty : (empty capacity h : Clock α).queue = SecondChance.empty capacity := rfl
  obtain ⟨hanswers, -, hqueue⟩ := run_simulation hstep ⟨consistent_empty capacity h, hempty⟩
  constructor
  · apply hanswers
  · rw [← hqueue]
    rfl

/-- An entry that is read again survives the one that is not: in a full cache of two entries a new
one takes the place of `cold`. -/
theorem run_serve_second_chance :
  0 < 2
    ∧ ((run Clock.serve (empty 2 (by decide))
          [.insert "hot" 0, .insert "cold" 1, .get "hot", .insert "new" 2, .get "hot", .get "cold",
            .get "new"]).1.map Observation.value)
        = [none, none, some 0, none, some 0, none, some 2]
  := by
  constructor
  · decide
  · rw [(run_serve_eq_run_queue 2 (by decide) _).1]
    decide +kernel

end Chunking.Clock
