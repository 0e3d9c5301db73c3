import Chunking.Proofs.Clock.History

/-!
# The ledger of a cache

The statistics of a cache account for the requests that were made of it.  Every lookup is a hit or
a miss, and every insertion has replaced a value, or its entry is still there, was evicted, or went
when all entries were dropped.
-/

namespace Chunking.Clock

variable {α : Type}

/-! ### Statistics after a request -/

theorem stats_empty (capacity : Nat) (h : 0 < capacity) :
  (empty capacity h : Clock α).stats = { capacity := capacity }
  := rfl

theorem stats_get (c : Clock α) (key : String) :
  (c.get key).2.stats
    = if (c.value? key).isSome then { c.stats with hits := c.stats.hits + 1 }
      else { c.stats with misses := c.stats.misses + 1 }
  := by
  rw [get, value?, Option.isSome_map]
  cases c.table.find? key with
  | some found => simp [stats, size, Table.size, Table.mark]
  | none => simp [stats, size]

theorem stats_evict {c : Clock α} (h : c.Consistent) (hfull : ¬c.size < c.capacity) (key : String)
    (value : α) :
  (c.evict key value).stats = { c.stats with evictions := c.stats.evictions + 1 }
  := by
  rw [stats, size_evict h hfull]
  rfl

theorem stats_insert {c : Clock α} (h : c.Consistent) (key : String) (value : α) :
  (c.insert key value).stats
    = if (c.value? key).isSome then { c.stats with insertions := c.stats.insertions + 1 }
      else if c.size < c.capacity then
        { c.stats with insertions := c.stats.insertions + 1, size := c.stats.size + 1 }
      else
        { c.stats with
          insertions := c.stats.insertions + 1, evictions := c.stats.evictions + 1 }
  := by
  rw [insert, value?, Option.isSome_map]
  cases c.table.find? key with
  | some found => simp [stats, size, Table.size, Table.overwrite]
  | none =>
    simp only [Option.isSome_none, Bool.false_eq_true, if_false]
    split
    next => simp [stats, size, Table.size, Table.append]
    next hfull =>
      exact stats_evict (h.counted { c.counts with insertions := c.counts.insertions + 1 }) hfull
        key value

theorem stats_clear (c : Clock α) :
  c.clear.stats = { c.stats with size := 0 }
  := rfl

/-! ### Entries that come and go -/

/-- One for an insertion that replaces the value of a key that is present. -/
@[simp]
def overwritten (c : Clock α) : Request α → Nat
  | .insert key _ => if (c.value? key).isSome then 1 else 0
  | _ => 0

/-- One for an insertion of an absent key into a full cache. -/
@[simp]
def evicted (c : Clock α) : Request α → Nat
  | .insert key _ => if c.value? key = none ∧ c.size = c.capacity then 1 else 0
  | _ => 0

/-- The number of entries held when all entries are dropped. -/
@[simp]
def released (c : Clock α) : Request α → Nat
  | .clear => c.size
  | _ => 0

@[simp]
def Request.isGet : Request α → Bool
  | .get _ => true
  | _ => false

@[simp]
def Request.isInsert : Request α → Bool
  | .insert _ _ => true
  | _ => false

/-- What a request adds to the statistics. -/
structure Booked (c : Clock α) (request : Request α) (next : Clock α) : Prop where
  lookups_eq : next.stats.hits + next.stats.misses
    = c.stats.hits + c.stats.misses + if request.isGet then 1 else 0
  insertions_eq : next.stats.insertions = c.stats.insertions + if request.isInsert then 1 else 0
  evictions_eq : next.stats.evictions = c.stats.evictions + c.evicted request
  entries_eq : next.stats.insertions + (c.stats.evictions + c.stats.size)
    = c.stats.insertions + (next.stats.evictions + next.stats.size)
      + (c.overwritten request + c.released request)

theorem booked_get (c : Clock α) (key : String) :
  Booked c (.get key) (c.get key).2
  := by
  have hstats := stats_get c key
  split at hstats
  next =>
    constructor
    all_goals simp [hstats]
    omega
  next =>
    constructor
    all_goals simp [hstats]
    omega

theorem booked_insert {c : Clock α} (h : c.Consistent) (key : String) (value : α) :
  Booked c (.insert key value) (c.insert key value)
  := by
  have hstats := stats_insert h key value
  cases hvalue : c.value? key with
  | some old =>
    simp only [hvalue, Option.isSome_some, if_true] at hstats
    constructor
    all_goals simp [hstats, hvalue]
    omega
  | none =>
    simp only [hvalue, Option.isSome_none, Bool.false_eq_true, if_false] at hstats
    split at hstats
    next hroom =>
      constructor
      all_goals simp [hstats, hvalue, hroom.ne]
      omega
    next hfull =>
      have hsize : c.size = c.capacity := Nat.le_antisymm h.size_le (Nat.not_lt.mp hfull)
      constructor
      all_goals simp [hstats, hvalue, hsize]
      omega

theorem booked_clear (c : Clock α) :
  Booked c .clear c.clear
  := by
  have hsize : c.stats.size = c.size := rfl
  constructor
  all_goals simp [stats_clear, hsize]
  omega

/-- Every request is booked. -/
theorem Consistent.booked {c : Clock α} (h : c.Consistent) (request : Request α) :
  Booked c request (c.serve request).2
  := by
  cases request with
  | get key => apply booked_get
  | insert key value => apply booked_insert h
  | clear => apply booked_clear

/-! ### The account of a run -/

/-- The statistics of a cache as an account of all requests made of it since it was new. -/
structure Ledger (capacity : Nat) (h : 0 < capacity) (requests : List (Request α)) (c : Clock α) :
    Prop where
  lookups_eq : c.stats.hits + c.stats.misses = requests.countP Request.isGet
  insertions_eq : c.stats.insertions = requests.countP Request.isInsert
  /-- What was inserted replaced a value, was evicted, is held, or was dropped with all others. -/
  entries_eq : c.stats.insertions
    = tally serve overwritten (empty capacity h) requests + c.stats.evictions + c.stats.size
      + tally serve released (empty capacity h) requests
  capacity_eq : c.stats.capacity = capacity
  size_le : c.stats.size ≤ capacity
  /-- Only an insertion of an absent key into a full cache evicts, and it evicts one entry. -/
  evictions_serve (request : Request α) :
    (c.serve request).2.stats.evictions = c.stats.evictions + c.evicted request

/-- After any sequence of requests the statistics of a cache account for them. -/
theorem ledger_after (capacity : Nat) (h : 0 < capacity) (requests : List (Request α)) :
  Ledger capacity h requests (after capacity h requests)
  := by
  have hconsistent := consistent_after capacity h requests
  have hcapacity := capacity_after capacity h requests
  constructor
  · have hrun := run_count serve (f := fun c : Clock α => c.stats.hits + c.stats.misses)
      (fun request c hc => ⟨hc.serve request, (hc.booked request).lookups_eq⟩)
      (consistent_empty capacity h) requests
    simpa [stats_empty, after] using hrun
  · have hrun := run_count serve (f := fun c : Clock α => c.stats.insertions)
      (fun request c hc => ⟨hc.serve request, (hc.booked request).insertions_eq⟩)
      (consistent_empty capacity h) requests
    simpa [stats_empty, after] using hrun
  · have hrun := run_balance serve (f := fun c : Clock α => c.stats.insertions)
      (g := fun c => c.stats.evictions + c.stats.size)
      (fun request c hc => ⟨hc.serve request, (hc.booked request).entries_eq⟩)
      (consistent_empty capacity h) requests
    simp only [tally_add, stats_empty] at hrun
    rw [after]
    omega
  · apply hcapacity
  · have hle := hconsistent.size_le
    rwa [hcapacity] at hle
  · intro request
    apply (hconsistent.booked request).evictions_eq

end Chunking.Clock
