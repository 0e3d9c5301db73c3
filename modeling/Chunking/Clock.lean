import Chunking.Clock.Table

/-!
# The clock cache

`Clock α` is a cache of at most `capacity` entries.  When it is full, the clock hand of its table
chooses the entry that makes room for a new one: an entry that was looked up, or written again,
since the hand last passed it gets a second chance.

Four counters run over the whole life of a cache: lookups that found an entry, lookups that did
not, entries written, and entries dropped to make room.  Together with the number of entries held
and the capacity they are the statistics of the cache.
-/

namespace Chunking

/-! ### Statistics -/

namespace Clock

/-- The counters of a cache. -/
structure Counts where
  hits : Nat := 0
  misses : Nat := 0
  insertions : Nat := 0
  evictions : Nat := 0
  deriving DecidableEq

/-- The counters of a cache with the number of its entries and its capacity. -/
structure Stats extends Counts where
  size : Nat := 0
  capacity : Nat := 0
  deriving DecidableEq

/-- The fraction of lookups that found an entry, and zero when there were no lookups. -/
def Counts.hitRatio (counts : Counts) : Float :=
  let lookups := counts.hits + counts.misses
  if lookups = 0 then 0.0 else counts.hits.toFloat / lookups.toFloat

end Clock

/-! ### Caches -/

/-- A bounded cache with string keys. -/
structure Clock (α : Type) where
  capacity : Nat
  capacity_pos : 0 < capacity
  table : Clock.Table α
  counts : Clock.Counts

namespace Clock

variable {α : Type}

/-- The empty cache of a positive capacity. -/
def empty (capacity : Nat) (h : 0 < capacity) : Clock α :=
  ⟨capacity, h, Table.empty, {}⟩

/-- The number of entries. -/
def size (c : Clock α) : Nat :=
  c.table.size

/-- The statistics of a cache. -/
def stats (c : Clock α) : Stats :=
  { c.counts with size := c.size, capacity := c.capacity }

/-- Looks a key up.  An entry that is found is marked, and the hit or miss is counted. -/
def get (c : Clock α) (key : String) : Option α × Clock α :=
  match c.table.find? key with
  | some (i, slot) =>
    (some slot.value,
      { c with
        table := c.table.mark i
        counts := { c.counts with hits := c.counts.hits + 1 } })
  | none =>
    (none, { c with counts := { c.counts with misses := c.counts.misses + 1 } })

/-- The cache with a victim of the sweep replaced by a new entry. -/
def evict (c : Clock α) (key : String) (value : α) : Clock α :=
  let (victim, swept) := c.table.sweep
  { c with
    table := swept.replace victim key value
    counts := { c.counts with evictions := c.counts.evictions + 1 } }

/-- Writes an entry.  The value of a key that is present is replaced and the entry marked; a new
entry is not marked, and takes the place of a victim when the cache is full. -/
def insert (c : Clock α) (key : String) (value : α) : Clock α :=
  let counted := { c with counts := { c.counts with insertions := c.counts.insertions + 1 } }
  match c.table.find? key with
  | some (i, _) => { counted with table := c.table.overwrite i value }
  | none =>
    if c.size < c.capacity then
      { counted with table := c.table.append key value }
    else
      counted.evict key value

/-- Drops all entries.  The counters go on. -/
def clear (c : Clock α) : Clock α :=
  { c with table := Table.empty }

end Clock

end Chunking
