import Chunking.Clock
import Mathlib.Tactic.Common

/-!
# Second chances

A second-chance queue is a bounded queue of entries.  When it is full, the entry at the front goes
to the back if it is marked, where it stands without its mark, and is dropped otherwise; this is
repeated until an entry has been dropped, and the new entry joins the queue at the back.

The queue answers the same requests as the clock cache and shows the same of them.
-/

namespace Chunking

open Clock (Slot Counts Stats)

variable {α : Type}

/-- A bounded queue of entries, with counters of what was done to it. -/
structure SecondChance (α : Type) where
  capacity : Nat
  /-- The entries, from the front to the back. -/
  entries : List (Slot α)
  counts : Counts

namespace SecondChance

/-- The queue without entries. -/
def empty (capacity : Nat) : SecondChance α :=
  ⟨capacity, [], {}⟩

/-- The statistics of a queue. -/
def stats (q : SecondChance α) : Stats :=
  { q.counts with size := q.entries.length, capacity := q.capacity }

/-- The entry of a key. -/
def find? (q : SecondChance α) (key : String) : Option (Slot α) :=
  q.entries.find? fun entry => entry.key = key

/-- The entries with the one of a key changed in its place. -/
def changed (key : String) (f : Slot α → Slot α) (entries : List (Slot α)) : List (Slot α) :=
  entries.map fun entry => if entry.key = key then f entry else entry

/-- Looks a key up.  An entry that is found is marked. -/
def get (q : SecondChance α) (key : String) : Option α × SecondChance α :=
  match q.find? key with
  | some entry =>
    (some entry.value,
      { q with
        entries := changed key (fun entry => { entry with marked := true }) q.entries
        counts := { q.counts with hits := q.counts.hits + 1 } })
  | none => (none, { q with counts := { q.counts with misses := q.counts.misses + 1 } })

/-- The entries without the first one that is not marked.  The marked ones before it have moved to
the back and lost their marks. -/
def withoutVictim : List (Slot α) → List (Slot α)
  | [] => []
  | entry :: entries =>
    if entry.marked then
      withoutVictim (entries ++ [{ entry with marked := false }])
    else
      entries
termination_by entries => entries.countP Slot.marked
decreasing_by
  simp_all [List.countP_append]

/-- Writes an entry.  The value of a key that is present is replaced in its place and the entry
marked; a new entry is not marked and comes last, after a victim was dropped from a full queue. -/
def insert (q : SecondChance α) (key : String) (value : α) : SecondChance α :=
  let counted := { q with counts := { q.counts with insertions := q.counts.insertions + 1 } }
  match q.find? key with
  | some _ =>
    { counted with
      entries := changed key (fun entry => { entry with value := value, marked := true }) q.entries }
  | none =>
    if q.entries.length < q.capacity then
      { counted with entries := q.entries ++ [⟨key, value, false⟩] }
    else
      { counted with
        entries := withoutVictim q.entries ++ [⟨key, value, false⟩]
        counts := { counted.counts with evictions := q.counts.evictions + 1 } }

/-- Drops all entries.  The counters go on. -/
def clear (q : SecondChance α) : SecondChance α :=
  { q with entries := [] }

end SecondChance

/-! ### Requests -/

/-- A request to a cache. -/
inductive Clock.Request (α : Type) where
  | get (key : String)
  | insert (key : String) (value : α)
  | clear

/-- What a cache shows of a request: the value, if a lookup found one, and the statistics. -/
structure Clock.Observation (α : Type) where
  value : Option α
  stats : Stats

/-- The service of a request by the clock cache. -/
def Clock.serve (c : Clock α) : Request α → Observation α × Clock α
  | .get key =>
    let (value, c) := c.get key
    (⟨value, c.stats⟩, c)
  | .insert key value =>
    let c := c.insert key value
    (⟨none, c.stats⟩, c)
  | .clear =>
    let c := c.clear
    (⟨none, c.stats⟩, c)

/-- The service of a request by a second-chance queue. -/
def SecondChance.serve (q : SecondChance α) : Clock.Request α → Clock.Observation α × SecondChance α
  | .get key =>
    let (value, q) := q.get key
    (⟨value, q.stats⟩, q)
  | .insert key value =>
    let q := q.insert key value
    (⟨none, q.stats⟩, q)
  | .clear =>
    let q := q.clear
    (⟨none, q.stats⟩, q)

end Chunking
