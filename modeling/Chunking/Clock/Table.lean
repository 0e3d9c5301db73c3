import Std.Data.TreeMap

/-!
# Tables with a clock hand

A table keeps entries in a row of slots and an index from keys to slots.  Each slot has a mark
that says whether its entry was used since the hand last passed it.  The hand goes round the slots
in search of a victim: it clears the marks that it passes and stops behind the first slot without
a mark.  The number of marks decreases with every slot that is passed, hence the sweep ends.
-/

namespace Chunking.Clock

/-- An entry of a table. -/
structure Slot (α : Type) where
  key : String
  value : α
  /-- Whether the entry was used since the hand last passed it. -/
  marked : Bool

/-- A row of slots with an index and a hand. -/
structure Table (α : Type) where
  slots : Array (Slot α)
  /-- The position of the slot that holds a key. -/
  index : Std.TreeMap String Nat
  /-- The position of the next slot to be inspected. -/
  hand : Nat

namespace Table

variable {α : Type}

/-- The table without slots. -/
def empty : Table α :=
  ⟨#[], ∅, 0⟩

/-- The number of slots. -/
def size (t : Table α) : Nat :=
  t.slots.size

/-- The position and the slot of a key. -/
def find? (t : Table α) (key : String) : Option (Nat × Slot α) :=
  t.index[key]?.bind fun i => t.slots[i]?.map fun slot => (i, slot)

/-- The table with the slot at position `i` marked. -/
def mark (t : Table α) (i : Nat) : Table α :=
  { t with slots := t.slots.modify i fun slot => { slot with marked := true } }

/-- The table with another value at position `i`, and the slot marked. -/
def overwrite (t : Table α) (i : Nat) (value : α) : Table α :=
  { t with slots := t.slots.modify i fun slot => { slot with value := value, marked := true } }

/-- The table with an unmarked slot added at the end. -/
def append (t : Table α) (key : String) (value : α) : Table α :=
  { t with
    slots := t.slots.push ⟨key, value, false⟩
    index := t.index.insert key t.slots.size }

/-- The table with the entry at position `i` replaced by an unmarked one. -/
def replace (t : Table α) (i : Nat) (key : String) (value : α) : Table α :=
  match t.slots[i]? with
  | none => t
  | some old =>
    { t with
      slots := t.slots.modify i fun _ => ⟨key, value, false⟩
      index := (t.index.erase old.key).insert key i }

/-! ### The sweep -/

/-- The number of marked slots. -/
def marks (t : Table α) : Nat :=
  t.slots.countP Slot.marked

/-- The inspection of the slot under the hand.  The hand moves on to the next slot, and after the
last one to the first.  A mark is cleared; a slot without a mark is the victim. -/
def inspect (t : Table α) : Option Nat × Table α :=
  if h : t.hand < t.slots.size then
    let next := (t.hand + 1) % t.slots.size
    if t.slots[t.hand].marked then
      (none,
        { t with
          slots := t.slots.set t.hand { t.slots[t.hand] with marked := false }
          hand := next })
    else
      (some t.hand, { t with hand := next })
  else
    (some t.hand, t)

/-- An inspection that finds no victim clears a mark. -/
theorem marks_inspect_lt {t : Table α} (h : t.inspect.1 = none) :
  t.inspect.2.marks < t.marks
  := by
  by_cases hlt : t.hand < t.slots.size
  · by_cases hmarked : t.slots[t.hand].marked = true
    · have hpos : 0 < t.slots.countP Slot.marked := by
        apply Array.countP_pos_iff.mpr
        exact ⟨t.slots[t.hand], Array.getElem_mem hlt, hmarked⟩
      simp only [marks, inspect, hlt, hmarked, dif_pos, if_true, Array.countP_set]
      simp only [Bool.false_eq_true, if_false, Nat.add_zero]
      omega
    · simp [inspect, hlt, hmarked] at h
  · simp [inspect, hlt] at h

/-- The search for a victim: slots are inspected until one has no mark.  Returns the position of
that slot and the table after the sweep. -/
def sweep (t : Table α) : Nat × Table α :=
  match h : t.inspect with
  | (some victim, u) => (victim, u)
  | (none, u) =>
    have : u.marks < t.marks := by
      have hlt := marks_inspect_lt (congrArg Prod.fst h)
      rwa [h] at hlt
    u.sweep
termination_by t.marks

end Table

end Chunking.Clock
