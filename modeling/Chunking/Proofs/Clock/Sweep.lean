import Chunking.Proofs.Clock.Consistency
import Chunking.Proofs.Clock.SecondChance
import Mathlib.Data.List.Rotate
import Mathlib.Logic.Relation

/-!
# The queue of a table

The slots of a table, read cyclically from the hand on, are a queue.  Nothing is moved in it when
the hand moves: the slot under the hand, which was the front, is now the back.  Hence a sweep of the
hand is the search for a victim in a second-chance queue, and a slot that is written right behind
the hand joins the queue at the back.
-/

namespace Chunking.Clock.Table

variable {α : Type}

/-- The slots in the order in which the hand reaches them. -/
def queue (t : Table α) : List (Slot α) :=
  t.slots.toList.rotate t.hand

theorem length_queue (t : Table α) :
  t.queue.length = t.size
  := by
  simp [queue, size]

/-- An element that is written at a position stands last when the list is read cyclically from the
next position on.  The elements before it are those that follow the position otherwise. -/
theorem rotate_set_succ {l : List α} {i : Nat} (h : i < l.length) (a : α) :
  (l.set i a).rotate (i + 1) = (l.rotate i).tail ++ [a]
  := by
  obtain ⟨xs, b, ys, rfl, rfl⟩ : ∃ xs b ys, l = xs ++ b :: ys ∧ xs.length = i := by
    use l.take i, l[i], l.drop (i + 1)
    constructor
    · simp
    · rw [List.length_take, Nat.min_eq_left h.le]
  have hset : (xs ++ b :: ys).set xs.length a = (xs ++ [a]) ++ ys := by simp
  have hlength : xs.length + 1 = (xs ++ [a]).length := by simp
  rw [hset, hlength, List.rotate_append_length_eq, List.rotate_append_length_eq]
  simp

/-- A change of the slot of a key changes the entry of the key in its place in the queue. -/
theorem queue_modify {t : Table α} (h : t.Consistent) {key : String} {i : Nat} {slot : Slot α}
    (hfind : t.find? key = some (i, slot)) (f : Slot α → Slot α) :
  queue { t with slots := t.slots.modify i f } = SecondChance.changed key f t.queue
  := by
  obtain ⟨hslot, hkey⟩ := (find?_eq_some_iff h).mp hfind
  have hmap : t.slots.toList.modify i f
      = t.slots.toList.map fun entry => if entry.key = key then f entry else entry := by
    apply List.ext_getElem?
    intro j
    rw [List.getElem?_modify, List.getElem?_map]
    cases hj : t.slots.toList[j]? with
    | none => rfl
    | some entry =>
      have hentry : t.keys[j]? = some entry.key := by
        rw [keys, List.getElem?_map, hj, Option.map_some]
      have hplace : i = j ↔ entry.key = key := by
        constructor
        · rintro rfl
          rw [Array.getElem?_toList, hslot] at hj
          cases hj
          apply hkey
        · intro heq
          apply position_unique h _ hentry
          rw [getElem?_keys, hslot, Option.map_some, hkey, heq]
      simp [hplace]
  rw [queue, SecondChance.changed, queue, List.map_rotate, Array.toList_modify, hmap]

theorem mem_queue_iff {t : Table α} {slot : Slot α} :
  slot ∈ t.queue ↔ ∃ i : Nat, t.slots[i]? = some slot
  := by
  rw [queue, List.mem_rotate, List.mem_iff_getElem?]
  simp

/-- The first entry of a key in the queue is the slot that a search finds. -/
theorem find?_queue {t : Table α} (h : t.Consistent) (key : String) :
  t.queue.find? (fun entry => entry.key = key) = (t.find? key).map Prod.snd
  := by
  cases hentry : t.queue.find? (fun entry => entry.key = key) with
  | none =>
    rw [List.find?_eq_none] at hentry
    cases hfind : t.find? key with
    | none => rfl
    | some found =>
      obtain ⟨i, slot⟩ := found
      obtain ⟨hslot, hkey⟩ := (find?_eq_some_iff h).mp hfind
      have hne := hentry slot (mem_queue_iff.mpr ⟨i, hslot⟩)
      simp [hkey] at hne
  | some entry =>
    obtain ⟨i, hslot⟩ := mem_queue_iff.mp (List.mem_of_find?_eq_some hentry)
    have hkey := List.find?_some hentry
    rw [(find?_eq_some_iff h).mpr ⟨hslot, of_decide_eq_true hkey⟩, Option.map_some]

theorem queue_append {t : Table α} (h : t.hand = 0) (key : String) (value : α) :
  (t.append key value).queue = t.queue ++ [⟨key, value, false⟩]
  := by
  simp [queue, append, h]

/-! ### The sweep of the queue -/

/-- The slot under the hand is the front of the queue. -/
theorem queue_eq_cons {t : Table α} (h : t.hand < t.slots.size) :
  t.queue = t.slots[t.hand] :: t.queue.tail
  := by
  have hhead : t.queue.head? = some t.slots[t.hand] := by
    rw [queue, List.head?_rotate h, Array.getElem?_toList, Array.getElem?_eq_getElem h]
  symm
  apply List.cons_head?_tail hhead

/-- When the slot at a position is written and the hand stands behind it, the slot is the last one
of the queue. -/
theorem queue_behind {t : Table α} {slots : List (Slot α)} {i : Nat} (hi : i < slots.length)
    {slot : Slot α} (hslots : t.slots.toList = slots.set i slot)
    (hhand : t.hand = (i + 1) % slots.length) :
  t.queue = (slots.rotate i).tail ++ [slot]
  := by
  have hlength : slots.length = (slots.set i slot).length := List.length_set.symm
  rw [queue, hslots, hhand, hlength, List.rotate_mod, rotate_set_succ hi]

/-- A slot that is replaced behind the hand is the last one of the queue before and after. -/
theorem queue_replace {t : Table α} {i : Nat} (hi : i < t.slots.size)
    (hhand : t.hand = (i + 1) % t.slots.size) (key : String) (value : α) :
  (t.replace i key value).queue = t.queue.dropLast ++ [⟨key, value, false⟩]
  := by
  have hslot : t.slots[i]? = some t.slots[i] := Array.getElem?_eq_getElem hi
  have hold : t.queue = (t.slots.toList.rotate i).tail ++ [t.slots[i]] := by
    apply queue_behind hi
    · rw [← Array.getElem_toList, List.set_getElem_self]
    · apply hhand
  rw [hold, List.dropLast_concat]
  apply queue_behind hi
  · simp [replace, List.modify_eq_set_getElem?, hi]
  · simpa [replace, hslot] using hhand

/-- What a sweep does: it takes the victim out of the queue and leaves the slot of the victim right
behind the hand. -/
structure Swept (t : Table α) (victim : Nat) (u : Table α) : Prop where
  index_eq : u.index = t.index
  keys_eq : u.keys = t.keys
  victim_lt : victim < u.slots.size
  hand_eq : u.hand = (victim + 1) % u.slots.size
  dropLast_queue : u.queue.dropLast = SecondChance.withoutVictim t.queue

theorem keys_unmark {t : Table α} (h : t.hand < t.slots.size) (hand : Nat) :
  keys
      { t with
        slots := t.slots.set t.hand { t.slots[t.hand] with marked := false }
        hand := hand }
    = t.keys
  := by
  have hlength : t.hand < (t.slots.toList.map Slot.key).length := by simpa using h
  have hkey : t.slots[t.hand].key = (t.slots.toList.map Slot.key)[t.hand] := by
    rw [List.getElem_map, Array.getElem_toList]
  rw [keys, Array.toList_set, List.map_set, hkey, List.set_getElem_self, keys]

theorem inspect_of_marked {t : Table α} (h : t.hand < t.slots.size)
    (hmarked : t.slots[t.hand].marked = true) :
  t.inspect = (none,
    { t with
      slots := t.slots.set t.hand { t.slots[t.hand] with marked := false }
      hand := (t.hand + 1) % t.slots.size })
  := by
  simp [inspect, h, hmarked]

theorem inspect_of_not_marked {t : Table α} (h : t.hand < t.slots.size)
    (hmarked : ¬t.slots[t.hand].marked = true) :
  t.inspect = (some t.hand, { t with hand := (t.hand + 1) % t.slots.size })
  := by
  simp [inspect, h, hmarked]

/-- A sweep takes the victim out of the queue.  Each inspection that finds a mark moves the front of
the queue to the back, as `withoutVictim` does; the last one finds the victim. -/
theorem swept_sweep {t : Table α} (h : t.hand < t.slots.size) :
  Swept t t.sweep.1 t.sweep.2
  := by
  fun_induction sweep t with
  | case1 t victim u hinspect =>
    by_cases hmarked : t.slots[t.hand].marked = true
    · rw [inspect_of_marked h hmarked] at hinspect
      cases hinspect
    · rw [inspect_of_not_marked h hmarked] at hinspect
      cases hinspect
      have hqueue : queue { t with hand := (t.hand + 1) % t.slots.size }
          = t.queue.tail ++ [t.slots[t.hand]] := by
        apply queue_behind h
        · rw [← Array.getElem_toList, List.set_getElem_self]
        · rfl
      constructor
      · rfl
      · rfl
      · apply h
      · rfl
      · rw [hqueue, List.dropLast_concat, queue_eq_cons h, SecondChance.withoutVictim,
          if_neg hmarked, List.tail_cons]
  | case2 t u hinspect hlt ih =>
    by_cases hmarked : t.slots[t.hand].marked = true
    · rw [inspect_of_marked h hmarked] at hinspect
      obtain rfl := (Prod.mk.inj hinspect).2
      have hqueue : queue
            { t with
              slots := t.slots.set t.hand { t.slots[t.hand] with marked := false }
              hand := (t.hand + 1) % t.slots.size }
          = t.queue.tail ++ [{ t.slots[t.hand] with marked := false }] := by
        apply queue_behind h
        · rw [Array.toList_set]
        · rfl
      have hnext := ih (by simpa using Nat.mod_lt _ (Nat.zero_lt_of_lt h))
      constructor
      · apply hnext.index_eq
      · rw [hnext.keys_eq, keys_unmark h]
      · apply hnext.victim_lt
      · apply hnext.hand_eq
      · rw [hnext.dropLast_queue, hqueue, queue_eq_cons h, SecondChance.withoutVictim,
          if_pos hmarked, List.tail_cons]
    · rw [inspect_of_not_marked h hmarked] at hinspect
      cases hinspect

theorem Consistent.sweep {t : Table α} (h : t.Consistent) (hhand : t.hand < t.slots.size) :
  t.sweep.2.Consistent
  := by
  have hswept := swept_sweep hhand
  apply h.of_keys_eq hswept.index_eq hswept.keys_eq
  have hlt := Nat.mod_lt (t.sweep.1 + 1) (Nat.zero_lt_of_lt hswept.victim_lt)
  rw [← hswept.hand_eq] at hlt
  apply Nat.lt_of_lt_of_le hlt (Nat.le_max_right _ _)

/-! ### The slots that a sweep visits -/

/-- A step of a sweep that goes on, since the slot under the hand is marked. -/
def Passes (t u : Table α) : Prop :=
  t.inspect = (none, u)

/-- When a sweep starts on a slot, the hand stands on a slot all the time. -/
theorem hand_lt_of_passes {t u : Table α} (h : Relation.ReflTransGen Passes t u)
    (hhand : t.hand < t.slots.size) :
  u.hand < u.slots.size
  := by
  induction h with
  | refl => apply hhand
  | @tail u v _ hpasses ih =>
    rw [Passes] at hpasses
    by_cases hmarked : u.slots[u.hand].marked = true
    · rw [inspect_of_marked ih hmarked] at hpasses
      obtain rfl := (Prod.mk.inj hpasses).2
      simpa using Nat.mod_lt _ (Nat.zero_lt_of_lt ih)
    · rw [inspect_of_not_marked ih hmarked] at hpasses
      cases hpasses

end Chunking.Clock.Table
