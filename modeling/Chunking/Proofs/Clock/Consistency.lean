import Chunking.Clock
import Mathlib.Data.List.Nodup

/-!
# Consistent tables

The index of a table and its row of slots hold the same keys, and the hand stays within the row.
`Table.Consistent` says so, and every operation keeps it, provided that a key is added only when
it is absent.
-/

namespace Chunking.Clock.Table

variable {α : Type}

/-- The keys of the slots, in the order of the slots. -/
def keys (t : Table α) : List String :=
  t.slots.toList.map Slot.key

theorem length_keys (t : Table α) :
  t.keys.length = t.size
  := by
  simp [keys, size]

theorem getElem?_keys (t : Table α) (i : Nat) :
  t.keys[i]? = t.slots[i]?.map Slot.key
  := by
  simp [keys]

/-- A table whose index, slots and hand fit together. -/
structure Consistent (t : Table α) : Prop where
  /-- The index leads from a key to the slot that holds the key, and nowhere else. -/
  index_iff {key : String} {i : Nat} : t.index[key]? = some i ↔ t.keys[i]? = some key
  /-- The hand stands on a slot, or at the start of an empty row. -/
  hand_lt : t.hand < max 1 t.size

/-- In a table with slots the hand stands on one of them. -/
theorem Consistent.hand_lt_size {t : Table α} (h : t.Consistent) (hpos : 0 < t.size) :
  t.hand < t.slots.size
  := by
  have hhand := h.hand_lt
  rw [size] at hpos hhand
  omega

theorem consistent_empty :
  (empty : Table α).Consistent
  := by
  constructor
  · intro key i
    simp [empty, keys]
  · simp [empty, size]

/-! ### Search -/

section

variable {t : Table α} (h : t.Consistent) {key : String} {i : Nat} {slot : Slot α}
include h

/-- A search finds the slot that holds the key, and its position. -/
theorem find?_eq_some_iff :
  t.find? key = some (i, slot) ↔ t.slots[i]? = some slot ∧ slot.key = key
  := by
  simp only [find?, Option.bind_eq_some_iff, Option.map_eq_some_iff, Prod.mk.injEq]
  constructor
  · rintro ⟨j, hindex, _, hslot, rfl, rfl⟩
    rw [h.index_iff, getElem?_keys, hslot] at hindex
    constructor
    · apply hslot
    · apply Option.some.inj hindex
  · rintro ⟨hslot, rfl⟩
    use i
    constructor
    · rw [h.index_iff, getElem?_keys, hslot, Option.map_some]
    · use slot

/-- A search finds nothing exactly when no slot holds the key. -/
theorem find?_eq_none_iff :
  t.find? key = none ↔ key ∉ t.keys
  := by
  constructor
  · intro hnone hmem
    obtain ⟨j, hj⟩ := List.mem_iff_getElem?.mp hmem
    rw [getElem?_keys, Option.map_eq_some_iff] at hj
    obtain ⟨slot, hslot, hkey⟩ := hj
    rw [(find?_eq_some_iff h).mpr ⟨hslot, hkey⟩] at hnone
    cases hnone
  · intro hkey
    apply Option.eq_none_iff_forall_ne_some.mpr
    rintro ⟨j, slot⟩ hfound
    obtain ⟨hslot, rfl⟩ := (find?_eq_some_iff h).mp hfound
    apply hkey
    apply List.mem_iff_getElem?.mpr
    use j
    rw [getElem?_keys, hslot, Option.map_some]

/-- A key stands at one position only. -/
theorem position_unique {j : Nat} (hi : t.keys[i]? = some key) (hj : t.keys[j]? = some key) :
  i = j
  := by
  have hindex := h.index_iff.mpr hi
  rw [h.index_iff.mpr hj] at hindex
  symm
  apply Option.some.inj hindex

end

/-- No key stands at two positions. -/
theorem nodup_keys {t : Table α} (h : t.Consistent) :
  t.keys.Nodup
  := by
  rw [List.nodup_iff_getElem?_ne_getElem?]
  intro i j hlt hj heq
  rw [List.getElem?_eq_getElem hj] at heq
  obtain rfl := position_unique h heq (List.getElem?_eq_getElem hj)
  apply Nat.lt_irrefl i hlt

/-- The index has as many keys as there are slots. -/
theorem size_index {t : Table α} (h : t.Consistent) :
  t.index.size = t.size
  := by
  have hperm : t.index.keys.Perm t.keys := by
    apply (List.perm_ext_iff_of_nodup Std.TreeMap.nodup_keys (nodup_keys h)).mpr
    intro key
    rw [Std.TreeMap.mem_keys, Std.TreeMap.mem_iff_isSome_getElem?, Option.isSome_iff_exists,
      List.mem_iff_getElem?]
    simp only [h.index_iff]
  rw [← Std.TreeMap.length_keys, hperm.length_eq, length_keys]

/-! ### Changes that keep the keys -/

/-- Consistency depends on the keys, the index and the place of the hand only. -/
theorem Consistent.of_keys_eq {t u : Table α} (h : t.Consistent) (hindex : u.index = t.index)
    (hkeys : u.keys = t.keys) (hhand : u.hand < max 1 u.size) :
  u.Consistent
  := by
  constructor
  · intro key i
    rw [hindex, hkeys]
    apply h.index_iff
  · apply hhand

/-- The keys stay when the slot at a position is changed in its value and its mark only. -/
theorem keys_modify (t : Table α) (i : Nat) {f : Slot α → Slot α}
    (hf : ∀ slot, (f slot).key = slot.key) :
  keys { t with slots := t.slots.modify i f } = t.keys
  := by
  apply List.ext_getElem?
  intro j
  simp only [getElem?_keys, Array.getElem?_modify]
  split
  · cases t.slots[j]? with
    | none => rfl
    | some slot => simp [hf]
  · rfl

theorem Consistent.modify {t : Table α} (h : t.Consistent) (i : Nat) {f : Slot α → Slot α}
    (hf : ∀ slot, (f slot).key = slot.key) :
  Consistent { t with slots := t.slots.modify i f }
  := by
  apply h.of_keys_eq
  · rfl
  · apply keys_modify t i hf
  · simpa [size] using h.hand_lt

theorem Consistent.mark {t : Table α} (h : t.Consistent) (i : Nat) :
  (t.mark i).Consistent
  := h.modify i fun _ => rfl

theorem Consistent.overwrite {t : Table α} (h : t.Consistent) (i : Nat) (value : α) :
  (t.overwrite i value).Consistent
  := h.modify i fun _ => rfl

/-! ### Changes of the keys -/

theorem keys_append (t : Table α) (key : String) (value : α) :
  (t.append key value).keys = t.keys ++ [key]
  := by
  simp [keys, append]

/-- A key that is absent can be added at the end. -/
theorem Consistent.append {t : Table α} (h : t.Consistent) {key : String} (hkey : key ∉ t.keys)
    (value : α) :
  (t.append key value).Consistent
  := by
  constructor
  · intro other i
    have hindex : (t.append key value).index[other]?
        = if key = other then some t.keys.length else t.index[other]? := by
      simp [Table.append, Std.TreeMap.getElem?_insert, length_keys, size]
    rw [hindex, keys_append]
    split
    next heq =>
      subst heq
      constructor
      · intro hi
        obtain rfl := Option.some.inj hi
        simp
      · intro hi
        rw [List.getElem?_append] at hi
        split at hi
        · exact absurd (List.mem_of_getElem? hi) hkey
        · grind
    next hne =>
      rw [h.index_iff, List.getElem?_append]
      grind
  · have := h.hand_lt
    simp only [Table.append, size, Array.size_push] at this ⊢
    omega

theorem keys_replace {t : Table α} {i : Nat} (hi : i < t.size) (key : String) (value : α) :
  (t.replace i key value).keys = t.keys.set i key
  := by
  have hold : t.slots[i]? = some t.slots[i] := Array.getElem?_eq_getElem hi
  apply List.ext_getElem?
  intro j
  simp only [replace, hold, getElem?_keys, Array.getElem?_modify, List.getElem?_set, length_keys]
  split
  next heq =>
    subst heq
    simp [hold]
  next => rfl

/-- An absent key can take the place of another one. -/
theorem Consistent.replace {t : Table α} (h : t.Consistent) {i : Nat} (hi : i < t.size)
    {key : String} (hkey : key ∉ t.keys) (value : α) :
  (t.replace i key value).Consistent
  := by
  have hslot : t.slots[i]? = some t.slots[i] := Array.getElem?_eq_getElem hi
  have hold : t.keys[i]? = some t.slots[i].key := by rw [getElem?_keys, hslot, Option.map_some]
  constructor
  · intro other j
    have hindex : (t.replace i key value).index[other]?
        = if key = other then some i
          else if t.slots[i].key = other then none else t.index[other]? := by
      simp [Table.replace, hslot, Std.TreeMap.getElem?_insert, Std.TreeMap.getElem?_erase]
    rw [hindex, keys_replace hi, List.getElem?_set, length_keys]
    by_cases hother : key = other
    · subst hother
      have habsent : t.keys[j]? ≠ some key := fun hj => hkey (List.mem_of_getElem? hj)
      grind
    · by_cases hfreed : t.slots[i].key = other
      · have hplace : t.keys[j]? = some other → i = j := by
          intro hj
          apply position_unique h _ hj
          rw [hold, hfreed]
        grind
      · have hkept : t.index[other]? = some j ↔ t.keys[j]? = some other := h.index_iff
        grind
  · have hhand := h.hand_lt
    have hsize : (t.replace i key value).size = t.size := by
      rw [← length_keys, keys_replace hi, List.length_set, length_keys]
    have : (t.replace i key value).hand = t.hand := by simp [Table.replace, hslot]
    rw [hsize, this]
    apply hhand

end Chunking.Clock.Table
