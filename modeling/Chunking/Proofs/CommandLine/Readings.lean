import Chunking.Proofs.CommandLine.Options
import Mathlib.Tactic.MkIffOfInductiveProp

/-!
# What options say together

Options are read one after another.  What they say together is said for each kind of options on its
own: the values of the rules in their order, the last capacity, the last choice of colour, the
input, which is given at most once, and whether the demonstration grammar is dropped.  How options
of different kinds are mixed does not count.
-/

namespace Chunking.CommandLine

open Text

/-! ### Options of a kind -/

/-- The values that are given to an option, in order. -/
def values (option : Valued) (items : List Item) : List String :=
  items.filterMap fun
    | .valued other value => if other = option then some value else none
    | _ => none

/-- The choices between colour and none, in order. -/
def colors (items : List Item) : List Bool :=
  items.filterMap fun
    | .color on => some on
    | _ => none

/-- Whether the demonstration grammar is not wanted. -/
def dropsDemo (items : List Item) : Bool :=
  items.any fun
    | .noDemo => true
    | _ => false

section

variable (option other : Valued) (value : String) (on : Bool) (items items' : List Item)

theorem values_cons_valued :
  values option (.valued other value :: items)
    = if other = option then value :: values option items else values option items
  := by
  rw [values, List.filterMap_cons]
  split
  next h => simp_all [values]
  next h => simp_all [values]

theorem values_cons_color :
  values option (.color on :: items) = values option items
  := rfl

theorem values_cons_noDemo :
  values option (.noDemo :: items) = values option items
  := rfl

theorem colors_cons_valued :
  colors (.valued option value :: items) = colors items
  := rfl

theorem colors_cons_color :
  colors (.color on :: items) = on :: colors items
  := rfl

theorem colors_cons_noDemo :
  colors (.noDemo :: items) = colors items
  := rfl

theorem dropsDemo_cons_valued :
  dropsDemo (.valued option value :: items) = dropsDemo items
  := rfl

theorem dropsDemo_cons_color :
  dropsDemo (.color on :: items) = dropsDemo items
  := rfl

theorem dropsDemo_cons_noDemo :
  dropsDemo (.noDemo :: items) = true
  := rfl

theorem values_append :
  values option (items ++ items') = values option items ++ values option items'
  := List.filterMap_append

theorem colors_append :
  colors (items ++ items') = colors items ++ colors items'
  := List.filterMap_append

theorem dropsDemo_append :
  dropsDemo (items ++ items') = (dropsDemo items || dropsDemo items')
  := List.any_append

end

section

variable (option other : Valued) (texts : List String)

theorem values_map_valued :
  values option (texts.map (.valued other)) = if other = option then texts else []
  := by
  induction texts with
  | nil => simp [values]
  | cons text texts ih =>
    rw [List.map_cons, values_cons_valued, ih]
    split
    next => rfl
    next => rfl

theorem colors_map_valued :
  colors (texts.map (.valued option)) = []
  := by
  rw [colors, List.filterMap_map, List.filterMap_eq_nil_iff]
  intro text _
  rfl

theorem dropsDemo_map_valued :
  dropsDemo (texts.map (.valued option)) = false
  := by
  rw [dropsDemo, List.any_map, List.any_eq_false]
  intro text _
  apply Bool.false_ne_true

end

/-! ### What they say together -/

/-- Options change the settings `s` into `t`: the input is given at most once, the productions are
added in order, and of the other options the last ones count. -/
@[mk_iff]
structure Settings.Reads (s : Settings) (items : List Item) (t : Settings) : Prop where
  input_eq : s.input.toList ++ values .input items = t.input.toList
  productions_eq :
    ∃ rules, List.Forall₂ (fun text rule => readRule text = .ok rule) (values .rule items) rules
      ∧ s.productions ++ rules = t.productions
  demo_eq : (s.demo && !dropsDemo items) = t.demo
  capacity_eq :
    ∃ sizes, List.Forall₂ (fun text n => readCapacity text = .ok n) (values .capacity items) sizes
      ∧ sizes.getLast?.getD s.capacity = t.capacity
  color_eq : (colors items).getLast?.getD s.color = t.color

theorem withInput_eq_ok_iff {s t : Settings} {text : String} :
  s.withInput text = .ok t ↔ s.input = none ∧ { s with input := some text } = t
  := by
  rw [Settings.withInput]
  cases s.input with
  | none => simp
  | some given => simp

variable {s t : Settings} {item : Item} {items : List Item}

theorem reads_nil_iff :
  s.Reads [] t ↔ s = t
  := by
  constructor
  · rintro ⟨hinput, ⟨rules, hrules, hproductions⟩, hdemo, ⟨sizes, hsizes, hcapacity⟩, hcolor⟩
    cases hrules
    cases hsizes
    have hgiven : s.input = t.input := by simpa [values] using congrArg List.head? hinput
    rw [List.append_nil] at hproductions
    rw [dropsDemo, List.any_nil, Bool.not_false, Bool.and_true] at hdemo
    cases s
    cases t
    simp only [Settings.mk.injEq]
    exact ⟨hgiven, hproductions, hdemo, hcapacity, hcolor⟩
  · rintro rfl
    simp [Settings.reads_iff, values, colors, dropsDemo]

/-- What is given with something else is not given at all before. -/
theorem eq_none_of_toList_append_cons {given given' : Option String} {text : String}
    {texts : List String} (h : given.toList ++ text :: texts = given'.toList) :
  given = none
  := by
  have hlength := congrArg List.length h
  cases given with
  | none => rfl
  | some before =>
    cases given' with
    | none => simp at hlength
    | some after => simp at hlength

theorem reads_cons_color_iff {on : Bool} :
  s.Reads (.color on :: items) t ↔ Settings.Reads { s with color := on } items t
  := by
  simp only [Settings.reads_iff, values_cons_color, colors_cons_color, dropsDemo_cons_color,
    List.getLast?_cons, Option.getD_some]

theorem reads_cons_noDemo_iff :
  s.Reads (.noDemo :: items) t ↔ Settings.Reads { s with demo := false } items t
  := by
  simp only [Settings.reads_iff, values_cons_noDemo, colors_cons_noDemo, dropsDemo_cons_noDemo,
    Bool.not_true, Bool.and_false, Bool.false_and]

theorem reads_cons_rule_iff {text : String} :
  s.Reads (.valued .rule text :: items) t
    ↔ ∃ rule, readRule text = .ok rule
      ∧ Settings.Reads { s with productions := s.productions ++ [rule] } items t
  := by
  simp only [Settings.reads_iff, values_cons_valued, colors_cons_valued, dropsDemo_cons_valued,
    reduceCtorEq, if_true, if_false]
  constructor
  · rintro ⟨hinput, ⟨_, hread, hproductions⟩, hrest⟩
    obtain ⟨rule, rules, hrule, hrules, rfl⟩ := List.forall₂_cons_left_iff.mp hread
    rw [List.append_cons] at hproductions
    exact ⟨rule, hrule, hinput, ⟨rules, hrules, hproductions⟩, hrest⟩
  · rintro ⟨rule, hrule, hinput, ⟨rules, hrules, hproductions⟩, hrest⟩
    rw [← List.append_cons] at hproductions
    exact ⟨hinput, ⟨rule :: rules, .cons hrule hrules, hproductions⟩, hrest⟩

theorem reads_cons_capacity_iff {text : String} :
  s.Reads (.valued .capacity text :: items) t
    ↔ ∃ size, readCapacity text = .ok size ∧ Settings.Reads { s with capacity := size } items t
  := by
  have hlast (size : Nat) (sizes : List Nat) :
      (size :: sizes).getLast?.getD s.capacity = sizes.getLast?.getD size := by
    rw [List.getLast?_cons, Option.getD_some]
  simp only [Settings.reads_iff, values_cons_valued, colors_cons_valued, dropsDemo_cons_valued,
    reduceCtorEq, if_true, if_false]
  constructor
  · rintro ⟨hinput, hproductions, hdemo, ⟨_, hread, hcapacity⟩, hcolor⟩
    obtain ⟨size, sizes, hsize, hsizes, rfl⟩ := List.forall₂_cons_left_iff.mp hread
    rw [hlast] at hcapacity
    exact ⟨size, hsize, hinput, hproductions, hdemo, ⟨sizes, hsizes, hcapacity⟩, hcolor⟩
  · rintro ⟨size, hsize, hinput, hproductions, hdemo, ⟨sizes, hsizes, hcapacity⟩, hcolor⟩
    rw [← hlast] at hcapacity
    exact ⟨hinput, hproductions, hdemo, ⟨size :: sizes, .cons hsize hsizes, hcapacity⟩, hcolor⟩

theorem reads_cons_input_iff {text : String} :
  s.Reads (.valued .input text :: items) t
    ↔ s.input = none ∧ Settings.Reads { s with input := some text } items t
  := by
  simp only [Settings.reads_iff, values_cons_valued, colors_cons_valued, dropsDemo_cons_valued,
    reduceCtorEq, if_true, if_false]
  constructor
  · rintro ⟨hinput, hrest⟩
    have hnone := eq_none_of_toList_append_cons hinput
    rw [hnone] at hinput
    exact ⟨hnone, hinput, hrest⟩
  · rintro ⟨hnone, hinput, hrest⟩
    rw [hnone]
    exact ⟨hinput, hrest⟩

/-- The first option changes the settings, and the others change them further. -/
theorem reads_cons_iff :
  s.Reads (item :: items) t ↔ ∃ u, s.apply item = .ok u ∧ u.Reads items t
  := by
  cases item with
  | color on => simp [Settings.apply, reads_cons_color_iff]
  | noDemo => simp [Settings.apply, reads_cons_noDemo_iff]
  | valued option value =>
    cases option with
    | rule => simp [Settings.apply, map_eq_ok_iff, reads_cons_rule_iff]
    | capacity => simp [Settings.apply, map_eq_ok_iff, reads_cons_capacity_iff]
    | input => simp [Settings.apply, withInput_eq_ok_iff, reads_cons_input_iff]

/-- Options that are read one after another change the settings by what they say together. -/
theorem foldlM_apply_eq_ok_iff :
  items.foldlM Settings.apply s = .ok t ↔ s.Reads items t
  := by
  induction items generalizing s with
  | nil =>
    rw [List.foldlM_nil, reads_nil_iff]
    constructor
    · rintro ⟨⟩
      rfl
    · rintro rfl
      rfl
  | cons item items ih =>
    rw [List.foldlM_cons, bind_eq_ok_iff, reads_cons_iff]
    simp only [ih]

end Chunking.CommandLine
