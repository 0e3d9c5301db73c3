import Chunking.Text.Cut
import Mathlib.Data.List.Infix

/-!
# Cuts at the first and at the last occurrence

A list is cut at the first occurrence of a mark: no copy of the mark begins before the place of the
cut.  And it is cut at the last occurrence of a character when this does not stand behind the cut.
What is left of a list behind copies of a mark in front does not begin with a further copy.
-/

namespace Chunking.Text

/-! ### The first occurrence -/

theorem isPrefix_append_dropLast (before mark after : List Char) :
  before ++ mark.dropLast <+: before ++ mark ++ after
  := by
  apply List.IsPrefix.trans _ (List.prefix_append _ after)
  apply (List.prefix_append_right_inj before).mpr
  apply List.dropLast_prefix

/-- A list is cut before and behind a copy of the mark exactly when no copy begins earlier. -/
theorem splitFirst_eq_some_iff {mark cs before after : List Char} (hmark : mark ≠ []) :
  splitFirst mark cs = some (before, after)
    ↔ before ++ mark ++ after = cs ∧ ¬mark <:+: before ++ mark.dropLast
  := by
  have hpos := List.length_pos_of_ne_nil hmark
  constructor
  · intro h
    use append_of_splitFirst h
    induction cs generalizing before with
    | nil => cases h
    | cons c cs ih =>
      have hcut := append_of_splitFirst h
      simp only [splitFirst] at h
      split at h
      next =>
        obtain ⟨rfl, -⟩ : [] = before ∧ (c :: cs).drop mark.length = after := by simpa using h
        intro hmem
        have hlength := hmem.length_le
        rw [List.nil_append, List.length_dropLast] at hlength
        omega
      next hbegins =>
        obtain ⟨⟨before', after'⟩, hrest, heq⟩ := Option.map_eq_some_iff.mp h
        obtain ⟨rfl, rfl⟩ : c :: before' = before ∧ after' = after := by simpa using heq
        rw [List.cons_append, List.infix_cons_iff]
        rintro (hmem | hmem)
        · apply hbegins
          rw [List.isPrefixOf_iff_prefix, ← hcut]
          apply hmem.trans (isPrefix_append_dropLast (c :: before') mark after')
        · apply ih hrest hmem
  · rintro ⟨rfl, hfirst⟩
    induction before with
    | nil =>
      obtain ⟨m, ms, rfl⟩ := List.exists_cons_of_ne_nil hmark
      have hbegins : (m :: ms).isPrefixOf (m :: (ms ++ after)) = true :=
        List.isPrefixOf_iff_prefix.mpr (List.prefix_append (m :: ms) after)
      rw [List.nil_append, List.cons_append, splitFirst, if_pos hbegins, ← List.cons_append,
        List.drop_left]
    | cons c before ih =>
      rw [List.cons_append, List.infix_cons_iff, not_or] at hfirst
      have hbegins : ¬mark.isPrefixOf (c :: (before ++ mark ++ after)) = true := by
        intro hmem
        apply hfirst.1
        apply List.prefix_of_prefix_length_le (List.isPrefixOf_iff_prefix.mp hmem)
          (isPrefix_append_dropLast (c :: before) mark after)
        simp only [List.length_cons, List.length_append, List.length_dropLast]
        omega
      rw [List.cons_append, List.cons_append, splitFirst, if_neg hbegins, ih hfirst.2]
      rfl

/-- There is no cut exactly when there is no copy of the mark. -/
theorem splitFirst_eq_none_iff {mark cs : List Char} (hmark : mark ≠ []) :
  splitFirst mark cs = none ↔ ¬mark <:+: cs
  := by
  induction cs with
  | nil => simp [splitFirst, hmark]
  | cons c cs ih =>
    rw [splitFirst, List.infix_cons_iff, not_or, ← ih, ← List.isPrefixOf_iff_prefix]
    split
    next hbegins => simp [hbegins]
    next hbegins => simp [hbegins]

/-- A text is cut before and behind a copy of the mark exactly when no copy begins earlier. -/
theorem cutFirst_eq_some_iff {mark s before after : String} (hmark : mark.toList ≠ []) :
  cutFirst mark s = some (before, after)
    ↔ before.toList ++ mark.toList ++ after.toList = s.toList
      ∧ ¬mark.toList <:+: before.toList ++ mark.toList.dropLast
  := by
  rw [← splitFirst_eq_some_iff hmark, cutFirst, Option.map_eq_some_iff]
  constructor
  · rintro ⟨⟨before', after'⟩, hcut, heq⟩
    obtain ⟨rfl, rfl⟩ : String.ofList before' = before ∧ String.ofList after' = after := by
      simpa using heq
    rwa [String.toList_ofList, String.toList_ofList]
  · intro hcut
    use (before.toList, after.toList), hcut
    simp only [String.ofList_toList]

/-- There is no cut exactly when there is no copy of the mark. -/
theorem cutFirst_eq_none_iff {mark s : String} (hmark : mark.toList ≠ []) :
  cutFirst mark s = none ↔ ¬mark.toList <:+: s.toList
  := by
  rw [← splitFirst_eq_none_iff hmark, cutFirst, Option.map_eq_none_iff]

/-! ### The last occurrence -/

/-- A list is cut before and behind a mark exactly when no other mark follows. -/
theorem splitLast_eq_some_iff {mark : Char} {cs before after : List Char} :
  splitLast mark cs = some (before, after) ↔ before ++ mark :: after = cs ∧ mark ∉ after
  := by
  constructor
  · intro h
    use append_of_splitLast h, not_mem_of_splitLast h
  · rintro ⟨rfl, hafter⟩
    induction before with
    | nil => simp [splitLast, splitLast_eq_none_iff.mpr hafter]
    | cons c before ih => simp [splitLast, ih]

/-- A text is cut before and behind a mark exactly when no other mark follows. -/
theorem cutLast_eq_some_iff {mark : Char} {s before after : String} :
  cutLast mark s = some (before, after)
    ↔ before ++ String.singleton mark ++ after = s ∧ mark ∉ after.toList
  := by
  have hcut : before.toList ++ mark :: after.toList = s.toList
      ↔ before ++ String.singleton mark ++ after = s := by
    rw [← String.toList_inj]
    simp
  rw [cutLast, ← hcut, ← splitLast_eq_some_iff, Option.map_eq_some_iff]
  constructor
  · rintro ⟨⟨before', after'⟩, hsplit, heq⟩
    obtain ⟨rfl, rfl⟩ : String.ofList before' = before ∧ String.ofList after' = after := by
      simpa using heq
    rwa [String.toList_ofList, String.toList_ofList]
  · intro hsplit
    use (before.toList, after.toList), hsplit
    simp only [String.ofList_toList]

/-- There is no cut exactly when the mark does not occur. -/
theorem cutLast_eq_none_iff {mark : Char} {s : String} :
  cutLast mark s = none ↔ mark ∉ s.toList
  := by
  rw [← splitLast_eq_none_iff, cutLast, Option.map_eq_none_iff]

/-! ### Copies of a mark -/

/-- What is left of a list behind copies of a mark: the list is some copies of the mark and the
rest, and the rest does not begin with the mark. -/
theorem dropRepeated_eq_iff {mark cs rest : List Char} {times : Nat} (hmark : mark ≠ [])
    (htimes : cs.length ≤ times) :
  dropRepeated mark times cs = rest
    ↔ (∃ copies, (List.replicate copies mark).flatten ++ rest = cs) ∧ ¬mark <+: rest
  := by
  have hpos := List.length_pos_of_ne_nil hmark
  induction times generalizing cs with
  | zero =>
    obtain rfl := List.eq_nil_of_length_eq_zero (Nat.le_zero.mp htimes)
    rw [dropRepeated]
    constructor
    · rintro rfl
      use ⟨0, rfl⟩
      simpa using hmark
    · rintro ⟨⟨copies, heq⟩, -⟩
      rw [List.append_eq_nil_iff] at heq
      apply heq.2.symm
  | succ times ih =>
    rw [dropRepeated]
    split
    next hbegins =>
      rw [List.isPrefixOf_iff_prefix] at hbegins
      obtain ⟨tail, rfl⟩ := hbegins
      have htail : tail.length ≤ times := by
        rw [List.length_append] at htimes
        omega
      have hrest := ih htail
      rw [List.drop_left]
      apply hrest.trans
      apply and_congr_left
      intro hrest
      constructor
      · rintro ⟨copies, rfl⟩
        use copies + 1
        rw [List.replicate_succ, List.flatten_cons, List.append_assoc]
      · rintro ⟨copies, heq⟩
        cases copies with
        | zero =>
          apply absurd _ hrest
          rw [show rest = mark ++ tail from heq]
          apply List.prefix_append
        | succ copies =>
          use copies
          rw [List.replicate_succ, List.flatten_cons, List.append_assoc] at heq
          apply List.append_cancel_left heq
    next hbegins =>
      rw [List.isPrefixOf_iff_prefix] at hbegins
      constructor
      · rintro rfl
        exact ⟨⟨0, rfl⟩, hbegins⟩
      · rintro ⟨⟨copies, rfl⟩, hrest⟩
        cases copies with
        | zero => rfl
        | succ copies =>
          apply absurd _ hbegins
          rw [List.replicate_succ, List.flatten_cons, List.append_assoc]
          apply List.prefix_append

section

variable {mark s rest : String} (hmark : mark ≠ "")
include hmark

theorem afterCopies_eq_iff :
  afterCopies mark s = rest
    ↔ (∃ copies, (List.replicate copies mark.toList).flatten ++ rest.toList = s.toList)
      ∧ ¬mark.toList <+: rest.toList
  := by
  rw [← dropRepeated_eq_iff (mt String.toList_eq_nil_iff.mp hmark) (Nat.le_refl s.toList.length),
    afterCopies, ← String.toList_inj, String.toList_ofList]

/-- One more copy in front does not count. -/
theorem afterCopies_append (s : String) :
  afterCopies mark (mark ++ s) = afterCopies mark s
  := by
  obtain ⟨⟨copies, hcopies⟩, hrest⟩ := (afterCopies_eq_iff hmark (s := s)).mp rfl
  rw [afterCopies_eq_iff hmark]
  constructor
  · use copies + 1
    rw [List.replicate_succ, List.flatten_cons, List.append_assoc, hcopies, String.toList_append]
  · apply hrest

/-- Nothing is dropped exactly when there is no copy in front. -/
theorem afterCopies_eq_self_iff :
  afterCopies mark s = s ↔ ¬beginsWith mark s
  := by
  rw [afterCopies_eq_iff hmark, beginsWith, List.isPrefixOf_iff_prefix]
  constructor
  · rintro ⟨-, hrest⟩
    apply hrest
  · intro hrest
    exact ⟨⟨0, rfl⟩, hrest⟩

end

end Chunking.Text
