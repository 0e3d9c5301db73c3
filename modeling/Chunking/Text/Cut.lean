/-!
# Cutting texts

A text is cut at every occurrence of a separator by `fields`, at the first occurrence of a mark
by `cutFirst`, and at the last occurrence of a character by `cutLast`.  A cut at one place
returns the part before and the part after, and nothing when there is no such place.
-/

namespace Chunking.Text

/-- The parts of a text between the occurrences of `separator`: one more than there are
occurrences, so the empty text has one empty field. -/
def fields (separator : Char) (s : String) : List String :=
  (s.toList.splitOn separator).map String.ofList

/-- The parts of `cs` before and after the first occurrence of `mark`, a non-empty list. -/
def splitFirst (mark : List Char) : List Char → Option (List Char × List Char)
  | [] => none
  | c :: cs =>
    if mark.isPrefixOf (c :: cs) then
      some ([], (c :: cs).drop mark.length)
    else
      (splitFirst mark cs).map fun (before, after) => (c :: before, after)

/-- A cut at the first occurrence loses nothing but the mark. -/
theorem append_of_splitFirst {mark cs before after : List Char}
    (h : splitFirst mark cs = some (before, after)) :
  before ++ mark ++ after = cs
  := by
  induction cs generalizing before with
  | nil => simp [splitFirst] at h
  | cons c cs ih =>
    simp only [splitFirst] at h
    split at h
    next hmark =>
      obtain ⟨rfl, rfl⟩ : [] = before ∧ (c :: cs).drop mark.length = after := by simpa using h
      obtain ⟨rest, hrest⟩ := List.isPrefixOf_iff_prefix.mp hmark
      rw [← hrest]
      simp
    next =>
      obtain ⟨⟨before', after'⟩, hcut, heq⟩ := Option.map_eq_some_iff.mp h
      obtain ⟨rfl, rfl⟩ : c :: before' = before ∧ after' = after := by simpa using heq
      simp [← ih hcut]

/-- The parts of a text before and after the first occurrence of `mark`. -/
def cutFirst (mark s : String) : Option (String × String) :=
  (splitFirst mark.toList s.toList).map fun (before, after) =>
    (String.ofList before, String.ofList after)

/-- The parts of `cs` before and after the last occurrence of `mark`. -/
def splitLast (mark : Char) : List Char → Option (List Char × List Char)
  | [] => none
  | c :: cs =>
    match splitLast mark cs with
    | some (before, after) => some (c :: before, after)
    | none => if c = mark then some ([], cs) else none

/-- A cut at the last occurrence loses nothing but the mark. -/
theorem append_of_splitLast {mark : Char} {cs before after : List Char}
    (h : splitLast mark cs = some (before, after)) :
  before ++ mark :: after = cs
  := by
  induction cs generalizing before after with
  | nil => simp [splitLast] at h
  | cons c cs ih =>
    simp only [splitLast] at h
    split at h
    next before' after' hcut =>
      obtain ⟨rfl, rfl⟩ : c :: before' = before ∧ after' = after := by simpa using h
      simp [← ih hcut]
    next =>
      split at h
      next hc =>
        obtain ⟨rfl, rfl⟩ : [] = before ∧ cs = after := by simpa using h
        simp [hc]
      next => simp at h

/-- There is no cut exactly when the mark does not occur. -/
theorem splitLast_eq_none_iff {mark : Char} {cs : List Char} :
  splitLast mark cs = none ↔ mark ∉ cs
  := by
  induction cs with
  | nil => simp [splitLast]
  | cons c cs ih =>
    simp only [splitLast, List.mem_cons, not_or]
    split
    next hcut =>
      constructor
      · intro h
        cases h
      · intro h
        rw [ih.mpr h.2] at hcut
        cases hcut
    next hcut => simp [ih.mp hcut, eq_comm]

/-- The mark does not occur after its last occurrence. -/
theorem not_mem_of_splitLast {mark : Char} {cs before after : List Char}
    (h : splitLast mark cs = some (before, after)) :
  mark ∉ after
  := by
  induction cs generalizing before with
  | nil => simp [splitLast] at h
  | cons c cs ih =>
    simp only [splitLast] at h
    split at h
    next before' after' hcut =>
      obtain ⟨-, rfl⟩ : c :: before' = before ∧ after' = after := by simpa using h
      apply ih hcut
    next hcut =>
      split at h
      next =>
        obtain ⟨-, rfl⟩ : [] = before ∧ cs = after := by simpa using h
        apply splitLast_eq_none_iff.mp hcut
      next => simp at h

/-- The parts of a text before and after the last occurrence of `mark`. -/
def cutLast (mark : Char) (s : String) : Option (String × String) :=
  (splitLast mark s.toList).map fun (before, after) =>
    (String.ofList before, String.ofList after)

/-! ### Dropping a repeated beginning -/

/-- The list left of `cs` after `mark` has been removed from its front as often as it stands
there, at most `times` times. -/
def dropRepeated (mark : List Char) : Nat → List Char → List Char
  | 0, cs => cs
  | times + 1, cs =>
    if mark.isPrefixOf cs then dropRepeated mark times (cs.drop mark.length) else cs

/-- The text after all leading copies of the non-empty `mark`.  A text has no more copies than
characters. -/
def afterCopies (mark s : String) : String :=
  String.ofList (dropRepeated mark.toList s.toList.length s.toList)

/-- Whether a text begins with `mark`. -/
def beginsWith (mark s : String) : Bool :=
  mark.toList.isPrefixOf s.toList

end Chunking.Text
