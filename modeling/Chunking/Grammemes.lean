import Chunking.Text.Blank
import Chunking.Text.Cut

/-!
# Sets of grammemes

A grammeme is a label such as `NOUN` or `sing`.  `Grammemes` is a finite set of labels, kept as a
strictly ascending list, so that equal sets are equal values and have the same text.  Labels are
ordered by their code points.

Reading a list of labels, or a production, fails for one of the causes of `GrammarError`.  Each
cause carries the text that is at fault, and `GrammarError.message` words it.
-/

namespace Chunking

/-! ### Errors in grammar texts -/

/-- The cause for which a production or a list of grammemes is refused. -/
inductive GrammarError where
  /-- The left-hand side of a production is blank. -/
  | emptyLeft
  /-- A label of the comma-separated `list` is blank. -/
  | emptyGrammeme (list : String)
  /-- The `token` has a quote at one end that no equal quote at the other end answers. -/
  | unbalancedQuote (token alternative : String)
  /-- A pair of quotes in `alternative` holds nothing. -/
  | emptyLiteral (alternative : String)
  /-- The right-hand side has bars, and only blanks between them. -/
  | noAlternatives (right : String)
  /-- The weight of a production is infinite or not a number. -/
  | invalidWeight (weight : Float32)
  deriving DecidableEq

/-- The text of a weight that is not finite. -/
def nonFiniteText (weight : Float32) : String :=
  if weight.isNaN then "NaN" else if weight < 0 then "-inf" else "inf"

/-- The wording of a cause. -/
def GrammarError.message : GrammarError → String
  | emptyLeft => "left-hand side is empty"
  | emptyGrammeme list => "empty grammeme label in '" ++ list ++ "'"
  | unbalancedQuote token alternative =>
    "unbalanced quotes in token '" ++ token ++ "' of alternative '" ++ alternative ++ "'"
  | emptyLiteral alternative => "empty literal in alternative '" ++ alternative ++ "'"
  | noAlternatives right =>
    "right-hand side '" ++ right ++ "' has no non-empty alternatives"
  | invalidWeight weight => "weight " ++ nonFiniteText weight ++ " is not a finite number"

/-! ### Sets -/

/-- A finite set of labels, as a strictly ascending list. -/
structure Grammemes where
  labels : List String
  ascending : labels.Pairwise (· < ·)
  deriving DecidableEq

namespace Grammemes

/-- A set is determined by its list of labels. -/
theorem eq_of_labels_eq {g h : Grammemes} (heq : g.labels = h.labels) :
  g = h
  := by
  cases g
  cases h
  cases heq
  rfl

/-! ### Insertion -/

/-- The ascending list `labels` with `label` put in its place, unless it is there already. -/
def insertLabel (label : String) : List String → List String
  | [] => [label]
  | first :: rest =>
    if label < first then
      label :: first :: rest
    else if label = first then
      first :: rest
    else
      first :: insertLabel label rest

theorem mem_insertLabel {x label : String} {labels : List String} :
  x ∈ insertLabel label labels ↔ x = label ∨ x ∈ labels
  := by
  induction labels with
  | nil => simp [insertLabel]
  | cons first rest ih =>
    simp only [insertLabel]
    split
    · simp
    · split
      next h => simp [h]
      next => simp only [List.mem_cons, ih]; grind

theorem pairwise_insertLabel {label : String} {labels : List String}
    (h : labels.Pairwise (· < ·)) :
  (insertLabel label labels).Pairwise (· < ·)
  := by
  induction labels with
  | nil => simp [insertLabel]
  | cons first rest ih =>
    obtain ⟨hfirst, hrest⟩ := List.pairwise_cons.mp h
    simp only [insertLabel]
    split
    next hlt =>
      refine List.pairwise_cons.mpr ⟨?_, h⟩
      intro x hx
      rcases List.mem_cons.mp hx with rfl | hx
      · exact hlt
      · exact String.lt_trans hlt (hfirst x hx)
    next hlt =>
      split
      · exact h
      next hne =>
        refine List.pairwise_cons.mpr ⟨?_, ih hrest⟩
        intro x hx
        rcases mem_insertLabel.mp hx with rfl | hx
        · exact Std.lt_of_le_of_ne (Std.not_lt.mp hlt) (Ne.symm hne)
        · exact hfirst x hx

/-- The set with no label. -/
def empty : Grammemes :=
  ⟨[], List.Pairwise.nil⟩

instance : EmptyCollection Grammemes :=
  ⟨empty⟩

instance : Inhabited Grammemes :=
  ⟨empty⟩

/-- The set with one more label. -/
def insert (g : Grammemes) (label : String) : Grammemes :=
  ⟨insertLabel label g.labels, pairwise_insertLabel g.ascending⟩

/-- The set of the labels in a list. -/
def ofList (labels : List String) : Grammemes :=
  labels.foldl insert empty

/-! ### Membership and comparison -/

instance : Membership String Grammemes :=
  ⟨fun g label => label ∈ g.labels⟩

instance (label : String) (g : Grammemes) : Decidable (label ∈ g) :=
  inferInstanceAs (Decidable (label ∈ g.labels))

/-- The number of labels. -/
def size (g : Grammemes) : Nat :=
  g.labels.length

/-- Whether there is no label. -/
def isEmpty (g : Grammemes) : Bool :=
  g.labels.isEmpty

/-- Every label of `g` is a label of `h`. -/
instance : HasSubset Grammemes :=
  ⟨fun g h => ∀ label ∈ g.labels, label ∈ h.labels⟩

instance (g h : Grammemes) : Decidable (g ⊆ h) :=
  inferInstanceAs (Decidable (∀ label ∈ g.labels, label ∈ h.labels))

/-- Some label of `g` is a label of `h`. -/
def Meets (g h : Grammemes) : Prop :=
  ∃ label ∈ g.labels, label ∈ h.labels

instance (g h : Grammemes) : Decidable (g.Meets h) :=
  inferInstanceAs (Decidable (∃ label ∈ g.labels, label ∈ h.labels))

/-- Sets are ordered as their ascending lists are: lexicographically. -/
instance : Ord Grammemes :=
  ⟨fun g h => compare g.labels h.labels⟩

/-! ### Text -/

/-- The text of a set: its labels in order, with commas between them. -/
def display (g : Grammemes) : String :=
  String.intercalate "," g.labels

/-- The set written in a comma-separated list of labels.  Blanks around a label do not count, a
label that is blank is refused. -/
def parse (list : String) : Except GrammarError Grammemes :=
  let labels := (Text.fields ',' list).map Text.trim
  if labels.contains "" then
    .error (.emptyGrammeme list)
  else
    .ok (ofList labels)

theorem mem_insert {x label : String} {g : Grammemes} :
  x ∈ g.insert label ↔ x = label ∨ x ∈ g
  := mem_insertLabel

/-- The set built from a list has the labels of that list. -/
theorem mem_ofList {x : String} {labels : List String} :
  x ∈ ofList labels ↔ x ∈ labels
  := by
  suffices ∀ g : Grammemes, x ∈ labels.foldl insert g ↔ x ∈ labels ∨ x ∈ g by
    rw [ofList, this]
    exact ⟨fun h => h.resolve_right (by rintro ⟨⟩), Or.inl⟩
  induction labels with
  | nil => simp
  | cons label labels ih =>
    intro g
    rw [List.foldl_cons, ih, mem_insert, List.mem_cons]
    grind

end Grammemes

end Chunking
