import Chunking.Proofs.Grammar.Tokens

/-!
# Texts of sets of grammemes

A list of labels can be written in many ways, and the text of the set that it is read as is one of
them.  A set is read back from its text exactly when it has a label and all its labels can stand in
a list.  The sets that are read from lists are of this kind, so that their texts are canonical: two
lists have the same labels exactly when the sets read from them have the same text.
-/

namespace Chunking.Grammemes

open Text

/-! ### Sets that can be listed -/

/-- A label that can stand in a list: it is not empty, and it has no comma and no blank at either of
its ends. -/
structure IsListable (label : String) : Prop where
  ne_empty : label ≠ ""
  comma_not_mem : ',' ∉ label.toList
  not_isBlank_head : ∀ c ∈ label.toList.head?, isBlank c = false
  not_isBlank_getLast : ∀ c ∈ label.toList.getLast?, isBlank c = false

/-- A set that a list can write. -/
structure Listable (g : Grammemes) : Prop where
  labels_ne_nil : g.labels ≠ []
  isListable : ∀ label ∈ g, IsListable label

/-- The labels that stand in a list, without the blanks around them. -/
def listed (list : String) : List String :=
  (fields ',' list).map trim

variable {t u list label : String} {g h : Grammemes}

theorem IsListable.trim_eq_self (hlabel : IsListable label) :
  trim label = label
  := trim_eq_self_iff.mpr ⟨hlabel.not_isBlank_head, hlabel.not_isBlank_getLast⟩

theorem IsListable.not_isAllBlank (hlabel : IsListable label) :
  ¬isAllBlank label = true
  := by
  rw [← trim_eq_empty_iff, hlabel.trim_eq_self]
  apply hlabel.ne_empty

/-- A field that is not blank gives a label that can stand in a list. -/
theorem isListable_trim {part : String} (hpart : part ∈ fields ',' list)
    (hblank : ¬isAllBlank part = true) :
  IsListable (trim part)
  := by
  have hends := trim_eq_self_iff.mp (trim_trim part)
  constructor
  · rwa [ne_eq, trim_eq_empty_iff]
  · rw [toList_trim]
    intro hcomma
    apply not_mem_of_mem_fields hpart ((isInfix_trimmed part.toList).mem hcomma)
  · apply hends.1
  · apply hends.2

/-- A list is read as the set of the labels in it. -/
theorem mem_iff_mem_listed (hparse : parse list = .ok g) :
  label ∈ g ↔ label ∈ listed list
  := by
  rw [(parse_eq_ok_iff.mp hparse).2, listed, List.mem_map]

/-- Every set that is read from a list can be listed. -/
theorem listable_of_parse (hparse : parse list = .ok g) :
  Listable g
  := by
  obtain ⟨hblank, hmem⟩ := parse_eq_ok_iff.mp hparse
  constructor
  · obtain ⟨part, hpart⟩ := List.exists_mem_of_ne_nil _ (fields_ne_nil ',' list)
    apply List.ne_nil_of_mem ((hmem (trim part)).mpr ⟨part, hpart, rfl⟩)
  · intro label hlabel
    obtain ⟨part, hpart, rfl⟩ := (hmem label).mp hlabel
    apply isListable_trim hpart (hblank part hpart)

/-- A set that can be listed is read back from its text. -/
theorem Listable.parse_display (hg : Listable g) :
  parse g.display = .ok g
  := by
  have hfields : fields ',' g.display = g.labels :=
    fields_intercalate rfl hg.labels_ne_nil fun label hlabel =>
      (hg.isListable label hlabel).comma_not_mem
  rw [parse_eq_ok_iff, hfields]
  constructor
  · intro label hlabel
    apply (hg.isListable label hlabel).not_isAllBlank
  · intro label
    constructor
    · intro hlabel
      use label, hlabel, (hg.isListable label hlabel).trim_eq_self
    · rintro ⟨part, hpart, rfl⟩
      rwa [(hg.isListable part hpart).trim_eq_self]

/-! ### Canonical texts -/

/-- A set is read back from its text exactly when it can be listed. -/
theorem parse_display_iff :
  parse g.display = .ok g ↔ Listable g
  := ⟨listable_of_parse, Listable.parse_display⟩

/-- Sets that can be listed have different texts. -/
theorem Listable.display_inj (hg : Listable g) (hh : Listable h) :
  g.display = h.display ↔ g = h
  := by
  constructor
  · intro heq
    have hread := hg.parse_display
    rw [heq, hh.parse_display] at hread
    apply (Except.ok.inj hread).symm
  · rintro rfl
    rfl

/-- Lists are read as the same set exactly when they have the same labels. -/
theorem eq_iff_listed (ht : parse t = .ok g) (hu : parse u = .ok h) :
  g = h ↔ ∀ label, label ∈ listed t ↔ label ∈ listed u
  := by
  constructor
  · rintro rfl label
    rw [← mem_iff_mem_listed ht, ← mem_iff_mem_listed hu]
  · intro heq
    apply eq_of_mem_iff
    intro label
    rw [mem_iff_mem_listed ht, mem_iff_mem_listed hu, heq]

/-- A set is read back from its text exactly when it has a label and all its labels can stand in a
list, and every set that was read is of this kind.  So two lists that can be read give the same set
exactly when the texts of the sets are equal, and exactly when the same labels stand in them, in any
order and any number of times; and the text of a set that was read is read as this set, which has
this text. -/
theorem display_canonical :
  (∀ g : Grammemes, parse g.display = .ok g ↔ Listable g)
    ∧ (∀ t g, parse t = .ok g → Listable g)
    ∧ ∀ t u g h, parse t = .ok g → parse u = .ok h →
      (g = h ↔ g.display = h.display)
        ∧ (g.display = h.display ↔ ∀ label, label ∈ listed t ↔ label ∈ listed u)
        ∧ (parse g.display).map display = .ok g.display
  := by
  constructor
  · intro g
    apply parse_display_iff
  constructor
  · intro t g ht
    apply listable_of_parse ht
  · intro t u g h ht hu
    have htext := (listable_of_parse ht).display_inj (listable_of_parse hu)
    constructor
    · apply htext.symm
    constructor
    · rw [htext]
      apply eq_iff_listed ht hu
    · rw [(listable_of_parse ht).parse_display]
      rfl

/-- Blanks, order and repetitions do not count. -/
theorem display_canonical_sing_noun :
  ∃ g h, parse " sing,NOUN, sing" = .ok g ∧ parse "NOUN ,sing" = .ok h
    ∧ g.display = h.display ∧ (parse g.display).map display = .ok g.display
  := by
  have hlisted : listed " sing,NOUN, sing" = ["sing", "NOUN", "sing"] := by decide
  have hlisted' : listed "NOUN ,sing" = ["NOUN", "sing"] := by decide
  have hparse : parse " sing,NOUN, sing" = .ok (ofList ["sing", "NOUN", "sing"]) := by decide
  have hparse' : parse "NOUN ,sing" = .ok (ofList ["NOUN", "sing"]) := by decide
  have hcanonical := display_canonical.2.2 _ _ _ _ hparse hparse'
  refine ⟨_, _, hparse, hparse', hcanonical.2.1.mpr ?_, hcanonical.2.2⟩
  intro label
  rw [hlisted, hlisted']
  grind

end Chunking.Grammemes
