import Chunking.Pattern
import Chunking.Proofs.Text.Words
import Chunking.Proofs.Traversal
import Mathlib.Data.List.Sort

/-!
# Tokens of a grammar

A token is well formed when it is a literal, that is a text of at least one character between two
equal quotes, or a list of non-empty labels that neither begins nor ends with a quote.  `Denotes`
says which pattern it stands for.  A token without blanks is read as a pattern exactly when it
denotes this pattern.
-/

namespace Chunking

open Text

/-! ### Sets of labels -/

namespace Grammemes

/-- Sets with the same labels are equal. -/
theorem eq_of_mem_iff {g h : Grammemes} (heq : ∀ label, label ∈ g ↔ label ∈ h) :
  g = h
  := by
  have hasymm : Std.Antisymm fun a b : String => a < b := by
    constructor
    intro a b hab hba
    exact absurd (String.lt_trans hab hba) (String.lt_irrefl a)
  have hirrefl : Std.Irrefl fun a b : String => a < b := ⟨String.lt_irrefl⟩
  apply eq_of_labels_eq
  apply List.Pairwise.eq_of_mem_iff g.ascending h.ascending heq

theorem contains_empty_iff {list : String} :
  ((fields ',' list).map trim).contains "" = true ↔ ∃ part ∈ fields ',' list, isAllBlank part
  := by
  rw [List.contains_iff_mem, List.mem_map]
  simp only [trim_eq_empty_iff]

/-- A list is read as a set exactly when none of its labels is blank, and the set has these labels
without the blanks around them. -/
theorem parse_eq_ok_iff {list : String} {g : Grammemes} :
  parse list = .ok g
    ↔ (∀ part ∈ fields ',' list, ¬isAllBlank part)
      ∧ ∀ label, label ∈ g ↔ ∃ part ∈ fields ',' list, trim part = label
  := by
  simp only [parse]
  split
  next hlabels =>
    obtain ⟨part, hpart, hblank⟩ := contains_empty_iff.mp hlabels
    constructor
    · rintro ⟨⟩
    · rintro ⟨hall, -⟩
      exact absurd hblank (hall part hpart)
  next hlabels =>
    constructor
    · rintro ⟨⟩
      constructor
      · intro part hpart hblank
        exact hlabels (contains_empty_iff.mpr ⟨part, hpart, hblank⟩)
      · intro label
        rw [mem_ofList, List.mem_map]
    · rintro ⟨-, hmem⟩
      apply congrArg Except.ok
      apply eq_of_mem_iff
      intro label
      rw [mem_ofList, List.mem_map, hmem]

/-- A list is refused as a whole when one of its labels is blank. -/
theorem parse_eq_error_iff {list : String} {cause : GrammarError} :
  parse list = .error cause
    ↔ (∃ part ∈ fields ',' list, isAllBlank part) ∧ .emptyGrammeme list = cause
  := by
  simp only [parse]
  split
  next hlabels => simp [contains_empty_iff.mp hlabels]
  next hlabels =>
    constructor
    · rintro ⟨⟩
    · rintro ⟨hpart, -⟩
      exact absurd (contains_empty_iff.mpr hpart) hlabels

/-- In a list without blanks the labels stand as they are. -/
theorem parse_eq_ok_iff_of_not_isBlank {list : String} {g : Grammemes}
    (h : ∀ c ∈ list.toList, isBlank c = false) :
  parse list = .ok g
    ↔ (∀ label ∈ fields ',' list, label ≠ "") ∧ ∀ label, label ∈ g ↔ label ∈ fields ',' list
  := by
  have hlabel {label : String} (hlabel : label ∈ fields ',' list) :
      ∀ c ∈ label.toList, isBlank c = false := by
    intro c hc
    apply h c (mem_of_mem_fields hlabel hc)
  have hmem (label : String) :
      (∃ part ∈ fields ',' list, trim part = label) ↔ label ∈ fields ',' list := by
    constructor
    · rintro ⟨part, hpart, rfl⟩
      rwa [trim_eq_self (hlabel hpart)]
    · intro hmem
      use label, hmem, trim_eq_self (hlabel hmem)
  rw [parse_eq_ok_iff]
  simp only [hmem]
  apply and_congr_left
  intro _
  apply forall₂_congr
  intro label hmem
  rw [isAllBlank_iff_eq_empty (hlabel hmem)]

/-- In a list without blanks only an empty label is blank. -/
theorem parse_eq_error_iff_of_not_isBlank {list : String} {cause : GrammarError}
    (h : ∀ c ∈ list.toList, isBlank c = false) :
  parse list = .error cause ↔ "" ∈ fields ',' list ∧ .emptyGrammeme list = cause
  := by
  have hempty : (∃ part ∈ fields ',' list, isAllBlank part) ↔ "" ∈ fields ',' list := by
    constructor
    · rintro ⟨part, hpart, hblank⟩
      rwa [← (isAllBlank_iff_eq_empty fun c hc => h c (mem_of_mem_fields hpart hc)).mp hblank]
    · intro hmem
      use "", hmem
      rfl
  rw [parse_eq_error_iff, hempty]

/-- A set has the labels that stand in a list, and none of these is empty. -/
def Listed (list : String) (g : Grammemes) : Prop :=
  (∀ label ∈ fields ',' list, label ≠ "") ∧ ∀ label, label ∈ g ↔ label ∈ fields ',' list

section

variable {list : String} {g : Grammemes} (h : Listed list g)
include h

/-- There is a label in every list. -/
theorem Listed.labels_ne_nil :
  g.labels ≠ []
  := by
  obtain ⟨label, hlabel⟩ := List.exists_mem_of_ne_nil _ (fields_ne_nil ',' list)
  apply List.ne_nil_of_mem ((h.2 label).mpr hlabel)

/-- A list of labels is read back from the text of the set. -/
theorem Listed.display :
  Listed g.display g
  := by
  have hcomma : ∀ label ∈ g.labels, ',' ∉ label.toList := by
    intro label hlabel
    apply not_mem_of_mem_fields ((h.2 label).mp hlabel)
  have hfields : fields ',' g.display = g.labels := fields_intercalate rfl h.labels_ne_nil hcomma
  constructor
  · intro label hlabel
    rw [hfields] at hlabel
    apply h.1 label ((h.2 label).mp hlabel)
  · intro label
    rw [hfields]
    rfl

/-- The characters of the text of a set are commas and the characters of the list. -/
theorem Listed.mem_of_mem_display {c : Char} (hc : c ∈ g.display.toList) :
  c = ',' ∨ c ∈ list.toList
  := by
  rcases mem_of_mem_intercalate hc with hc | ⟨label, hlabel, hc⟩
  · left
    apply List.mem_singleton.mp hc
  · right
    apply mem_of_mem_fields ((h.2 label).mp hlabel) hc

end

end Grammemes

/-! ### Patterns -/

namespace Pattern

/-- A text that begins or ends with a quote. -/
def Quoted (token : List Char) : Prop :=
  ∃ quote, isQuote quote ∧ (token.head? = some quote ∨ token.getLast? = some quote)

/-- The pattern that a token of a grammar stands for. -/
inductive Denotes : String → Pattern → Prop where
  /-- A literal between two equal quotes. -/
  | word {quote : Char} {text : List Char} (hquote : isQuote quote) (hne : text ≠ []) :
    Denotes (String.ofList (quote :: (text ++ [quote]))) (.word (String.ofList text))
  /-- A list of labels with commas between them. -/
  | tags {token : String} {required : Grammemes} (hquoted : ¬Quoted token.toList)
    (hlabels : ∀ label ∈ fields ',' token, label ≠ "")
    (hrequired : ∀ label, label ∈ required ↔ label ∈ fields ',' token) :
    Denotes token (.tags required)

/-- A token that denotes a pattern: a literal, or a list of labels. -/
def WellFormed (token : String) : Prop :=
  (¬Quoted token.toList ∧ ∀ label ∈ fields ',' token, label ≠ "")
    ∨ ∃ quote, isQuote quote ∧ token.toList.head? = some quote
      ∧ token.toList.getLast? = some quote ∧ 3 ≤ token.toList.length

/-- A text between two equal quotes is a literal. -/
theorem Denotes.of_toList_eq {quote : Char} {token text : String} (hquote : isQuote quote)
    (hne : text ≠ "") (htoken : token.toList = quote :: (text.toList ++ [quote])) :
  Denotes token (.word text)
  := by
  have h := Denotes.word hquote (mt String.toList_eq_nil_iff.mp hne)
  rwa [← htoken, String.ofList_toList, String.ofList_toList] at h

theorem touchesQuote_iff {token : List Char} :
  touchesQuote token = true ↔ Quoted token
  := by
  simp only [touchesQuote, Quoted, Bool.or_eq_true, Option.any_eq_true]
  constructor
  · rintro (⟨quote, hend, hquote⟩ | ⟨quote, hend, hquote⟩)
    · exact ⟨quote, hquote, Or.inl hend⟩
    · exact ⟨quote, hquote, Or.inr hend⟩
  · rintro ⟨quote, hquote, hend | hend⟩
    · exact Or.inl ⟨quote, hend, hquote⟩
    · exact Or.inr ⟨quote, hend, hquote⟩

theorem interior?_cons (quote : Char) (cs : List Char) :
  interior? (quote :: cs)
    = if isQuote quote && cs.getLast? == some quote then some cs.dropLast else none
  := by
  cases cs with
  | nil => simp [interior?]
  | cons c cs => rfl

/-- The interior of a text is what stands between two equal quotes. -/
theorem interior?_eq_some_iff {token text : List Char} :
  interior? token = some text ↔ ∃ quote, isQuote quote ∧ token = quote :: (text ++ [quote])
  := by
  constructor
  · intro h
    cases token with
    | nil => cases h
    | cons quote cs =>
      simp only [interior?_cons, Option.ite_none_right_eq_some, Bool.and_eq_true, beq_iff_eq,
        Option.some.injEq] at h
      obtain ⟨⟨hquote, hlast⟩, rfl⟩ := h
      use quote, hquote
      rw [List.dropLast_append_getLast? quote hlast]
  · rintro ⟨quote, hquote, rfl⟩
    rw [interior?_cons, List.getLast?_concat, List.dropLast_concat]
    simp [hquote]

/-- A token with a quote at an end can only be a literal. -/
theorem denotes_iff_of_quoted {token : String} (h : Quoted token.toList) {p : Pattern} :
  Denotes token p
    ↔ ∃ text, interior? token.toList = some text ∧ text ≠ [] ∧ p = .word (String.ofList text)
  := by
  constructor
  · intro hp
    cases hp with
    | @word quote text hquote hne =>
      use text
      constructor
      · apply interior?_eq_some_iff.mpr
        use quote, hquote
        apply String.toList_ofList
      · exact ⟨hne, rfl⟩
    | tags hquoted _ _ => contradiction
  · rintro ⟨text, hinterior, hne, rfl⟩
    obtain ⟨quote, hquote, htoken⟩ := interior?_eq_some_iff.mp hinterior
    rw [← String.ofList_toList (s := token), htoken]
    apply Denotes.word hquote hne

/-- A token without a quote at an end can only be a list of labels. -/
theorem denotes_iff_of_not_quoted {token : String} (h : ¬Quoted token.toList) {p : Pattern} :
  Denotes token p
    ↔ ∃ required : Grammemes, ((∀ label ∈ fields ',' token, label ≠ "")
      ∧ ∀ label, label ∈ required ↔ label ∈ fields ',' token) ∧ .tags required = p
  := by
  constructor
  · intro hp
    cases hp with
    | @word quote text hquote _ =>
      rw [String.toList_ofList] at h
      exact absurd ⟨quote, hquote, Or.inl rfl⟩ h
    | @tags _ required _ hlabels hrequired => exact ⟨required, ⟨hlabels, hrequired⟩, rfl⟩
  · rintro ⟨required, ⟨hlabels, hrequired⟩, rfl⟩
    apply Denotes.tags h hlabels hrequired

/-- A token without blanks is read as the pattern that it denotes. -/
theorem ofToken_eq_ok_iff {alternative token : String} {p : Pattern}
    (hblank : ∀ c ∈ token.toList, isBlank c = false) :
  ofToken alternative token = .ok p ↔ Denotes token p
  := by
  rw [ofToken]
  split
  next hquoted =>
    rw [denotes_iff_of_quoted (touchesQuote_iff.mp hquoted)]
    cases interior? token.toList with
    | none => simp
    | some text =>
      cases text with
      | nil => simp
      | cons c cs => simp [eq_comm]
  next hquoted =>
    rw [touchesQuote_iff] at hquoted
    rw [denotes_iff_of_not_quoted hquoted, map_eq_ok_iff]
    simp only [Grammemes.parse_eq_ok_iff_of_not_isBlank hblank]

/-- A text with a non-empty interior has at least three characters and the same one at both ends. -/
theorem exists_eq_cons_concat_iff {quote : Char} {token : List Char} :
  (∃ text, text ≠ [] ∧ token = quote :: (text ++ [quote]))
    ↔ token.head? = some quote ∧ token.getLast? = some quote ∧ 3 ≤ token.length
  := by
  constructor
  · rintro ⟨text, hne, rfl⟩
    constructor
    · rfl
    constructor
    · rw [← List.cons_append, List.getLast?_concat]
    · have hpos := List.length_pos_of_ne_nil hne
      simp only [List.length_cons, List.length_append, List.length_nil]
      omega
  · rintro ⟨hfirst, hlast, hlength⟩
    match token with
    | first :: c :: cs =>
      obtain rfl := Option.some.inj hfirst
      rw [List.getLast?_cons_cons] at hlast
      use (c :: cs).dropLast
      constructor
      · apply List.ne_nil_of_length_pos
        simp only [List.length_cons, List.length_dropLast] at hlength ⊢
        omega
      · rw [List.dropLast_append_getLast? _ hlast]

/-- A token denotes a pattern exactly when it is well formed. -/
theorem exists_denotes_iff {token : String} :
  (∃ p, Denotes token p) ↔ WellFormed token
  := by
  constructor
  · rintro ⟨p, hp⟩
    cases hp with
    | @word quote text hquote hne =>
      right
      use quote, hquote
      rw [String.toList_ofList]
      apply exists_eq_cons_concat_iff.mp ⟨text, hne, rfl⟩
    | tags hquoted hlabels _ =>
      left
      exact ⟨hquoted, hlabels⟩
  · rintro (⟨hquoted, hlabels⟩ | ⟨quote, hquote, hends⟩)
    · use .tags (Grammemes.ofList (fields ',' token))
      apply Denotes.tags hquoted hlabels
      intro label
      apply Grammemes.mem_ofList
    · obtain ⟨text, hne, htoken⟩ := exists_eq_cons_concat_iff.mpr hends
      use .word (String.ofList text)
      rw [← String.ofList_toList (s := token), htoken]
      apply Denotes.word hquote hne

end Pattern

end Chunking
