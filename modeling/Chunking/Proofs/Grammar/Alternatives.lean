import Chunking.Proofs.Grammar.Productions
import Chunking.Proofs.Text.Words

/-!
# Alternatives as productions

A production whose right-hand side has bars adds what the productions of its alternatives add one
after another.  A blank alternative does not count, although a production with a blank right-hand
side adds a rule of arity zero.
-/

namespace Chunking

open Text

namespace Production

/-- The production whose right-hand side has the given texts with bars between them. -/
def ofAlternatives (left : String) (texts : List String) (weight : Float32) : Production :=
  ⟨left, String.intercalate "|" texts, weight⟩

/-- A production for each of the texts that is not blank. -/
def separate (left : String) (texts : List String) (weight : Float32) : List Production :=
  (texts.filter fun text => !isAllBlank text).map fun text => ⟨left, text, weight⟩

theorem mem_separate_iff {left : String} {texts : List String} {weight : Float32} {p : Production} :
  p ∈ separate left texts weight ↔ ∃ text ∈ texts, ¬isAllBlank text ∧ ⟨left, text, weight⟩ = p
  := by
  simp only [separate, List.mem_map, List.mem_filter, Bool.not_eq_true', Bool.not_eq_true,
    and_assoc]

/-- The left-hand side and the weight refuse all right-hand sides for the same cause, or leave it to
the alternatives whether a production is accepted. -/
theorem rules_eq_of_right (left : String) (weight : Float32) :
  (∃ cause, ∀ right, rules ⟨left, right, weight⟩ = .error cause)
    ∨ ∃ labels, ∀ right, rules ⟨left, right, weight⟩
      = (alternatives right >>= List.mapM (Rule.ofAlternative (trim left) labels weight))
  := by
  by_cases hweight : weight.isFinite = true
  · by_cases hblank : trim left = ""
    · left
      use .emptyLeft
      intro right
      apply rules_of_left_blank (p := ⟨left, right, weight⟩) hweight hblank
    · cases hlabels : Grammemes.parse (trim left) with
      | error cause =>
        left
        use cause
        intro right
        rw [rules_of_left (p := ⟨left, right, weight⟩) hweight hblank, hlabels]
        rfl
      | ok labels =>
        right
        use labels
        intro right
        rw [rules_of_left (p := ⟨left, right, weight⟩) hweight hblank, hlabels]
        rfl
  · left
    use .invalidWeight weight
    intro right
    apply rules_of_not_isFinite (p := ⟨left, right, weight⟩) hweight

theorem alternatives_of_not_mem {text : String} (hbar : '|' ∉ text.toList)
    (hblank : ¬isAllBlank text) :
  alternatives text = .ok [trim text]
  := by
  have hpieces : pieces ⟨"", text, 1.0⟩ = [text] := pieces_eq_singleton hbar (.inr hblank)
  apply (alternatives_eq_ok_iff (p := ⟨"", text, 1.0⟩)).mpr
  rw [hpieces]
  exact ⟨List.cons_ne_nil _ _, rfl⟩

section

variable {texts : List String} (hbar : ∀ text ∈ texts, '|' ∉ text.toList)
    (hblank : ∃ text ∈ texts, ¬isAllBlank text)
include hbar hblank

/-- The alternatives of joined texts are those that are not blank. -/
theorem pieces_ofAlternatives (left : String) (weight : Float32) :
  (ofAlternatives left texts weight).pieces = texts.filter fun text => !isAllBlank text
  := by
  obtain ⟨text, htext, hvisible⟩ := hblank
  have hfields : fields '|' (String.intercalate "|" texts) = texts :=
    fields_intercalate rfl (List.ne_nil_of_mem htext) hbar
  have hright : ¬isAllBlank (String.intercalate "|" texts) := by
    intro hall
    apply hvisible
    apply isAllBlank_iff.mpr
    intro c hc
    rw [← hfields] at htext
    apply isAllBlank_iff.mp hall c (mem_of_mem_fields htext hc)
  rw [pieces, ofAlternatives, if_neg hright, hfields]

theorem alternatives_ofAlternatives :
  alternatives (String.intercalate "|" texts)
    = .ok ((texts.filter fun text => !isAllBlank text).map trim)
  := by
  apply (alternatives_eq_ok_iff (p := ofAlternatives "" texts 1.0)).mpr
  rw [pieces_ofAlternatives hbar hblank]
  obtain ⟨text, htext, hvisible⟩ := hblank
  constructor
  · apply List.ne_nil_of_mem (a := text)
    simp [htext, hvisible]
  · rfl

end

end Production

namespace Grammar

/-- Productions that are added one after another are accepted independently of each other. -/
theorem exists_addAll_iff {g : Grammar} {ps : List Production} :
  (∃ grown, g.addAll ps = .ok grown) ↔ ∀ p ∈ ps, ∃ rules, p.rules = .ok rules
  := by
  induction ps generalizing g with
  | nil => simp [addAll, pure, Except.pure]
  | cons p ps ih =>
    rw [List.forall_mem_cons]
    simp only [addAll, List.foldlM_cons, bind_eq_ok_iff, add_eq_ok_iff] at ih ⊢
    constructor
    · rintro ⟨grown, _, ⟨rules, hrules, rfl⟩, hrest⟩
      exact ⟨⟨rules, hrules⟩, ih.mp ⟨grown, hrest⟩⟩
    · rintro ⟨⟨rules, hrules⟩, hrest⟩
      obtain ⟨grown, hgrown⟩ := (@ih (rules.foldl push g)).mpr hrest
      exact ⟨grown, _, ⟨rules, hrules, rfl⟩, hgrown⟩

/-- A production with alternatives adds what the productions of its alternatives add. -/
theorem add_ofAlternatives (g : Grammar) (left : String) (weight : Float32) {texts : List String}
    (hbar : ∀ text ∈ texts, '|' ∉ text.toList) (hblank : ∃ text ∈ texts, ¬isAllBlank text) :
  g.add (.ofAlternatives left texts weight) = g.addAll (Production.separate left texts weight)
  := by
  have halternatives := Production.alternatives_ofAlternatives hbar hblank
  rcases Production.rules_eq_of_right left weight with ⟨cause, hrules⟩ | ⟨labels, hrules⟩
  · -- The first production of those that are added is refused.
    obtain ⟨text, htext, hvisible⟩ := hblank
    obtain ⟨p, ps, hps⟩ : ∃ p ps, Production.separate left texts weight = p :: ps := by
      apply List.exists_cons_of_ne_nil
      apply List.ne_nil_of_mem (Production.mem_separate_iff.mpr ⟨text, htext, hvisible, rfl⟩)
    have hp : p ∈ Production.separate left texts weight := by
      rw [hps]
      apply List.mem_cons_self
    obtain ⟨first, -, -, rfl⟩ := Production.mem_separate_iff.mp hp
    rw [addAll, hps, List.foldlM_cons, add, add, Production.ofAlternatives, hrules, hrules]
    rfl
  · have hstep : ∀ p ∈ Production.separate left texts weight, ∀ grown : Grammar, grown.add p
        = (Rule.ofAlternative (trim left) labels weight (trim p.right)).map grown.push := by
      intro p hp grown
      obtain ⟨text, htext, hvisible, rfl⟩ := Production.mem_separate_iff.mp hp
      rw [add, hrules, Production.alternatives_of_not_mem (hbar text htext) hvisible]
      cases h : Rule.ofAlternative (trim left) labels weight (trim text) with
      | error cause => simp [h, bind, Except.bind, Except.map]
      | ok rule => simp [h, bind, Except.bind, Except.map, pure, Except.pure]
    rw [addAll, foldlM_eq_of_steps hstep, add, Production.ofAlternatives, hrules, halternatives,
      Production.separate, List.mapM_map]
    simp only [bind, Except.bind]
    rw [List.mapM_map]
    rfl

/-- A production with alternatives is accepted exactly when the production of each alternative that
is not blank is.  It adds what these productions add one after another, in the same order, and when
it is refused it adds nothing. -/
theorem add_ofAlternatives_iff (g : Grammar) (left : String) (weight : Float32)
    (texts : List String) (hbar : ∀ text ∈ texts, '|' ∉ text.toList)
    (hblank : ∃ text ∈ texts, ¬isAllBlank text) :
  ((∃ grown, g.add (.ofAlternatives left texts weight) = .ok grown)
    ↔ ∀ text ∈ texts, ¬isAllBlank text → ∃ grown, g.add ⟨left, text, weight⟩ = .ok grown)
    ∧ (∀ grown, g.add (.ofAlternatives left texts weight) = .ok grown →
      g.addAll (Production.separate left texts weight) = .ok grown)
    ∧ ((¬∃ grown, g.add (.ofAlternatives left texts weight) = .ok grown) →
      (g.offer (.ofAlternatives left texts weight)).1 = g)
  := by
  constructor
  · rw [add_ofAlternatives g left weight hbar hblank, exists_addAll_iff]
    simp only [exists_add_iff]
    constructor
    · intro hall text htext hvisible
      apply hall _ (Production.mem_separate_iff.mpr ⟨text, htext, hvisible, rfl⟩)
    · intro hall p hp
      obtain ⟨text, htext, hvisible, rfl⟩ := Production.mem_separate_iff.mp hp
      apply hall text htext hvisible
  constructor
  · intro grown hgrown
    rw [← add_ofAlternatives g left weight hbar hblank, hgrown]
  · intro hrefused
    cases hadd : g.add (.ofAlternatives left texts weight) with
    | error cause => rw [offer, hadd]
    | ok grown => exact absurd ⟨grown, hadd⟩ hrefused

/-- A blank alternative does not count.  An unbalanced quote refuses the alternative before it. -/
theorem add_ofAlternatives_blank_and_refused :
  (∃ grown, empty.add (.ofAlternatives "N" ["A", "  ", " 'c'  B"] 0.5) = .ok grown
    ∧ empty.addAll (Production.separate "N" ["A", "  ", " 'c'  B"] 0.5) = .ok grown)
    ∧ (∃ grown, empty.add ⟨"N", "A", 0.5⟩ = .ok grown)
    ∧ (empty.offer (.ofAlternatives "N" ["A", "'c"] 0.5)).1 = empty
  := by
  obtain ⟨-, hadded, -⟩ := add_ofAlternatives_iff empty "N" 0.5 ["A", "  ", " 'c'  B"]
    (by decide) (by decide)
  obtain ⟨-, -, hrefused⟩ := add_ofAlternatives_iff empty "N" 0.5 ["A", "'c"]
    (by decide) (by decide)
  constructor
  · obtain ⟨grown, hgrown⟩ : ∃ grown,
        empty.add (.ofAlternatives "N" ["A", "  ", " 'c'  B"] 0.5) = .ok grown := by
      decide +kernel
    exact ⟨grown, hgrown, hadded grown hgrown⟩
  constructor
  · decide +kernel
  · apply hrefused
    decide +kernel

end Grammar

end Chunking
