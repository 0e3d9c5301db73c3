import Chunking.Proofs.Grammar.Buckets
import Chunking.Proofs.Grammar.Tokens

/-!
# Productions and their rules

A production is well formed when its weight is finite, no label of its left-hand side is blank, and
its right-hand side is blank or has a piece between bars that is not, all tokens of its pieces being
well formed.  Exactly the well-formed productions are accepted.  Each piece that is not blank
becomes a rule, and a right-hand side that is blank altogether becomes a rule of arity zero.
-/

namespace Chunking

open Text

namespace Production

/-- The parts of the right-hand side that become rules. -/
def pieces (p : Production) : List String :=
  if isAllBlank p.right then [""] else (fields '|' p.right).filter fun piece => !isAllBlank piece

/-- A production of the language of grammars. -/
structure WellFormed (p : Production) : Prop where
  isFinite_weight : p.weight.isFinite
  left : ∀ part ∈ fields ',' (trim p.left), ¬isAllBlank part
  right : (isAllBlank p.right ∧ '|' ∉ p.right.toList)
    ∨ ((∃ piece ∈ fields '|' p.right, ¬isAllBlank piece)
      ∧ ∀ piece ∈ fields '|' p.right, ∀ token ∈ words piece, Pattern.WellFormed token)

/-- The rule that a production writes by a piece of its right-hand side. -/
structure Writes (p : Production) (piece : String) (rule : Rule) : Prop where
  mem_left_iff (label : String) :
    label ∈ rule.left ↔ ∃ part ∈ fields ',' (trim p.left), trim part = label
  /-- There is one pattern for each token. -/
  right : List.Forall₂ Pattern.Denotes (words piece) rule.right
  weight_eq : rule.weight = p.weight
  leftText_eq : rule.leftText = trim p.left
  rightText_eq : rule.rightText = trim piece

/-! ### Pieces -/

theorem isAllBlank_empty :
  isAllBlank "" = true
  := rfl

theorem words_empty :
  words "" = []
  := rfl

theorem pieces_of_isAllBlank {p : Production} (h : isAllBlank p.right) :
  p.pieces = [""]
  := if_pos h

theorem mem_pieces_iff {p : Production} (h : ¬isAllBlank p.right) {piece : String} :
  piece ∈ p.pieces ↔ piece ∈ fields '|' p.right ∧ ¬isAllBlank piece
  := by
  rw [pieces, if_neg h, List.mem_filter, Bool.not_eq_true', Bool.not_eq_true]

theorem pieces_ne_nil_iff {p : Production} (h : ¬isAllBlank p.right) :
  p.pieces ≠ [] ↔ ∃ piece ∈ fields '|' p.right, ¬isAllBlank piece
  := by
  rw [ne_eq, List.eq_nil_iff_forall_not_mem, not_forall_not]
  simp only [mem_pieces_iff h]

/-- A bar is no blank. -/
theorem bar_not_mem_of_isAllBlank {s : String} (h : isAllBlank s) :
  '|' ∉ s.toList
  := by
  intro hbar
  exact absurd (isAllBlank_iff.mp h '|' hbar) (by decide)

/-- A right-hand side without a bar is its only piece. -/
theorem pieces_eq_singleton {p : Production} (hbar : '|' ∉ p.right.toList)
    (hright : p.right = "" ∨ ¬isAllBlank p.right) :
  p.pieces = [p.right]
  := by
  rcases hright with hempty | hright
  · rw [hempty]
    apply pieces_of_isAllBlank
    rw [hempty]
    apply isAllBlank_empty
  · rw [pieces, if_neg hright, fields_eq_singleton hbar]
    simp [hright]

/-- Bars end pieces, so that no piece holds one. -/
theorem bar_not_mem_of_mem_pieces {p : Production} {piece : String} (h : piece ∈ p.pieces) :
  '|' ∉ piece.toList
  := by
  by_cases hright : isAllBlank p.right = true
  · rw [pieces_of_isAllBlank hright, List.mem_singleton] at h
    rw [h]
    apply List.not_mem_nil
  · apply not_mem_of_mem_fields ((mem_pieces_iff hright).mp h).1

/-- The alternatives are the pieces without the blanks around them. -/
theorem alternatives_eq_ok_iff {p : Production} {texts : List String} :
  alternatives p.right = .ok texts ↔ p.pieces ≠ [] ∧ p.pieces.map trim = texts
  := by
  by_cases h : isAllBlank p.right = true
  · rw [alternatives, if_pos h, pieces_of_isAllBlank h]
    simp [trim_eq_empty_iff.mpr isAllBlank_empty]
  · have htexts : ((fields '|' p.right).map trim).filter (· ≠ "") = p.pieces.map trim := by
      rw [List.filter_map, pieces, if_neg h]
      congr 1
      apply List.filter_congr
      intro piece _
      rw [Function.comp_apply, Bool.eq_iff_iff, decide_eq_true_eq, ne_eq, trim_eq_empty_iff,
        Bool.not_eq_true', Bool.not_eq_true]
    rw [alternatives, if_neg h, htexts]
    cases p.pieces with
    | nil => simp
    | cons piece rest => simp

/-- The right-hand side is well formed exactly when there are pieces, with well-formed tokens. -/
theorem right_wellFormed_iff {p : Production} :
  ((isAllBlank p.right ∧ '|' ∉ p.right.toList)
    ∨ ((∃ piece ∈ fields '|' p.right, ¬isAllBlank piece)
      ∧ ∀ piece ∈ fields '|' p.right, ∀ token ∈ words piece, Pattern.WellFormed token))
    ↔ p.pieces ≠ [] ∧ ∀ piece ∈ p.pieces, ∀ token ∈ words piece, Pattern.WellFormed token
  := by
  by_cases h : isAllBlank p.right = true
  · rw [pieces_of_isAllBlank h]
    simp [h, bar_not_mem_of_isAllBlank h, words_empty]
  · rw [or_iff_right fun hblank => h hblank.1, pieces_ne_nil_iff h]
    simp only [mem_pieces_iff h]
    apply and_congr_right
    intro _
    constructor
    · rintro hall piece ⟨hpiece, -⟩
      apply hall piece hpiece
    · intro hall piece hpiece token htoken
      -- A blank piece has no tokens.
      have hblank : ¬isAllBlank piece = true := by
        intro hblank
        rw [words_eq_nil_iff.mpr hblank] at htoken
        cases htoken
      apply hall piece ⟨hpiece, hblank⟩ token htoken

/-! ### Rules -/

theorem ofAlternative_eq_ok_iff {leftText alternative : String} {left : Grammemes}
    {weight : Float32} {rule : Rule} :
  Rule.ofAlternative leftText left weight alternative = .ok rule
    ↔ ∃ right, List.Forall₂ Pattern.Denotes (words alternative) right
      ∧ ⟨left, right, weight, leftText, alternative⟩ = rule
  := by
  have hdenotes (right : List Pattern) :
      (words alternative).mapM (Pattern.ofToken alternative) = .ok right
        ↔ List.Forall₂ Pattern.Denotes (words alternative) right := by
    rw [mapM_eq_ok_iff]
    apply forall₂_congr_of_mem
    intro token htoken p
    apply Pattern.ofToken_eq_ok_iff (not_isBlank_of_mem_words htoken).2
  simp only [Rule.ofAlternative, bind_eq_ok_iff, hdenotes]
  apply exists_congr
  intro right
  apply and_congr_right
  intro _
  constructor
  · rintro ⟨⟩
    rfl
  · rintro rfl
    rfl

theorem rules_of_not_isFinite {p : Production} (h : ¬p.weight.isFinite) :
  p.rules = .error (.invalidWeight p.weight)
  := by
  rw [rules, if_neg h]
  rfl

theorem rules_of_left_blank {p : Production} (hweight : p.weight.isFinite) (h : trim p.left = "") :
  p.rules = .error .emptyLeft
  := by
  simp only [rules, if_pos hweight, if_pos h]
  rfl

theorem rules_of_left {p : Production} (hweight : p.weight.isFinite) (h : trim p.left ≠ "") :
  p.rules = (do
    let left ← Grammemes.parse (trim p.left)
    let texts ← alternatives p.right
    texts.mapM (Rule.ofAlternative (trim p.left) left p.weight))
  := by
  simp only [rules, if_pos hweight, if_neg h]

/-- There is a set of the trimmed labels of the left-hand side. -/
theorem exists_left (p : Production) :
  ∃ left : Grammemes, ∀ label,
    label ∈ left ↔ ∃ part ∈ fields ',' (trim p.left), trim part = label
  := by
  use Grammemes.ofList ((fields ',' (trim p.left)).map trim)
  intro label
  rw [Grammemes.mem_ofList, List.mem_map]

/-- What the set of the left-hand side and the patterns of a piece make a rule that is written. -/
theorem writes_iff {p : Production} {left : Grammemes}
    (hleft : ∀ label, label ∈ left ↔ ∃ part ∈ fields ',' (trim p.left), trim part = label)
    {piece : String} {rule : Rule} :
  Rule.ofAlternative (trim p.left) left p.weight (trim piece) = .ok rule ↔ p.Writes piece rule
  := by
  rw [ofAlternative_eq_ok_iff, words_trim]
  constructor
  · rintro ⟨right, hright, rfl⟩
    exact ⟨hleft, hright, rfl, rfl, rfl⟩
  · rintro ⟨hmem, hright, hweight, hleftText, hrightText⟩
    use rule.right, hright
    obtain rfl : rule.left = left := by
      apply Grammemes.eq_of_mem_iff
      intro label
      rw [hmem, hleft]
    cases rule
    cases hweight
    cases hleftText
    cases hrightText
    rfl

/-- A production is accepted with the rules that it writes, one for each piece. -/
theorem rules_eq_ok_iff {p : Production} {rules : List Rule} :
  p.rules = .ok rules
    ↔ p.weight.isFinite ∧ (∀ part ∈ fields ',' (trim p.left), ¬isAllBlank part)
      ∧ p.pieces ≠ [] ∧ List.Forall₂ p.Writes p.pieces rules
  := by
  by_cases hweight : p.weight.isFinite = true
  · by_cases hempty : trim p.left = ""
    · rw [rules_of_left_blank hweight hempty, hempty]
      constructor
      · rintro ⟨⟩
      · rintro ⟨-, hparts, -⟩
        exact absurd isAllBlank_empty (hparts "" List.mem_cons_self)
    · rw [rules_of_left hweight hempty]
      simp only [bind_eq_ok_iff, alternatives_eq_ok_iff, Grammemes.parse_eq_ok_iff, mapM_eq_ok_iff]
      constructor
      · rintro ⟨left, ⟨hparts, hleft⟩, _, ⟨hpieces, rfl⟩, hrules⟩
        rw [List.forall₂_map_left_iff] at hrules
        simp only [writes_iff hleft] at hrules
        exact ⟨hweight, hparts, hpieces, hrules⟩
      · rintro ⟨-, hparts, hpieces, hrules⟩
        obtain ⟨left, hleft⟩ := p.exists_left
        use left, ⟨hparts, hleft⟩, p.pieces.map trim, ⟨hpieces, rfl⟩
        rw [List.forall₂_map_left_iff]
        simpa only [writes_iff hleft] using hrules
  · rw [rules_of_not_isFinite hweight]
    constructor
    · rintro ⟨⟩
    · rintro ⟨hfinite, -⟩
      contradiction

/-- Every rule of an accepted production is written by one of the pieces. -/
theorem exists_writes_of_mem {p : Production} {rules : List Rule} (hrules : p.rules = .ok rules)
    {rule : Rule} (h : rule ∈ rules) :
  ∃ piece ∈ p.pieces, p.Writes piece rule
  := by
  obtain ⟨-, -, -, hwrites⟩ := rules_eq_ok_iff.mp hrules
  apply exists_of_forall₂_of_mem hwrites h

/-- A piece writes a rule exactly when its tokens are well formed. -/
theorem exists_writes_iff {p : Production} {piece : String} :
  (∃ rule, p.Writes piece rule) ↔ ∀ token ∈ words piece, Pattern.WellFormed token
  := by
  simp only [← Pattern.exists_denotes_iff, ← exists_forall₂_iff]
  constructor
  · rintro ⟨rule, hwrites⟩
    use rule.right, hwrites.right
  · rintro ⟨right, hright⟩
    obtain ⟨left, hleft⟩ := p.exists_left
    use ⟨left, right, p.weight, trim p.left, trim piece⟩
    exact ⟨hleft, hright, rfl, rfl, rfl⟩

/-- A production is accepted exactly when it is well formed. -/
theorem exists_rules_iff {p : Production} :
  (∃ rules, p.rules = .ok rules) ↔ p.WellFormed
  := by
  simp only [rules_eq_ok_iff, exists_and_left, exists_forall₂_iff, exists_writes_iff]
  rw [← right_wellFormed_iff]
  constructor
  · rintro ⟨hweight, hleft, hright⟩
    exact ⟨hweight, hleft, hright⟩
  · rintro ⟨hweight, hleft, hright⟩
    exact ⟨hweight, hleft, hright⟩

/-! ### What is written -/

section

variable {p : Production} {piece : String} {rule : Rule} (h : p.Writes piece rule)
include h

/-- A written rule has an arity of zero exactly when its piece is blank. -/
theorem Writes.arity_eq_zero_iff :
  rule.arity = 0 ↔ isAllBlank piece
  := by
  rw [Rule.arity, ← h.right.length_eq, List.length_eq_zero_iff, words_eq_nil_iff]

/-- A list of labels in a written rule is not empty, and holds no empty label. -/
theorem Writes.labels_ne_nil {required : Grammemes} (hmem : .tags required ∈ rule.right) :
  required.labels ≠ [] ∧ "" ∉ required
  := by
  obtain ⟨token, -, hdenotes⟩ := exists_of_forall₂_of_mem h.right hmem
  cases hdenotes with
  | tags _ hlabels hrequired =>
    constructor
    · apply Grammemes.Listed.labels_ne_nil ⟨hlabels, hrequired⟩
    · intro hempty
      apply hlabels "" ((hrequired "").mp hempty) rfl

end

/-- The pieces are blank exactly when the right-hand side is. -/
theorem isAllBlank_piece_iff {p : Production} {piece : String} (h : piece ∈ p.pieces) :
  isAllBlank piece ↔ isAllBlank p.right
  := by
  by_cases hright : isAllBlank p.right = true
  · rw [pieces_of_isAllBlank hright, List.mem_singleton] at h
    rw [h]
    simp [hright, isAllBlank_empty]
  · simp [((mem_pieces_iff hright).mp h).2, hright]

end Production

namespace Grammar

theorem add_eq_ok_iff {g grown : Grammar} {p : Production} :
  g.add p = .ok grown ↔ ∃ rules, p.rules = .ok rules ∧ rules.foldl push g = grown
  := map_eq_ok_iff

/-- Whether a production is accepted does not depend on the grammar. -/
theorem exists_add_iff {g : Grammar} {p : Production} :
  (∃ grown, g.add p = .ok grown) ↔ ∃ rules, p.rules = .ok rules
  := by
  simp only [add_eq_ok_iff]
  constructor
  · rintro ⟨_, rules, hrules, -⟩
    use rules
  · rintro ⟨rules, hrules⟩
    exact ⟨_, rules, hrules, rfl⟩

/-- A production adds a single rule exactly when it writes this rule alone. -/
theorem add_eq_ok_push_iff {g : Grammar} {p : Production} {rule : Rule} :
  g.add p = .ok (g.push rule) ↔ p.rules = .ok [rule]
  := by
  rw [add_eq_ok_iff]
  constructor
  · rintro ⟨rules, hrules, hgrown⟩
    have hlist := congrArg (fun grown => grown.rules.toList) hgrown
    simp only [toList_rules_foldl_push, push, Array.toList_push] at hlist
    rw [hrules, List.append_cancel_left hlist]
  · intro hrules
    use [rule], hrules
    rfl

/-- Exactly the well-formed productions are accepted.  An accepted production adds the rules that it
writes, in order: one rule of positive arity for each piece of the right-hand side that is not
blank, or one rule of arity zero for a blank right-hand side. -/
theorem add_accepts_iff_wellFormed (g : Grammar) (p : Production) :
  ((∃ grown, g.add p = .ok grown) ↔ p.WellFormed)
    ∧ ∀ grown, g.add p = .ok grown → ∃ rules,
      grown = rules.foldl push g
        ∧ grown.rules.toList = g.rules.toList ++ rules
        ∧ List.Forall₂ p.Writes p.pieces rules
        ∧ (∀ rule ∈ rules, rule.arity = 0 ↔ isAllBlank p.right)
        ∧ ∀ rule ∈ rules, ∀ required, .tags required ∈ rule.right →
          required.labels ≠ [] ∧ "" ∉ required
  := by
  constructor
  · rw [exists_add_iff, Production.exists_rules_iff]
  · intro grown hgrown
    obtain ⟨rules, hrules, rfl⟩ := add_eq_ok_iff.mp hgrown
    obtain ⟨-, -, -, hwrites⟩ := Production.rules_eq_ok_iff.mp hrules
    use rules, rfl
    constructor
    · apply toList_rules_foldl_push
    constructor
    · apply hwrites
    constructor
    · intro rule hrule
      obtain ⟨piece, hpiece, hrule⟩ := exists_of_forall₂_of_mem hwrites hrule
      rw [hrule.arity_eq_zero_iff, Production.isAllBlank_piece_iff hpiece]
    · intro rule hrule required hrequired
      obtain ⟨piece, hpiece, hrule⟩ := exists_of_forall₂_of_mem hwrites hrule
      apply hrule.labels_ne_nil hrequired

end Grammar

end Chunking
