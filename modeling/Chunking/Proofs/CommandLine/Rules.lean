import Chunking.CommandLine.Run
import Chunking.Proofs.Grammar.Productions
import Chunking.Proofs.Text.Cut

/-!
# Rules given as arguments

The text of a rule has the form in which productions are given as arguments.  When the left-hand
side of a rule holds no arrow, the rule is restored from its text: the text is cut at the arrow
between the two sides, and the production of the two sides writes this rule and no other one.  An
arrow in the left-hand side makes the cut fall within it, and the rule is not restored.
-/

namespace Chunking

open Text

/-! ### The production of a rule -/

namespace Production

/-- The production whose sides are the texts of a rule. -/
def ofRule (rule : Rule) : Production :=
  ⟨rule.leftText, rule.rightText, rule.weight⟩

/-- A piece without the blanks around it is a single piece. -/
theorem pieces_eq_singleton_trim {p q : Production} {piece : String} (hpiece : piece ∈ p.pieces)
    (hright : q.right = trim piece) :
  q.pieces = [trim piece]
  := by
  have hbar : '|' ∉ q.right.toList := by
    rw [hright, toList_trim]
    intro hmem
    apply bar_not_mem_of_mem_pieces hpiece ((isInfix_trimmed piece.toList).mem hmem)
  rw [← hright]
  apply pieces_eq_singleton hbar
  by_cases hblank : isAllBlank piece = true
  · left
    rw [hright, trim_eq_empty_iff]
    apply hblank
  · right
    rw [hright, ← words_eq_nil_iff, words_trim, words_eq_nil_iff]
    apply hblank

variable {p : Production} {piece : String} {rule : Rule}

theorem Writes.trim_leftText (h : p.Writes piece rule) :
  trim rule.leftText = rule.leftText
  := by
  rw [h.leftText_eq, trim_trim]

theorem Writes.trim_rightText (h : p.Writes piece rule) :
  trim rule.rightText = rule.rightText
  := by
  rw [h.rightText_eq, trim_trim]

/-- A rule is written by its own texts. -/
theorem Writes.ofRule (h : p.Writes piece rule) :
  (ofRule rule).Writes (trim piece) rule
  := by
  constructor
  · intro label
    rw [h.mem_left_iff, ← h.leftText_eq, ← h.trim_leftText]
    rfl
  · rw [words_trim]
    apply h.right
  · rfl
  · apply h.trim_leftText.symm
  · rw [trim_trim, h.rightText_eq]

/-- The texts of a rule of a production are a production with this rule alone. -/
theorem rules_ofRule {rules : List Rule} (hrules : p.rules = .ok rules) (h : rule ∈ rules) :
  (ofRule rule).rules = .ok [rule]
  := by
  obtain ⟨hweight, hleft, -⟩ := rules_eq_ok_iff.mp hrules
  obtain ⟨piece, hpiece, hrule⟩ := exists_writes_of_mem hrules h
  have hpieces : (ofRule rule).pieces = [trim piece] :=
    pieces_eq_singleton_trim hpiece hrule.rightText_eq
  rw [rules_eq_ok_iff, hpieces]
  constructor
  · rw [ofRule, hrule.weight_eq]
    apply hweight
  constructor
  · rw [ofRule, hrule.trim_leftText, hrule.leftText_eq]
    apply hleft
  constructor
  · simp
  · apply List.Forall₂.cons hrule.ofRule .nil

end Production

theorem Grammar.empty_add_eq_ok_iff {p : Production} {rule : Rule} :
  empty.add p = .ok (empty.push rule) ↔ p.rules = .ok [rule]
  := add_eq_ok_push_iff

namespace CommandLine

/-! ### The arrow -/

/-- A text that holds an arrow. -/
def HoldsArrow (s : String) : Prop :=
  "->".toList <:+: s.toList

/-- An arrow is completed by its second character only. -/
theorem arrow_infix_concat_iff {c : Char} (hc : c ≠ '>') (cs : List Char) :
  "->".toList <:+: cs ++ [c] ↔ "->".toList <:+: cs
  := by
  rw [List.infix_concat_iff, or_iff_right]
  rintro ⟨before, heq⟩
  have hlast := congrArg List.getLast? heq
  simp [hc.symm] at hlast

theorem holdsArrow_append_space (s : String) :
  HoldsArrow (s ++ " ") ↔ HoldsArrow s
  := by
  rw [HoldsArrow, String.toList_append]
  apply arrow_infix_concat_iff (by decide)

theorem holdsArrow_of_trim {s : String} (h : HoldsArrow (trim s)) :
  HoldsArrow s
  := by
  rw [HoldsArrow, toList_trim] at h
  apply h.trans (isInfix_trimmed s.toList)

/-- A text is cut around the first arrow. -/
theorem cutFirst_arrow_eq_some_iff {text before after : String} :
  cutFirst "->" text = some (before, after)
    ↔ before.toList ++ "->".toList ++ after.toList = text.toList ∧ ¬HoldsArrow before
  := by
  have hdash : "->".toList <:+: before.toList ++ ['-'] ↔ HoldsArrow before :=
    arrow_infix_concat_iff (by decide) before.toList
  rw [cutFirst_eq_some_iff (by decide), ← hdash]
  rfl

/-- The sides of a production are the texts around the first arrow, without the blanks around
them. -/
theorem readRule_eq_ok_iff {text left right : String} :
  readRule text = .ok (left, right)
    ↔ ∃ before after, cutFirst "->" text = some (before, after)
      ∧ trim before = left ∧ trim after = right
  := by
  rw [readRule]
  split
  next before after hcut => simp [hcut]
  next hcut => simp [hcut]

/-- A text is read as a production exactly when it holds an arrow. -/
theorem exists_readRule_iff {text : String} :
  (∃ left right, readRule text = .ok (left, right)) ↔ HoldsArrow text
  := by
  have hnone : cutFirst "->" text = none ↔ ¬HoldsArrow text := cutFirst_eq_none_iff (by decide)
  rw [← not_iff_not, ← hnone, readRule]
  split
  next before after hcut => simp [hcut]
  next hcut => simp [hcut]

/-- The left-hand side of a production that is read holds no arrow. -/
theorem not_holdsArrow_of_readRule {text left right : String}
    (h : readRule text = .ok (left, right)) :
  ¬HoldsArrow left
  := by
  obtain ⟨before, after, hcut, rfl, -⟩ := readRule_eq_ok_iff.mp h
  intro harrow
  apply (cutFirst_arrow_eq_some_iff.mp hcut).2 (holdsArrow_of_trim harrow)

/-! ### Rules and their texts -/

theorem toList_display (rule : Rule) :
  rule.display.toList
    = (rule.leftText.toList ++ [' ']) ++ "->".toList ++ (' ' :: rule.rightText.toList)
  := by
  simp [Rule.display]

theorem holdsArrow_display (rule : Rule) :
  HoldsArrow rule.display
  := by
  rw [HoldsArrow, toList_display]
  apply List.infix_append

/-- The text of a rule is read as the texts of its sides, when these have no blanks around them and
the left one holds no arrow. -/
theorem readRule_display {rule : Rule} (hleft : trim rule.leftText = rule.leftText)
    (hright : trim rule.rightText = rule.rightText) (harrow : ¬HoldsArrow rule.leftText) :
  readRule rule.display = .ok (rule.leftText, rule.rightText)
  := by
  rw [readRule_eq_ok_iff]
  use rule.leftText ++ " ", " " ++ rule.rightText
  constructor
  · rw [cutFirst_arrow_eq_some_iff, toList_display, holdsArrow_append_space]
    constructor
    · simp
    · apply harrow
  constructor
  · rw [trim_append_space, hleft]
  · rw [trim_space_append, hright]

variable {p : Production} {rules : List Rule} {rule : Rule} {text left right : String}

/-- The rules of a production that was read have no arrow in their left-hand sides. -/
theorem not_holdsArrow_leftText {weight : Float32} (hread : readRule text = .ok (left, right))
    (hrules : Production.rules ⟨left, right, weight⟩ = .ok rules) (h : rule ∈ rules) :
  ¬HoldsArrow rule.leftText
  := by
  obtain ⟨piece, -, hrule⟩ := Production.exists_writes_of_mem hrules h
  rw [hrule.leftText_eq]
  intro harrow
  apply not_holdsArrow_of_readRule hread (holdsArrow_of_trim harrow)

/-- The text of a rule without an arrow in its left-hand side is read as its two texts. -/
theorem readRule_display_of_mem (hrules : p.rules = .ok rules) (h : rule ∈ rules)
    (harrow : ¬HoldsArrow rule.leftText) :
  readRule rule.display = .ok (rule.leftText, rule.rightText)
  := by
  obtain ⟨piece, -, hrule⟩ := Production.exists_writes_of_mem hrules h
  apply readRule_display hrule.trim_leftText hrule.trim_rightText harrow

/-- The production that the text of a rule is read as has this rule alone exactly when the left-hand
side of the rule holds no arrow. -/
theorem rules_readRule_display_iff (hrules : p.rules = .ok rules) (h : rule ∈ rules)
    (hread : readRule rule.display = .ok (left, right)) :
  Production.rules ⟨left, right, rule.weight⟩ = .ok [rule] ↔ ¬HoldsArrow rule.leftText
  := by
  constructor
  · intro hrestored
    apply not_holdsArrow_leftText hread hrestored List.mem_cons_self
  · intro harrow
    rw [readRule_display_of_mem hrules h harrow] at hread
    obtain ⟨rfl, rfl⟩ : rule.leftText = left ∧ rule.rightText = right := by simpa using hread
    apply Production.rules_ofRule hrules h

/-- The grammar of a run with a single production and without the demonstration grammar. -/
theorem exists_settings_of_readRule {g : Grammar} (hread : readRule text = .ok (left, right))
    (hadd : Grammar.empty.add ⟨left, right, 1.0⟩ = .ok g) (hne : ¬g.isEmpty) :
  ∃ s, Request.ofArguments {} ["--no-demo", "--rule", text] = .ok (.report s)
    ∧ s.grammar = .ok g
  := by
  have hnoDemo : Argument.ofText "--no-demo" = .item .noDemo := rfl
  have hrule : Argument.ofText "--rule" = .awaiting .rule := rfl
  use { demo := false, productions := [(left, right)] }
  constructor
  · simp [Request.ofArguments, hnoDemo, hrule, Settings.apply, hread, Except.map, bind, Except.bind]
  · simp [Settings.grammar, hadd, hne, Except.mapError, bind, Except.bind, pure, Except.pure]

/-- A rule is restored from its text exactly when its left-hand side holds no arrow: the text is
always read as a production, and in that case it adds this rule and no other one to the grammar
without rules.  Rules that were given as an argument have no arrow in their left-hand side, so that
their texts can be given as arguments again. -/
theorem restored_from_display_iff (ps : List Production) :
  (∀ rule ∈ (Grammar.grown ps).rules,
    ∃ left right, readRule rule.display = .ok (left, right)
      ∧ (Grammar.empty.add ⟨left, right, rule.weight⟩ = .ok (Grammar.empty.push rule)
        ↔ ¬HoldsArrow rule.leftText))
    ∧ ∀ text left right g, readRule text = .ok (left, right) →
      Grammar.empty.add { left := left, right := right } = .ok g →
      ∀ rule ∈ g.rules,
        ∃ s, Request.ofArguments {} ["--no-demo", "--rule", rule.display] = .ok (.report s)
          ∧ s.grammar = .ok (Grammar.empty.push rule)
  := by
  constructor
  · intro rule hrule
    obtain ⟨p, -, rules, hrules, hmem⟩ := Grammar.exists_rules_of_mem_grown hrule
    obtain ⟨left, right, hread⟩ := exists_readRule_iff.mpr (holdsArrow_display rule)
    use left, right, hread
    rw [Grammar.empty_add_eq_ok_iff, rules_readRule_display_iff hrules hmem hread]
  · intro text left right g hread hadd rule hrule
    obtain ⟨rules, hrules, rfl⟩ := Grammar.add_eq_ok_iff.mp hadd
    have hmem : rule ∈ rules := by
      rw [← Array.mem_toList_iff, Grammar.toList_rules_foldl_push] at hrule
      simpa [Grammar.empty] using hrule
    have harrow := not_holdsArrow_leftText hread hrules hmem
    obtain ⟨piece, -, hwritten⟩ := Production.exists_writes_of_mem hrules hmem
    have hweight : rule.weight = 1.0 := hwritten.weight_eq
    apply exists_settings_of_readRule (readRule_display_of_mem hrules hmem harrow)
    · rw [Grammar.empty_add_eq_ok_iff, ← hweight]
      apply Production.rules_ofRule hrules hmem
    · simp [Grammar.isEmpty, Grammar.push]

/-- The arrow in a quoted word belongs to the right-hand side. -/
theorem restored_from_display_quoted_arrow :
  ∃ rule s, rule.display = "X -> 'a->b' N"
    ∧ Request.ofArguments {} ["--no-demo", "--rule", rule.display] = .ok (.report s)
    ∧ s.grammar = .ok (Grammar.empty.push rule)
  := by
  have hread : readRule "X->'a->b' N|" = .ok ("X", "'a->b' N|") := rfl
  have hrules : (Grammar.empty.add { left := "X", right := "'a->b' N|" }).toOption.map
      (fun g => g.rules.toList.map Rule.display) = some ["X -> 'a->b' N"] := by
    decide +kernel
  cases hadd : Grammar.empty.add { left := "X", right := "'a->b' N|" } with
  | error cause =>
    rw [hadd] at hrules
    cases hrules
  | ok g =>
    rw [hadd] at hrules
    have hdisplays : g.rules.toList.map Rule.display = ["X -> 'a->b' N"] := Option.some.inj hrules
    obtain ⟨rule, hrule, hdisplay⟩ : ∃ rule ∈ g.rules.toList, rule.display = "X -> 'a->b' N" := by
      apply List.mem_map.mp
      rw [hdisplays]
      apply List.mem_cons_self
    obtain ⟨s, hs⟩ := (restored_from_display_iff []).2 _ _ _ g hread hadd rule
      (Array.mem_toList_iff.mp hrule)
    use rule, s, hdisplay, hs.1, hs.2

end CommandLine

end Chunking
