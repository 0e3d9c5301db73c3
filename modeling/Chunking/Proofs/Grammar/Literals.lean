import Chunking.Proofs.Grammar.Productions

/-!
# Literal words

A word is written in a grammar between two equal quotes.  Bars end alternatives between quotes as
they do elsewhere, so that a word can be written exactly when it holds no bar.  All other characters
but blanks may stand in it, quotes, commas and arrows included.
-/

namespace Chunking

open Text

namespace Production

/-- The production with a word between two quotes as its right-hand side. -/
def literal (left : String) (quote : Char) (word : String) (weight : Float32) : Production :=
  ⟨left, String.singleton quote ++ word ++ String.singleton quote, weight⟩

/-! ### Words that are written -/

/-- A literal stands in its piece, is not empty and holds no blank. -/
theorem Writes.word {p : Production} {piece text : String} {rule : Rule} (h : p.Writes piece rule)
    (hmem : .word text ∈ rule.right) :
  text ≠ "" ∧ text.toList <:+: piece.toList ∧ ∀ c ∈ text.toList, isBlank c = false
  := by
  obtain ⟨token, htoken, hdenotes⟩ := exists_of_forall₂_of_mem h.right hmem
  cases hdenotes with
  | @word quote text hquote hne =>
    have hinside : text <:+: quote :: (text ++ [quote]) := ⟨[quote], [quote], rfl⟩
    have hword := isInfix_of_mem_words htoken
    have hblank := (not_isBlank_of_mem_words htoken).2
    rw [String.toList_ofList] at hword hblank
    rw [String.toList_ofList]
    constructor
    · simpa using hne
    constructor
    · apply hinside.trans hword
    · intro c hc
      apply hblank c (hinside.mem hc)

/-- No literal of an accepted production holds a bar. -/
theorem bar_not_mem_word {p : Production} {rules : List Rule} (hrules : p.rules = .ok rules)
    {rule : Rule} (hrule : rule ∈ rules) {text : String} (hmem : .word text ∈ rule.right) :
  '|' ∉ text.toList
  := by
  obtain ⟨piece, hpiece, hwrites⟩ := exists_writes_of_mem hrules hrule
  intro hbar
  apply bar_not_mem_of_mem_pieces hpiece ((hwrites.word hmem).2.1.mem hbar)

/-! ### Writing a word -/

section

variable (left : String) (weight : Float32) {word : String} {quote : Char}

theorem toList_right_literal :
  (literal left quote word weight).right.toList = quote :: (word.toList ++ [quote])
  := by
  simp [literal]

/-- A quote is neither a blank nor a bar. -/
theorem not_isBlank_of_isQuote (h : Pattern.isQuote quote) :
  isBlank quote = false ∧ quote ≠ '|'
  := by
  have heq : quote = '\x27' ∨ quote = '"' := by simpa [Pattern.isQuote] using h
  rcases heq with rfl | rfl
  · decide
  · decide

variable (hquote : Pattern.isQuote quote)
include hquote

theorem not_isAllBlank_right_literal :
  ¬isAllBlank (literal left quote word weight).right
  := by
  intro hall
  have hblank := isAllBlank_iff.mp hall quote (by simp [toList_right_literal])
  rw [(not_isBlank_of_isQuote hquote).1] at hblank
  cases hblank

theorem pieces_literal (hbar : '|' ∉ word.toList) :
  (literal left quote word weight).pieces = [(literal left quote word weight).right]
  := by
  have hnone : '|' ∉ (literal left quote word weight).right.toList := by
    simp [toList_right_literal, hbar, (not_isBlank_of_isQuote hquote).2.symm]
  apply pieces_eq_singleton hnone
  right
  apply not_isAllBlank_right_literal left weight hquote

theorem denotes_right_literal (hne : word ≠ "") :
  Pattern.Denotes (literal left quote word weight).right (.word word)
  := Pattern.Denotes.of_toList_eq hquote hne (toList_right_literal left weight)

theorem words_right_literal (hblank : ∀ c ∈ word.toList, isBlank c = false) :
  words (literal left quote word weight).right = [(literal left quote word weight).right]
  := by
  have hends := (not_isBlank_of_isQuote hquote).1
  apply words_eq_singleton
  · rw [ne_eq, ← String.toList_eq_nil_iff, toList_right_literal]
    apply List.cons_ne_nil
  · simpa [toList_right_literal, hends, or_imp, forall_and] using hblank

/-- A word between quotes is written as a literal of its own. -/
theorem exists_writes_literal (hne : word ≠ "") (hblank : ∀ c ∈ word.toList, isBlank c = false) :
  ∃ rule, (literal left quote word weight).Writes (literal left quote word weight).right rule
    ∧ rule.right = [.word word]
  := by
  obtain ⟨labels, hlabels⟩ := (literal left quote word weight).exists_left
  use ⟨labels, [.word word], weight, trim left, trim (literal left quote word weight).right⟩
  refine ⟨⟨hlabels, ?_, rfl, rfl, rfl⟩, rfl⟩
  rw [words_right_literal left weight hquote hblank]
  apply List.Forall₂.cons (denotes_right_literal left weight hquote hne) .nil

end

end Production

/-- A rule of a single literal fits a sequence exactly when the first node has this surface word. -/
theorem Rule.fits_iff_of_right_eq_word {rule : Rule} {word : String} (h : rule.right = [.word word])
    (nodes : List Chunk) :
  rule.fits nodes ↔ ∃ node, nodes.head? = some node ∧ node.word = some word
  := by
  cases nodes with
  | nil => simp [fits, arity, h]
  | cons node rest =>
    simp [fits, arity, h, Pattern.allMet, Constituent.meets, Chunk.meets]

namespace Grammar

/-- A word that is not empty and holds no blank, between quotes of either kind, is the right-hand
side of an accepted production with any left-hand side that can be read and any finite weight,
exactly when it holds no bar.  The production then adds one rule, whose only pattern is the word,
and which fits the sequences whose first node has this surface word.  No production at all writes a
word with a bar. -/
theorem add_literal_iff (g : Grammar) (left word : String) (quote : Char) (weight : Float32)
    (hweight : weight.isFinite) (hleft : ∀ part ∈ fields ',' (trim left), ¬isAllBlank part)
    (hquote : Pattern.isQuote quote) (hne : word ≠ "")
    (hblank : ∀ c ∈ word.toList, isBlank c = false) :
  ((∃ rule, g.add (.literal left quote word weight) = .ok (g.push rule)
      ∧ rule.right = [.word word] ∧ rule.arity = 1
      ∧ (∀ label, label ∈ rule.left ↔ ∃ part ∈ fields ',' (trim left), trim part = label)
      ∧ rule.weight = weight
      ∧ ∀ nodes : List Chunk,
        rule.fits nodes ↔ ∃ node, nodes.head? = some node ∧ node.word = some word)
    ↔ '|' ∉ word.toList)
    ∧ ∀ p : Production, ∀ rules, p.rules = .ok rules →
      ∀ rule ∈ rules, .word word ∈ rule.right → '|' ∉ word.toList
  := by
  constructor
  · simp only [add_eq_ok_push_iff]
    constructor
    · rintro ⟨rule, hrules, hright, -⟩
      apply Production.bar_not_mem_word hrules List.mem_cons_self
      rw [hright]
      apply List.mem_cons_self
    · intro hbar
      obtain ⟨rule, hwrites, hright⟩ :=
        Production.exists_writes_literal left weight hquote hne hblank
      use rule
      constructor
      · rw [Production.rules_eq_ok_iff, Production.pieces_literal left weight hquote hbar]
        exact ⟨hweight, hleft, List.cons_ne_nil _ _, .cons hwrites .nil⟩
      constructor
      · apply hright
      constructor
      · rw [Rule.arity, hright]
        rfl
      constructor
      · apply hwrites.mem_left_iff
      constructor
      · apply hwrites.weight_eq
      · apply Rule.fits_iff_of_right_eq_word hright
  · intro p rules hrules rule hrule
    apply Production.bar_not_mem_word hrules hrule

/-- Quotes, commas and an arrow may stand in a word. -/
theorem add_literal_of_metacharacters :
  ∃ rule, empty.add (.literal "NP,sing" '\x27' "it's->,\"" 0.5) = .ok (empty.push rule)
    ∧ rule.right = [.word "it's->,\""]
    ∧ ∀ nodes : List Chunk,
      rule.fits nodes ↔ ∃ node, nodes.head? = some node ∧ node.word = some "it's->,\""
  := by
  have hblank : ∀ c ∈ "it's->,\"".toList, isBlank c = false := by
    have hall : "it's->,\"".toList.all fun c => !isBlank c := by decide +kernel
    simpa only [List.all_eq_true, Bool.not_eq_true'] using hall
  obtain ⟨hiff, -⟩ := add_literal_iff empty "NP,sing" "it's->,\"" '\x27' 0.5 (by decide +kernel)
    (by decide +kernel) (by decide) (by decide) hblank
  obtain ⟨rule, hadd, hright, -, -, -, hfits⟩ := hiff.mpr (by decide +kernel)
  exact ⟨rule, hadd, hright, hfits⟩

/-- A bar within a word is taken for the end of an alternative. -/
theorem offer_literal_bar :
  Pattern.isQuote '\x27' ∧ "a|b" ≠ "" ∧ "a|b".toList.all (fun c => !isBlank c)
    ∧ (1.0 : Float32).isFinite ∧ (fields ',' (trim "X")).all (fun part => !isAllBlank part)
    ∧ (empty.offer (.literal "X" '\x27' "a|b" 1.0)).2
      = some (.unbalancedQuote "'a" "'a")
  := by
  decide +kernel

end Grammar

end Chunking
