import Chunking.Proofs.Grammar.Literals
import Chunking.Proofs.Text.Words

/-!
# Texts of patterns

The text of a pattern is a token without blanks and bars.  A literal is read back from its text, and
so is a set of grammemes whose text neither begins nor ends with a quote.  In the text of a set the
labels stand in ascending order, so that a label with a quote may come to stand at an end, whatever
token the set was read from.  Then the text is read as a literal or refused.
-/

namespace Chunking

open Text

namespace Pattern

/-! ### Patterns of tokens -/

/-- A character that can stand in a token: neither a blank nor the bar. -/
def IsPlain (c : Char) : Prop :=
  isBlank c = false ∧ c ≠ '|'

/-- The patterns for which there are tokens. -/
inductive Writable : Pattern → Prop where
  | word {text : String} (hne : text ≠ "") (htext : ∀ c ∈ text.toList, IsPlain c) :
    Writable (.word text)
  | tags {list : String} {required : Grammemes} (hlist : required.Listed list)
    (hplain : ∀ c ∈ list.toList, IsPlain c) :
    Writable (.tags required)

/-- A set of grammemes whose text begins or ends with a quote. -/
inductive EdgeQuoted : Pattern → Prop where
  | tags {required : Grammemes} (h : Quoted required.display.toList) : EdgeQuoted (.tags required)

theorem edgeQuoted_tags_iff {required : Grammemes} :
  EdgeQuoted (.tags required) ↔ Quoted required.display.toList
  := by
  constructor
  · rintro ⟨h⟩
    apply h
  · apply EdgeQuoted.tags

theorem not_edgeQuoted_word (text : String) :
  ¬EdgeQuoted (.word text)
  := by
  rintro ⟨⟩

instance (p : Pattern) : Decidable p.EdgeQuoted :=
  match p with
  | word text => isFalse (not_edgeQuoted_word text)
  | tags required => decidable_of_iff (touchesQuote required.display.toList = true)
    (touchesQuote_iff.trans edgeQuoted_tags_iff.symm)

theorem Denotes.writable {token : String} {p : Pattern} (h : Denotes token p)
    (htoken : ∀ c ∈ token.toList, IsPlain c) :
  Writable p
  := by
  cases h with
  | @word quote text _ hne =>
    apply Writable.word
    · simpa using hne
    · intro c hc
      apply htoken
      rw [String.toList_ofList] at hc ⊢
      apply List.mem_cons_of_mem
      apply List.mem_append_left _ hc
  | tags _ hlabels hrequired => apply Writable.tags ⟨hlabels, hrequired⟩ htoken

/-! ### Reading a text back -/

theorem toList_display_word (text : String) :
  (word text).display.toList = '\x27' :: (text.toList ++ ['\x27'])
  := by
  simp [display]

section

variable {p : Pattern} (h : Writable p)
include h

/-- The text of a pattern has no blanks and no bars. -/
theorem Writable.isPlain_of_mem_display {c : Char} (hc : c ∈ p.display.toList) :
  IsPlain c
  := by
  cases h with
  | word _ htext =>
    have hquote : IsPlain '\x27' := Production.not_isBlank_of_isQuote rfl
    rw [toList_display_word, List.mem_cons, List.mem_append, List.mem_singleton] at hc
    rcases hc with rfl | hc | rfl
    · apply hquote
    · apply htext c hc
    · apply hquote
  | tags hlist hplain =>
    rcases hlist.mem_of_mem_display hc with rfl | hc
    · exact ⟨by decide, by decide⟩
    · apply hplain c hc

theorem Writable.display_ne_empty :
  p.display ≠ ""
  := by
  intro hempty
  cases h with
  | word _ _ =>
    rw [← String.toList_inj, toList_display_word] at hempty
    cases hempty
  | tags hlist _ =>
    -- The only field of the empty text is empty.
    rw [display] at hempty
    apply hlist.display.1 "" _ rfl
    rw [hempty]
    apply List.mem_cons_self

/-- A pattern is read back from its text, unless it is a set whose text has a quote at an end. -/
theorem Writable.denotes_display (hedge : ¬EdgeQuoted p) :
  Denotes p.display p
  := by
  cases h with
  | @word text hne _ =>
    have hquote : isQuote '\x27' := rfl
    apply Denotes.of_toList_eq hquote hne (toList_display_word text)
  | tags hlist _ =>
    rw [edgeQuoted_tags_iff] at hedge
    apply Denotes.tags hedge hlist.display.1 hlist.display.2

end

/-- A text with a quote at an end is read as a literal at best. -/
theorem EdgeQuoted.exists_eq_word {p q : Pattern} (h : EdgeQuoted p) (hq : Denotes p.display q) :
  ∃ text, q = .word text
  := by
  obtain ⟨hquoted⟩ := h
  obtain ⟨text, -, -, hword⟩ := (denotes_iff_of_quoted hquoted).mp hq
  use String.ofList text

/-- Patterns are read back from their texts, one by one, exactly when none of them is a set whose
text has a quote at an end. -/
theorem forall₂_denotes_display_iff {ps : List Pattern} (h : ∀ p ∈ ps, Writable p) :
  List.Forall₂ Denotes (ps.map display) ps ↔ ∀ p ∈ ps, ¬EdgeQuoted p
  := by
  rw [List.forall₂_map_left_iff, List.forall₂_same]
  apply forall₂_congr
  intro p hp
  constructor
  · intro hdenotes hedge
    obtain ⟨text, rfl⟩ := hedge.exists_eq_word hdenotes
    apply not_edgeQuoted_word text hedge
  · apply (h p hp).denotes_display

end Pattern

/-! ### Texts of rules -/

/-- The texts of the patterns of a rule, with single spaces between them. -/
def Rule.patternsText (rule : Rule) : String :=
  String.intercalate " " (rule.right.map Pattern.display)

/-- There are tokens for the patterns of the rules of a grammar. -/
theorem Grammar.writable_of_mem_grown {ps : List Production} {rule : Rule}
    (hrule : rule ∈ (grown ps).rules) :
  ∀ p ∈ rule.right, p.Writable
  := by
  intro p hp
  obtain ⟨production, -, rules, hrules, hmem⟩ := exists_rules_of_mem_grown hrule
  obtain ⟨piece, hpiece, hwrites⟩ := Production.exists_writes_of_mem hrules hmem
  obtain ⟨token, htoken, hdenotes⟩ := exists_of_forall₂_of_mem hwrites.right hp
  apply hdenotes.writable
  intro c hc
  constructor
  · apply (not_isBlank_of_mem_words htoken).2 c hc
  · rintro rfl
    apply Production.bar_not_mem_of_mem_pieces hpiece ((isInfix_of_mem_words htoken).mem hc)

namespace Production

section

variable {rule : Rule} (h : ∀ p ∈ rule.right, p.Writable)
include h

theorem words_patternsText :
  words rule.patternsText = rule.right.map Pattern.display
  := by
  apply words_intercalate
  intro text htext
  obtain ⟨p, hp, rfl⟩ := List.mem_map.mp htext
  constructor
  · apply (h p hp).display_ne_empty
  · intro c hc
    apply ((h p hp).isPlain_of_mem_display hc).1

theorem bar_not_mem_patternsText :
  '|' ∉ rule.patternsText.toList
  := by
  intro hbar
  rcases mem_of_mem_intercalate hbar with hspace | ⟨text, htext, hbar⟩
  · revert hspace
    decide
  · obtain ⟨p, hp, rfl⟩ := List.mem_map.mp htext
    exact ((h p hp).isPlain_of_mem_display hbar).2 rfl

/-- The text of a rule with patterns is not blank. -/
theorem pieces_patternsText (left : String) (weight : Float32) :
  pieces ⟨left, rule.patternsText, weight⟩ = [rule.patternsText]
  := by
  apply pieces_eq_singleton (bar_not_mem_patternsText h)
  by_cases hblank : isAllBlank rule.patternsText = true
  · left
    have hright := words_patternsText h
    rw [words_eq_nil_iff.mpr hblank, eq_comm, List.map_eq_nil_iff] at hright
    rw [Rule.patternsText, hright]
    rfl
  · right
    apply hblank

/-- The text of the patterns of a rule is a single alternative, whose tokens are the texts of the
patterns. -/
theorem rules_patternsText {left : String} {weight : Float32} (hweight : weight.isFinite)
    (hleft : ∀ part ∈ fields ',' (trim left), ¬isAllBlank part) {rules : List Rule} :
  (⟨left, rule.patternsText, weight⟩ : Production).rules = .ok rules
    ↔ ∃ restored, Writes ⟨left, rule.patternsText, weight⟩ rule.patternsText restored
      ∧ [restored] = rules
  := by
  rw [rules_eq_ok_iff, pieces_patternsText h]
  constructor
  · rintro ⟨-, -, -, hwrites⟩
    obtain ⟨restored, rest, hrestored, hrest, rfl⟩ := List.forall₂_cons_left_iff.mp hwrites
    obtain rfl := List.forall₂_nil_left_iff.mp hrest
    use restored, hrestored
  · rintro ⟨restored, hrestored, rfl⟩
    exact ⟨hweight, hleft, List.cons_ne_nil _ _, .cons hrestored .nil⟩

end

end Production

namespace Grammar

/-- The texts of the patterns of a rule, with single spaces between them, are the right-hand side of
a production that adds one rule with the same patterns, whatever the grammar, the weight and the
left-hand side, exactly when no set among the patterns has a text with a quote at an end.  When some
set has, the production is refused or reads the text of this set as a literal. -/
theorem add_patternsText_iff (ps : List Production) (rule : Rule) (hrule : rule ∈ (grown ps).rules)
    (g : Grammar) (left : String) (weight : Float32) (hweight : weight.isFinite)
    (hleft : ∀ part ∈ fields ',' (trim left), ¬isAllBlank part) :
  ((∃ restored, g.add ⟨left, rule.patternsText, weight⟩ = .ok (g.push restored)
      ∧ restored.right = rule.right)
    ↔ ∀ p ∈ rule.right, ¬p.EdgeQuoted)
    ∧ ∀ (i : Nat) (hi : i < rule.right.length), rule.right[i].EdgeQuoted →
      (∃ cause, g.add ⟨left, rule.patternsText, weight⟩ = .error cause)
      ∨ ∃ restored text, g.add ⟨left, rule.patternsText, weight⟩ = .ok (g.push restored)
        ∧ restored.right.length = rule.right.length ∧ restored.right[i]? = some (.word text)
  := by
  have hwritable := writable_of_mem_grown hrule
  constructor
  · rw [← Pattern.forall₂_denotes_display_iff hwritable, ← Production.words_patternsText hwritable]
    simp only [add_eq_ok_push_iff, Production.rules_patternsText hwritable hweight hleft,
      List.cons.injEq, and_true, exists_eq_right]
    constructor
    · rintro ⟨restored, hrestored, hright⟩
      rw [← hright]
      apply hrestored.right
    · intro hright
      obtain ⟨labels, hlabels⟩ := Production.exists_left ⟨left, rule.patternsText, weight⟩
      use ⟨labels, rule.right, weight, trim left, trim rule.patternsText⟩
      exact ⟨⟨hlabels, hright, rfl, rfl, rfl⟩, rfl⟩
  · intro i hi hedge
    cases hadd : g.add ⟨left, rule.patternsText, weight⟩ with
    | error cause =>
      left
      use cause
    | ok grown =>
      right
      obtain ⟨rules, hok, rfl⟩ := add_eq_ok_iff.mp hadd
      obtain ⟨restored, hrestored, rfl⟩ :=
        (Production.rules_patternsText hwritable hweight hleft).mp hok
      have hright := hrestored.right
      rw [Production.words_patternsText hwritable, List.forall₂_map_left_iff] at hright
      have hlt : i < restored.right.length := hright.length_eq ▸ hi
      obtain ⟨text, htext⟩ := hedge.exists_eq_word (hright.get hi hlt)
      use restored, text, rfl, hright.length_eq.symm
      rw [← htext]
      apply List.getElem?_eq_getElem hlt

/-- The production `X -> !a,'b "it's"|z','a|b,'a`. -/
def quotesWithin : Production :=
  ⟨"X", "!a,'b \"it's\"|z','a|b,'a", 1.0⟩

/-- A quote between labels stands as it is.  The labels of `z','a` in ascending order are read as a
literal, and those of `b,'a` are refused. -/
theorem add_patternsText_quotesWithin :
  (∃ rule ∈ (grown [quotesWithin]).rules,
    rule.right = [.tags (.ofList ["!a", "'b"]), .word "it's"]
      ∧ ∃ restored, empty.add ⟨"Y", rule.patternsText, 0.5⟩ = .ok (empty.push restored)
        ∧ restored.right = rule.right)
    ∧ (∃ rule ∈ (grown [quotesWithin]).rules, rule.right = [.tags (.ofList ["z'", "'a"])]
      ∧ ∃ restored text, empty.add ⟨"Y", rule.patternsText, 0.5⟩ = .ok (empty.push restored)
        ∧ restored.right[0]? = some (.word text))
    ∧ ∃ rule ∈ (grown [quotesWithin]).rules, rule.right = [.tags (.ofList ["b", "'a"])]
      ∧ (empty.offer ⟨"Y", rule.patternsText, 0.5⟩).2 = some (.unbalancedQuote "'a,b" "'a,b")
  := by
  have hread {rule : Rule} (hrule : rule ∈ (grown [quotesWithin]).rules) :=
    add_patternsText_iff [quotesWithin] rule hrule empty "Y" 0.5 (by decide +kernel)
      (by decide +kernel)
  constructor
  · obtain ⟨rule, hrule, hright⟩ : ∃ rule ∈ (grown [quotesWithin]).rules,
        rule.right = [.tags (.ofList ["!a", "'b"]), .word "it's"] := by decide +kernel
    use rule, hrule, hright
    apply (hread hrule).1.mpr
    rw [hright]
    decide +kernel
  constructor
  · obtain ⟨rule, hrule, hright, hadd⟩ : ∃ rule ∈ (grown [quotesWithin]).rules,
        rule.right = [.tags (.ofList ["z'", "'a"])]
          ∧ (empty.add ⟨"Y", rule.patternsText, 0.5⟩).toOption.isSome := by decide +kernel
    have hedge : (Pattern.tags (.ofList ["z'", "'a"])).EdgeQuoted := by decide +kernel
    use rule, hrule, hright
    rcases (hread hrule).2 0 (by simp [hright]) (by simpa [hright] using hedge) with
      ⟨cause, herror⟩ | ⟨restored, text, hok, -, htext⟩
    · rw [herror] at hadd
      cases hadd
    · exact ⟨restored, text, hok, htext⟩
  · decide +kernel

end Grammar

end Chunking
