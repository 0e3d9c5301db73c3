import Chunking.Proofs.Analysis.Segments
import Mathlib.Logic.Relation

/-!
# Words under reductions

A reduction folds nodes of a sequence at some position by some rule that fits there.  The folded
node has the consumed nodes as its parts and no word of its own, so that the words of the sequence
stay the same, in the same order, however many reductions are made.  The greedy fold is a number of
reductions, one for each segment that is folded.
-/

namespace Chunking

/-! ### Reductions -/

section

variable {ν : Type} [Constituent ν] {rule : Rule} {nodes reduced : List ν}

/-- One sequence is made of another by a reduction. -/
def Reduces (nodes reduced : List ν) : Prop :=
  ∃ rule scorer start, reduceAt rule scorer start nodes = some reduced

theorem reduceAt_eq_some_iff {scorer : Scorer ν} {start : Nat} :
  reduceAt rule scorer start nodes = some reduced
    ↔ ∃ m, rule.match? (nodes.drop start) = some m
      ∧ nodes.take start ++ m.fold scorer :: m.rest = reduced
  := Option.map_eq_some_iff

/-- A rule that fits a sequence fits it also when nodes follow. -/
theorem Rule.fits_append (h : rule.fits nodes) (after : List ν) :
  rule.fits (nodes ++ after)
  := by
  rwa [← fits_take (arity_le_length h), List.take_left]

/-- A rule that fits behind some nodes folds there. -/
theorem reduces_append (h : rule.fits nodes) (scorer : Scorer ν) (before : List ν) :
  Reduces (before ++ nodes)
    (before ++ Constituent.fold rule.left (nodes.take rule.arity) (scorer (nodes.take rule.arity))
      :: nodes.drop rule.arity)
  := by
  use rule, scorer, before.length
  rw [reduceAt_eq_some_iff, List.drop_left, List.take_left]
  exact ⟨_, Rule.match?_eq_some_iff.mpr ⟨h, rfl⟩, rfl⟩

/-- A reduction between two positions is a reduction of the sequence. -/
theorem reduces_of_reduceBetween {scorer : Scorer ν} {start stop : Nat}
    (h : reduceBetween rule scorer start stop nodes = some reduced) :
  Reduces nodes reduced
  := by
  obtain ⟨front, hfront, rfl⟩ := Option.map_eq_some_iff.mp h
  obtain ⟨m, hm, rfl⟩ := reduceAt_eq_some_iff.mp hfront
  obtain ⟨hfits, rfl⟩ := Rule.match?_eq_some_iff.mp hm
  have hle := Rule.arity_le_length hfits
  have hreduces := reduces_append (Rule.fits_append hfits (nodes.drop stop)) scorer
    ((nodes.take stop).take start)
  rw [← List.append_assoc, List.take_append_drop, List.take_append_drop,
    List.take_append_of_le_length hle, List.drop_append_of_le_length hle] at hreduces
  rw [List.append_assoc]
  apply hreduces

end

/-! ### The greedy fold -/

/-- The folds of a division are made one after the other, behind the nodes treated before. -/
theorem Grammar.Segmented.reductions {g : Grammar} {nodes : List Chunk} {segments : List Segment}
    (h : g.Segmented nodes segments) (before : List Chunk) :
  Relation.ReflTransGen Reduces (before ++ nodes) (before ++ segments.map Segment.result)
  := by
  induction h generalizing before with
  | nil => apply Relation.ReflTransGen.refl
  | @cons nodes rest segment segments hnext hnodes _ ih =>
    have hrest := ih (before ++ [segment.result])
    simp only [List.append_assoc, List.singleton_append] at hrest
    cases hnext with
    | @folded _ id rule hfirst hrule harity =>
      have hreduces := reduces_append (fits_of_first? hfirst hrule) Scorer.mean before
      obtain rfl : nodes.drop rule.arity = rest :=
        List.append_cancel_left ((List.take_append_drop rule.arity nodes).trans hnodes.symm)
      apply Relation.ReflTransGen.head hreduces hrest
    | kept hfirst =>
      obtain rfl := (List.cons.inj hnodes).2
      apply hrest

theorem Chunker.reductions_folded_analyze (c : Chunker) (nodes : List Chunk) :
  Relation.ReflTransGen Reduces nodes (c.analyze nodes).1.folded
  := by
  obtain ⟨segments, hsegments, hgreedy⟩ := c.grammar.exists_segmented nodes
  rw [folded_analyze, hgreedy]
  apply hsegments.reductions []

namespace Chunk

/-! ### Words -/

/-- The words of a token are its surface word, if it has one. -/
theorem words_of_isTerminal {chunk : Chunk} (h : chunk.isTerminal) :
  chunk.words = chunk.word.toList
  := by
  obtain ⟨word, tags, score, policy, parts⟩ := chunk
  obtain rfl : parts = [] := List.isEmpty_iff.mp h
  rw [words]

theorem flatMap_words_of_isTerminal {nodes : List Chunk} (h : ∀ node ∈ nodes, node.isTerminal) :
  nodes.flatMap words = nodes.filterMap word
  := by
  rw [List.filterMap_eq_flatMap_toList]
  apply List.flatMap_congr
  intro node hnode
  apply words_of_isTerminal (h node hnode)

/-- The words of a sequence that is cut are those of the folded node and of the rest. -/
theorem flatMap_words_fold {rule : Rule} {nodes : List Chunk} {m : Match Chunk}
    (h : rule.match? nodes = some m) (scorer : Scorer Chunk) :
  (m.fold scorer :: m.rest).flatMap words = nodes.flatMap words
  := by
  calc (m.fold scorer :: m.rest).flatMap words
    _ = m.consumed.flatMap words ++ m.rest.flatMap words := by
      rw [List.flatMap_cons]
      congr 1
      apply words_fold
    _ = nodes.flatMap words := by rw [← List.flatMap_append, Rule.consumed_append_rest h]

variable {nodes reduced : List Chunk}

theorem flatMap_words_of_reduces (h : Reduces nodes reduced) :
  reduced.flatMap words = nodes.flatMap words
  := by
  obtain ⟨rule, scorer, start, h⟩ := h
  obtain ⟨m, hm, rfl⟩ := reduceAt_eq_some_iff.mp h
  rw [List.flatMap_append, flatMap_words_fold hm, ← List.flatMap_append, List.take_append_drop]

theorem flatMap_words_of_reductions (h : Relation.ReflTransGen Reduces nodes reduced) :
  reduced.flatMap words = nodes.flatMap words
  := by
  induction h with
  | refl => rfl
  | tail _ hlast ih => rw [flatMap_words_of_reduces hlast, ih]

/-- Reductions neither lose nor duplicate nor reorder words.  Every rule that fits from a position
on can be applied there, with every scorer, and however many reductions are made in a row, also
between two positions, the words of the sequence stay the same.  A sequence of tokens keeps the
surface words of its tokens.  The greedy fold of an analysis is such a row of reductions. -/
theorem words_of_reductions (nodes : List Chunk) :
  (∀ (rule : Rule) scorer start, rule.fits (nodes.drop start) →
      ∃ reduced, reduceAt rule scorer start nodes = some reduced)
    ∧ (∀ rule scorer start stop reduced,
      reduceBetween rule scorer start stop nodes = some reduced → Reduces nodes reduced)
    ∧ (∀ reduced, Relation.ReflTransGen Reduces nodes reduced →
      reduced.flatMap words = nodes.flatMap words
        ∧ ((∀ node ∈ nodes, node.isTerminal) → reduced.flatMap words = nodes.filterMap word))
    ∧ ∀ c : Chunker, Relation.ReflTransGen Reduces nodes (c.analyze nodes).1.folded
      ∧ (c.analyze nodes).1.folded.flatMap words = nodes.flatMap words
  := by
  constructor
  · intro rule scorer start hfits
    exact ⟨_, reduceAt_eq_some_iff.mpr ⟨_, Rule.match?_eq_some_iff.mpr ⟨hfits, rfl⟩, rfl⟩⟩
  constructor
  · intro rule scorer start stop reduced
    apply reduces_of_reduceBetween
  constructor
  · intro reduced hreductions
    have hwords := flatMap_words_of_reductions hreductions
    use hwords
    intro hterminal
    rw [hwords, flatMap_words_of_isTerminal hterminal]
  · intro c
    have hreductions := c.reductions_folded_analyze nodes
    exact ⟨hreductions, flatMap_words_of_reductions hreductions⟩

/-- A node is put behind a token and folded with it, and the fold is folded with a node without a
word. -/
theorem words_of_nested_reductions :
  ∃ nodes reduced : List Chunk, Relation.ReflTransGen Reduces nodes reduced
    ∧ nodes.map display = ["the/DET", "/EMPH", "dog/NOUN"]
    ∧ reduced.map display = ["[S [NP the/DET /Z] /EMPH]", "dog/NOUN"]
    ∧ reduced.flatMap words = ["the", "dog"]
  := by
  let nodes : List Chunk :=
    [ofWord "the" (.ofList ["DET"]), ofTags (.ofList ["EMPH"]), ofWord "dog" (.ofList ["NOUN"])]
  let inserted := reduceAt ⟨.ofList ["Z"], [], 1.0, "Z", ""⟩ Scorer.count 1 nodes
  let folded := inserted.bind
    (reduceAt ⟨.ofList ["NP"], [.word "the", .tags (.ofList ["Z"])], 1.0, "NP", "'the' Z"⟩
      Scorer.mean 0)
  let foldedAgain := folded.bind
    (reduceAt ⟨.ofList ["S"], [.tags (.ofList ["NP"]), .tags (.ofList ["EMPH"])], 1.0, "S",
      "NP EMPH"⟩ Scorer.product 0)
  have hrun : foldedAgain.map (List.map display)
      = some ["[S [NP the/DET /Z] /EMPH]", "dog/NOUN"] := by
    decide +kernel
  obtain ⟨reduced, hreduced, hdisplay⟩ := Option.map_eq_some_iff.mp hrun
  obtain ⟨second, hsecond, hthird⟩ := Option.bind_eq_some_iff.mp hreduced
  obtain ⟨first, hfirst, hsecond⟩ := Option.bind_eq_some_iff.mp hsecond
  have hreductions : Relation.ReflTransGen Reduces nodes reduced :=
    ((Relation.ReflTransGen.single ⟨_, _, _, hfirst⟩).tail ⟨_, _, _, hsecond⟩).tail
      ⟨_, _, _, hthird⟩
  have hterminal : ∀ node ∈ nodes, node.isTerminal := by decide +kernel
  use nodes, reduced, hreductions
  constructor
  · decide +kernel
  constructor
  · apply hdisplay
  · obtain ⟨-, -, hwords, -⟩ := words_of_reductions nodes
    rw [(hwords reduced hreductions).2 hterminal]
    rfl

end Chunk

end Chunking
