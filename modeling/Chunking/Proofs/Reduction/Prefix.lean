import Chunking.Proofs.Lookup.Priority

/-!
# Folding the front of a sequence

A rule folds a sequence exactly when it suits it: there are as many nodes as there are patterns at
least, and the node at each position of the right-hand side meets the pattern there.  The folded
node is made of the consumed nodes and of nothing else.  It does not matter what follows them.
-/

namespace Chunking

section

variable {ν : Type} [Constituent ν]

/-! ### Positions -/

/-- The nodes at the front of a sequence meet the patterns of a rule, position by position. -/
structure Rule.Suits (rule : Rule) (nodes : List ν) : Prop where
  arity_le : rule.arity ≤ nodes.length
  meets {i : Nat} (hi : i < rule.right.length) (hnode : i < nodes.length) :
    Constituent.meets nodes[i] rule.right[i]

/-- The patterns are met as far as both sequences go when they are met at every position that both
of them have. -/
theorem Pattern.allMet_iff {ps : List Pattern} {nodes : List ν} :
  allMet ps nodes
    ↔ ∀ (i : Nat) (hi : i < ps.length) (hnode : i < nodes.length), Constituent.meets nodes[i] ps[i]
  := by
  induction ps generalizing nodes with
  | nil => simp [allMet]
  | cons p ps ih =>
    cases nodes with
    | nil => simp [allMet]
    | cons node nodes =>
      rw [allMet, Bool.and_eq_true, ih]
      constructor
      · rintro ⟨hfirst, hothers⟩ i hi hnode
        cases i with
        | zero => apply hfirst
        | succ i => apply hothers i (Nat.lt_of_succ_lt_succ hi) (Nat.lt_of_succ_lt_succ hnode)
      · intro hall
        constructor
        · apply hall 0 (Nat.zero_lt_succ _) (Nat.zero_lt_succ _)
        · intro i hi hnode
          apply hall (i + 1) (Nat.succ_lt_succ hi) (Nat.succ_lt_succ hnode)

namespace Rule

variable {rule : Rule} {nodes others : List ν} {scorer : Scorer ν}

theorem fits_iff_suits :
  rule.fits nodes ↔ rule.Suits nodes
  := by
  rw [fits, Bool.and_eq_true, decide_eq_true_eq, Pattern.allMet_iff]
  constructor
  · rintro ⟨harity, hmeets⟩
    exact ⟨harity, fun hi hnode => hmeets _ hi hnode⟩
  · rintro ⟨harity, hmeets⟩
    exact ⟨harity, fun _ hi hnode => hmeets hi hnode⟩

/-! ### The folded node -/

theorem exists_match?_iff :
  (∃ m, rule.match? nodes = some m) ↔ rule.Suits nodes
  := by
  rw [← Option.isSome_iff_exists, isSome_match?, fits_iff_suits]

theorem exists_fold?_iff :
  (∃ node, rule.fold? scorer nodes = some node) ↔ rule.Suits nodes
  := by
  rw [← Option.isSome_iff_exists, fold?, Option.isSome_map, isSome_match?, fits_iff_suits]

/-- Rules fit sequences that agree as far as the arity goes alike. -/
theorem fits_eq_of_take_eq (h : others.take rule.arity = nodes.take rule.arity) :
  rule.fits others = rule.fits nodes
  := by
  rw [← fits_take le_rfl others, h, fits_take le_rfl]

/-- Nodes behind the arity do not matter. -/
theorem map_consumed_match?_eq_of_take_eq
    (h : others.take rule.arity = nodes.take rule.arity) :
  (rule.match? others).map Match.consumed = (rule.match? nodes).map Match.consumed
  := by
  rw [match?, match?, fits_eq_of_take_eq h]
  split
  · rw [Option.map_some, Option.map_some, h]
  · rfl

theorem fold?_eq_map_consumed :
  rule.fold? scorer nodes
    = ((rule.match? nodes).map Match.consumed).map fun consumed =>
      Constituent.fold rule.left consumed (scorer consumed)
  := by
  rw [fold?, match?]
  split
  · rfl
  · rfl

end Rule

end

/-- A chunk that a rule makes of chunks: it has the grammemes of the left-hand side, no word, the
chunks as its parts, the policy of the first of them and their score. -/
structure Chunk.FoldedBy (node : Chunk) (rule : Rule) (scorer : Scorer Chunk)
    (consumed : List Chunk) : Prop where
  tags_eq : node.tags = rule.left
  word_eq : node.word = none
  parts_eq : node.parts = consumed
  policy_of_cons {first : Chunk} {rest : List Chunk} (h : consumed = first :: rest) :
    node.policy = first.policy
  policy_of_nil (h : consumed = []) : node.policy = .subset
  score_eq : node.score = scorer consumed

/-- What a cut folds is folded by its rule from the consumed chunks. -/
theorem Match.foldedBy (m : Match Chunk) (scorer : Scorer Chunk) :
  (m.fold scorer).FoldedBy m.rule scorer m.consumed
  := by
  constructor
  · rfl
  · rfl
  · rfl
  · intro first rest h
    rw [fold, h]
    rfl
  · intro h
    rw [fold, h]
    rfl
  · rfl

namespace Rule

/-- A rule cuts and folds a sequence exactly when it suits it.  The consumed nodes are as many as
the arity says, the rest follows them, and the folded node is made of them alone.  Sequences that
agree as far as the arity goes are folded to the same node, or none of them is. -/
theorem fold?_guarded_and_local (rule : Rule) (scorer : Scorer Chunk) (nodes : List Chunk) :
  ((∃ m, rule.match? nodes = some m) ↔ rule.Suits nodes)
    ∧ ((∃ node, rule.fold? scorer nodes = some node) ↔ rule.Suits nodes)
    ∧ (∀ m, rule.match? nodes = some m →
      m.rule = rule ∧ m.consumed.length = rule.arity ∧ m.consumed ++ m.rest = nodes
        ∧ rule.fold? scorer nodes = some (m.fold scorer)
        ∧ (m.fold scorer).FoldedBy rule scorer m.consumed)
    ∧ ∀ others, others.take rule.arity = nodes.take rule.arity →
      (rule.match? others).map Match.consumed = (rule.match? nodes).map Match.consumed
        ∧ rule.fold? scorer others = rule.fold? scorer nodes
  := by
  constructor
  · apply exists_match?_iff
  constructor
  · apply exists_fold?_iff
  constructor
  · intro m hm
    have hrule : m.rule = rule := by
      obtain ⟨-, rfl⟩ := match?_eq_some_iff.mp hm
      rfl
    have hfolded := m.foldedBy scorer
    rw [hrule] at hfolded
    refine ⟨hrule, length_consumed hm, consumed_append_rest hm, ?_, hfolded⟩
    rw [fold?, hm, Option.map_some]
  · intro others htake
    have hconsumed := map_consumed_match?_eq_of_take_eq htake
    use hconsumed
    rw [fold?_eq_map_consumed, fold?_eq_map_consumed, hconsumed]

end Rule

end Chunking
