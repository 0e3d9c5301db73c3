import Chunking.Proofs.Lookup.Priority

/-!
# Further productions

A grammar that grows on by further productions keeps its rules and their ids, and the rules that are
added come behind them in every respect.  The first rule that fits is an old one if an old one fits.
What a lookup finds, and the rules of an arity, are the old ones followed by the added ones.
-/

namespace Chunking

namespace Grammar

variable (ps qs : List Production)

/-! ### The rules -/

theorem rules_grown_append :
  (grown (ps ++ qs)).rules = (grown ps).rules ++ (grown qs).rules
  := by
  rw [← Array.toList_inj, Array.toList_append, toList_rules_grown, toList_rules_grown,
    toList_rules_grown, List.flatMap_append]

theorem size_grown_append :
  (grown (ps ++ qs)).size = (grown ps).size + (grown qs).size
  := by
  rw [size, rules_grown_append, Array.size_append, size, size]

/-- Rules keep their ids. -/
theorem rule?_grown_append_of_lt {id : Nat} (h : id < (grown ps).size) :
  (grown (ps ++ qs)).rule? id = (grown ps).rule? id
  := by
  rw [rule?, rules_grown_append, Array.getElem?_append_left h, rule?]

/-- The ids of the added rules come behind those of the old ones. -/
theorem rule?_grown_append_add (id : Nat) :
  (grown (ps ++ qs)).rule? ((grown ps).size + id) = (grown qs).rule? id
  := by
  rw [rule?, rules_grown_append, size, Array.getElem?_append_right (Nat.le_add_right _ _),
    Nat.add_sub_cancel_left, rule?]

/-- The rules with a property are the old ones with it followed by the added ones. -/
theorem filter_range_grown_append (p : Rule → Bool) :
  (List.range (grown (ps ++ qs)).size).filter (fun id => ((grown (ps ++ qs)).rule? id).any p)
    = (List.range (grown ps).size).filter (fun id => ((grown ps).rule? id).any p)
      ++ ((List.range (grown qs).size).filter fun id => ((grown qs).rule? id).any p).map
        ((grown ps).size + ·)
  := by
  rw [size_grown_append, List.range_add, List.filter_append, List.filter_map]
  congr 1
  · apply List.filter_congr
    intro id hid
    rw [rule?_grown_append_of_lt ps qs (List.mem_range.mp hid)]
  · congr 1
    apply List.filter_congr
    intro id _
    rw [Function.comp_apply, rule?_grown_append_add]

theorem rulesOfArity_grown_append (n : Nat) :
  (grown (ps ++ qs)).rulesOfArity n
    = (grown ps).rulesOfArity n ++ (grown qs).rules.toList.filter fun rule => rule.arity = n
  := by
  rw [rulesOfArity_eq (filed_grown (ps ++ qs)), rulesOfArity_eq (filed_grown ps),
    rules_grown_append, Array.toList_append, List.filter_append]

/-! ### Lookups -/

variable {ν : Type} [Constituent ν]

theorem folding_grown_append (window : List ν) :
  (grown (ps ++ qs)).folding window
    = (grown ps).folding window ++ ((grown qs).folding window).map ((grown ps).size + ·)
  := filter_range_grown_append ps qs fun rule => rule.folds window

/-- An added rule comes first only if no old rule fits. -/
theorem first?_grown_append (nodes : List ν) :
  (grown (ps ++ qs)).first? nodes
    = ((grown ps).first? nodes).or (((grown qs).first? nodes).map ((grown ps).size + ·))
  := by
  rw [first?, rules_grown_append, Array.findIdx?_append]
  simp only [Nat.add_comm _ (grown ps).rules.size]
  rfl

end Grammar

namespace Chunker

/-- A chunker that answers as another one does as far as the rules of this one go, and whose further
rules are those of a grammar `later`. -/
structure Continues (new old : Chunker) (later : Grammar) (nodes : List Chunk) : Prop where
  rule?_of_lt {id : Nat} (h : id < old.grammar.size) : new.grammar.rule? id = old.grammar.rule? id
  rule?_add (id : Nat) : new.grammar.rule? (old.grammar.size + id) = later.rule? id
  first?_of_some {id : Nat} (h : old.grammar.first? nodes = some id) :
    new.grammar.first? nodes = some id
  first?_of_none (h : old.grammar.first? nodes = none) :
    new.grammar.first? nodes = (later.first? nodes).map (old.grammar.size + ·)
  ids_lookup :
    (new.lookup nodes).1.ids
      = (old.lookup nodes).1.ids ++ (later.folding nodes).map (old.grammar.size + ·)
  rulesOfArity (n : Nat) :
    new.grammar.rulesOfArity n
      = old.grammar.rulesOfArity n ++ later.rules.toList.filter fun rule => rule.arity = n

/-- When further productions are offered to a grammar, some accepted and some refused, then a
chunker of the grammar that has grown continues every chunker of the grammar as it was, whatever
capacities the two have and whatever each of them was asked before.  The further rules are those of
the further productions that are accepted, in order. -/
theorem after_grown_append_continues (ps qs : List Production) (capacity capacity' : Nat)
    (asked asked' : List (Query Chunk)) (nodes : List Chunk) :
  (after (Grammar.grown (ps ++ qs)) capacity' asked').Continues
      (after (Grammar.grown ps) capacity asked) (Grammar.grown qs) nodes
    ∧ (Grammar.grown qs).rules.toList = qs.flatMap Production.accepted
  := by
  constructor
  · constructor
    · intro id hid
      rw [grammar_after] at hid ⊢
      rw [grammar_after, Grammar.rule?_grown_append_of_lt ps qs hid]
    · intro id
      rw [grammar_after, grammar_after, Grammar.rule?_grown_append_add]
    · intro id hfirst
      rw [grammar_after] at hfirst ⊢
      rw [Grammar.first?_grown_append, hfirst, Option.some_or]
    · intro hfirst
      rw [grammar_after] at hfirst ⊢
      rw [Grammar.first?_grown_append, hfirst, Option.none_or, grammar_after]
    · rw [ids_lookup_after (Grammar.filed_grown (ps ++ qs)),
        ids_lookup_after (Grammar.filed_grown ps), grammar_after, Grammar.folding_grown_append]
    · intro n
      rw [grammar_after, grammar_after, Grammar.rulesOfArity_grown_append]
  · apply Grammar.toList_rules_grown

/-- A refused production uses up no id, and a wider rule or one of arity zero goes to its own
bucket. -/
example :
    let old := Grammar.grown [⟨"X", "A", 1.0⟩]
    let new := Grammar.grown ([⟨"X", "A", 1.0⟩] ++
      [⟨"Y", "B | 'c", 1.0⟩, ⟨"Y", "", 1.0⟩, ⟨"Y", "A B C | B", 1.0⟩])
    old.buckets = #[#[], #[0]] ∧ new.buckets = #[#[1], #[0, 3], #[], #[2]] := by
  decide +kernel

end Chunker

end Chunking
