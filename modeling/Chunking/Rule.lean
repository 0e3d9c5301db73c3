import Chunking.Chunk

/-!
# Rules

A rule folds the first nodes of a sequence into one.  Its right-hand side has a pattern for each
node that it consumes; the number of patterns is its arity.  A rule fits a sequence that has at
least as many nodes as the arity and whose first nodes meet the patterns position by position.
`Rule.match?` cuts a sequence that the rule fits into the consumed nodes and the rest, and
`Match.fold` makes one node of the former.

A reduction folds some nodes of a sequence, not necessarily the first ones, and leaves the others
in their places.  `reduceAt` sees all nodes from one position on, `reduceBetween` only those up to
another one.
-/

namespace Chunking

/-- A rule with the texts it was read from. -/
structure Rule where
  /-- The grammemes of the folded node. -/
  left : Grammemes
  /-- The patterns of the consumed nodes. -/
  right : List Pattern
  /-- A number for the use of scorers. -/
  weight : Float32
  leftText : String
  rightText : String
  deriving DecidableEq

/-- A sequence of nodes cut by a rule. -/
structure Match (ν : Type) where
  rule : Rule
  /-- The nodes that the rule folds. -/
  consumed : List ν
  /-- The nodes after those. -/
  rest : List ν

variable {ν : Type} [Constituent ν]

namespace Pattern

/-- Whether the patterns are met by the nodes, as far as both sequences go. -/
def allMet : List Pattern → List ν → Bool
  | p :: ps, node :: nodes => Constituent.meets node p && allMet ps nodes
  | _, _ => true

/-- The number of nodes tested from left to right until one fails its pattern, that one
included. -/
def testsOf : List Pattern → List ν → Nat
  | p :: ps, node :: nodes => if Constituent.meets node p then testsOf ps nodes + 1 else 1
  | _, _ => 0

end Pattern

namespace Rule

/-- The number of nodes that the rule consumes. -/
def arity (rule : Rule) : Nat :=
  rule.right.length

/-- The text of a rule. -/
def display (rule : Rule) : String :=
  rule.leftText ++ " -> " ++ rule.rightText

/-! ### Fitting -/

/-- Whether the rule can fold the first nodes of a sequence. -/
def fits (rule : Rule) (nodes : List ν) : Bool :=
  rule.arity ≤ nodes.length && Pattern.allMet rule.right nodes

/-- The number of nodes that are tested in order to decide `fits`: none when the sequence is too
short. -/
def tests (rule : Rule) (nodes : List ν) : Nat :=
  if rule.arity ≤ nodes.length then Pattern.testsOf rule.right nodes else 0

/-- The cut of a sequence that the rule fits. -/
def match? (rule : Rule) (nodes : List ν) : Option (Match ν) :=
  if rule.fits nodes then
    some ⟨rule, nodes.take rule.arity, nodes.drop rule.arity⟩
  else
    none

/-- There is a cut exactly when the rule fits. -/
theorem isSome_match? (rule : Rule) (nodes : List ν) :
  (rule.match? nodes).isSome = rule.fits nodes
  := by
  simp only [match?]
  split
  next h => simp [h]
  next h => simp [h]

/-- A rule that fits cuts a sequence behind as many nodes as its arity says. -/
theorem match?_eq_some_iff {rule : Rule} {nodes : List ν} {m : Match ν} :
  rule.match? nodes = some m
    ↔ rule.fits nodes ∧ ⟨rule, nodes.take rule.arity, nodes.drop rule.arity⟩ = m
  := by
  rw [match?, Option.ite_none_right_eq_some, Option.some.injEq]

/-- A cut consumes as many nodes as the arity says. -/
theorem length_consumed {rule : Rule} {nodes : List ν} {m : Match ν}
    (h : rule.match? nodes = some m) :
  m.consumed.length = rule.arity
  := by
  obtain ⟨hfits, rfl⟩ := match?_eq_some_iff.mp h
  simp only [fits, Bool.and_eq_true, decide_eq_true_eq] at hfits
  simp [hfits.1]

/-- A cut loses nothing. -/
theorem consumed_append_rest {rule : Rule} {nodes : List ν} {m : Match ν}
    (h : rule.match? nodes = some m) :
  m.consumed ++ m.rest = nodes
  := by
  obtain ⟨-, rfl⟩ := match?_eq_some_iff.mp h
  apply List.take_append_drop

end Rule

/-! ### Folding -/

/-- The node that stands for the consumed nodes, with the score that `scorer` gives to them. -/
def Match.fold (m : Match ν) (scorer : Scorer ν) : ν :=
  Constituent.fold m.rule.left m.consumed (scorer m.consumed)

/-- The node that the rule makes of the first nodes of a sequence, if it fits. -/
def Rule.fold? (rule : Rule) (scorer : Scorer ν) (nodes : List ν) : Option ν :=
  (rule.match? nodes).map fun m => m.fold scorer

/-! ### Reductions -/

/-- The sequence in which `rule` has folded the first of the nodes from position `start` on, if it
fits there. -/
def reduceAt (rule : Rule) (scorer : Scorer ν) (start : Nat) (nodes : List ν) :
    Option (List ν) :=
  (rule.match? (nodes.drop start)).map fun m =>
    nodes.take start ++ m.fold scorer :: m.rest

/-- The sequence in which `rule` has folded the first of the nodes between two positions, if it
fits these nodes. -/
def reduceBetween (rule : Rule) (scorer : Scorer ν) (start stop : Nat) (nodes : List ν) :
    Option (List ν) :=
  (reduceAt rule scorer start (nodes.take stop)).map fun reduced => reduced ++ nodes.drop stop

end Chunking
