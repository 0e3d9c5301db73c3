import Chunking.Chunker

/-!
# Analysis of a sequence of chunks

The report on a sequence says for each position which rule comes first there and which rules fold
a window that starts there, and how one pass from left to right folds the sequence: `greedy` folds
with the first rule that fits, goes on behind the nodes that were folded, and keeps a node where
no rule, or only a rule of arity zero, comes first.
-/

namespace Chunking

/-- The rules found for a window. -/
structure WindowReport where
  nodes : List Chunk
  /-- The ids of the rules that fold the window, in ascending order. -/
  ids : List Nat

/-- What was found at a position. -/
structure PositionReport where
  start : Nat
  node : Chunk
  /-- The id of the first rule that fits from here on. -/
  first : Option Nat
  /-- The windows from here on that some rule folds, shorter ones first. -/
  windows : List WindowReport

/-- What was found in a sequence. -/
structure Report where
  positions : List PositionReport
  /-- The sequence after the greedy fold. -/
  folded : List Chunk
  cache : Clock.Stats

namespace Grammar

/-- A cut that folds some nodes leaves fewer. -/
theorem length_rest_lt {ν : Type} [Constituent ν] {g : Grammar} {nodes : List ν} {m : Match ν}
    (h : g.firstMatch? nodes = some m) (hm : ¬m.consumed.isEmpty) :
  m.rest.length < nodes.length
  := by
  rw [← consumed_append_rest h, List.length_append]
  rw [List.isEmpty_iff_length_eq_zero] at hm
  omega

/-- The sequence that is left when rules are applied from left to right. -/
def greedy (g : Grammar) (nodes : List Chunk) : List Chunk :=
  match nodes with
  | [] => []
  | node :: rest =>
    match h : g.firstMatch? (node :: rest) with
    | none => node :: g.greedy rest
    | some m =>
      if hm : m.consumed.isEmpty then
        node :: g.greedy rest
      else
        have := length_rest_lt h hm
        m.fold Scorer.mean :: g.greedy m.rest
termination_by nodes.length
decreasing_by
  · exact Nat.lt_succ_self _
  · exact Nat.lt_succ_self _
  · exact this

end Grammar

namespace Chunker

/-- The windows of the given lengths at the front of `nodes` that some rule folds. -/
def windowReports (c : Chunker) (nodes : List Chunk) : List Nat → List WindowReport × Chunker
  | [] => ([], c)
  | length :: lengths =>
    let window := nodes.take length
    let (found, c) := c.lookup window
    let (reports, c) := c.windowReports nodes lengths
    (if found.ids.isEmpty then reports else ⟨window, found.ids⟩ :: reports, c)

/-- The reports on the positions of `nodes`, the first of which has the number `start`. -/
def positionReports (c : Chunker) (start : Nat) : List Chunk → List PositionReport × Chunker
  | [] => ([], c)
  | node :: rest =>
    let nodes := node :: rest
    let lengths := List.range' 1 (min c.grammar.maxArity nodes.length)
    let (windows, after) := c.windowReports nodes lengths
    let (positions, final) := after.positionReports (start + 1) rest
    (⟨start, node, c.grammar.first? nodes, windows⟩ :: positions, final)

/-- The report on a sequence. -/
def analyze (c : Chunker) (nodes : List Chunk) : Report × Chunker :=
  let (positions, c) := c.positionReports 0 nodes
  (⟨positions, c.grammar.greedy nodes, c.stats⟩, c)

end Chunker

end Chunking
