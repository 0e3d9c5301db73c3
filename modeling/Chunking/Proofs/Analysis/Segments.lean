import Chunking.Analysis
import Chunking.Proofs.Lookup.Priority
import Chunking.Proofs.Lookup.Stored

/-!
# Segments of the greedy fold

The greedy fold divides a sequence into segments from left to right.  Where a rule of positive arity
comes first, the nodes that it consumes are a segment, and one node stands for them afterwards.
Everywhere else the next node is a segment of its own and stays as it is.  The first rules determine
the division.  No segment is empty, so the fold ends after at most as many segments as there are
nodes.  A rule of arity zero fits everywhere, so that the rules behind it fold nothing.
-/

namespace Chunking

/-- A part of a sequence, as the greedy fold treats it. -/
inductive Segment where
  /-- Nodes that the rule of this id folds. -/
  | folded (id : Nat) (rule : Rule) (nodes : List Chunk)
  /-- A node that stays as it is. -/
  | kept (node : Chunk)

namespace Segment

/-- The nodes of a segment. -/
def nodes : Segment → List Chunk
  | folded _ _ nodes => nodes
  | kept node => [node]

/-- The node that stands for a segment after the fold. -/
def result : Segment → Chunk
  | folded _ rule nodes => Chunk.fold rule.left nodes (Scorer.mean nodes)
  | kept node => node

/-- The nodes of the result when the fold is undone. -/
def unfolded : Segment → List Chunk
  | folded id rule nodes => (folded id rule nodes).result.parts
  | kept node => [(kept node).result]

/-- A fold loses none of the nodes that it consumes. -/
theorem unfolded_eq_nodes (segment : Segment) :
  segment.unfolded = segment.nodes
  := by
  cases segment with
  | folded id rule nodes => rfl
  | kept node => rfl

/-- The score of the node that stands for a folded segment is the sum of the scores that it
consumes, over their number. -/
theorem score_result_folded (id : Nat) (rule : Rule) {consumed : List Chunk}
    (h : consumed ≠ []) :
  (folded id rule consumed).result.score
    = sumOfScores (consumed.map Chunk.score) / consumed.length.toFloat32
  := Scorer.mean_of_ne_nil h

end Segment

namespace Grammar

/-! ### The cut by the first rule -/

section

variable {ν : Type} [Constituent ν] {g : Grammar} {nodes : List ν}

theorem exists_fits_of_first? {id : Nat} (h : g.first? nodes = some id) :
  ∃ rule, g.rule? id = some rule ∧ rule.fits nodes
  := (first?_eq_some_iff.mp h).1

theorem fits_of_first? {id : Nat} (h : g.first? nodes = some id) {rule : Rule}
    (hrule : g.rule? id = some rule) :
  rule.fits nodes
  := by
  obtain ⟨found, hfound, hfits⟩ := exists_fits_of_first? h
  rwa [Option.some.inj (hrule.symm.trans hfound)]

/-- A sequence is cut by the first rule that fits it. -/
theorem firstMatch?_eq_some_iff {m : Match ν} :
  g.firstMatch? nodes = some m
    ↔ ∃ id rule, g.first? nodes = some id ∧ g.rule? id = some rule
      ∧ ⟨rule, nodes.take rule.arity, nodes.drop rule.arity⟩ = m
  := by
  simp only [firstMatch?, Option.bind_eq_some_iff, Rule.match?_eq_some_iff]
  constructor
  · rintro ⟨id, hfirst, rule, hrule, -, hm⟩
    use id, rule
  · rintro ⟨id, rule, hfirst, hrule, hm⟩
    exact ⟨id, hfirst, rule, hrule, fits_of_first? hfirst hrule, hm⟩

theorem firstMatch?_eq_none_iff :
  g.firstMatch? nodes = none ↔ g.first? nodes = none
  := by
  constructor
  · intro hnone
    apply Option.eq_none_iff_forall_ne_some.mpr
    intro id hfirst
    obtain ⟨rule, hrule, -⟩ := exists_fits_of_first? hfirst
    rw [firstMatch?_eq_some_iff.mpr ⟨id, rule, hfirst, hrule, rfl⟩] at hnone
    cases hnone
  · intro hnone
    rw [firstMatch?, hnone]
    rfl

end

/-! ### Segments -/

/-- The segment at the front of a sequence. -/
inductive Next (g : Grammar) : List Chunk → Segment → Prop where
  /-- The first rule folds as many nodes as its arity says. -/
  | folded {nodes : List Chunk} {id : Nat} {rule : Rule} (hfirst : g.first? nodes = some id)
    (hrule : g.rule? id = some rule) (harity : 0 < rule.arity) :
    Next g nodes (.folded id rule (nodes.take rule.arity))
  /-- A node is kept when no rule fits, or a rule of arity zero comes first. -/
  | kept {node : Chunk} {rest : List Chunk}
    (hfirst : ∀ id rule, g.first? (node :: rest) = some id → g.rule? id = some rule →
      rule.arity = 0) :
    Next g (node :: rest) (.kept node)

/-- The division of a sequence into segments, each of which is at the front of what is left. -/
inductive Segmented (g : Grammar) : List Chunk → List Segment → Prop where
  | nil : Segmented g [] []
  | cons {nodes rest : List Chunk} {segment : Segment} {segments : List Segment}
    (hnext : g.Next nodes segment) (hnodes : segment.nodes ++ rest = nodes)
    (hrest : Segmented g rest segments) :
    Segmented g nodes (segment :: segments)

section

variable {g : Grammar} {nodes : List Chunk} {segment : Segment} {segments : List Segment}

theorem Next.nodes_ne_nil (h : g.Next nodes segment) :
  segment.nodes ≠ []
  := by
  cases h with
  | folded hfirst hrule harity =>
    have hle := Rule.arity_le_length (fits_of_first? hfirst hrule)
    apply List.ne_nil_of_length_pos
    rwa [Segment.nodes, List.length_take_of_le hle]
  | kept hfirst => apply List.cons_ne_nil

/-- There is one segment only at the front of a sequence. -/
theorem Next.unique {other : Segment} (h : g.Next nodes segment) (hother : g.Next nodes other) :
  segment = other
  := by
  cases h with
  | folded hfirst hrule harity =>
    cases hother with
    | folded hfirst' hrule' harity' =>
      obtain rfl := Option.some.inj (hfirst.symm.trans hfirst')
      obtain rfl := Option.some.inj (hrule.symm.trans hrule')
      rfl
    | kept hfirst' => exact absurd (hfirst' _ _ hfirst hrule) harity.ne'
  | kept hfirst =>
    cases hother with
    | folded hfirst' hrule' harity' => exact absurd (hfirst _ _ hfirst' hrule') harity'.ne'
    | kept hfirst' => rfl

/-- No rule behind one of arity zero folds a segment. -/
theorem Next.lt_of_arity_eq_zero {id : Nat} {rule : Rule} {consumed : List Chunk}
    (h : g.Next nodes (.folded id rule consumed)) {idle : Nat} {idleRule : Rule}
    (hidle : g.rule? idle = some idleRule) (hzero : idleRule.arity = 0) :
  id < idle
  := by
  cases h with
  | folded hfirst hrule harity =>
    have hright : idleRule.right = [] := List.length_eq_zero_iff.mp hzero
    have hfits : idleRule.fits nodes := by simp [Rule.fits, hzero, hright, Pattern.allMet]
    have hle : id ≤ idle := (first?_eq_some_iff.mp hfirst).2 ⟨idleRule, hidle, hfits⟩
    apply Nat.lt_of_le_of_ne hle
    rintro rfl
    obtain rfl := Option.some.inj (hrule.symm.trans hidle)
    apply harity.ne' hzero

/-! ### Divisions -/

theorem Segmented.flatMap_nodes (h : g.Segmented nodes segments) :
  segments.flatMap Segment.nodes = nodes
  := by
  induction h with
  | nil => rfl
  | cons hnext hnodes _ ih => rw [List.flatMap_cons, ih, hnodes]

/-- Every segment is at the front of a part of the sequence up to its end. -/
theorem Segmented.exists_next (h : g.Segmented nodes segments) (hmem : segment ∈ segments) :
  ∃ rest, rest <:+ nodes ∧ g.Next rest segment
  := by
  induction h with
  | nil => cases hmem
  | cons hnext hnodes _ ih =>
    rcases List.mem_cons.mp hmem with rfl | hmem
    · exact ⟨_, List.suffix_rfl, hnext⟩
    · obtain ⟨rest, hsuffix, hrest⟩ := ih hmem
      exact ⟨rest, hsuffix.trans ⟨_, hnodes⟩, hrest⟩

theorem Segmented.nodes_ne_nil (h : g.Segmented nodes segments) (hmem : segment ∈ segments) :
  segment.nodes ≠ []
  := by
  obtain ⟨rest, -, hnext⟩ := h.exists_next hmem
  apply hnext.nodes_ne_nil

/-- There are no more segments than nodes. -/
theorem Segmented.length_le (h : g.Segmented nodes segments) :
  segments.length ≤ nodes.length
  := by
  induction h with
  | nil => apply Nat.le_refl
  | cons hnext hnodes _ ih =>
    have hpos := List.length_pos_of_ne_nil hnext.nodes_ne_nil
    rw [← hnodes, List.length_append, List.length_cons]
    omega

/-- The grammar and the sequence determine the division. -/
theorem Segmented.unique {others : List Segment} (h : g.Segmented nodes segments)
    (hothers : g.Segmented nodes others) :
  segments = others
  := by
  induction h generalizing others with
  | nil =>
    cases hothers with
    | nil => rfl
    | cons hnext hnodes _ => exact absurd (List.append_eq_nil_iff.mp hnodes).1 hnext.nodes_ne_nil
  | cons hnext hnodes _ ih =>
    cases hothers with
    | nil => exact absurd (List.append_eq_nil_iff.mp hnodes).1 hnext.nodes_ne_nil
    | cons hnext' hnodes' hrest' =>
      obtain rfl := hnext.unique hnext'
      rw [← hnodes, List.append_cancel_left_eq] at hnodes'
      rw [hnodes'] at hrest'
      rw [ih hrest']

end

/-- The greedy fold has one node for each segment of the division. -/
theorem exists_segmented (g : Grammar) (nodes : List Chunk) :
  ∃ segments, g.Segmented nodes segments ∧ g.greedy nodes = segments.map Segment.result
  := by
  fun_induction Grammar.greedy g nodes with
  | case1 => exact ⟨[], .nil, rfl⟩
  | case2 node rest hnone ih =>
    obtain ⟨segments, hsegments, hgreedy⟩ := ih
    have hnext : g.Next (node :: rest) (.kept node) := by
      apply Next.kept
      intro id rule hfirst
      rw [firstMatch?_eq_none_iff.mp hnone] at hfirst
      cases hfirst
    use .kept node :: segments, .cons hnext rfl hsegments
    rw [hgreedy, List.map_cons, Segment.result]
  | case3 node rest m hm hempty ih =>
    obtain ⟨segments, hsegments, hgreedy⟩ := ih
    obtain ⟨id, rule, hfirst, hrule, rfl⟩ := firstMatch?_eq_some_iff.mp hm
    have hzero : rule.arity = 0 := by simpa using hempty
    have hnext : g.Next (node :: rest) (.kept node) := by
      apply Next.kept
      intro id' rule' hfirst' hrule'
      obtain rfl := Option.some.inj (hfirst.symm.trans hfirst')
      rwa [Option.some.inj (hrule'.symm.trans hrule)]
    use .kept node :: segments, .cons hnext rfl hsegments
    rw [hgreedy, List.map_cons, Segment.result]
  | case4 node rest m hm hne hlt ih =>
    obtain ⟨segments, hsegments, hgreedy⟩ := ih
    obtain ⟨id, rule, hfirst, hrule, rfl⟩ := firstMatch?_eq_some_iff.mp hm
    have harity : 0 < rule.arity := by
      apply Nat.pos_of_ne_zero
      simpa using hne
    use .folded id rule ((node :: rest).take rule.arity) :: segments,
      .cons (.folded hfirst hrule harity) (List.take_append_drop _ _) hsegments
    rw [hgreedy, List.map_cons, Segment.result, Match.fold]
    rfl

end Grammar

namespace Chunker

/-! ### The fold of an analysis -/

theorem grammar_lookup {ν : Type} [Constituent ν] (c : Chunker) (window : List ν) :
  (c.lookup window).2.grammar = c.grammar
  := by
  have hprobe := c.grammar_probe window
  rw [lookup]
  split
  next ids next heq =>
    rw [heq] at hprobe
    apply hprobe
  next next heq =>
    rw [heq] at hprobe
    apply hprobe

theorem grammar_windowReports (c : Chunker) (nodes : List Chunk) (lengths : List Nat) :
  (c.windowReports nodes lengths).2.grammar = c.grammar
  := by
  induction lengths generalizing c with
  | nil => rfl
  | cons k lengths ih => rw [windowReports, ih, grammar_lookup]

theorem grammar_positionReports (c : Chunker) (start : Nat) (nodes : List Chunk) :
  (c.positionReports start nodes).2.grammar = c.grammar
  := by
  induction nodes generalizing c start with
  | nil => rfl
  | cons node rest ih => rw [positionReports, ih, grammar_windowReports]

/-- The lookups of an analysis do not matter for the greedy fold. -/
theorem folded_analyze (c : Chunker) (nodes : List Chunk) :
  (c.analyze nodes).1.folded = c.grammar.greedy nodes
  := by
  rw [analyze]
  simp only [grammar_positionReports]

/-- The greedy fold of an analysis comes from one division of the sequence into segments, none of
them empty: where a rule of positive arity comes first, the segment is what this rule consumes, and
the fold of these nodes stands for it, its score being the sum of their scores over their number;
everywhere else it is a node that stays as it is.  Undoing the folds gives the sequence back, the
result is not longer than the sequence, and no rule behind one of arity zero is applied. -/
theorem folded_analyze_segmented (c : Chunker) (nodes : List Chunk) :
  ∃ segments, c.grammar.Segmented nodes segments
    ∧ (∀ others, c.grammar.Segmented nodes others → others = segments)
    ∧ (c.analyze nodes).1.folded = segments.map Segment.result
    ∧ segments.flatMap Segment.nodes = nodes
    ∧ (∀ segment ∈ segments, segment.nodes ≠ [])
    ∧ (∀ id applied consumed, .folded id applied consumed ∈ segments →
      (Segment.folded id applied consumed).result.score
        = sumOfScores (consumed.map Chunk.score) / consumed.length.toFloat32)
    ∧ segments.flatMap Segment.unfolded = nodes
    ∧ (c.analyze nodes).1.folded.length ≤ nodes.length
    ∧ ∀ idle rule, c.grammar.rule? idle = some rule → rule.arity = 0 →
      ∀ id applied consumed, .folded id applied consumed ∈ segments → id < idle
  := by
  obtain ⟨segments, hsegments, hgreedy⟩ := c.grammar.exists_segmented nodes
  rw [folded_analyze, hgreedy]
  use segments, hsegments
  constructor
  · intro others hothers
    apply hothers.unique hsegments
  constructor
  · rfl
  constructor
  · apply hsegments.flatMap_nodes
  constructor
  · intro segment hmem
    apply hsegments.nodes_ne_nil hmem
  constructor
  · intro id applied consumed hmem
    apply Segment.score_result_folded id applied (hsegments.nodes_ne_nil hmem)
  constructor
  · simp only [funext Segment.unfolded_eq_nodes, hsegments.flatMap_nodes]
  constructor
  · rw [List.length_map]
    apply hsegments.length_le
  · intro idle rule hidle hzero id applied consumed hmem
    obtain ⟨rest, -, hnext⟩ := hsegments.exists_next hmem
    apply hnext.lt_of_arity_eq_zero hidle hzero

end Chunker

end Chunking
