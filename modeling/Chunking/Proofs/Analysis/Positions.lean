import Chunking.Analysis
import Chunking.Proofs.Lookup.Priority
import Mathlib.Data.List.Forall2

/-!
# Reports on positions

The analysis of a sequence looks up the windows at each position, up to the largest arity, while the
cache fills and drops answers.  The report says nevertheless what a look at all rules says: at each
position, every rule of positive arity that fits from there on is listed once, in the entry of its
arity, and nothing else is listed.  So what is said of a sequence depends on the grammar only.
-/

namespace Chunking

/-- The number of nodes of the window. -/
def WindowReport.width (w : WindowReport) : Nat :=
  w.nodes.length

/-- What a report says of the sequence itself. -/
def Report.content (report : Report) : List PositionReport × List Chunk :=
  (report.positions, report.folded)

/-- A report on position `s` that is sound and complete, when `nodes` is the sequence from this
position on. -/
structure PositionReport.Faithful (g : Grammar) (s : Nat) (nodes : List Chunk)
    (p : PositionReport) : Prop where
  start_eq : p.start = s
  node_eq : nodes.head? = some p.node
  first_eq : p.first = g.first? nodes
  widths_ascending : (p.windows.map WindowReport.width).Pairwise (· < ·)
  /-- A window is listed exactly when some rule folds it. -/
  exists_width_iff (k : Nat) :
    (∃ w ∈ p.windows, w.width = k)
      ↔ 0 < k ∧ k ≤ nodes.length ∧ ∃ rule ∈ g.rules, rule.folds (nodes.take k)
  nodes_eq {w : WindowReport} (hw : w ∈ p.windows) : w.nodes = nodes.take w.width
  /-- The entry of a window has the texts of the rules that fold it, in order of priority. -/
  texts_eq {w : WindowReport} (hw : w ∈ p.windows) :
    w.ids.map g.ruleText
      = (g.rules.toList.filter fun rule => rule.folds w.nodes).map Rule.display
  /-- The rules listed are those of positive arity that fit. -/
  mem_ids_iff (id : Nat) :
    id ∈ p.windows.flatMap WindowReport.ids
      ↔ ∃ rule, g.rule? id = some rule ∧ 0 < rule.arity ∧ rule.fits nodes
  nodup_ids : (p.windows.flatMap WindowReport.ids).Nodup
  arity_eq {w : WindowReport} (hw : w ∈ p.windows) {id : Nat} (hid : id ∈ w.ids) {rule : Rule}
    (hrule : g.rule? id = some rule) : rule.arity = w.width
  /-- The first rule is listed in the entry of its arity, unless its arity is zero. -/
  exists_of_first {id : Nat} (hfirst : p.first = some id) {rule : Rule}
    (hrule : g.rule? id = some rule) (harity : 0 < rule.arity) :
    ∃ w ∈ p.windows, w.width = rule.arity ∧ id ∈ w.ids
  windows_eq_nil (hfirst : p.first = none) : p.windows = []

namespace Grammar

/-! ### Reports by a look at all rules -/

/-- The report on the window of the first `k` nodes. -/
def windowReport (g : Grammar) (nodes : List Chunk) (k : Nat) : WindowReport :=
  ⟨nodes.take k, g.folding (nodes.take k)⟩

/-- The reports on the windows of the given lengths that some rule folds. -/
def windowReports (g : Grammar) (nodes : List Chunk) (lengths : List Nat) : List WindowReport :=
  (lengths.map (g.windowReport nodes)).filter fun w => !w.ids.isEmpty

/-- The report on position `s`, from which on the sequence is `node` and so forth. -/
def positionReport (g : Grammar) (s : Nat) (node : Chunk) (nodes : List Chunk) :
    PositionReport :=
  ⟨s, node, g.first? nodes, g.windowReports nodes (List.range' 1 (min nodes.length g.maxArity))⟩

/-- The reports on the positions of a sequence, the first of which has the number `start`. -/
def positionReports (g : Grammar) (start : Nat) (nodes : List Chunk) : List PositionReport :=
  nodes.mapIdx fun i node => g.positionReport (start + i) node (nodes.drop i)

section

variable {g : Grammar} {nodes : List Chunk}

theorem width_windowReport {k : Nat} (h : k ≤ nodes.length) :
  (g.windowReport nodes k).width = k
  := List.length_take_of_le h

theorem windowReports_cons (k : Nat) (lengths : List Nat) :
  g.windowReports nodes (k :: lengths)
    = if (g.folding (nodes.take k)).isEmpty then g.windowReports nodes lengths
      else g.windowReport nodes k :: g.windowReports nodes lengths
  := by
  simp only [windowReports, windowReport, List.map_cons, List.filter_cons, Bool.not_eq_true']
  cases (g.folding (nodes.take k)).isEmpty with
  | true => rfl
  | false => rfl

theorem positionReports_cons (start : Nat) (node : Chunk) :
  g.positionReports start (node :: nodes)
    = g.positionReport start node (node :: nodes) :: g.positionReports (start + 1) nodes
  := by
  rw [positionReports, List.mapIdx_cons, positionReports]
  simp only [List.drop_succ_cons, Nat.add_right_comm start, Nat.add_assoc start]
  rfl

theorem windowReports_eq_map_filter (lengths : List Nat) :
  g.windowReports nodes lengths
    = (lengths.filter fun k => !(g.folding (nodes.take k)).isEmpty).map (g.windowReport nodes)
  := by
  rw [windowReports, List.filter_map]
  rfl

/-- The windows that are listed are those up to the largest arity that some rule folds. -/
theorem mem_windowReports_iff {bound : Nat} {w : WindowReport} :
  w ∈ g.windowReports nodes (List.range' 1 bound)
    ↔ ∃ k, (0 < k ∧ k ≤ bound ∧ g.folding (nodes.take k) ≠ []) ∧ g.windowReport nodes k = w
  := by
  rw [windowReports_eq_map_filter, List.mem_map]
  apply exists_congr
  intro k
  apply and_congr_left
  intro _
  rw [List.mem_filter, List.mem_range'_1, Bool.not_eq_true', List.isEmpty_eq_false_iff, and_assoc]
  apply and_congr Iff.rfl (and_congr _ Iff.rfl)
  omega

/-- The entry of a window has the rules of its width that fit the sequence. -/
theorem mem_ids_windowReport_iff {k : Nat} (hk : k ≤ nodes.length) {id : Nat} :
  id ∈ (g.windowReport nodes k).ids
    ↔ ∃ rule, g.rule? id = some rule ∧ rule.arity = k ∧ rule.fits nodes
  := by
  rw [windowReport, mem_folding_iff]
  simp only [Rule.folds_take_iff hk]

/-! ### Entries of a position -/

section

variable {bound : Nat} (hbound : bound ≤ nodes.length)
include hbound

/-- Shorter windows come first, and no width comes twice. -/
theorem pairwise_width_windowReports :
  (g.windowReports nodes (List.range' 1 bound)).Pairwise fun v w => v.width < w.width
  := by
  rw [windowReports_eq_map_filter, List.pairwise_map]
  have hascending := (List.pairwise_lt_range' (s := 1) (n := bound)).filter fun k =>
    !(g.folding (nodes.take k)).isEmpty
  apply hascending.imp_of_mem
  intro j k hj hk hlt
  have hj := (List.mem_range'_1.mp (List.mem_of_mem_filter hj)).2
  have hk := (List.mem_range'_1.mp (List.mem_of_mem_filter hk)).2
  rw [width_windowReport (by omega), width_windowReport (by omega)]
  apply hlt

theorem nodes_eq_take_width {w : WindowReport}
    (hw : w ∈ g.windowReports nodes (List.range' 1 bound)) :
  w.nodes = nodes.take w.width
  := by
  obtain ⟨k, ⟨-, hk, -⟩, rfl⟩ := mem_windowReports_iff.mp hw
  rw [width_windowReport (Nat.le_trans hk hbound), windowReport]

/-- What an entry lists. -/
theorem mem_ids_iff_of_mem_windowReports {w : WindowReport}
    (hw : w ∈ g.windowReports nodes (List.range' 1 bound)) {id : Nat} :
  id ∈ w.ids ↔ ∃ rule, g.rule? id = some rule ∧ rule.arity = w.width ∧ rule.fits nodes
  := by
  obtain ⟨k, ⟨-, hk, -⟩, rfl⟩ := mem_windowReports_iff.mp hw
  have hk := Nat.le_trans hk hbound
  rw [width_windowReport hk, mem_ids_windowReport_iff hk]

theorem width_pos {w : WindowReport} (hw : w ∈ g.windowReports nodes (List.range' 1 bound)) :
  0 < w.width
  := by
  obtain ⟨k, ⟨hpos, hk, -⟩, rfl⟩ := mem_windowReports_iff.mp hw
  rwa [width_windowReport (Nat.le_trans hk hbound)]

/-- The rules of an entry have the width of its window as their arity. -/
theorem arity_eq_width {w : WindowReport} (hw : w ∈ g.windowReports nodes (List.range' 1 bound))
    {id : Nat} (hid : id ∈ w.ids) {rule : Rule} (hrule : g.rule? id = some rule) :
  rule.arity = w.width
  := by
  obtain ⟨found, hfound, harity, -⟩ := (mem_ids_iff_of_mem_windowReports hbound hw).mp hid
  rw [hrule] at hfound
  rw [Option.some.inj hfound, harity]

/-- No rule is listed twice. -/
theorem nodup_flatMap_ids :
  ((g.windowReports nodes (List.range' 1 bound)).flatMap WindowReport.ids).Nodup
  := by
  apply List.nodup_flatMap.mpr
  constructor
  · intro w hw
    obtain ⟨k, -, rfl⟩ := mem_windowReports_iff.mp hw
    apply (g.pairwise_lt_folding _).imp Nat.ne_of_lt
  · apply (pairwise_width_windowReports hbound).imp_of_mem
    intro v w hv hw hlt id hidv hidw
    obtain ⟨rule, hrule, -⟩ := (mem_ids_iff_of_mem_windowReports hbound hv).mp hidv
    rw [← arity_eq_width hbound hv hidv hrule, ← arity_eq_width hbound hw hidw hrule] at hlt
    apply Nat.lt_irrefl _ hlt

end

end

section

variable {g : Grammar} (h : g.Bounded) {nodes : List Chunk}
include h

/-- A rule of positive arity that fits is listed in the entry of its arity. -/
theorem Bounded.exists_mem_windowReports {id : Nat} {rule : Rule} (hrule : g.rule? id = some rule)
    (harity : 0 < rule.arity) (hfits : rule.fits nodes) :
  ∃ w ∈ g.windowReports nodes (List.range' 1 (min nodes.length g.maxArity)),
    w.width = rule.arity ∧ id ∈ w.ids
  := by
  have hle := h.arity_le_of_fits hrule hfits
  have hlength := Nat.le_trans hle (Nat.min_le_left _ _)
  have hid : id ∈ (g.windowReport nodes rule.arity).ids :=
    (mem_ids_windowReport_iff hlength).mpr ⟨rule, hrule, rfl, hfits⟩
  use g.windowReport nodes rule.arity
  constructor
  · apply mem_windowReports_iff.mpr
    exact ⟨_, ⟨harity, hle, List.ne_nil_of_mem hid⟩, rfl⟩
  · exact ⟨width_windowReport hlength, hid⟩

/-- The report on a position by a look at all rules is sound and complete, since no rule is wider
than the windows that are looked at. -/
theorem Bounded.faithful_positionReport (s : Nat) {node : Chunk} (hnode : nodes.head? = some node) :
  (g.positionReport s node nodes).Faithful g s nodes
  := by
  have hbound : min nodes.length g.maxArity ≤ nodes.length := Nat.min_le_left _ _
  constructor
  · rfl
  · apply hnode
  · rfl
  · apply List.pairwise_map.mpr
    apply pairwise_width_windowReports hbound
  · intro k
    constructor
    · rintro ⟨w, hw, rfl⟩
      obtain ⟨k, ⟨hpos, hk, hne⟩, rfl⟩ := mem_windowReports_iff.mp hw
      have hk := Nat.le_trans hk hbound
      rw [width_windowReport hk]
      exact ⟨hpos, hk, folding_ne_nil_iff.mp hne⟩
    · rintro ⟨hpos, hk, rule, hrule, hfolds⟩
      obtain ⟨rfl, hfits⟩ := (Rule.folds_take_iff hk).mp hfolds
      obtain ⟨id, hid⟩ := Array.mem_iff_getElem?.mp hrule
      obtain ⟨w, hw, hwidth, -⟩ := h.exists_mem_windowReports hid hpos hfits
      use w, hw, hwidth
  · intro w
    apply nodes_eq_take_width hbound
  · intro w hw
    obtain ⟨k, -, rfl⟩ := mem_windowReports_iff.mp hw
    apply map_ruleText_folding
  · intro id
    rw [List.mem_flatMap]
    constructor
    · rintro ⟨w, hw, hid⟩
      obtain ⟨rule, hrule, harity, hfits⟩ := (mem_ids_iff_of_mem_windowReports hbound hw).mp hid
      use rule, hrule
      rw [harity]
      exact ⟨width_pos hbound hw, hfits⟩
    · rintro ⟨rule, hrule, harity, hfits⟩
      obtain ⟨w, hw, -, hid⟩ := h.exists_mem_windowReports hrule harity hfits
      use w, hw, hid
  · apply nodup_flatMap_ids hbound
  · intro w hw id hid rule hrule
    apply arity_eq_width hbound hw hid hrule
  · intro id hfirst rule hrule harity
    obtain ⟨found, hfound, hfits⟩ := (first?_eq_some_iff.mp hfirst).1
    rw [hrule] at hfound
    obtain rfl := Option.some.inj hfound
    apply h.exists_mem_windowReports hrule harity hfits
  · intro hfirst
    apply List.eq_nil_iff_forall_not_mem.mpr
    intro w hw
    obtain ⟨k, ⟨-, -, hne⟩, rfl⟩ := mem_windowReports_iff.mp hw
    obtain ⟨id, hid⟩ := List.exists_mem_of_ne_nil _ hne
    obtain ⟨rule, hrule, -, hfits⟩ := (mem_ids_iff_of_mem_windowReports hbound hw).mp hid
    apply first?_eq_none_iff.mp hfirst id ⟨rule, hrule, hfits⟩

/-- The reports on all positions are sound and complete. -/
theorem Bounded.faithful_of_getElem?_positionReports {s : Nat} {p : PositionReport}
    (hp : (g.positionReports 0 nodes)[s]? = some p) :
  p.Faithful g s (nodes.drop s)
  := by
  rw [positionReports, List.getElem?_mapIdx, Option.map_eq_some_iff] at hp
  obtain ⟨node, hnode, rfl⟩ := hp
  rw [Nat.zero_add]
  apply h.faithful_positionReport
  rw [List.head?_drop, hnode]

end

end Grammar

namespace Chunker

/-! ### Positions of a sequence -/

/-- The chunkers that lookups lead to, after a chunker of the grammar was asked some questions. -/
def AfterLookups (g : Grammar) (capacity : Nat) (asked : List (Query Chunk)) (c : Chunker) : Prop :=
  ∃ windows : List (List Chunk), c = after g capacity (asked ++ windows.map Query.lookup)

theorem afterLookups_after (g : Grammar) (capacity : Nat) (asked : List (Query Chunk)) :
  (after g capacity asked).AfterLookups g capacity asked
  := by
  use []
  rw [List.map_nil, List.append_nil]

namespace AfterLookups

variable {g : Grammar} {capacity : Nat} {asked : List (Query Chunk)} {c : Chunker}

theorem grammar_eq (h : c.AfterLookups g capacity asked) :
  c.grammar = g
  := by
  obtain ⟨windows, rfl⟩ := h
  apply grammar_after

/-- A lookup is answered by a look at all rules. -/
theorem lookup (hfiled : g.Filed) (h : c.AfterLookups g capacity asked) (window : List Chunk) :
  (c.lookup window).1.ids = g.folding window
    ∧ (c.lookup window).2.AfterLookups g capacity asked
  := by
  obtain ⟨windows, rfl⟩ := h
  constructor
  · apply ids_lookup_after hfiled
  · use windows ++ [window]
    rw [List.map_append, ← List.append_assoc]
    symm
    apply after_append

/-- The windows that are listed are those that a look at all rules lists. -/
theorem windowReports (hfiled : g.Filed) (h : c.AfterLookups g capacity asked) (nodes : List Chunk)
    (lengths : List Nat) :
  (c.windowReports nodes lengths).1 = g.windowReports nodes lengths
    ∧ (c.windowReports nodes lengths).2.AfterLookups g capacity asked
  := by
  induction lengths generalizing c with
  | nil => exact ⟨rfl, h⟩
  | cons k lengths ih =>
    obtain ⟨hids, hnext⟩ := h.lookup hfiled (nodes.take k)
    obtain ⟨hrest, hfinal⟩ := ih hnext
    constructor
    · simp only [Chunker.windowReports, hids, hrest]
      rw [Grammar.windowReports_cons]
      rfl
    · apply hfinal

theorem positionReports (hfiled : g.Filed) (h : c.AfterLookups g capacity asked) (start : Nat)
    (nodes : List Chunk) :
  (c.positionReports start nodes).1 = g.positionReports start nodes
    ∧ (c.positionReports start nodes).2.AfterLookups g capacity asked
  := by
  induction nodes generalizing start c with
  | nil => exact ⟨rfl, h⟩
  | cons node rest ih =>
    obtain ⟨hwindows, hnext⟩ := h.windowReports hfiled (node :: rest)
      (List.range' 1 (min g.maxArity (node :: rest).length))
    obtain ⟨hpositions, hfinal⟩ := ih hnext (start + 1)
    constructor
    · simp only [Chunker.positionReports, h.grammar_eq, hwindows, hpositions]
      rw [Grammar.positionReports_cons, Nat.min_comm]
      rfl
    · simpa only [Chunker.positionReports, h.grammar_eq] using hfinal

/-- What a report says of the sequence is what a look at all rules says. -/
theorem analyze (hfiled : g.Filed) (h : c.AfterLookups g capacity asked) (nodes : List Chunk) :
  (c.analyze nodes).1.content = (g.positionReports 0 nodes, g.greedy nodes)
    ∧ (c.analyze nodes).2.AfterLookups g capacity asked
  := by
  obtain ⟨hpositions, hfinal⟩ := h.positionReports hfiled 0 nodes
  constructor
  · simp only [Chunker.analyze, Report.content, hpositions, hfinal.grammar_eq]
  · apply hfinal

end AfterLookups

/-- On every sequence that is analysed, after any questions and other analyses, the reports on the
positions are sound and complete.  They and the greedy fold are the same as without a cache and
without a history, and an analysis leaves a chunker as some lookups do. -/
theorem run_analyze_faithful (ps : List Production) (capacity : Nat) (asked : List (Query Chunk))
    (sequences : List (List Chunk)) :
  let g := Grammar.grown ps
  let reports := (run analyze (after g capacity asked) sequences).1
  List.Forall₂
      (fun nodes (report : Report) => report.positions.length = nodes.length
        ∧ ∀ s (position : PositionReport), report.positions[s]? = some position →
          position.Faithful g s (nodes.drop s))
      sequences reports
    ∧ reports.map Report.content
      = sequences.map (fun nodes => ((ofGrammar g 0).analyze nodes).1.content)
    ∧ (run analyze (after g capacity asked) sequences).2.AfterLookups g capacity asked
  := by
  intro g reports
  have hfiled : g.Filed := Grammar.filed_grown ps
  have hbounded : g.Bounded := Grammar.bounded_grown ps
  have hstart := afterLookups_after g capacity asked
  have hcontents : reports.map Report.content
      = sequences.map fun nodes => (g.positionReports 0 nodes, g.greedy nodes) := by
    apply map_run_eq_map _ hstart
    intro nodes _ c hc
    apply hc.analyze hfiled
  constructor
  · have hpairs : List.Forall₂ Eq (reports.map Report.content)
        (sequences.map fun nodes => (g.positionReports 0 nodes, g.greedy nodes)) := by
      rw [List.forall₂_eq_eq_eq, hcontents]
    rw [List.forall₂_map_left_iff, List.forall₂_map_right_iff] at hpairs
    apply hpairs.flip.imp
    intro nodes report hreport
    have hpositions : report.positions = g.positionReports 0 nodes := congrArg Prod.fst hreport
    rw [hpositions]
    constructor
    · apply List.length_mapIdx
    · intro s position
      apply hbounded.faithful_of_getElem?_positionReports
  constructor
  · rw [hcontents]
    apply List.map_congr_left
    intro nodes _
    symm
    apply ((afterLookups_after g 0 []).analyze hfiled nodes).1
  · apply run_invariant _ hstart
    intro nodes _ c hc
    apply (hc.analyze hfiled nodes).2

end Chunker

end Chunking
