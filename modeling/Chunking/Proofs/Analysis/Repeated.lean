import Chunking.Proofs.Analysis.Segments
import Chunking.Proofs.Lookup.Room

/-!
# Repeated analyses

An analysis asks a chunker for the windows at each position of a sequence, and for nothing else of
its cache.  When there is room for the contents of these windows, a second analysis of the sequence
finds all of them.
-/

namespace Chunking

/-- The windows that an analysis looks up, in order: at each position those that are no longer than
the largest arity, shorter ones first. -/
def Grammar.windows (g : Grammar) : List Chunk → List (List Chunk)
  | [] => []
  | node :: rest =>
    (List.range' 1 (min g.maxArity (node :: rest).length)).map (node :: rest).take ++ g.windows rest

namespace Chunker

/-! ### An analysis as lookups -/

theorem snd_windowReports_eq_run (c : Chunker) (nodes : List Chunk) (lengths : List Nat) :
  (c.windowReports nodes lengths).2
    = (run serve c ((lengths.map nodes.take).map Query.lookup)).2
  := by
  induction lengths generalizing c with
  | nil => rfl
  | cons k lengths ih =>
    rw [windowReports, List.map_cons, List.map_cons, run_cons, ih]
    rfl

theorem snd_positionReports_eq_run (c : Chunker) (start : Nat) (nodes : List Chunk) :
  (c.positionReports start nodes).2 = (run serve c ((c.grammar.windows nodes).map Query.lookup)).2
  := by
  induction nodes generalizing c start with
  | nil => rfl
  | cons node rest ih =>
    rw [Grammar.windows, List.map_append, snd_run_append, ← snd_windowReports_eq_run]
    have hrest := ih (c.windowReports (node :: rest)
      (List.range' 1 (min c.grammar.maxArity (node :: rest).length))).2 (start + 1)
    rw [grammar_windowReports] at hrest
    rw [positionReports, ← hrest]

/-- An analysis leaves a chunker as the lookups of its windows do. -/
theorem snd_analyze_eq_run (c : Chunker) (nodes : List Chunk) :
  (c.analyze nodes).2 = (run serve c ((c.grammar.windows nodes).map Query.lookup)).2
  := by
  rw [analyze, ← snd_positionReports_eq_run c 0]

/-- For every stretch of questions to a chunker that is new or has just dropped its answers, and
that drops none in this stretch: when it has room for all contents of the windows that are looked up
and for whose length there are rules, it evicts no answer, misses each content once, at the first
lookup, and answers every later one without a test.  Once a sequence has been analysed within the
stretch, another analysis of it misses nothing. -/
theorem scansOnce_after (g : Grammar) (capacity : Nat) (hcapacity : 0 < capacity)
    (past : List (Query Chunk)) (hpast : Released past) (stretch : List (Query Chunk))
    (hclear : .clear ∉ stretch) (hroom : (contents g stretch).card ≤ capacity) :
  ScansOnce g (after g capacity past) stretch
    ∧ ∀ earlier nodes later, earlier ++ (g.windows nodes).map .lookup ++ later = stretch →
      let analyzed := ((run serve (after g capacity past) earlier).2.analyze nodes).2
      let c := (run serve analyzed later).2
      (c.analyze nodes).2.stats.misses = c.stats.misses
  := by
  have hfilled := filled_after g hcapacity hpast
  obtain ⟨-, hsame⟩ := cached_after g hcapacity past
  rw [← hsame] at hroom
  constructor
  · apply scansOnce_run hfilled hclear hroom
  · intro earlier nodes later hstretch analyzed c
    have hgrammar : (run serve (after g capacity past) earlier).2.grammar = g := by
      rw [← after_append]
      apply grammar_after
    have hc : c = (run serve (after g capacity past) stretch).2 := by
      rw [← hstretch, snd_run_append, snd_run_append]
      simp only [c, analyzed, snd_analyze_eq_run, hgrammar]
    have hfirst : c.Filled g (after g capacity past).stats (contents g stretch) := by
      rw [hc]
      apply filled_run hfilled hclear hroom
    -- The windows of the second analysis are among those of the stretch.
    have hcontents : contents g (stretch ++ (g.windows nodes).map Query.lookup)
        = contents g stretch := by
      rw [contents_append, ← hstretch, contents_append, contents_append]
      apply Finset.union_eq_left.mpr
      apply Finset.subset_union_right.trans Finset.subset_union_left
    have hsecond : (c.analyze nodes).2.Filled g (after g capacity past).stats
        (contents g stretch) := by
      rw [snd_analyze_eq_run, hfirst.cached.grammar_eq, hc, ← snd_run_append, ← hcontents]
      apply filled_run hfilled
      · simpa using hclear
      · rwa [hcontents]
    rw [hsecond.misses_eq, hfirst.misses_eq]

/-- A cache of two answers has room for the two contents of an analysis, whatever the scores are and
whatever was dropped before. -/
theorem scansOnce_after_clear :
  let g := Grammar.grown [{ left := "X", right := "N" }]
  let noun := Chunk.ofTags (Grammemes.ofList ["N"])
  let verb := Chunk.ofTags (Grammemes.ofList ["V"])
  let past : List (Query Chunk) := [.lookup [verb], .clear]
  let earlier : List (Query Chunk) := [.lookup [{ noun with score := 0.5 }], .first [noun]]
  let later : List (Query Chunk) := [.lookup [noun, verb]]
  let stretch := earlier ++ (g.windows [noun, verb]).map .lookup ++ later
  0 < 2 ∧ (contents g stretch).card = 2
    ∧ ScansOnce g (after g 2 past) stretch
    ∧ let analyzed := ((run serve (after g 2 past) earlier).2.analyze [noun, verb]).2
      let c := (run serve analyzed later).2
      (c.analyze [noun, verb]).2.stats.misses = c.stats.misses
  := by
  intro g noun verb past earlier later stretch
  have hcard : (contents g stretch).card = 2 := by decide +kernel
  have hclear : .clear ∉ stretch := by
    simp [stretch, earlier, later]
  obtain ⟨hscans, hagain⟩ := scansOnce_after g 2 (by decide) past (.clear [.lookup [verb]]) stretch
    hclear hcard.le
  refine ⟨by decide, hcard, hscans, ?_⟩
  apply hagain earlier [noun, verb] later rfl

end Chunker

end Chunking
