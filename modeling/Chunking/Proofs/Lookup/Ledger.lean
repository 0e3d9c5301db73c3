import Chunking.Proofs.Clock.Ledger
import Chunking.Proofs.Lookup.Stored

/-!
# The ledger of a chunker

The cache of a chunker is reached by the lookups of windows for whose length there are rules, and by
nothing else.  A lookup that misses stores its answer under a key that is absent, so every answer
stored is still there, was evicted, or went when all answers were dropped.
-/

namespace Chunking

variable {ν : Type}

/-- A use of a chunker: a question, or the application of one of its rules. -/
inductive Call (ν : Type) where
  | ask (query : Query ν)
  /-- The rule of the given id folds the first nodes of a sequence, if it fits. -/
  | apply (id : Nat) (scorer : Scorer ν) (nodes : List ν)

/-- Whether a use is a lookup of a window for whose length there are rules. -/
def Call.reaches (g : Grammar) : Call ν → Bool
  | .ask (.lookup window) => !(g.bucket window.length).isEmpty
  | _ => false

namespace Chunker

/-- The number of answers held when all answers are dropped. -/
def released (c : Chunker) : Call ν → Nat
  | .ask .clear => c.stats.size
  | _ => 0

/-- What a use adds to the statistics of a chunker of `g`. -/
structure Booked (g : Grammar) (c : Chunker) (use : Call ν) (next : Chunker) : Prop where
  lookups_eq : next.stats.hits + next.stats.misses
    = c.stats.hits + c.stats.misses + if use.reaches g then 1 else 0
  /-- What is missed is inserted. -/
  insertions_eq : next.stats.insertions + c.stats.misses = c.stats.insertions + next.stats.misses
  entries_eq : next.stats.misses + (c.stats.evictions + c.stats.size)
    = c.stats.misses + (next.stats.evictions + next.stats.size) + c.released use

/-! ### Chunkers with a cache -/

/-- A chunker of a grammar that has a cache, in a state that it can reach. -/
structure Cached (c : Chunker) (g : Grammar) : Prop where
  grammar_eq : c.grammar = g
  consistent : c.Consistent
  isSome_cache : c.cache.isSome

theorem cached_ofGrammar (g : Grammar) {capacity : Nat} (h : 0 < capacity) :
  (ofGrammar g capacity).Cached g
  := by
  constructor
  · rfl
  · apply consistent_ofGrammar
  · rw [ofGrammar, dif_pos h]
    rfl

theorem stats_ofGrammar (g : Grammar) {capacity : Nat} (h : 0 < capacity) :
  (ofGrammar g capacity).stats = { capacity := capacity }
  := by
  rw [ofGrammar, dif_pos h]
  rfl

section

variable {c : Chunker} {g : Grammar} (h : c.Cached g)
include h

theorem Cached.clear :
  c.clear.Cached g
  := by
  constructor
  · apply h.grammar_eq
  · apply consistent_clear
  · rw [Chunker.clear, Option.isSome_map]
    apply h.isSome_cache

theorem Cached.stats_clear :
  c.clear.stats = { c.stats with size := 0 }
  := by
  obtain ⟨clock, hclock⟩ := Option.isSome_iff_exists.mp h.isSome_cache
  rw [stats, Chunker.clear, hclock, stats, hclock]
  rfl

theorem Cached.booked_clear :
  Booked g c (.ask .clear : Call ν) c.clear
  := by
  constructor
  all_goals simp [h.stats_clear, Call.reaches, released]
  omega

end

/-! ### The steps of a lookup -/

variable [Constituent ν]

/-- The answer of a scan is stored where there is none. -/
theorem stored?_probe_of_none {c : Chunker} {window : List ν}
    (hprobe : (c.probe window).1 = none) :
  (c.probe window).2.stored? (windowKey window) = none
  := by
  have hbucket : c.grammar.bucket window.length ≠ [] := by
    intro hnil
    rw [probe_of_bucket_eq_nil hnil] at hprobe
    cases hprobe
  rw [stored?_probe, ← fst_probe hbucket, hprobe]

section

variable {c : Chunker} {g : Grammar} (h : c.Cached g)
include h

theorem Cached.probe (window : List ν) :
  (c.probe window).2.Cached g
  := by
  constructor
  · rw [grammar_probe, h.grammar_eq]
  · apply h.consistent.probe
  · rw [isSome_cache_probe, h.isSome_cache]

theorem Cached.store (window : List ν) :
  (c.store window).Cached g
  := by
  constructor
  · apply h.grammar_eq
  · apply h.consistent.store
  · rw [Chunker.store, Option.isSome_map]
    apply h.isSome_cache

theorem Cached.stats_probe {window : List ν} (hbucket : g.bucket window.length ≠ []) :
  (c.probe window).2.stats
    = if (c.stored? (windowKey window)).isSome then { c.stats with hits := c.stats.hits + 1 }
      else { c.stats with misses := c.stats.misses + 1 }
  := by
  obtain ⟨clock, hclock⟩ := Option.isSome_iff_exists.mp h.isSome_cache
  rw [← h.grammar_eq] at hbucket
  have hprobe : (c.probe window).2.stats = (clock.get (windowKey window)).2.stats := by
    rw [Chunker.probe, if_neg (by simpa using hbucket), hclock]
    rfl
  rw [hprobe, clock.stats_get, stored?, stats, hclock]
  rfl

theorem Cached.stats_store (window : List ν) :
  (c.store window).stats
    = if (c.stored? (windowKey window)).isSome then
        { c.stats with insertions := c.stats.insertions + 1 }
      else if c.stats.size < c.stats.capacity then
        { c.stats with insertions := c.stats.insertions + 1, size := c.stats.size + 1 }
      else
        { c.stats with
          insertions := c.stats.insertions + 1, evictions := c.stats.evictions + 1 }
  := by
  obtain ⟨clock, hclock⟩ := Option.isSome_iff_exists.mp h.isSome_cache
  have hstore : (c.store window).stats
      = (clock.insert (windowKey window) (c.grammar.scan window)).stats := by
    rw [Chunker.store, stats, hclock]
    rfl
  rw [hstore, Clock.stats_insert (h.consistent clock hclock), stored?, stats, hclock]
  rfl

/-! ### Lookups -/

theorem Cached.lookup (window : List ν) :
  (c.lookup window).2.Cached g
  := by
  by_cases hbucket : c.grammar.bucket window.length = []
  · rw [lookup_of_bucket_eq_nil hbucket]
    apply h
  · cases hstored : c.stored? (windowKey window) with
    | some ids =>
      rw [lookup_of_stored hbucket hstored]
      apply h.probe
    | none =>
      rw [lookup_of_not_stored hbucket hstored]
      apply (h.probe window).store

theorem Cached.stats_lookup {window : List ν} (hbucket : g.bucket window.length ≠ []) :
  (c.lookup window).2.stats
    = if (c.stored? (windowKey window)).isSome then { c.stats with hits := c.stats.hits + 1 }
      else if c.stats.size < c.stats.capacity then
        { c.stats with
          misses := c.stats.misses + 1
          insertions := c.stats.insertions + 1
          size := c.stats.size + 1 }
      else
        { c.stats with
          misses := c.stats.misses + 1
          insertions := c.stats.insertions + 1
          evictions := c.stats.evictions + 1 }
  := by
  have hprobe := h.stats_probe hbucket
  rw [← h.grammar_eq] at hbucket
  cases hstored : c.stored? (windowKey window) with
  | some ids =>
    rw [hstored] at hprobe
    rw [lookup_of_stored hbucket hstored, hprobe]
    rfl
  | none =>
    rw [hstored] at hprobe
    rw [lookup_of_not_stored hbucket hstored, (h.probe window).stats_store, stored?_probe, hstored,
      hprobe]
    rfl

theorem Cached.booked_lookup {window : List ν} (hbucket : g.bucket window.length ≠ []) :
  Booked g c (.ask (.lookup window)) (c.lookup window).2
  := by
  have hstats := h.stats_lookup hbucket
  split at hstats
  next =>
    constructor
    all_goals simp [hstats, Call.reaches, hbucket, released]
    omega
  next =>
    split at hstats
    next =>
      constructor
      all_goals simp [hstats, Call.reaches, hbucket, released]
      all_goals omega
    next =>
      constructor
      all_goals simp [hstats, Call.reaches, hbucket, released]
      all_goals omega

end

/-! ### Uses -/

/-- The result of a use, which is the answer to the question or the folded node, and the chunker
after it. -/
def call (c : Chunker) : Call ν → (Reply ⊕ Option ν) × Chunker
  | .ask query =>
    let (reply, next) := c.serve query
    (.inl reply, next)
  | .apply id scorer nodes =>
    (.inr ((c.grammar.rule? id).bind fun rule => rule.fold? scorer nodes), c)

section

variable {c : Chunker} {g : Grammar} (h : c.Cached g)
include h

/-- A use that neither looks up a window for whose length there are rules nor drops the answers
leaves the chunker as it is. -/
theorem Cached.call_of_not_reaches {use : Call ν} (hreaches : ¬use.reaches g)
    (hclear : use ≠ .ask .clear) :
  (c.call use).2 = c
  := by
  cases use with
  | ask query =>
    cases query with
    | lookup window =>
      have hbucket : c.grammar.bucket window.length = [] := by
        simpa [Call.reaches, h.grammar_eq] using hreaches
      simp only [call, serve, lookup_of_bucket_eq_nil hbucket]
    | first nodes => rfl
    | clear => contradiction
  | apply id scorer nodes => rfl

theorem Cached.call (use : Call ν) :
  (c.call use).2.Cached g
  := by
  cases use with
  | ask query =>
    cases query with
    | lookup window => apply h.lookup
    | first nodes => apply h
    | clear => apply h.clear
  | apply id scorer nodes => apply h

/-- Every use is booked. -/
theorem Cached.booked (use : Call ν) :
  Booked g c use (c.call use).2
  := by
  by_cases hreaches : use.reaches g = true
  · cases use with
    | ask query =>
      cases query with
      | lookup window =>
        apply h.booked_lookup
        simpa [Call.reaches] using hreaches
      | first nodes => cases hreaches
      | clear => cases hreaches
    | apply id scorer nodes => cases hreaches
  · by_cases hclear : use = .ask .clear
    · subst hclear
      apply h.booked_clear
    · rw [h.call_of_not_reaches hreaches hclear]
      have hreleased : c.released use = 0 := by
        rw [released]
        simpa using hclear
      constructor
      · simp [hreaches]
      · rfl
      · rw [hreleased, Nat.add_zero]

end

/-! ### The account of a run -/

/-- The statistics of a chunker as an account of all its uses since it was new. -/
structure Ledger (g : Grammar) (capacity : Nat) (uses : List (Call ν)) (c : Chunker) : Prop where
  lookups_eq : c.stats.hits + c.stats.misses = uses.countP (Call.reaches g)
  insertions_eq : c.stats.insertions = c.stats.misses
  entries_eq : c.stats.misses
    = c.stats.evictions + c.stats.size + tally call released (ofGrammar g capacity) uses
  /-- An answer is stored only where there is none. -/
  stored?_of_probe {window : List ν} (hprobe : (c.probe window).1 = none) :
    (c.probe window).2.stored? (windowKey window) = none
  call_of_not_reaches {use : Call ν} (hreaches : ¬use.reaches g) (hclear : use ≠ .ask .clear) :
    (c.call use).2 = c

/-- After any uses the statistics of a chunker account for them. -/
theorem ledger_run (g : Grammar) {capacity : Nat} (h : 0 < capacity) (uses : List (Call ν)) :
  Ledger g capacity uses (run call (ofGrammar g capacity) uses).2
  := by
  have hstart := cached_ofGrammar g h
  have hstats := stats_ofGrammar g h
  obtain ⟨hfinal, hmisses⟩ : (run call (ofGrammar g capacity) uses).2.Cached g
      ∧ (run call (ofGrammar g capacity) uses).2.stats.insertions
        = (run call (ofGrammar g capacity) uses).2.stats.misses := by
    apply run_invariant (P := fun c : Chunker => c.Cached g ∧ c.stats.insertions = c.stats.misses)
    · rintro use - c ⟨hc, hmisses⟩
      have hbooked := (hc.booked use).insertions_eq
      use hc.call use
      omega
    · rw [hstats]
      exact ⟨hstart, rfl⟩
  constructor
  · have hrun := run_count call (P := fun c : Chunker => c.Cached g)
      (f := fun c => c.stats.hits + c.stats.misses)
      (fun use c hc => ⟨hc.call use, (hc.booked use).lookups_eq⟩) hstart uses
    simpa [hstats] using hrun
  · apply hmisses
  · have hrun := run_balance call (P := fun c : Chunker => c.Cached g)
      (f := fun c => c.stats.misses) (g := fun c => c.stats.evictions + c.stats.size)
      (fun use c hc => ⟨hc.call use, (hc.booked use).entries_eq⟩) hstart uses
    simp only [hstats] at hrun
    omega
  · intro window
    apply stored?_probe_of_none
  · intro use
    apply hfinal.call_of_not_reaches

/-- The statistics of a cache account for the requests made of it, and those of a chunker for its
uses. -/
theorem statistics_ledger (g : Grammar) (capacity : Nat) (h : 0 < capacity) :
  (∀ (α : Type) (requests : List (Clock.Request α)),
    Clock.Ledger capacity h requests (Clock.after capacity h requests))
    ∧ ∀ uses : List (Call ν), Ledger g capacity uses (run call (ofGrammar g capacity) uses).2
  := by
  constructor
  · intro α requests
    apply Clock.ledger_after
  · intro uses
    apply ledger_run g h

/-- A cache of one entry, and a chunker that keeps one answer: in both, one entry is evicted and
the other one is dropped at the end. -/
theorem statistics_ledger_one :
  let requests : List (Clock.Request Nat) :=
    [.insert "a" 0, .insert "a" 1, .insert "b" 2, .get "b", .clear]
  let g := Grammar.grown [{ left := "X", right := "N" }]
  let noun := Chunk.ofTags (Grammemes.ofList ["N"])
  let verb := Chunk.ofTags (Grammemes.ofList ["V"])
  let uses : List (Call Chunk) :=
    [.ask (.lookup [noun]), .ask (.lookup [noun]), .ask (.lookup [verb]), .ask (.first [noun]),
      .apply 0 (fun _ => 1.0) [noun], .ask (.lookup [noun, verb]), .ask .clear]
  0 < 1
    ∧ (Clock.after 1 (by decide) requests).stats = ⟨⟨1, 0, 3, 1⟩, 0, 1⟩
    ∧ 3 = tally Clock.serve Clock.overwritten (Clock.empty 1 (by decide)) requests + 1 + 0
      + tally Clock.serve Clock.released (Clock.empty 1 (by decide)) requests
    ∧ (run call (ofGrammar g 1) uses).2.stats = ⟨⟨1, 2, 2, 1⟩, 0, 1⟩
    ∧ 2 = 1 + 0 + tally call released (ofGrammar g 1) uses
  := by
  intro requests g noun verb uses
  obtain ⟨hclock, hchunker⟩ := statistics_ledger (ν := Chunk) g 1 (by decide)
  have hrequests : (Clock.after 1 (by decide) requests).stats = ⟨⟨1, 0, 3, 1⟩, 0, 1⟩ := by
    decide +kernel
  have huses : (run call (ofGrammar g 1) uses).2.stats = ⟨⟨1, 2, 2, 1⟩, 0, 1⟩ := by
    decide +kernel
  have hentries := (hclock Nat requests).entries_eq
  have hanswers := (hchunker uses).entries_eq
  rw [hrequests] at hentries
  rw [huses] at hanswers
  exact ⟨by decide, hrequests, hentries, huses, hanswers⟩

end Chunker

end Chunking
