import Chunking.Proofs.Key.Chunk
import Chunking.Proofs.Lookup.Ledger
import Mathlib.Data.Finset.Card
import Mathlib.Data.Finset.Dedup

/-!
# Room for all answers

The content of a window is what patterns can see of it.  As long as no more contents are looked up
than a cache has room for, no answer is evicted.  So each content is scanned for once: the first
lookup of a window of this content misses, and all later ones hit.
-/

namespace Chunking

/-! ### Contents -/

/-- What patterns can see of a chunk: a word, grammemes and a policy. -/
abbrev Chunk.Content : Type :=
  Option String × Grammemes × Policy

def Chunk.content (chunk : Chunk) : Chunk.Content :=
  (chunk.word, chunk.tags, chunk.policy)

/-- Windows have the same key exactly when they have the same content. -/
theorem Chunk.windowKey_eq_iff_map_content {ns ms : List Chunk} :
  windowKey ns = windowKey ms ↔ ns.map content = ms.map content
  := by
  have hkeys : windowKey ns = windowKey ms ↔ ns.map key = ms.map key :=
    windowKey_eq_iff_of_ne_empty key_ne_empty
  have hpairs {β : Type} (f : Chunk → β) :
      ns.map f = ms.map f ↔ List.Forall₂ (fun a b => f a = f b) ns ms := by
    have heq : ns.map f = ms.map f ↔ List.Forall₂ Eq (ns.map f) (ms.map f) := by
      rw [List.forall₂_eq_eq_eq]
    rw [heq, List.forall₂_map_left_iff, List.forall₂_map_right_iff]
  rw [hkeys, hpairs, hpairs]
  simp only [key_eq_iff, content, Prod.mk.injEq]

/-- The content that a question asks the cache for: that of a window for whose length there are
rules. -/
def Query.content? (g : Grammar) : Query Chunk → Option (List Chunk.Content)
  | .lookup window =>
    if (g.bucket window.length).isEmpty then none else some (window.map Chunk.content)
  | _ => none

/-- The distinct contents that several questions ask the cache for. -/
def contents (g : Grammar) (queries : List (Query Chunk)) : Finset (List Chunk.Content) :=
  (queries.filterMap (Query.content? g)).toFinset

theorem contents_append (g : Grammar) (queries others : List (Query Chunk)) :
  contents g (queries ++ others) = contents g queries ∪ contents g others
  := by
  rw [contents, List.filterMap_append, List.toFinset_append, contents, contents]

theorem contents_lookup {g : Grammar} {window : List Chunk}
    (hbucket : g.bucket window.length ≠ []) :
  contents g [.lookup window] = {window.map Chunk.content}
  := by
  simp [contents, Query.content?, hbucket]

namespace Chunker

/-! ### Storing where there is room -/

/-- An answer that is stored where there is room takes no other answer away. -/
theorem stored?_store_of_ne {ν : Type} [Constituent ν] {c : Chunker} (h : c.Consistent)
    (hroom : c.stats.size < c.stats.capacity) {window : List ν} {key : String}
    (hne : key ≠ windowKey window) :
  (c.store window).stored? key = c.stored? key
  := by
  cases hcache : c.cache with
  | none => simp only [store, stored?, hcache, Option.map_none]
  | some clock =>
    have hstats : c.stats = clock.stats := by
      rw [stats, hcache]
      rfl
    rw [hstats] at hroom
    simp only [store, stored?, hcache, Option.map_some, Option.bind_some]
    apply Clock.value?_insert_of_ne (h clock hcache) (.inr hroom) hne

/-- A chunker of a grammar that holds answers for some contents, and has missed each of them once
since it had the statistics `start` and held none. -/
structure Filled (c : Chunker) (g : Grammar) (start : Clock.Stats)
    (held : Finset (List Chunk.Content)) : Prop where
  cached : c.Cached g
  isSome_stored?_iff {window : List Chunk} (hbucket : g.bucket window.length ≠ []) :
    (c.stored? (windowKey window)).isSome ↔ window.map Chunk.content ∈ held
  size_eq : c.stats.size = held.card
  capacity_eq : c.stats.capacity = start.capacity
  misses_eq : c.stats.misses = start.misses + held.card
  evictions_eq : c.stats.evictions = start.evictions

section

variable {c : Chunker} {g : Grammar} {start : Clock.Stats}
    {held : Finset (List Chunk.Content)} (h : c.Filled g start held)
    {window : List Chunk} (hbucket : g.bucket window.length ≠ [])
include h hbucket

/-- A window whose content is held is found without a test. -/
theorem Filled.lookup_of_mem (hheld : window.map Chunk.content ∈ held) :
  (c.lookup window).1.tests = 0
    ∧ (c.lookup window).2.stats = { c.stats with hits := c.stats.hits + 1 }
  := by
  have hsome := (h.isSome_stored?_iff hbucket).mpr hheld
  constructor
  · obtain ⟨ids, hids⟩ := Option.isSome_iff_exists.mp hsome
    rw [← h.cached.grammar_eq] at hbucket
    rw [lookup_of_stored hbucket hids]
  · rw [h.cached.stats_lookup hbucket, if_pos hsome]

/-- A window whose content is not held is scanned for, and the answer is stored. -/
theorem Filled.lookup_of_not_mem (hheld : window.map Chunk.content ∉ held)
    (hroom : held.card < start.capacity) :
  (c.lookup window).1 = ⟨g.scan window, g.scanTests window⟩
    ∧ (c.lookup window).2.stats = { c.stats with
      misses := c.stats.misses + 1
      insertions := c.stats.insertions + 1
      size := c.stats.size + 1 }
  := by
  have hnone := mt (h.isSome_stored?_iff hbucket).mp hheld
  have hlt : c.stats.size < c.stats.capacity := by rwa [h.size_eq, h.capacity_eq]
  constructor
  · have hgrammar := h.cached.grammar_eq
    rw [← hgrammar] at hbucket ⊢
    rw [lookup_of_not_stored hbucket (Option.not_isSome_iff_eq_none.mp hnone)]
  · rw [h.cached.stats_lookup hbucket, if_neg hnone, if_pos hlt]

/-- After a scan its answer is held, too. -/
theorem Filled.isSome_stored?_lookup_iff (hheld : window.map Chunk.content ∉ held)
    (hroom : held.card < start.capacity) {other : List Chunk}
    (hother : g.bucket other.length ≠ []) :
  ((c.lookup window).2.stored? (windowKey other)).isSome
    ↔ other.map Chunk.content ∈ insert (window.map Chunk.content) held
  := by
  have hnone := mt (h.isSome_stored?_iff hbucket).mp hheld
  have hprobe := h.cached.probe window
  have hstats := h.cached.stats_probe hbucket
  rw [if_neg hnone] at hstats
  have hlt : (c.probe window).2.stats.size < (c.probe window).2.stats.capacity := by
    rwa [hstats, h.size_eq, h.capacity_eq]
  rw [← h.cached.grammar_eq] at hbucket
  rw [lookup_of_not_stored hbucket (Option.not_isSome_iff_eq_none.mp hnone), Finset.mem_insert]
  by_cases hsame : other.map Chunk.content = window.map Chunk.content
  · rw [Chunk.windowKey_eq_iff_map_content.mpr hsame,
      stored?_store_self hprobe.consistent hprobe.isSome_cache]
    simp [hsame]
  · have hne : windowKey other ≠ windowKey window :=
      mt Chunk.windowKey_eq_iff_map_content.mp hsame
    rw [stored?_store_of_ne hprobe.consistent hlt hne, stored?_probe, h.isSome_stored?_iff hother,
      or_iff_right hsame]

/-- After a lookup the content of the window is held, if there is room for it. -/
theorem Filled.lookup (hroom : (insert (window.map Chunk.content) held).card ≤ start.capacity) :
  (c.lookup window).2.Filled g start (insert (window.map Chunk.content) held)
  := by
  by_cases hheld : window.map Chunk.content ∈ held
  · obtain ⟨ids, hids⟩ := Option.isSome_iff_exists.mp ((h.isSome_stored?_iff hbucket).mpr hheld)
    obtain ⟨-, hstats⟩ := h.lookup_of_mem hbucket hheld
    rw [Finset.insert_eq_of_mem hheld]
    constructor
    · apply h.cached.lookup
    · intro other hother
      rw [← h.cached.grammar_eq] at hbucket
      rw [lookup_of_stored hbucket hids, stored?_probe]
      apply h.isSome_stored?_iff hother
    all_goals rw [hstats]
    · apply h.size_eq
    · apply h.capacity_eq
    · apply h.misses_eq
    · apply h.evictions_eq
  · rw [Finset.card_insert_of_notMem hheld] at hroom
    obtain ⟨-, hstats⟩ := h.lookup_of_not_mem hbucket hheld hroom
    constructor
    · apply h.cached.lookup
    · intro other hother
      apply h.isSome_stored?_lookup_iff hbucket hheld hroom hother
    all_goals rw [hstats]
    · rw [Finset.card_insert_of_notMem hheld, h.size_eq]
    · apply h.capacity_eq
    · rw [Finset.card_insert_of_notMem hheld, h.misses_eq, Nat.add_assoc]
    · apply h.evictions_eq

end

/-! ### Stretches -/

/-- As long as there is room, a chunker holds the contents that were asked for. -/
theorem Filled.serve {c : Chunker} {g : Grammar} {start : Clock.Stats}
    {held : Finset (List Chunk.Content)} (h : c.Filled g start held)
    {query : Query Chunk} (hclear : query ≠ .clear)
    (hroom : (held ∪ contents g [query]).card ≤ start.capacity) :
  (c.serve query).2.Filled g start (held ∪ contents g [query])
  := by
  cases query with
  | lookup window =>
    by_cases hbucket : g.bucket window.length = []
    · have hnone : contents g [.lookup window] = ∅ := by simp [contents, Query.content?, hbucket]
      rw [← h.cached.grammar_eq] at hbucket
      rw [hnone, Finset.union_empty, Chunker.serve, lookup_of_bucket_eq_nil hbucket]
      apply h
    · rw [contents_lookup hbucket, Finset.union_comm, ← Finset.insert_eq] at hroom ⊢
      apply h.lookup hbucket hroom
  | first nodes =>
    have hnone : contents g [.first nodes] = ∅ := rfl
    rw [hnone, Finset.union_empty]
    apply h
  | clear => contradiction

/-- A stretch of questions starts with nothing held, and does not drop what it has stored. -/
theorem filled_run {c : Chunker} {g : Grammar} (h : c.Filled g c.stats ∅)
    {queries : List (Query Chunk)} (hclear : .clear ∉ queries)
    (hroom : (contents g queries).card ≤ c.stats.capacity) :
  (run serve c queries).2.Filled g c.stats (contents g queries)
  := by
  revert hclear hroom
  apply run_history (P := fun past (next : Chunker) => .clear ∉ past →
    (contents g past).card ≤ c.stats.capacity → next.Filled g c.stats (contents g past))
  · intro past query next hnext hclear hroom
    rw [List.mem_append, not_or, List.mem_singleton] at hclear
    rw [contents_append] at hroom ⊢
    have hpast := hnext hclear.1 (Nat.le_trans (Finset.card_le_card Finset.subset_union_left) hroom)
    apply hpast.serve (Ne.symm hclear.2) hroom
  · intro _ _
    apply h

/-- Questions after which no answer is stored: none at all, or those of which the last one drops
what is stored. -/
inductive Released {ν : Type} : List (Query ν) → Prop where
  | nil : Released []
  | clear (queries : List (Query ν)) : Released (queries ++ [.clear])

/-- Whatever a chunker is asked, its cache keeps the capacity that it was made with. -/
theorem cached_after {ν : Type} [Constituent ν] (g : Grammar) {capacity : Nat} (h : 0 < capacity)
    (queries : List (Query ν)) :
  (after g capacity queries).Cached g ∧ (after g capacity queries).stats.capacity = capacity
  := by
  apply run_invariant (P := fun c : Chunker => c.Cached g ∧ c.stats.capacity = capacity)
  · rintro query - c ⟨hc, hcapacity⟩
    cases query with
    | lookup window =>
      use hc.lookup window
      by_cases hbucket : g.bucket window.length = []
      · rw [← hc.grammar_eq] at hbucket
        simpa only [serve, lookup_of_bucket_eq_nil hbucket] using hcapacity
      · have hstats := hc.stats_lookup hbucket
        simp only [serve, hstats]
        split
        · apply hcapacity
        · split
          · apply hcapacity
          · apply hcapacity
    | first nodes => exact ⟨hc, hcapacity⟩
    | clear =>
      use hc.clear
      simpa only [serve, hc.stats_clear] using hcapacity
  · use cached_ofGrammar g h
    rw [stats_ofGrammar g h]

/-- A chunker without answers. -/
theorem Cached.filled {c : Chunker} {g : Grammar} (h : c.Cached g)
    (hstored : ∀ key, c.stored? key = none) (hsize : c.stats.size = 0) :
  c.Filled g c.stats ∅
  := by
  constructor
  · apply h
  · intro window _
    simp [hstored]
  · apply hsize
  all_goals rfl

/-- A chunker that is new or has just dropped its answers holds nothing. -/
theorem filled_after (g : Grammar) {capacity : Nat} (h : 0 < capacity)
    {past : List (Query Chunk)} (hpast : Released past) :
  (after g capacity past).Filled g (after g capacity past).stats ∅
  := by
  cases hpast with
  | nil =>
    apply (cached_ofGrammar g h).filled
    · apply stored?_ofGrammar
    · rw [stats_ofGrammar g h]
  | clear queries =>
    obtain ⟨hcached, -⟩ := cached_after g h queries
    rw [after_append]
    apply hcached.clear.filled
    · apply stored?_clear
    · rw [hcached.stats_clear]

/-- What happens to each question of a stretch when there is room for all contents. -/
structure ScansOnce (g : Grammar) (c : Chunker) (queries : List (Query Chunk)) : Prop where
  evictions_eq : (run serve c queries).2.stats.evictions = c.stats.evictions
  /-- There is one miss for each content. -/
  misses_eq : (run serve c queries).2.stats.misses = c.stats.misses + (contents g queries).card
  /-- The first lookup of a content is answered by a scan. -/
  misses_first {earlier later : List (Query Chunk)} {window : List Chunk}
    (hstretch : earlier ++ .lookup window :: later = queries)
    (hbucket : g.bucket window.length ≠ []) (hnew : window.map Chunk.content ∉ contents g earlier) :
    let before := (run serve c earlier).2
    (before.lookup window).1 = ⟨g.scan window, g.scanTests window⟩
      ∧ (before.lookup window).2.stats = { before.stats with
        misses := before.stats.misses + 1
        insertions := before.stats.insertions + 1
        size := before.stats.size + 1 }
  /-- Every later one is answered without a test. -/
  hits_later {earlier later : List (Query Chunk)} {window : List Chunk}
    (hstretch : earlier ++ .lookup window :: later = queries)
    (hbucket : g.bucket window.length ≠ []) (hold : window.map Chunk.content ∈ contents g earlier) :
    let before := (run serve c earlier).2
    (before.lookup window).1.tests = 0
      ∧ (before.lookup window).2.stats = { before.stats with hits := before.stats.hits + 1 }

/-- When there is room for all contents of a stretch, each of them is scanned for once. -/
theorem scansOnce_run {c : Chunker} {g : Grammar} (h : c.Filled g c.stats ∅)
    {queries : List (Query Chunk)} (hclear : .clear ∉ queries)
    (hroom : (contents g queries).card ≤ c.stats.capacity) :
  ScansOnce g c queries
  := by
  have hfinal := filled_run h hclear hroom
  have hearlier {earlier later : List (Query Chunk)} {window : List Chunk}
      (hstretch : earlier ++ .lookup window :: later = queries)
      (hbucket : g.bucket window.length ≠ []) :
      (run serve c earlier).2.Filled g c.stats (contents g earlier)
        ∧ (insert (window.map Chunk.content) (contents g earlier)).card ≤ c.stats.capacity := by
    have hsubset : insert (window.map Chunk.content) (contents g earlier) ⊆ contents g queries := by
      rw [← hstretch, List.append_cons, contents_append, contents_append, contents_lookup hbucket,
        Finset.insert_eq, Finset.union_comm {window.map Chunk.content}]
      apply Finset.subset_union_left
    have hcard := Nat.le_trans (Finset.card_le_card hsubset) hroom
    constructor
    · apply filled_run h
      · intro hmem
        apply hclear
        rw [← hstretch]
        apply List.mem_append_left _ hmem
      · apply Nat.le_trans (Finset.card_le_card (Finset.subset_insert _ _)) hcard
    · apply hcard
  constructor
  · apply hfinal.evictions_eq
  · apply hfinal.misses_eq
  · intro earlier later window hstretch hbucket hnew
    obtain ⟨hfilled, hcard⟩ := hearlier hstretch hbucket
    rw [Finset.card_insert_of_notMem hnew] at hcard
    apply hfilled.lookup_of_not_mem hbucket hnew hcard
  · intro earlier later window hstretch hbucket hold
    obtain ⟨hfilled, -⟩ := hearlier hstretch hbucket
    apply hfilled.lookup_of_mem hbucket hold

end Chunker

end Chunking
