import Chunking.Proofs.Key.Chunk
import Chunking.Proofs.Lookup.Stored

/-!
# Transparency of the cache

When all windows may share their stored answers, the cache of a chunker cannot be noticed: every
question is answered as by a look at all rules of the grammar.  The keys of chunks tell windows of
different content apart, so this holds of them.
-/

namespace Chunking

variable {ν : Type} [Constituent ν]

/-- The answer to a question by a look at all rules. -/
def Grammar.reply (g : Grammar) : Query ν → Reply
  | .lookup window => .found (g.folding window)
  | .first nodes => .first (g.first? nodes)
  | .clear => .cleared

namespace Chunker

/-- A chunker answers as its grammar does, when all windows of the class may share their answers
with the window that is looked up. -/
theorem Records.fst_serve {c : Chunker} {g : Grammar} {looked : List ν → Prop}
    (h : c.Records g looked) (hfiled : g.Filed) {query : Query ν}
    (hshare : ∀ window, query = .lookup window → ∀ other, looked other → MayShare g other window) :
  (c.serve query).1 = g.reply query
  := by
  cases query with
  | lookup window =>
    rw [Grammar.reply, ← Grammar.scan_eq_folding hfiled, ← h.ids_lookup (hshare window rfl)]
    rfl
  | first nodes => rw [Chunker.serve, Grammar.reply, h.grammar_eq]
  | clear => rfl

/-- A new chunker answers all questions as its grammar does, when all windows may share their
answers. -/
theorem run_serve_eq_map {g : Grammar} (hfiled : g.Filed)
    (hshare : ∀ ns ms : List ν, MayShare g ns ms) (capacity : Nat) (queries : List (Query ν)) :
  (run serve (ofGrammar g capacity) queries).1 = queries.map g.reply
  := by
  apply run_eq_map (P := fun c : Chunker => c.Records g fun _ : List ν => True)
  · intro query _ c hc
    constructor
    · apply hc.fst_serve hfiled
      intro window _ other _
      apply hshare
    · apply hc.serve
      intro _ _
      trivial
  · apply records_ofGrammar

/-! ### Chunks -/

theorem mayShare_chunks (g : Grammar) (ns ms : List Chunk) :
  MayShare g ns ms
  := by
  intro _ _ hkey
  apply Grammar.scan_eq_of_keys_eq
  apply (windowKey_eq_iff_of_ne_empty Chunk.key_ne_empty).mp hkey

/-- A lookup of chunks is answered by a look at all rules, whatever was asked before. -/
theorem ids_lookup_after {g : Grammar} (hfiled : g.Filed) (capacity : Nat)
    (queries : List (Query Chunk)) (window : List Chunk) :
  ((after g capacity queries).lookup window).1.ids = g.folding window
  := by
  rw [← Grammar.scan_eq_folding hfiled]
  apply (records_run g capacity queries).ids_lookup
  intro other _
  apply mayShare_chunks

/-- Questions about chunks are answered by a look at all rules, whatever the capacity of the cache
is and whatever was asked before.  The rules found are those of the accepted productions that fold
the window, each once and in the order of the productions. -/
theorem run_serve_chunks (ps : List Production) (capacity : Nat) (queries : List (Query Chunk)) :
  (run serve (ofGrammar (Grammar.grown ps) capacity) queries).1
      = queries.map (Grammar.grown ps).reply
    ∧ (run serve (ofGrammar (Grammar.grown ps) capacity) queries).1
      = (run serve (ofGrammar (Grammar.grown ps) 0) queries).1
    ∧ ∀ window : List Chunk,
      ((Grammar.grown ps).folding window).Pairwise (· < ·)
        ∧ ((Grammar.grown ps).folding window).map (Grammar.grown ps).rule?
          = ((ps.flatMap Production.accepted).filter fun rule => rule.folds window).map some
  := by
  have hreply (capacity : Nat) : (run serve (ofGrammar (Grammar.grown ps) capacity) queries).1
      = queries.map (Grammar.grown ps).reply := by
    apply run_serve_eq_map (Grammar.filed_grown ps)
    apply mayShare_chunks
  constructor
  · apply hreply
  constructor
  · rw [hreply, hreply]
  · intro window
    constructor
    · apply Grammar.pairwise_lt_folding
    · rw [Grammar.map_rule?_folding, Grammar.toList_rules_grown]

end Chunker

end Chunking
