import Chunking.Proofs.Key.Window
import Chunking.Proofs.Lookup.Transparency

/-!
# Confused windows

The keys of windows of lawful nodes tell all windows apart but the empty one and those of one node
with an empty key.  A lookup may thus be answered by rules of the wrong arity, namely when there
are such a node, a rule of arity zero and a rule of arity one, and only then.  A lookup before
which no window was looked up that is confused with its own is answered right in any case.
-/

namespace Chunking

/-! ### Nodes without a content -/

/-- A node without a content.  It meets every pattern, and its key is empty since there is nothing
to name. -/
structure Blank where
  deriving DecidableEq

namespace Blank

instance : Constituent Blank where
  meets _ _ := true
  key _ := ""
  fold _ _ _ := ⟨⟩

instance : LawfulConstituent Blank where
  meets_of_key_eq _ _ := rfl
  separator_not_mem_key _ := List.not_mem_nil

/-- A production for the empty window and one for windows of one node. -/
def productions : List Production :=
  [{ left := "Z", right := "" }, { left := "X", right := "X" }]

end Blank

variable {ν : Type} [Constituent ν]

namespace Chunker

/-! ### A wrong answer -/

/-- The answer to a lookup is given again to the next window with the same key. -/
theorem ids_lookup_lookup {c : Chunker} (h : c.Consistent) (hcache : c.cache.isSome)
    {ns ms : List ν} (hns : c.grammar.bucket ns.length ≠ []) (hms : c.grammar.bucket ms.length ≠ [])
    (hkey : windowKey ms = windowKey ns) (hnew : c.stored? (windowKey ns) = none) :
  ((c.lookup ns).2.lookup ms).1.ids = c.grammar.scan ns
  := by
  have hstored := stored?_store_self (h.probe ns) (by rwa [isSome_cache_probe]) ns
  rw [grammar_probe, ← hkey] at hstored
  have hgrammar : ((c.probe ns).2.store ns).grammar = c.grammar := grammar_probe c ns
  rw [lookup_of_not_stored hns hnew, lookup_of_stored (by rwa [hgrammar]) hstored]

/-- A node with an empty key is taken for the empty window, if the two are looked up one after the
other and there are rules for both. -/
theorem run_serve_confused {g : Grammar} {capacity : Nat} (hcapacity : 0 < capacity) {node : ν}
    (hnode : Constituent.key node = "") (hzero : g.bucket 0 ≠ []) (hone : g.bucket 1 ≠ []) :
  (run serve (ofGrammar g capacity) [.lookup [], .lookup [node]]).1
    = [.found (g.scan ([] : List ν)), .found (g.scan ([] : List ν))]
  := by
  have hkey : windowKey [node] = windowKey ([] : List ν) := by
    simp [windowKey, hnode]
  have hcache : (ofGrammar g capacity).cache.isSome := by
    simp [ofGrammar, hcapacity]
  have hempty : (ofGrammar g capacity).grammar.bucket ([] : List ν).length ≠ [] := hzero
  have hsingle : (ofGrammar g capacity).grammar.bucket [node].length ≠ [] := hone
  have hnew := stored?_ofGrammar g capacity (windowKey ([] : List ν))
  have hfirst : ((ofGrammar g capacity).lookup ([] : List ν)).1.ids = g.scan ([] : List ν) := by
    rw [lookup_of_not_stored hempty hnew]
    rfl
  have hsecond :=
    ids_lookup_lookup (consistent_ofGrammar g capacity) hcache hempty hsingle hkey hnew
  rw [run_cons, run_cons]
  simp only [serve, hfirst, hsecond]
  rfl

/-- No rule folds the empty window and a window of one node. -/
theorem folding_nil_ne_folding_singleton {g : Grammar} (hzero : ∃ rule ∈ g.rules, rule.arity = 0)
    (node : ν) :
  g.folding ([] : List ν) ≠ g.folding [node]
  := by
  intro heq
  obtain ⟨rule, hrule, harity⟩ := hzero
  obtain ⟨id, hid, rfl⟩ := Array.mem_iff_getElem.mp hrule
  have hrule? : g.rule? id = some g.rules[id] := Array.getElem?_eq_getElem hid
  have hmem : id ∈ g.folding ([] : List ν) :=
    Grammar.mem_folding_iff.mpr ⟨_, hrule?, Rule.folds_nil_iff.mpr harity⟩
  rw [heq] at hmem
  obtain ⟨found, hfound, hfolds⟩ := Grammar.mem_folding_iff.mp hmem
  rw [hrule?] at hfound
  obtain rfl := Option.some.inj hfound
  simp only [Rule.folds, Bool.and_eq_true, decide_eq_true_eq] at hfolds
  rw [harity] at hfolds
  cases hfolds.1

/-! ### Lawful nodes -/

variable [LawfulConstituent ν]

/-- Windows that are not confused may share their answers. -/
theorem mayShare_of_not_confused {g : Grammar} {ns ms : List ν} (h : ¬Confused ns ms) :
  MayShare g ns ms
  := by
  intro _ _ hkey
  rcases windowKey_eq_iff.mp hkey with hkeys | hconfused
  · apply Grammar.scan_eq_of_keys_eq hkeys
  · contradiction

/-- All windows may share their answers when no node has an empty key, or the rules of one of the
arities zero and one are missing. -/
theorem mayShare_of_bucket_eq_nil {g : Grammar}
    (h : (∃ node : ν, Constituent.key node = "") → g.bucket 0 = [] ∨ g.bucket 1 = [])
    (ns ms : List ν) :
  MayShare g ns ms
  := by
  intro hns hms hkey
  have hconfused : ¬Confused ns ms := by
    rintro (⟨rfl, hkeys⟩ | ⟨hkeys, rfl⟩)
    · obtain ⟨node, rfl, hnode⟩ := List.map_eq_singleton_iff.mp hkeys
      rcases h ⟨node, hnode⟩ with hzero | hone
      · exact hns hzero
      · exact hms hone
    · obtain ⟨node, rfl, hnode⟩ := List.map_eq_singleton_iff.mp hkeys
      rcases h ⟨node, hnode⟩ with hzero | hone
      · exact hms hzero
      · exact hns hone
  apply mayShare_of_not_confused hconfused hns hms hkey

/-- Lookups of windows of lawful nodes.  Windows share a key only when the keys of their nodes are
equal or the windows are confused.  A lookup is answered by a look at all rules if no window was
looked up before that is confused with its own.  All questions are answered so exactly when no
node has an empty key or the rules of arity zero or those of arity one are missing. -/
theorem run_serve_lawful (ps : List Production) (capacity : Nat) (h : 0 < capacity) :
  (∀ ns ms : List ν, windowKey ns = windowKey ms
      ↔ ns.map Constituent.key = ms.map Constituent.key ∨ Confused ns ms)
    ∧ (∀ (before : List (Query ν)) (window : List ν),
      (∀ other, Query.lookup other ∈ before → ¬Confused other window) →
        ((run serve (ofGrammar (Grammar.grown ps) capacity) before).2.serve (.lookup window)).1
          = .found ((Grammar.grown ps).folding window))
    ∧ ((∀ queries : List (Query ν),
        (run serve (ofGrammar (Grammar.grown ps) capacity) queries).1
          = queries.map (Grammar.grown ps).reply)
      ↔ ((∃ node : ν, Constituent.key node = "") →
        (∀ rule ∈ (Grammar.grown ps).rules, rule.arity ≠ 0)
          ∨ (∀ rule ∈ (Grammar.grown ps).rules, rule.arity ≠ 1)))
  := by
  have hfiled := Grammar.filed_grown ps
  simp only [← Grammar.bucket_eq_nil_iff hfiled]
  constructor
  · intro ns ms
    apply windowKey_eq_iff
  constructor
  · intro before window hbefore
    have hrecords := records_run (Grammar.grown ps) capacity before
    apply hrecords.fst_serve hfiled
    intro _ heq other hother
    obtain rfl := Query.lookup.inj heq
    apply mayShare_of_not_confused (hbefore other hother)
  constructor
  · rintro hall ⟨node, hnode⟩
    by_contra hrules
    obtain ⟨hzero, hone⟩ := not_or.mp hrules
    have hanswers := hall [.lookup [], .lookup [node]]
    rw [run_serve_confused h hnode hzero hone, Grammar.scan_eq_folding hfiled] at hanswers
    simp only [Grammar.bucket_eq_nil_iff hfiled, not_forall, not_not] at hzero
    obtain ⟨rule, hrule, harity⟩ := hzero
    apply folding_nil_ne_folding_singleton ⟨rule, hrule, harity⟩ node
    simpa [Grammar.reply] using hanswers
  · intro hempty queries
    apply run_serve_eq_map hfiled
    apply mayShare_of_bucket_eq_nil hempty

/-- A window of one blank node is answered right after one of two nodes, and not all sequences of
questions are. -/
theorem lookup_blank_of_lawful :
  0 < 1
    ∧ ((run serve (ofGrammar (Grammar.grown Blank.productions) 1) [.lookup [Blank.mk, ⟨⟩]]).2.serve
        (.lookup [Blank.mk])).1 = .found [1]
    ∧ ¬∀ queries : List (Query Blank),
      (run serve (ofGrammar (Grammar.grown Blank.productions) 1) queries).1
        = queries.map (Grammar.grown Blank.productions).reply
  := by
  obtain ⟨-, hlookup, hiff⟩ := run_serve_lawful (ν := Blank) Blank.productions 1 (by decide)
  constructor
  · decide
  constructor
  · rw [hlookup]
    · decide +kernel
    · intro other hother
      obtain rfl := Query.lookup.inj (List.mem_singleton.mp hother)
      rintro (⟨hnil, -⟩ | ⟨-, hnil⟩)
      · cases hnil
      · cases hnil
  · rw [hiff]
    intro hmissing
    rcases hmissing ⟨⟨⟩, rfl⟩ with hzero | hone
    · revert hzero
      decide +kernel
    · revert hone
      decide +kernel

/-- The empty window and a window of one blank node have the same key.  When they are looked up
one after the other, the second is answered by the rule for the first. -/
theorem run_serve_blank_ne_map_reply :
  windowKey ([] : List Blank) = windowKey [Blank.mk]
    ∧ (run serve (ofGrammar (Grammar.grown Blank.productions) 1)
        [.lookup [], .lookup [Blank.mk]]).1 = [.found [0], .found [0]]
    ∧ [Query.lookup [], .lookup [Blank.mk]].map (Grammar.grown Blank.productions).reply
      = [.found [0], .found [1]]
  := by
  decide +kernel

end Chunker

end Chunking
