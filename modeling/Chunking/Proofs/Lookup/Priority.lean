import Chunking.Proofs.Grammar.Arity
import Chunking.Proofs.Lookup.Transparency
import Mathlib.Order.Bounds.Basic

/-!
# Priority and lookup

The first rule that fits a sequence is the rule of highest priority among those that fold a window
at the front of the sequence.  Only windows up to the largest arity count, since a rule sees no
more nodes than its arity says.  Hence the priority search, which tries the rules in order, agrees
with the lookups of all these windows, which go through the buckets and the cache.
-/

namespace Chunking

/-! ### Windows at the front -/

section

variable {ν : Type} [Constituent ν]

/-- Nodes behind the last pattern do not matter. -/
theorem Pattern.allMet_take {ps : List Pattern} {k : Nat} (h : ps.length ≤ k) (nodes : List ν) :
  allMet ps (nodes.take k) = allMet ps nodes
  := by
  induction ps generalizing k nodes with
  | nil => simp [allMet]
  | cons p ps ih =>
    obtain ⟨k, rfl⟩ := Nat.exists_eq_succ_of_ne_zero (Nat.ne_zero_of_lt h)
    cases nodes with
    | nil => rfl
    | cons node nodes =>
      rw [List.take_succ_cons, allMet, allMet, ih (Nat.le_of_succ_le_succ h)]

theorem Rule.arity_le_length {rule : Rule} {nodes : List ν} (h : rule.fits nodes) :
  rule.arity ≤ nodes.length
  := by
  simp only [fits, Bool.and_eq_true, decide_eq_true_eq] at h
  apply h.1

/-- A rule sees no more nodes than its arity says. -/
theorem Rule.fits_take {rule : Rule} {k : Nat} (h : rule.arity ≤ k) (nodes : List ν) :
  rule.fits (nodes.take k) = rule.fits nodes
  := by
  have hlength : rule.arity ≤ (nodes.take k).length ↔ rule.arity ≤ nodes.length := by
    rw [List.length_take]
    omega
  rw [fits, fits, Pattern.allMet_take h, decide_eq_decide.mpr hlength]

/-- The rules that fold the window of the first `k` nodes are those of arity `k` that fit the
sequence. -/
theorem Rule.folds_take_iff {rule : Rule} {k : Nat} {nodes : List ν} (hk : k ≤ nodes.length) :
  rule.folds (nodes.take k) ↔ rule.arity = k ∧ rule.fits nodes
  := by
  rw [folds, List.length_take_of_le hk, Bool.and_eq_true, decide_eq_true_eq]
  constructor
  · rintro ⟨harity, hfits⟩
    rw [fits_take harity.le] at hfits
    exact ⟨harity, hfits⟩
  · rintro ⟨harity, hfits⟩
    rw [fits_take harity.le]
    exact ⟨harity, hfits⟩

namespace Grammar

/-- The ids of the rules that fit a sequence. -/
def fitting (g : Grammar) (nodes : List ν) : Set Nat :=
  {id | ∃ rule, g.rule? id = some rule ∧ rule.fits nodes}

/-- A rule that fits a sequence is as wide as the sequence at most, and as the largest arity. -/
theorem Bounded.arity_le_of_fits {g : Grammar} (h : g.Bounded) {id : Nat} {rule : Rule}
    (hrule : g.rule? id = some rule) {nodes : List ν} (hfits : rule.fits nodes) :
  rule.arity ≤ min nodes.length g.maxArity
  := by
  apply Nat.le_min.mpr
  exact ⟨Rule.arity_le_length hfits, h.arity_le (Array.mem_of_getElem? hrule)⟩

/-- The rules of a bounded grammar that fit a sequence are those that fold a window at the front, no
wider than the largest arity. -/
theorem mem_fitting_iff {g : Grammar} (h : g.Bounded) {nodes : List ν} {id : Nat} :
  id ∈ g.fitting nodes ↔ ∃ k ≤ min nodes.length g.maxArity, id ∈ g.folding (nodes.take k)
  := by
  constructor
  · rintro ⟨rule, hrule, hfits⟩
    have harity := h.arity_le_of_fits hrule hfits
    use rule.arity, harity
    apply mem_folding_iff.mpr
    use rule, hrule
    apply (Rule.folds_take_iff (Nat.le_trans harity (Nat.min_le_left _ _))).mpr ⟨rfl, hfits⟩
  · rintro ⟨k, hk, hid⟩
    obtain ⟨rule, hrule, hfolds⟩ := mem_folding_iff.mp hid
    use rule, hrule
    apply ((Rule.folds_take_iff (Nat.le_trans hk (Nat.min_le_left _ _))).mp hfolds).2

/-- Nodes behind the largest arity do not matter. -/
theorem fitting_take {g : Grammar} (h : g.Bounded) (nodes : List ν) :
  g.fitting (nodes.take g.maxArity) = g.fitting nodes
  := by
  ext id
  apply exists_congr
  intro rule
  apply and_congr_right
  intro hrule
  rw [Rule.fits_take (h.arity_le (Array.mem_of_getElem? hrule))]

/-! ### The first rule -/

/-- The first rule that fits is the one of least id. -/
theorem first?_eq_some_iff {g : Grammar} {nodes : List ν} {id : Nat} :
  g.first? nodes = some id ↔ IsLeast (g.fitting nodes) id
  := by
  rw [first?, Array.findIdx?_eq_some_iff_getElem]
  constructor
  · rintro ⟨hid, hfits, hbefore⟩
    constructor
    · exact ⟨_, Array.getElem?_eq_getElem hid, hfits⟩
    · rintro other ⟨rule, hrule, hother⟩
      obtain ⟨hlt, rfl⟩ := Array.getElem?_eq_some_iff.mp hrule
      by_contra hle
      apply hbefore other (Nat.lt_of_not_le hle) hother
  · rintro ⟨⟨rule, hrule, hfits⟩, hleast⟩
    obtain ⟨hid, rfl⟩ := Array.getElem?_eq_some_iff.mp hrule
    use hid, hfits
    intro other hlt hother
    have hle := hleast ⟨_, Array.getElem?_eq_getElem (Nat.lt_trans hlt hid), hother⟩
    apply Nat.not_lt.mpr hle hlt

theorem first?_eq_none_iff {g : Grammar} {nodes : List ν} :
  g.first? nodes = none ↔ ∀ id, id ∉ g.fitting nodes
  := by
  rw [first?, Array.findIdx?_eq_none_iff]
  constructor
  · rintro hnone id ⟨rule, hrule, hfits⟩
    rw [hnone rule (Array.mem_of_getElem? hrule)] at hfits
    cases hfits
  · intro hnone rule hrule
    obtain ⟨id, hid⟩ := Array.mem_iff_getElem?.mp hrule
    rw [← Bool.not_eq_true]
    intro hfits
    apply hnone id ⟨rule, hid, hfits⟩

/-- Sequences that are fitted by the same rules have the same first rule. -/
theorem first?_eq_of_fitting_eq {g : Grammar} {ns ms : List ν} (h : g.fitting ns = g.fitting ms) :
  g.first? ns = g.first? ms
  := by
  apply Option.ext
  intro id
  rw [first?_eq_some_iff, first?_eq_some_iff, h]

/-- No rule folds a window that is wider than the largest arity. -/
theorem folding_eq_nil_of_lt {g : Grammar} (h : g.Bounded) {window : List ν}
    (hwidth : g.maxArity < window.length) :
  g.folding window = []
  := by
  apply List.eq_nil_iff_forall_not_mem.mpr
  intro id hid
  obtain ⟨rule, hrule, hfolds⟩ := mem_folding_iff.mp hid
  simp only [Rule.folds, Bool.and_eq_true, decide_eq_true_eq] at hfolds
  have harity := h.arity_le (Array.mem_of_getElem? hrule)
  omega

end Grammar

end

/-! ### Agreement -/

namespace Chunker

/-- Whatever was asked before, the first rule that fits a sequence is the one of least id among
those found by lookups of all windows at the front, up to the largest arity; there is none exactly
when nothing is found.  Nodes behind the largest arity do not matter, and nothing is found for a
wider window. -/
theorem first?_after_isLeast_lookup (ps : List Production) (capacity : Nat)
    (asked : List (Query Chunk)) (askedFor : Nat → List (Query Chunk)) (nodes : List Chunk) :
  let c := after (Grammar.grown ps) capacity asked
  let found (k : Nat) :=
    ((after (Grammar.grown ps) capacity (askedFor k)).lookup (nodes.take k)).1.ids
  (∀ id, c.grammar.first? nodes = some id
      ↔ IsLeast {id | ∃ k ≤ min nodes.length c.grammar.maxArity, id ∈ found k} id)
    ∧ (c.grammar.first? nodes = none
      ↔ ∀ k ≤ min nodes.length c.grammar.maxArity, found k = [])
    ∧ (∀ others, others.take c.grammar.maxArity = nodes.take c.grammar.maxArity →
      c.grammar.first? others = c.grammar.first? nodes)
    ∧ (c.grammar.maxArity < nodes.length → (c.lookup nodes).1.ids = [])
  := by
  have hfiled := Grammar.filed_grown ps
  have hbounded := Grammar.bounded_grown ps
  simp only [grammar_after, ids_lookup_after hfiled, ← Grammar.mem_fitting_iff hbounded]
  constructor
  · intro id
    apply Grammar.first?_eq_some_iff
  constructor
  · rw [Grammar.first?_eq_none_iff]
    simp only [Grammar.mem_fitting_iff hbounded, List.eq_nil_iff_forall_not_mem]
    constructor
    · intro hnone k hk id hid
      apply hnone id ⟨k, hk, hid⟩
    · rintro hnone id ⟨k, hk, hid⟩
      apply hnone k hk id hid
  constructor
  · intro others htake
    apply Grammar.first?_eq_of_fitting_eq
    rw [← Grammar.fitting_take hbounded others, htake, Grammar.fitting_take hbounded]
  · apply Grammar.folding_eq_nil_of_lt hbounded

end Chunker

end Chunking
