import Chunking.Proofs.Grammar.Productions
import Chunking.Proofs.Reduction.Prefix

/-!
# Relaxed windows

A chunk is relaxed by a looser policy, or, when its policy asks for some or all of the required
grammemes, by more grammemes.  The relaxed chunk meets every pattern that the chunk meets, unless
the pattern is the empty set of grammemes, which is no pattern of a grammar.  Hence a relaxed window
is folded by all rules that fold the window, and the first rule that fits it has no lower priority.
-/

namespace Chunking

/-! ### Policies -/

namespace Policy

/-- The place of a policy among the three: looser policies come later. -/
def laxity : Policy → Nat
  | exact => 0
  | subset => 1
  | overlap => 2

variable {required actual : Grammemes}

/-- The grammemes required are all present if they are those present. -/
theorem accepts_subset_of_exact (h : exact.accepts required actual) :
  subset.accepts required actual
  := by
  obtain rfl : required = actual := by simpa [accepts] using h
  have hrefl : required ⊆ required := fun _ => id
  simpa [accepts] using hrefl

/-- Some of the grammemes required is present if all are, unless none is required. -/
theorem accepts_overlap_of_subset (hne : required.labels ≠ [])
    (h : subset.accepts required actual) :
  overlap.accepts required actual
  := by
  have hall : required ⊆ actual := by simpa [accepts] using h
  obtain ⟨label, hlabel⟩ := List.exists_mem_of_ne_nil _ hne
  have hmeets : required.Meets actual := ⟨label, hlabel, hall label hlabel⟩
  simpa [accepts] using hmeets

/-- A looser policy accepts what a stricter one does. -/
theorem accepts_of_laxity_le {policy looser : Policy} (hle : policy.laxity ≤ looser.laxity)
    (hne : required.labels ≠ []) (h : policy.accepts required actual) :
  looser.accepts required actual
  := by
  cases policy with
  | exact =>
    have hsubset := accepts_subset_of_exact h
    cases looser with
    | exact => apply h
    | subset => apply hsubset
    | overlap => apply accepts_overlap_of_subset hne hsubset
  | subset =>
    cases looser with
    | exact => cases hle
    | subset => apply h
    | overlap => apply accepts_overlap_of_subset hne h
  | overlap =>
    cases looser with
    | exact => cases hle
    | subset => exact absurd hle (by decide)
    | overlap => apply h

/-- More grammemes do not matter to a policy that looks for those required. -/
theorem accepts_of_subset {policy : Policy} (hpolicy : policy ≠ exact) {wider : Grammemes}
    (hwider : actual ⊆ wider) (h : policy.accepts required actual) :
  policy.accepts required wider
  := by
  cases policy with
  | exact => contradiction
  | subset =>
    have hall : required ⊆ actual := by simpa [accepts] using h
    have hwide : required ⊆ wider := fun label hlabel => hwider label (hall label hlabel)
    simpa [accepts] using hwide
  | overlap =>
    obtain ⟨label, hlabel, hactual⟩ : required.Meets actual := by simpa [accepts] using h
    have hmeets : required.Meets wider := ⟨label, hlabel, hwider label hactual⟩
    simpa [accepts] using hmeets

end Policy

/-! ### Chunks -/

namespace Chunk

/-- A chunk that is at least as permissive as another one of the same word. -/
inductive RelaxesTo (node relaxed : Chunk) : Prop where
  /-- The grammemes are compared by an equal or looser policy. -/
  | policy (hword : relaxed.word = node.word) (htags : relaxed.tags = node.tags)
    (hpolicy : node.policy.laxity ≤ relaxed.policy.laxity)
  /-- There are more grammemes, and the policy does not ask for the exact ones. -/
  | tags (hword : relaxed.word = node.word) (hpolicy : relaxed.policy = node.policy)
    (hexact : node.policy ≠ .exact) (htags : node.tags ⊆ relaxed.tags)

/-- A relaxed chunk meets the patterns that the chunk meets, except for the empty set. -/
theorem RelaxesTo.meets {node relaxed : Chunk} (h : RelaxesTo node relaxed) {p : Pattern}
    (hne : ∀ required, p = .tags required → required.labels ≠ []) (hmeets : node.meets p) :
  relaxed.meets p
  := by
  cases p with
  | word text =>
    have hword : relaxed.word = node.word := by
      cases h with
      | policy hword _ _ => apply hword
      | tags hword _ _ _ => apply hword
    rw [Chunk.meets, hword]
    apply hmeets
  | tags required =>
    rw [Chunk.meets] at hmeets ⊢
    cases h with
    | policy _ htags hpolicy =>
      rw [htags]
      apply Policy.accepts_of_laxity_le hpolicy (hne required rfl) hmeets
    | tags _ hpolicy hexact htags =>
      rw [hpolicy]
      apply Policy.accepts_of_subset hexact htags hmeets

end Chunk

/-! ### Windows -/

section

variable {ν : Type} [Constituent ν] {ns ms : List ν}

/-- A rule fits nodes that meet all its patterns which the nodes that it fits meet. -/
theorem Rule.fits_of_forall₂ {rule : Rule}
    (h : List.Forall₂ (fun n m => ∀ p ∈ rule.right, Constituent.meets n p → Constituent.meets m p)
      ns ms)
    (hfits : rule.fits ns) :
  rule.fits ms
  := by
  rw [fits_iff_suits] at hfits ⊢
  constructor
  · rw [← h.length_eq]
    apply hfits.arity_le
  · intro i hi hm
    have hn : i < ns.length := h.length_eq ▸ hm
    apply h.get hn hm _ (List.getElem_mem hi) (hfits.meets hi hn)

namespace Grammar

variable {g : Grammar} (h : ∀ rule ∈ g.rules, rule.fits ns → rule.fits ms)
include h

/-- All rules that fold a window fold a window of the same length that more rules fit. -/
theorem folding_sublist (hlength : ns.length = ms.length) :
  (g.folding ns).Sublist (g.folding ms)
  := by
  apply List.monotone_filter_right
  intro id hid
  obtain ⟨rule, hrule, hfolds⟩ := Option.any_eq_true _ _ |>.mp hid
  simp only [Rule.folds, Bool.and_eq_true, decide_eq_true_eq, hlength] at hfolds
  apply (Option.any_eq_true _ _).mpr
  use rule, hrule
  simp only [Rule.folds, Bool.and_eq_true, decide_eq_true_eq]
  exact ⟨hfolds.1, h rule (Array.mem_of_getElem? hrule) hfolds.2⟩

/-- The first rule that fits has no lower priority when more rules fit. -/
theorem exists_first?_le {id : Nat} (hfirst : g.first? ns = some id) :
  ∃ other ≤ id, g.first? ms = some other
  := by
  obtain ⟨⟨rule, hrule, hfits⟩, -⟩ := first?_eq_some_iff.mp hfirst
  have hid : id ∈ g.fitting ms := ⟨rule, hrule, h rule (Array.mem_of_getElem? hrule) hfits⟩
  cases hother : g.first? ms with
  | none => exact absurd hid (first?_eq_none_iff.mp hother id)
  | some other => exact ⟨other, (first?_eq_some_iff.mp hother).2 hid, rfl⟩

end Grammar

end

/-- No pattern of a grown grammar is an empty set. -/
theorem Grammar.labels_ne_nil_of_mem_grown {ps : List Production} {rule : Rule}
    (hrule : rule ∈ (grown ps).rules) {required : Grammemes} (hmem : .tags required ∈ rule.right) :
  required.labels ≠ []
  := by
  obtain ⟨p, -, rules, hrules, hrule⟩ := exists_rules_of_mem_grown hrule
  obtain ⟨piece, -, hwrites⟩ := Production.exists_writes_of_mem hrules hrule
  apply (hwrites.labels_ne_nil hmem).1

/-- A rule of a grown grammar that fits a window fits the relaxed window. -/
theorem Grammar.fits_of_relaxesTo {ps : List Production} {ns ms : List Chunk}
    (h : List.Forall₂ Chunk.RelaxesTo ns ms) :
  ∀ rule ∈ (grown ps).rules, rule.fits ns → rule.fits ms
  := by
  intro rule hrule
  apply Rule.fits_of_forall₂
  apply h.imp
  intro node relaxed hrelaxed p hp
  apply hrelaxed.meets
  rintro required rfl
  apply labels_ne_nil_of_mem_grown hrule hp

namespace Chunker

/-- Whatever was asked before, a lookup finds for a relaxed window all rules that it finds for the
window, in the same order and possibly others between them, and the first rule that fits it has no
lower priority than the one that fits the window. -/
theorem lookup_after_of_relaxesTo (ps : List Production) (capacity capacity' : Nat)
    (asked asked' : List (Query Chunk)) (ns ms : List Chunk)
    (h : List.Forall₂ Chunk.RelaxesTo ns ms) :
  let c := after (Grammar.grown ps) capacity asked
  let c' := after (Grammar.grown ps) capacity' asked'
  (c.lookup ns).1.ids.Sublist (c'.lookup ms).1.ids
    ∧ ∀ id, c.grammar.first? ns = some id → ∃ other ≤ id, c'.grammar.first? ms = some other
  := by
  have hfits : ∀ rule ∈ (Grammar.grown ps).rules, rule.fits ns → rule.fits ms :=
    Grammar.fits_of_relaxesTo h
  simp only [ids_lookup_after (Grammar.filed_grown ps), grammar_after]
  constructor
  · apply Grammar.folding_sublist hfits h.length_eq
  · intro id
    apply Grammar.exists_first?_le hfits

/-- Two rules of arity two, `X -> 'w' A,B` and `X -> A B`. -/
def pairs : List Production :=
  [⟨"X", "'w' A,B | A B", 1.0⟩]

/-- The second rule folds this window. -/
def strictPair : List Chunk :=
  [⟨some "w", .ofList ["A"], 1.0, .exact, []⟩, .ofTags (.ofList ["B"])]

/-- The window with a looser policy at its first and one more grammeme at its second position. -/
def relaxedPair : List Chunk :=
  [⟨some "w", .ofList ["A"], 1.0, .overlap, []⟩, .ofTags (.ofList ["A", "B"])]

/-- Both rules fold the relaxed window. -/
theorem lookup_after_of_relaxesTo_pair :
  List.Forall₂ Chunk.RelaxesTo strictPair relaxedPair
    ∧ (let c := after (Grammar.grown pairs) 1 [.lookup relaxedPair]
      let c' := after (Grammar.grown pairs) 0 [.lookup strictPair]
      (c.lookup strictPair).1.ids = [1] ∧ [1].Sublist (c'.lookup relaxedPair).1.ids
        ∧ c.grammar.first? strictPair = some 1
        ∧ ∃ other ≤ 1, c'.grammar.first? relaxedPair = some other)
  := by
  have hrelaxed : List.Forall₂ Chunk.RelaxesTo strictPair relaxedPair := by
    apply List.Forall₂.cons
    · exact .policy rfl rfl (by decide)
    · apply List.Forall₂.cons _ .nil
      exact .tags rfl rfl (by decide) (by decide +kernel)
  have hids : ((after (Grammar.grown pairs) 1 [.lookup relaxedPair]).lookup strictPair).1.ids
      = [1] := by
    rw [ids_lookup_after (Grammar.filed_grown pairs)]
    decide +kernel
  have hfirst : (after (Grammar.grown pairs) 1 [.lookup relaxedPair]).grammar.first? strictPair
      = some 1 := by
    rw [grammar_after]
    decide +kernel
  obtain ⟨hsublist, hle⟩ := lookup_after_of_relaxesTo pairs 1 0 [.lookup relaxedPair]
    [.lookup strictPair] strictPair relaxedPair hrelaxed
  rw [hids] at hsublist
  exact ⟨hrelaxed, hids, hsublist, hfirst, hle 1 hfirst⟩

end Chunker

end Chunking
