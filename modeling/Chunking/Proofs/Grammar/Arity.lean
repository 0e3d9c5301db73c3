import Chunking.Chunker
import Chunking.Proofs.Grammar.Buckets
import Mathlib.Logic.ExistsUnique

/-!
# The arity index

A grammar keeps its rules in three ways: in the list of rules, in the buckets of the arities, and
as the largest arity.  Every rule that is added changes all three alike, so that they agree after
any history of productions.  A production that is refused changes none of them, hence the history
can be replayed without it.
-/

namespace Chunking

namespace Grammar

/-! ### Growth of the largest arity -/

/-- A grammar whose `maxArity` bounds the arities of its rules, and is the arity of one of them
unless there is no rule. -/
structure Bounded (g : Grammar) : Prop where
  arity_le {rule : Rule} (h : rule ∈ g.rules) : rule.arity ≤ g.maxArity
  maxArity_attained :
    (g.rules = #[] ∧ g.maxArity = 0) ∨ ∃ rule ∈ g.rules, rule.arity = g.maxArity

theorem bounded_empty :
  empty.Bounded
  := by
  constructor
  · intro rule hrule
    exact absurd hrule (Array.not_mem_empty rule)
  · left
    exact ⟨rfl, rfl⟩

theorem Bounded.push {g : Grammar} (h : g.Bounded) (rule : Rule) :
  (g.push rule).Bounded
  := by
  constructor
  · intro other hother
    rcases Array.mem_push.mp hother with hother | rfl
    · apply Nat.le_trans (h.arity_le hother) (Nat.le_max_left _ _)
    · apply Nat.le_max_right
  · right
    rcases Nat.le_total g.maxArity rule.arity with hle | hle
    · use rule, Array.mem_push_self
      symm
      apply Nat.max_eq_right hle
    · rcases h.maxArity_attained with ⟨-, hzero⟩ | ⟨widest, hwidest, harity⟩
      · use rule, Array.mem_push_self
        simp only [Grammar.push]
        omega
      · use widest, Array.mem_push_of_mem rule hwidest
        rw [harity]
        symm
        apply Nat.max_eq_left hle

theorem bounded_grown (ps : List Production) :
  (grown ps).Bounded
  := by
  rw [grown_eq_foldl_push]
  apply List.foldlRecOn _ _ bounded_empty
  intro g hg rule _
  apply hg.push

/-! ### Histories -/

/-- Further productions are offered to the grammar grown before. -/
theorem grown_append (ps qs : List Production) :
  grown (ps ++ qs) = (qs.flatMap Production.accepted).foldl push (grown ps)
  := by
  rw [grown_eq_foldl_push, grown_eq_foldl_push, List.flatMap_append, List.foldl_append]

theorem maxArity_le_grown_append (ps qs : List Production) :
  (grown ps).maxArity ≤ (grown (ps ++ qs)).maxArity
  := by
  rw [grown_append]
  apply List.foldlRecOn (motive := fun g : Grammar => (grown ps).maxArity ≤ g.maxArity)
  · apply Nat.le_refl
  · intro g hg rule _
    apply Nat.le_trans hg (Nat.le_max_left _ _)

/-- A production that is refused leaves the grammar as it is. -/
theorem fst_offer_of_refused {g : Grammar} {p : Production} {cause : GrammarError}
    (h : (g.offer p).2 = some cause) :
  (g.offer p).1 = g
  := by
  simp only [offer] at h ⊢
  cases hadd : g.add p with
  | ok grown =>
    rw [hadd] at h
    cases h
  | error found => rfl

/-- The productions that are not refused when all are offered in order. -/
def taken (g : Grammar) : List Production → List Production
  | [] => []
  | p :: ps =>
    let (next, refusal) := g.offer p
    if refusal.isNone then p :: next.taken ps else next.taken ps

/-- A history can be replayed without the productions that were refused. -/
theorem foldl_offer_taken (g : Grammar) (ps : List Production) :
  (g.taken ps).foldl (fun g p => (g.offer p).1) g = ps.foldl (fun g p => (g.offer p).1) g
  := by
  induction ps generalizing g with
  | nil => rfl
  | cons p ps ih =>
    simp only [taken, List.foldl_cons]
    cases hrefusal : (g.offer p).2 with
    | none =>
      rw [Option.isNone_none, if_pos rfl, List.foldl_cons, ih]
    | some cause =>
      rw [Option.isNone_some, if_neg Bool.false_ne_true, fst_offer_of_refused hrefusal, ih]

theorem grown_taken (ps : List Production) :
  grown (empty.taken ps) = grown ps
  := foldl_offer_taken empty ps

/-! ### The three views -/

/-- A grammar whose buckets and largest arity say what the list of rules says. -/
structure Mirrored (g : Grammar) : Prop extends g.Bounded where
  mem_bucket_iff (n id : Nat) : id ∈ g.bucket n ↔ ∃ rule, g.rule? id = some rule ∧ rule.arity = n
  pairwise_bucket (n : Nat) : (g.bucket n).Pairwise (· < ·)
  /-- Each rule is filed once. -/
  existsUnique_bucket {id : Nat} (h : id < g.size) : ∃! n, id ∈ g.bucket n
  lt_size_of_mem_bucket {n id : Nat} (h : id ∈ g.bucket n) : id < g.size
  rulesOfArity_eq (n : Nat) :
    g.rulesOfArity n = g.rules.toList.filter fun rule => rule.arity = n

section

variable {g : Grammar} (h : g.Filed)
include h

theorem mem_bucket_iff {n id : Nat} :
  id ∈ g.bucket n ↔ ∃ rule, g.rule? id = some rule ∧ rule.arity = n
  := by
  rw [h n, List.mem_filter, List.mem_range, Option.any_eq_true]
  simp only [decide_eq_true_eq]
  constructor
  · rintro ⟨-, hrule⟩
    apply hrule
  · rintro ⟨rule, hrule, harity⟩
    constructor
    · apply (Array.getElem?_eq_some_iff.mp hrule).1
    · exact ⟨rule, hrule, harity⟩

theorem existsUnique_bucket {id : Nat} (hid : id < g.size) :
  ∃! n, id ∈ g.bucket n
  := by
  have hrule : g.rule? id = some g.rules[id] := Array.getElem?_eq_getElem hid
  use g.rules[id].arity
  constructor
  · apply (mem_bucket_iff h).mpr
    exact ⟨_, hrule, rfl⟩
  · intro n hn
    obtain ⟨rule, hfound, rfl⟩ := (mem_bucket_iff h).mp hn
    rw [hrule] at hfound
    rw [Option.some.inj hfound]

theorem rulesOfArity_eq (n : Nat) :
  g.rulesOfArity n = g.rules.toList.filter fun rule => rule.arity = n
  := by
  have hmap := g.map_rule?_filter_range fun rule => rule.arity = n
  rw [← h n] at hmap
  calc g.rulesOfArity n
    _ = ((g.bucket n).map g.rule?).filterMap id := by
      rw [List.filterMap_map]
      rfl
    _ = ((g.rules.toList.filter fun rule => rule.arity = n).map some).filterMap id := by rw [hmap]
    _ = g.rules.toList.filter fun rule => rule.arity = n := by
      rw [List.filterMap_map]
      apply List.filterMap_some

theorem Filed.mirrored (hbounded : g.Bounded) :
  g.Mirrored
  := by
  constructor
  · apply hbounded
  · intro n id
    apply mem_bucket_iff h
  · intro n
    rw [h n]
    apply List.pairwise_lt_range.filter
  · intro id hid
    apply existsUnique_bucket h hid
  · intro n id hid
    obtain ⟨rule, hrule, -⟩ := (mem_bucket_iff h).mp hid
    apply (Array.getElem?_eq_some_iff.mp hrule).1
  · apply rulesOfArity_eq h

end

/-- After any history of productions, some refused, the buckets and the largest arity say what the
list of rules says, in the grammar and in a chunker made of it.  The largest arity never decreases,
and refused productions can be left out of the history. -/
theorem grown_mirrored_and_replayed (ps : List Production) :
  (grown ps).Mirrored
    ∧ (∀ capacity, (Chunker.ofGrammar (grown ps) capacity).grammar.Mirrored)
    ∧ (∀ qs, (grown ps).maxArity ≤ (grown (ps ++ qs)).maxArity)
    ∧ (∀ p cause, ((grown ps).offer p).2 = some cause → ((grown ps).offer p).1 = grown ps)
    ∧ grown (empty.taken ps) = grown ps
  := by
  have hmirrored := (filed_grown ps).mirrored (bounded_grown ps)
  constructor
  · apply hmirrored
  constructor
  · intro _
    apply hmirrored
  constructor
  · apply maxArity_le_grown_append
  constructor
  · intro p cause
    apply fst_offer_of_refused
  · apply grown_taken

example :
    let g := grown
      [{ left := "X", right := "A | B C" }, { left := "Y", right := "D | 'e" },
        { left := "Z", right := "" }]
    g.buckets = #[#[2], #[0], #[1]] ∧ g.maxArity = 2 := by
  decide +kernel

end Grammar

end Chunking
