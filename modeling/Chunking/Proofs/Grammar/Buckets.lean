import Chunking.Grammar
import Mathlib.Data.List.Basic

/-!
# Rules filed by arity

A grammar that is grown from productions is filed: the bucket of an arity has the ids of all rules
of this arity, in ascending order.  Hence the scan of a bucket finds the same rules as a look at
all rules does.
-/

namespace Chunking

/-! ### Growth by several productions -/

/-- The rules that a production adds to a grammar: none when it is refused. -/
def Production.accepted (p : Production) : List Rule :=
  p.rules.toOption.getD []

namespace Grammar

/-- The grammar that grows from several productions offered in order. -/
def grown (ps : List Production) : Grammar :=
  ps.foldl (fun g p => (g.offer p).1) empty

/-- An offer adds the rules of the production one by one. -/
theorem fst_offer (g : Grammar) (p : Production) :
  (g.offer p).1 = p.accepted.foldl push g
  := by
  simp only [offer, add, Production.accepted]
  cases p.rules with
  | error cause => rfl
  | ok rules => rfl

theorem grown_eq_foldl_push (ps : List Production) :
  grown ps = (ps.flatMap Production.accepted).foldl push empty
  := by
  rw [List.foldl_flatMap, grown]
  simp only [fst_offer]

theorem toList_rules_foldl_push (g : Grammar) (rules : List Rule) :
  (rules.foldl push g).rules.toList = g.rules.toList ++ rules
  := by
  induction rules generalizing g with
  | nil => rw [List.foldl_nil, List.append_nil]
  | cons rule rules ih =>
    rw [List.foldl_cons, ih, push, Array.toList_push, List.append_assoc, List.singleton_append]

/-- The rules of a grown grammar are those of its productions, in the same order. -/
theorem toList_rules_grown (ps : List Production) :
  (grown ps).rules.toList = ps.flatMap Production.accepted
  := by
  rw [grown_eq_foldl_push, toList_rules_foldl_push]
  rfl

/-- A rule of a grown grammar is a rule of one of its productions. -/
theorem exists_rules_of_mem_grown {ps : List Production} {rule : Rule}
    (h : rule ∈ (grown ps).rules) :
  ∃ p ∈ ps, ∃ rules, p.rules = .ok rules ∧ rule ∈ rules
  := by
  rw [← Array.mem_toList_iff, toList_rules_grown, List.mem_flatMap] at h
  obtain ⟨p, hp, hrule⟩ := h
  use p, hp
  cases hrules : p.rules with
  | error cause => simp [Production.accepted, hrules, Except.toOption] at hrule
  | ok rules =>
    use rules, rfl
    simpa [Production.accepted, hrules, Except.toOption] using hrule

/-! ### Filed grammars -/

/-- A grammar in which the bucket of an arity has the ids of all rules of this arity, in
ascending order. -/
def Filed (g : Grammar) : Prop :=
  ∀ n, g.bucket n = (List.range g.size).filter fun id => (g.rule? id).any fun rule => rule.arity = n

theorem filed_empty :
  empty.Filed
  := by
  intro n
  rfl

theorem size_push (g : Grammar) (rule : Rule) :
  (g.push rule).size = g.size + 1
  := Array.size_push rule

theorem rule?_push_of_lt {g : Grammar} {id : Nat} (h : id < g.size) (rule : Rule) :
  (g.push rule).rule? id = g.rule? id
  := by
  have hne : id ≠ g.rules.size := Nat.ne_of_lt h
  rw [rule?, rule?, push, Array.getElem?_push, if_neg hne]

theorem rule?_push_size (g : Grammar) (rule : Rule) :
  (g.push rule).rule? g.size = some rule
  := Array.getElem?_push_size

theorem Filed.push {g : Grammar} (h : g.Filed) (rule : Rule) :
  (g.push rule).Filed
  := by
  intro n
  have hold : (List.range g.size).filter
      (fun id => ((g.push rule).rule? id).any fun rule => rule.arity = n) = g.bucket n := by
    rw [h n]
    apply List.filter_congr
    intro id hid
    rw [rule?_push_of_lt (List.mem_range.mp hid)]
  rw [size_push, List.range_succ, List.filter_append, hold, bucket_push, List.filter_singleton,
    rule?_push_size]
  split
  next harity => simp [harity]
  next harity => simp [Ne.symm harity]

theorem filed_grown (ps : List Production) :
  (grown ps).Filed
  := by
  rw [grown_eq_foldl_push]
  apply List.foldlRecOn _ _ filed_empty
  intro g hg rule _
  apply hg.push

/-- A bucket is empty exactly when no rule has its arity. -/
theorem bucket_eq_nil_iff {g : Grammar} (h : g.Filed) {n : Nat} :
  g.bucket n = [] ↔ ∀ rule ∈ g.rules, rule.arity ≠ n
  := by
  rw [h n, List.filter_eq_nil_iff]
  constructor
  · intro hnone rule hrule harity
    obtain ⟨id, hid, rfl⟩ := Array.mem_iff_getElem.mp hrule
    apply hnone id (List.mem_range.mpr hid)
    simp [rule?, hid, harity]
  · intro hall id hid
    have hlt : id < g.rules.size := List.mem_range.mp hid
    have harity := hall g.rules[id] (Array.getElem_mem hlt)
    simp [rule?, hlt, harity]

/-- The ids of the rules with a property name these rules, in the order of the list of rules. -/
theorem map_rule?_filter_range (g : Grammar) (p : Rule → Bool) :
  ((List.range g.size).filter fun id => (g.rule? id).any p).map g.rule?
    = (g.rules.toList.filter p).map some
  := by
  have hrules : g.rules.toList.map some = (List.range g.size).map g.rule? := by
    apply List.ext_getElem
    · simp [size]
    · intro i hi _
      simp only [List.length_map, Array.length_toList] at hi
      simp [rule?, hi]
  have hsome : (g.rules.toList.filter p).map some
      = (g.rules.toList.map some).filter fun found => found.any p := by
    rw [List.filter_map]
    rfl
  rw [hsome, hrules, List.filter_map]
  rfl

end Grammar

/-! ### Scans -/

variable {ν : Type} [Constituent ν]

/-- Whether a rule folds a window as a whole: it has the length of the window and fits it. -/
def Rule.folds (rule : Rule) (window : List ν) : Bool :=
  rule.arity = window.length && rule.fits window

/-- The empty window is folded by the rules of arity zero. -/
theorem Rule.folds_nil_iff {rule : Rule} :
  rule.folds ([] : List ν) ↔ rule.arity = 0
  := by
  constructor
  · intro h
    simp only [folds, Bool.and_eq_true, decide_eq_true_eq] at h
    apply h.1
  · intro h
    have hright : rule.right = [] := List.length_eq_zero_iff.mp h
    simp [folds, fits, arity, hright, Pattern.allMet]

namespace Grammar

/-- The ids of the rules that fold a window, found by a look at all rules in order. -/
def folding (g : Grammar) (window : List ν) : List Nat :=
  (List.range g.size).filter fun id => (g.rule? id).any fun rule => rule.folds window

theorem mem_folding_iff {g : Grammar} {window : List ν} {id : Nat} :
  id ∈ g.folding window ↔ ∃ rule, g.rule? id = some rule ∧ rule.folds window
  := by
  rw [folding, List.mem_filter, List.mem_range, Option.any_eq_true]
  constructor
  · rintro ⟨-, h⟩
    apply h
  · rintro ⟨rule, hrule, hfolds⟩
    constructor
    · apply (Array.getElem?_eq_some_iff.mp hrule).1
    · exact ⟨rule, hrule, hfolds⟩

/-- Something is found exactly when some rule folds the window. -/
theorem folding_ne_nil_iff {g : Grammar} {window : List ν} :
  g.folding window ≠ [] ↔ ∃ rule ∈ g.rules, rule.folds window
  := by
  constructor
  · intro hne
    obtain ⟨id, hid⟩ := List.exists_mem_of_ne_nil _ hne
    obtain ⟨rule, hrule, hfolds⟩ := mem_folding_iff.mp hid
    use rule, Array.mem_of_getElem? hrule
  · rintro ⟨rule, hrule, hfolds⟩
    obtain ⟨id, hid⟩ := Array.mem_iff_getElem?.mp hrule
    apply List.ne_nil_of_mem (a := id)
    apply mem_folding_iff.mpr
    use rule, hid

/-- A scan of a bucket finds the rules that a look at all rules finds. -/
theorem scan_eq_folding {g : Grammar} (h : g.Filed) (window : List ν) :
  g.scan window = g.folding window
  := by
  rw [scan, folding, h window.length, List.filter_filter]
  apply List.filter_congr
  intro id _
  rw [fitsId]
  cases g.rule? id with
  | none => rfl
  | some rule => simp [Rule.folds, Bool.and_comm]

/-- No rule is found twice, and rules are found in order. -/
theorem pairwise_lt_folding (g : Grammar) (window : List ν) :
  (g.folding window).Pairwise (· < ·)
  := List.pairwise_lt_range.filter _

/-- The rules found are those of the list of rules that fold the window, in the same order. -/
theorem map_rule?_folding (g : Grammar) (window : List ν) :
  (g.folding window).map g.rule? = (g.rules.toList.filter fun rule => rule.folds window).map some
  := g.map_rule?_filter_range fun rule => rule.folds window

/-- The texts of the rules found are those of the rules that fold the window, in the same order. -/
theorem map_ruleText_folding (g : Grammar) (window : List ν) :
  (g.folding window).map g.ruleText
    = (g.rules.toList.filter fun rule => rule.folds window).map Rule.display
  := by
  have htext : g.ruleText = (fun found => (found.map Rule.display).getD "") ∘ g.rule? := rfl
  rw [htext, ← List.map_map, map_rule?_folding, List.map_map]
  rfl

end Grammar

end Chunking
