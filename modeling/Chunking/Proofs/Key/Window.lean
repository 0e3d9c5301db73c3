import Chunking.Grammar
import Mathlib.Data.List.Basic

/-!
# Keys of windows

The key of a window determines the keys of its nodes, as long as no key of a node holds the
separator, with one exception: the empty window has the same key as a window of one node whose own
key is empty.  Windows with the same keys of nodes are fitted by the same rules.
-/

namespace Chunking

/-- Lists without a mark in them, joined by the mark: they can be read off the joined list, except
that no list at all and one empty list are joined alike. -/
theorem intercalate_eq_iff {mark : Char} {xs ys : List (List Char)} (hxs : ∀ x ∈ xs, mark ∉ x)
    (hys : ∀ y ∈ ys, mark ∉ y) :
  [mark].intercalate xs = [mark].intercalate ys
    ↔ xs = ys ∨ (xs = [] ∧ ys = [[]]) ∨ (xs = [[]] ∧ ys = [])
  := by
  constructor
  · intro h
    have hsplit := congrArg (List.splitOn mark) h
    by_cases hx : xs = []
    · subst hx
      by_cases hy : ys = []
      · left
        rw [hy]
      · rw [List.splitOn_intercalate mark hys hy] at hsplit
        right
        left
        constructor
        · rfl
        · rw [← hsplit]
          rfl
    · rw [List.splitOn_intercalate mark hxs hx] at hsplit
      by_cases hy : ys = []
      · subst hy
        right
        right
        constructor
        · rw [hsplit]
          rfl
        · rfl
      · rw [List.splitOn_intercalate mark hys hy] at hsplit
        left
        apply hsplit
  · rintro (rfl | ⟨rfl, rfl⟩ | ⟨rfl, rfl⟩)
    · rfl
    · rfl
    · rfl

variable {ν : Type} [Constituent ν]

theorem toList_windowKey (nodes : List ν) :
  (windowKey nodes).toList
    = [separator].intercalate ((nodes.map Constituent.key).map String.toList)
  := by
  rw [windowKey, String.toList_intercalate, String.toList_singleton]

/-! ### What the key of a window determines -/

/-- Windows that have the same key although their lengths differ: one of them is empty, and the
other has one node, with an empty key. -/
def Confused (ns ms : List ν) : Prop :=
  (ns = [] ∧ ms.map Constituent.key = [""]) ∨ (ns.map Constituent.key = [""] ∧ ms = [])

/-- Windows have the same key exactly when their nodes have the same keys position by position, or
the windows are confused. -/
theorem windowKey_eq_iff [LawfulConstituent ν] {ns ms : List ν} :
  windowKey ns = windowKey ms
    ↔ ns.map Constituent.key = ms.map Constituent.key ∨ Confused ns ms
  := by
  have hmark (nodes : List ν) :
      ∀ x ∈ (nodes.map Constituent.key).map String.toList, separator ∉ x := by
    intro x hx
    obtain ⟨_, hkey, rfl⟩ := List.mem_map.mp hx
    obtain ⟨node, -, rfl⟩ := List.mem_map.mp hkey
    apply LawfulConstituent.separator_not_mem_key
  have hsingle (nodes : List ν) :
      (nodes.map Constituent.key).map String.toList = [[]] ↔ nodes.map Constituent.key = [""] := by
    rw [← List.map_inj_right (fun _ _ => String.toList_inj.mp)]
    rfl
  rw [← String.toList_inj, toList_windowKey, toList_windowKey,
    intercalate_eq_iff (hmark ns) (hmark ms), hsingle, hsingle,
    List.map_inj_right (fun _ _ => String.toList_inj.mp)]
  simp only [List.map_eq_nil_iff, Confused]

/-- When no key is empty, the key of a window determines the keys of its nodes. -/
theorem windowKey_eq_iff_of_ne_empty [LawfulConstituent ν]
    (h : ∀ node : ν, Constituent.key node ≠ "") {ns ms : List ν} :
  windowKey ns = windowKey ms ↔ ns.map Constituent.key = ms.map Constituent.key
  := by
  have hsingle (nodes : List ν) : nodes.map Constituent.key ≠ [""] := by
    intro heq
    obtain ⟨node, -, hkey⟩ := List.map_eq_singleton_iff.mp heq
    exact h node hkey
  rw [windowKey_eq_iff]
  constructor
  · rintro (heq | ⟨-, heq⟩ | ⟨heq, -⟩)
    · apply heq
    · exact absurd heq (hsingle ms)
    · exact absurd heq (hsingle ns)
  · apply Or.inl

/-! ### Windows with the same keys -/

section

variable {ns ms : List ν} (h : ns.map Constituent.key = ms.map Constituent.key)
include h

theorem length_eq_of_keys_eq :
  ns.length = ms.length
  := by
  rw [← List.length_map, h, List.length_map]

variable [LawfulConstituent ν]

theorem Pattern.allMet_eq_of_keys_eq (ps : List Pattern) :
  allMet ps ns = allMet ps ms
  := by
  induction ps generalizing ns ms with
  | nil => simp [allMet]
  | cons p ps ih =>
    cases ns with
    | nil =>
      obtain rfl := List.map_eq_nil_iff.mp h.symm
      rfl
    | cons n ns =>
      cases ms with
      | nil => cases h
      | cons m ms =>
        obtain ⟨hkey, hkeys⟩ := List.cons.inj h
        rw [allMet, allMet, LawfulConstituent.meets_of_key_eq hkey p, ih hkeys]

/-- Windows with the same keys are fitted by the same rules. -/
theorem Rule.fits_eq_of_keys_eq (rule : Rule) :
  rule.fits ns = rule.fits ms
  := by
  rw [fits, fits, length_eq_of_keys_eq h, Pattern.allMet_eq_of_keys_eq h]

theorem Grammar.scan_eq_of_keys_eq (g : Grammar) :
  g.scan ns = g.scan ms
  := by
  have hfits : g.fitsId ns = g.fitsId ms := by
    funext id
    simp only [fitsId, Rule.fits_eq_of_keys_eq h]
  rw [scan, scan, length_eq_of_keys_eq h, hfits]

end

end Chunking
