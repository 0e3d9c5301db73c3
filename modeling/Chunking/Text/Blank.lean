/-!
# Blank characters

A property of characters is given by its ranges of code points, listed in ascending order.
`isBlank` is the Unicode property `White_Space`.  Blanks separate words, and they are dropped at
both ends of a text by `trim`.  Zero-width characters, such as U+200B and U+FEFF, and the
information separators U+001C to U+001F are not blank.
-/

namespace Chunking.Text

/-! ### Character ranges -/

/-- A range of code points: the first and the last one, both included. -/
abbrev Range := Nat × Nat

/-- Membership of a character in one of the ascending `ranges`.  The search stops at the first range
that lies beyond the character. -/
def covers : List Range → Char → Bool
  | [], _ => false
  | (first, last) :: ranges, c =>
    first ≤ c.toNat && (c.toNat ≤ last || covers ranges c)

/-! ### Blanks -/

/-- The ranges of the Unicode property `White_Space`. -/
def blankRanges : List Range :=
  [(0x09, 0x0D), (0x20, 0x20), (0x85, 0x85), (0xA0, 0xA0), (0x1680, 0x1680), (0x2000, 0x200A),
    (0x2028, 0x2029), (0x202F, 0x202F), (0x205F, 0x205F), (0x3000, 0x3000)]

/-- A blank: a character with the Unicode property `White_Space`. -/
def isBlank (c : Char) : Bool :=
  covers blankRanges c

/-! ### Trimming -/

/-- The characters without the blanks at their two ends. -/
def trimmed (cs : List Char) : List Char :=
  ((cs.dropWhile isBlank).reverse.dropWhile isBlank).reverse

/-- The text without the blanks at its two ends. -/
def trim (s : String) : String :=
  String.ofList (trimmed s.toList)

theorem toList_trim (s : String) :
  (trim s).toList = trimmed s.toList
  := String.toList_ofList

/-- A text that holds nothing but blanks. -/
def isAllBlank (s : String) : Bool :=
  s.toList.all isBlank

/-! ### Words -/

/-- The maximal runs of non-blank characters, from left to right. -/
def runs (cs : List Char) : List (List Char) :=
  (cs.splitOnP isBlank).filter fun run => !run.isEmpty

/-- No part of a list that has been split holds a separator. -/
theorem eq_false_of_mem_splitOnP {p : Char → Bool} {cs part : List Char}
    (h : part ∈ cs.splitOnP p) :
  ∀ c ∈ part, p c = false
  := by
  induction cs generalizing part with
  | nil =>
    rw [List.splitOnP_nil, List.mem_singleton] at h
    simp [h]
  | cons c cs ih =>
    rw [List.splitOnP_cons_eq_if_modifyHead] at h
    split at h
    next =>
      rcases List.mem_cons.mp h with rfl | h
      · simp
      · apply ih h
    next hc =>
      obtain ⟨first, others, heq⟩ := List.exists_cons_of_ne_nil (List.splitOnP_ne_nil p cs)
      rw [heq, List.modifyHead_cons] at h
      rcases List.mem_cons.mp h with rfl | h
      · intro d hd
        rcases List.mem_cons.mp hd with rfl | hd
        · simpa using hc
        · apply ih (by rw [heq]; exact List.mem_cons_self) d hd
      · apply ih
        rw [heq]
        exact List.mem_cons_of_mem _ h

/-- A run is not empty and holds no blank. -/
theorem not_isBlank_of_mem_runs {cs run : List Char} (h : run ∈ runs cs) :
  run ≠ [] ∧ ∀ c ∈ run, isBlank c = false
  := by
  simp only [runs, List.mem_filter, Bool.not_eq_true', List.isEmpty_eq_false_iff] at h
  obtain ⟨hmem, hne⟩ := h
  exact ⟨hne, eq_false_of_mem_splitOnP hmem⟩

/-- A blank separates the runs before it from those after it. -/
theorem runs_append_cons {c : Char} (hc : isBlank c = true) (cs ds : List Char) :
  runs (cs ++ c :: ds) = runs cs ++ runs ds
  := by
  rw [runs, List.splitOnP_append_cons cs ds hc, List.filter_append, runs, runs]

/-- A non-empty list without blanks is one run. -/
theorem runs_eq_singleton {cs : List Char} (hne : cs ≠ []) (h : ∀ c ∈ cs, isBlank c = false) :
  runs cs = [cs]
  := by
  rw [runs, List.splitOnP_eq_singleton h]
  simp [hne]

/-- The words of a text: its maximal runs of non-blank characters, from left to right. -/
def words (s : String) : List String :=
  (runs s.toList).map String.ofList

end Chunking.Text
