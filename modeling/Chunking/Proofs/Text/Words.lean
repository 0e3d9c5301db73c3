import Chunking.Text.Blank
import Chunking.Text.Cut
import Mathlib.Data.List.DropRight

/-!
# Words, blanks and fields

Blanks at the ends of a text belong to no word, so a text and its trimmed form have the same words.
A text has no word exactly when it is blank, and exactly then nothing is left of it by trimming.

Texts that are joined by a mark are the fields of the joined text, if none of them holds the mark.
Texts that are neither empty nor hold a blank are the words of the text in which single spaces stand
between them.
-/

namespace Chunking.Text

/-! ### Runs -/

theorem runs_nil :
  runs [] = []
  := rfl

theorem runs_cons_of_isBlank {c : Char} (h : isBlank c = true) (cs : List Char) :
  runs (c :: cs) = runs cs
  := by
  rw [← List.nil_append (c :: cs), runs_append_cons h, runs_nil, List.nil_append]

theorem runs_concat_of_isBlank {c : Char} (h : isBlank c = true) (cs : List Char) :
  runs (cs ++ [c]) = runs cs
  := by
  rw [runs_append_cons h, runs_nil, List.append_nil]

/-- A character that is not blank is in some run. -/
theorem runs_cons_ne_nil {c : Char} (h : ¬isBlank c = true) (cs : List Char) :
  runs (c :: cs) ≠ []
  := by
  obtain ⟨first, others, heq⟩ := List.exists_cons_of_ne_nil (List.splitOnP_ne_nil isBlank cs)
  rw [runs, List.splitOnP_cons_eq_if_modifyHead, if_neg h, heq, List.modifyHead_cons]
  simp

theorem runs_eq_nil_iff {cs : List Char} :
  runs cs = [] ↔ ∀ c ∈ cs, isBlank c = true
  := by
  induction cs with
  | nil => simp [runs_nil]
  | cons c cs ih =>
    by_cases h : isBlank c = true
    · rw [runs_cons_of_isBlank h, ih, List.forall_mem_cons]
      exact ⟨fun hcs => ⟨h, hcs⟩, And.right⟩
    · constructor
      · intro hnil
        exact absurd hnil (runs_cons_ne_nil h cs)
      · intro hall
        exact absurd (hall c List.mem_cons_self) h

theorem runs_dropWhile (cs : List Char) :
  runs (cs.dropWhile isBlank) = runs cs
  := by
  induction cs with
  | nil => rfl
  | cons c cs ih =>
    rw [List.dropWhile_cons]
    split
    next h => rw [ih, runs_cons_of_isBlank h]
    next => rfl

theorem runs_reverse_dropWhile (cs : List Char) :
  runs (cs.dropWhile isBlank).reverse = runs cs.reverse
  := by
  induction cs with
  | nil => rfl
  | cons c cs ih =>
    rw [List.dropWhile_cons]
    split
    next h => rw [ih, List.reverse_cons, runs_concat_of_isBlank h]
    next => rfl

theorem runs_trimmed (cs : List Char) :
  runs (trimmed cs) = runs cs
  := by
  rw [trimmed, runs_reverse_dropWhile, List.reverse_reverse, runs_dropWhile]

/-! ### Words of texts -/

/-- A text and its trimmed form have the same words. -/
theorem words_trim (s : String) :
  words (trim s) = words s
  := by
  rw [words, toList_trim, runs_trimmed, words]

theorem isAllBlank_iff {s : String} :
  isAllBlank s = true ↔ ∀ c ∈ s.toList, isBlank c = true
  := List.all_eq_true

theorem words_eq_nil_iff {s : String} :
  words s = [] ↔ isAllBlank s = true
  := by
  rw [words, List.map_eq_nil_iff, runs_eq_nil_iff, isAllBlank_iff]

/-- Nothing is left of a list exactly when it holds blanks only. -/
theorem trimmed_eq_nil_iff {cs : List Char} :
  trimmed cs = [] ↔ ∀ c ∈ cs, isBlank c = true
  := by
  rw [trimmed, List.reverse_eq_nil_iff, List.dropWhile_eq_nil_iff]
  simp only [List.mem_reverse]
  constructor
  · intro h
    apply List.dropWhile_eq_nil_iff.mp
    by_contra hne
    have hhead := List.head_dropWhile_not isBlank hne
    have hblank := h _ (List.head_mem hne)
    simp [hhead] at hblank
  · intro h c hc
    apply h
    apply (List.dropWhile_sublist isBlank).mem hc

theorem trim_eq_empty_iff {s : String} :
  trim s = "" ↔ isAllBlank s = true
  := by
  rw [← String.toList_inj, toList_trim, String.toList_empty, trimmed_eq_nil_iff, isAllBlank_iff]

/-- A word is not empty and holds no blank. -/
theorem not_isBlank_of_mem_words {s word : String} (h : word ∈ words s) :
  word.toList ≠ [] ∧ ∀ c ∈ word.toList, isBlank c = false
  := by
  obtain ⟨run, hrun, rfl⟩ := List.mem_map.mp h
  rw [String.toList_ofList]
  apply not_isBlank_of_mem_runs hrun

/-- A text without blanks is its only word. -/
theorem words_eq_singleton {s : String} (hne : s ≠ "") (h : ∀ c ∈ s.toList, isBlank c = false) :
  words s = [s]
  := by
  rw [words, runs_eq_singleton (mt String.toList_eq_nil_iff.mp hne) h, List.map_singleton,
    String.ofList_toList]

/-! ### Texts without blanks at their ends -/

theorem isPrefix_trimmed (cs : List Char) :
  trimmed cs <+: cs.dropWhile isBlank
  := by
  rw [trimmed, ← List.reverse_suffix, List.reverse_reverse]
  apply List.dropWhile_suffix

theorem isInfix_trimmed (cs : List Char) :
  trimmed cs <:+: cs
  := (isPrefix_trimmed cs).isInfix.trans (List.dropWhile_suffix isBlank).isInfix

theorem dropWhile_isBlank_eq_self_iff {cs : List Char} :
  cs.dropWhile isBlank = cs ↔ ∀ c ∈ cs.head?, isBlank c = false
  := by
  cases cs with
  | nil => simp
  | cons c cs => simp [List.dropWhile_eq_self_iff]

/-- There is nothing to trim exactly when neither the first nor the last character is blank. -/
theorem trimmed_eq_self_iff {cs : List Char} :
  trimmed cs = cs
    ↔ (∀ c ∈ cs.head?, isBlank c = false) ∧ ∀ c ∈ cs.getLast?, isBlank c = false
  := by
  rw [← List.head?_reverse, ← dropWhile_isBlank_eq_self_iff, ← dropWhile_isBlank_eq_self_iff]
  constructor
  · intro h
    have hfront : cs.dropWhile isBlank = cs := by
      apply (List.dropWhile_suffix isBlank).eq_of_length_le
      calc cs.length
        _ = (trimmed cs).length := by rw [h]
        _ ≤ (cs.dropWhile isBlank).length := (isPrefix_trimmed cs).length_le
    rw [trimmed, hfront] at h
    use hfront
    rw [← h, List.reverse_reverse, List.dropWhile_idempotent]
  · rintro ⟨hfront, hback⟩
    rw [trimmed, hfront, hback, List.reverse_reverse]

theorem trim_eq_self_iff {s : String} :
  trim s = s
    ↔ (∀ c ∈ s.toList.head?, isBlank c = false) ∧ ∀ c ∈ s.toList.getLast?, isBlank c = false
  := by
  rw [← trimmed_eq_self_iff, ← toList_trim, String.toList_inj]

theorem trimmed_eq_self {cs : List Char} (h : ∀ c ∈ cs, isBlank c = false) :
  trimmed cs = cs
  := by
  apply trimmed_eq_self_iff.mpr
  constructor
  · intro c hc
    apply h c (List.mem_of_mem_head? hc)
  · intro c hc
    apply h c (List.mem_of_mem_getLast? hc)

/-- There is nothing to trim when no character is blank. -/
theorem trim_eq_self {s : String} (h : ∀ c ∈ s.toList, isBlank c = false) :
  trim s = s
  := by
  rw [← String.toList_inj, toList_trim, trimmed_eq_self h]

/-- Without blanks only the empty text is blank. -/
theorem isAllBlank_iff_eq_empty {s : String} (h : ∀ c ∈ s.toList, isBlank c = false) :
  isAllBlank s = true ↔ s = ""
  := by
  rw [← trim_eq_empty_iff, trim_eq_self h]

/-! ### Trimming -/

theorem trimmed_cons_of_isBlank {c : Char} (h : isBlank c = true) (cs : List Char) :
  trimmed (c :: cs) = trimmed cs
  := by
  rw [trimmed, List.dropWhile_cons_of_pos h, trimmed]

theorem trimmed_concat_of_isBlank {c : Char} (h : isBlank c = true) (cs : List Char) :
  trimmed (cs ++ [c]) = trimmed cs
  := by
  rw [trimmed, List.dropWhile_append]
  split
  next hempty =>
    rw [List.isEmpty_iff] at hempty
    rw [List.dropWhile_cons_of_pos h, trimmed, hempty]
    rfl
  next => rw [List.reverse_append, List.reverse_singleton, List.singleton_append,
    List.dropWhile_cons_of_pos h, trimmed]

/-- Nothing is left to trim after trimming. -/
theorem trimmed_trimmed (cs : List Char) :
  trimmed (trimmed cs) = trimmed cs
  := by
  have hfront : (trimmed cs).dropWhile isBlank = trimmed cs := by
    apply List.dropWhile_eq_self_iff.mpr
    intro hlength
    have hbegins := isPrefix_trimmed cs
    have hfirst := List.dropWhile_eq_self_iff.mp (List.dropWhile_idempotent isBlank cs)
    rw [hbegins.getElem hlength]
    apply hfirst
  calc trimmed (trimmed cs)
    _ = ((trimmed cs).reverse.dropWhile isBlank).reverse := by rw [trimmed, hfront]
    _ = trimmed cs := by rw [trimmed, List.reverse_reverse, List.dropWhile_idempotent]

/-- Nothing is left to trim after trimming. -/
theorem trim_trim (s : String) :
  trim (trim s) = trim s
  := by
  rw [← String.toList_inj, toList_trim, toList_trim, trimmed_trimmed]

theorem trim_space_append (s : String) :
  trim (" " ++ s) = trim s
  := by
  rw [← String.toList_inj, toList_trim, toList_trim, String.toList_append]
  apply trimmed_cons_of_isBlank (by decide)

theorem trim_append_space (s : String) :
  trim (s ++ " ") = trim s
  := by
  rw [← String.toList_inj, toList_trim, toList_trim, String.toList_append]
  apply trimmed_concat_of_isBlank (by decide)

/-! ### What trimming keeps -/

theorem filter_not_isBlank_dropWhile (cs : List Char) :
  (cs.dropWhile isBlank).filter (!isBlank ·) = cs.filter (!isBlank ·)
  := by
  induction cs with
  | nil => rfl
  | cons c cs ih =>
    rw [List.dropWhile_cons]
    split
    next hc => rw [ih, List.filter_cons_of_neg (by simp [hc])]
    next => rfl

/-- Trimming drops blanks only. -/
theorem filter_not_isBlank_trimmed (cs : List Char) :
  (trimmed cs).filter (!isBlank ·) = cs.filter (!isBlank ·)
  := by
  rw [trimmed, List.filter_reverse, filter_not_isBlank_dropWhile, ← List.filter_reverse,
    List.reverse_reverse, filter_not_isBlank_dropWhile]

/-- A character in front that is not blank makes a difference to the trimmed list. -/
theorem trimmed_append_ne {front cs : List Char} {c : Char} (hmem : c ∈ front)
    (hc : isBlank c = false) :
  trimmed (front ++ cs) ≠ trimmed cs
  := by
  intro heq
  have hfilter := congrArg (List.filter (!isBlank ·)) heq
  rw [filter_not_isBlank_trimmed, filter_not_isBlank_trimmed, List.filter_append,
    List.append_left_eq_self] at hfilter
  have hkept : c ∈ front.filter (!isBlank ·) := List.mem_filter.mpr ⟨hmem, by simp [hc]⟩
  rw [hfilter] at hkept
  cases hkept

theorem head?_trimmed_cons {c : Char} (hc : isBlank c = false) (cs : List Char) :
  (trimmed (c :: cs)).head? = some c
  := by
  have hbegins := isPrefix_trimmed (c :: cs)
  rw [List.dropWhile_cons_of_neg (by simp [hc])] at hbegins
  cases htrimmed : trimmed (c :: cs) with
  | nil => simp [trimmed_eq_nil_iff, hc] at htrimmed
  | cons d ds =>
    rw [htrimmed, List.cons_prefix_cons] at hbegins
    rw [hbegins.1, List.head?_cons]

/-! ### Fields -/

theorem fields_ne_nil (mark : Char) (s : String) :
  fields mark s ≠ []
  := by
  rw [fields, ne_eq, List.map_eq_nil_iff]
  apply List.splitOn_ne_nil

/-- The first part of a list that has been split stands at its front, the others somewhere in it. -/
theorem exists_splitOnP_eq_cons (p : Char → Bool) (cs : List Char) :
  ∃ first others, cs.splitOnP p = first :: others ∧ first <+: cs ∧ ∀ part ∈ others, part <:+: cs
  := by
  induction cs with
  | nil => exact ⟨[], [], rfl, List.prefix_rfl, by simp⟩
  | cons c cs ih =>
    obtain ⟨first, others, heq, hfirst, hothers⟩ := ih
    rw [List.splitOnP_cons_eq_if_modifyHead, heq]
    split
    next =>
      use [], first :: others, rfl, List.nil_prefix
      intro part hpart
      rcases List.mem_cons.mp hpart with rfl | hpart
      · apply List.infix_cons hfirst.isInfix
      · apply List.infix_cons (hothers part hpart)
    next =>
      use c :: first, others, rfl, List.prefix_cons_inj c |>.mpr hfirst
      intro part hpart
      apply List.infix_cons (hothers part hpart)

/-- Before a part of a list that has been split stand the parts before it: they are what the list up
to this place is split into, and whatever of the part is added to this list is its last part. -/
theorem exists_append_of_splitOnP_eq {p : Char → Bool} {cs part : List Char}
    {earlier later : List (List Char)} (h : cs.splitOnP p = earlier ++ part :: later) :
  ∃ before after, cs = before ++ part ++ after
    ∧ ∀ start, (∀ c ∈ start, p c = false) → (before ++ start).splitOnP p = earlier ++ [start]
  := by
  induction cs generalizing earlier with
  | nil =>
    rw [List.splitOnP_nil, eq_comm, List.append_eq_singleton_iff] at h
    rcases h with ⟨rfl, hpart⟩ | ⟨-, hnil⟩
    · obtain ⟨rfl, -⟩ := List.cons.inj hpart
      use [], [], rfl
      intro start hstart
      rw [List.nil_append, List.splitOnP_eq_singleton hstart, List.nil_append]
    · cases hnil
  | cons c cs ih =>
    rw [List.splitOnP_cons_eq_if_modifyHead] at h
    split at h
    next hc =>
      cases earlier with
      | nil =>
        obtain ⟨rfl, -⟩ := List.cons.inj h
        use [], c :: cs, rfl
        intro start hstart
        rw [List.nil_append, List.splitOnP_eq_singleton hstart, List.nil_append]
      | cons e earlier =>
        rw [List.cons_append] at h
        obtain ⟨rfl, hparts⟩ := List.cons.inj h
        obtain ⟨before, after, rfl, hbefore⟩ := ih hparts
        use c :: before, after, rfl
        intro start hstart
        rw [List.cons_append, List.splitOnP_cons_eq_if_modifyHead, if_pos hc, hbefore start hstart,
          List.cons_append]
    next hc =>
      obtain ⟨first, others, heq, ⟨after, hafter⟩, -⟩ := exists_splitOnP_eq_cons p cs
      rw [heq, List.modifyHead_cons] at h
      cases earlier with
      | nil =>
        obtain ⟨rfl, -⟩ := List.cons.inj h
        use [], after, by simp [hafter]
        intro start hstart
        rw [List.nil_append, List.splitOnP_eq_singleton hstart, List.nil_append]
      | cons e earlier =>
        rw [List.cons_append] at h
        obtain ⟨rfl, rfl⟩ := List.cons.inj h
        rw [← List.cons_append] at heq
        obtain ⟨before, after, rfl, hbefore⟩ := ih heq
        use c :: before, after, rfl
        intro start hstart
        rw [List.cons_append, List.splitOnP_cons_eq_if_modifyHead, if_neg hc, hbefore start hstart,
          List.cons_append, List.cons_append, List.modifyHead_cons]

/-- Before a run stand the runs before it. -/
theorem exists_append_of_runs_eq {cs run : List Char} {front rest : List (List Char)}
    (h : runs cs = front ++ run :: rest) :
  ∃ before after, cs = before ++ run ++ after ∧ runs before = front
  := by
  obtain ⟨earlier, others, hsplit, hfront, hrest⟩ := List.filter_eq_append_iff.mp h
  obtain ⟨blanks, later, rfl, hblanks, -, -⟩ := List.filter_eq_cons_iff.mp hrest
  rw [← List.append_assoc] at hsplit
  obtain ⟨before, after, rfl, hbefore⟩ := exists_append_of_splitOnP_eq hsplit
  use before, after, rfl
  have hparts := hbefore [] (by simp)
  rw [List.append_nil] at hparts
  rw [runs, hparts, List.filter_append, List.filter_append, hfront,
    List.filter_eq_nil_iff.mpr hblanks]
  simp

theorem isInfix_of_mem_splitOnP {p : Char → Bool} {cs part : List Char}
    (h : part ∈ cs.splitOnP p) :
  part <:+: cs
  := by
  obtain ⟨first, others, heq, hfirst, hothers⟩ := exists_splitOnP_eq_cons p cs
  rw [heq] at h
  rcases List.mem_cons.mp h with rfl | hpart
  · apply hfirst.isInfix
  · apply hothers part hpart

/-- A field stands in the text. -/
theorem isInfix_of_mem_fields {mark : Char} {s part : String} (h : part ∈ fields mark s) :
  part.toList <:+: s.toList
  := by
  obtain ⟨cs, hcs, rfl⟩ := List.mem_map.mp h
  rw [List.splitOn_eq_splitOnP] at hcs
  rw [String.toList_ofList]
  apply isInfix_of_mem_splitOnP hcs

/-- A word stands in the text. -/
theorem isInfix_of_mem_words {s word : String} (h : word ∈ words s) :
  word.toList <:+: s.toList
  := by
  obtain ⟨run, hrun, rfl⟩ := List.mem_map.mp h
  rw [String.toList_ofList]
  apply isInfix_of_mem_splitOnP (List.mem_of_mem_filter hrun)

/-- Before a field stand the fields before it. -/
theorem exists_append_of_fields_eq {mark : Char} {s part : String} {earlier later : List String}
    (h : fields mark s = earlier ++ part :: later) :
  ∃ before after, s.toList = before ++ part.toList ++ after
    ∧ ∀ start, mark ∉ start →
      fields mark (String.ofList (before ++ start)) = earlier ++ [String.ofList start]
  := by
  rw [fields, List.splitOn_eq_splitOnP] at h
  obtain ⟨lists, others, hsplit, rfl, hothers⟩ := List.map_eq_append_iff.mp h
  obtain ⟨cs, rest, rfl, rfl, -⟩ := List.map_eq_cons_iff.mp hothers
  obtain ⟨before, after, hcs, hbefore⟩ := exists_append_of_splitOnP_eq hsplit
  use before, after
  rw [String.toList_ofList]
  use hcs
  intro start hstart
  have hmark : ∀ c ∈ start, (c == mark) = false := by
    intro c hc
    rw [beq_eq_false_iff_ne]
    rintro rfl
    exact hstart hc
  rw [fields, String.toList_ofList, List.splitOn_eq_splitOnP, hbefore start hmark, List.map_append,
    List.map_singleton]

/-- Before a word stand the words before it. -/
theorem exists_append_of_words_eq {s word : String} {front rest : List String}
    (h : words s = front ++ word :: rest) :
  ∃ before after, s.toList = before ++ word.toList ++ after
    ∧ words (String.ofList before) = front
  := by
  obtain ⟨lists, others, hruns, rfl, hothers⟩ := List.map_eq_append_iff.mp h
  obtain ⟨run, rest, rfl, rfl, -⟩ := List.map_eq_cons_iff.mp hothers
  obtain ⟨before, after, hcs, hbefore⟩ := exists_append_of_runs_eq hruns
  use before, after
  rw [String.toList_ofList]
  use hcs
  rw [words, String.toList_ofList, hbefore]

/-- The characters of a field are characters of the text. -/
theorem mem_of_mem_fields {mark c : Char} {s part : String} (hpart : part ∈ fields mark s)
    (hc : c ∈ part.toList) :
  c ∈ s.toList
  := (isInfix_of_mem_fields hpart).mem hc

/-- A field does not hold the mark. -/
theorem not_mem_of_mem_fields {mark : Char} {s part : String} (hpart : part ∈ fields mark s) :
  mark ∉ part.toList
  := by
  obtain ⟨cs, hcs, rfl⟩ := List.mem_map.mp hpart
  rw [String.toList_ofList]
  intro hmark
  rw [List.splitOn_eq_splitOnP] at hcs
  simpa using eq_false_of_mem_splitOnP hcs mark hmark

/-- A text without the mark is its only field. -/
theorem fields_eq_singleton {mark : Char} {s : String} (h : mark ∉ s.toList) :
  fields mark s = [s]
  := by
  rw [fields, List.splitOn_eq_singleton h, List.map_singleton, String.ofList_toList]

/-! ### Joined texts -/

/-- A character of a joined text is one of what joins the parts or one of a part. -/
theorem mem_of_mem_intercalate {separator : String} {parts : List String} {c : Char}
    (h : c ∈ (String.intercalate separator parts).toList) :
  c ∈ separator.toList ∨ ∃ part ∈ parts, c ∈ part.toList
  := by
  induction parts with
  | nil => simp at h
  | cons part rest ih =>
    cases rest with
    | nil =>
      right
      use part, List.mem_cons_self
      simpa using h
    | cons next rest =>
      rw [String.intercalate_cons_cons, String.toList_append, String.toList_append,
        List.mem_append, List.mem_append] at h
      rcases h with (h | h) | h
      · right
        use part, List.mem_cons_self
      · left
        apply h
      · apply (ih h).imp_right
        rintro ⟨other, hother, hc⟩
        use other, List.mem_cons_of_mem part hother

/-- The parts of a text that was joined by a mark are its fields. -/
theorem fields_intercalate {mark : Char} {separator : String} {parts : List String}
    (hseparator : separator.toList = [mark]) (hne : parts ≠ [])
    (hparts : ∀ part ∈ parts, mark ∉ part.toList) :
  fields mark (String.intercalate separator parts) = parts
  := by
  have hlists : ∀ cs ∈ parts.map String.toList, mark ∉ cs := by
    intro cs hcs
    obtain ⟨part, hpart, rfl⟩ := List.mem_map.mp hcs
    apply hparts part hpart
  rw [fields, String.toList_intercalate, hseparator,
    List.splitOn_intercalate mark hlists (by simpa using hne), List.map_map]
  apply List.map_id''
  intro part
  apply String.ofList_toList

/-- A space separates the words before it from those after it. -/
theorem words_append_space (s t : String) :
  words (s ++ " " ++ t) = words s ++ words t
  := by
  have hspace : isBlank ' ' = true := by decide
  have hcut : (s ++ " " ++ t).toList = s.toList ++ ' ' :: t.toList := by simp
  rw [words, hcut, runs_append_cons hspace, List.map_append, words, words]

/-- The parts of a text that was joined by spaces are its words. -/
theorem words_intercalate {parts : List String}
    (hparts : ∀ part ∈ parts, part ≠ "" ∧ ∀ c ∈ part.toList, isBlank c = false) :
  words (String.intercalate " " parts) = parts
  := by
  induction parts with
  | nil => rfl
  | cons part rest ih =>
    obtain ⟨hne, hblank⟩ := hparts part List.mem_cons_self
    cases rest with
    | nil => rw [String.intercalate_singleton, words_eq_singleton hne hblank]
    | cons next rest =>
      have hrest := ih fun other hother => hparts other (List.mem_cons_of_mem part hother)
      rw [String.intercalate_cons_cons, words_append_space, hrest,
        words_eq_singleton hne hblank, List.singleton_append]

end Chunking.Text
