import Chunking.Page
import Mathlib.Tactic.Use

/-!
# Control sequences

A page in colour is the plain page with control sequences in it.  When no text on the page holds an
escape character, deleting the control sequences from the page in colour leaves the plain page.  The
texts of a report page that are not fixed, numbers or decimals are the input and the texts of
chunks, windows and rules, so that for a report the condition is about these alone.
-/

namespace Chunking.Page

/-! ### Deleting control sequences -/

/-- What stands behind a control sequence at the front of a list.  A control sequence is the escape
character, a bracket, at least one digit and the letter `m`. -/
def afterControl? : List Char → Option (List Char)
  | '\x1b' :: '[' :: cs =>
    match cs.takeWhile Char.isDigit, cs.dropWhile Char.isDigit with
    | _ :: _, 'm' :: rest => some rest
    | _, _ => none
  | _ => none

theorem length_afterControl?_lt {cs rest : List Char} (h : afterControl? cs = some rest) :
  rest.length < cs.length
  := by
  rw [afterControl?.eq_def] at h
  split at h
  next cs =>
    split at h
    next hdrop =>
      obtain rfl := Option.some.inj h
      have hle := (List.dropWhile_suffix Char.isDigit (l := cs)).length_le
      rw [hdrop] at hle
      simp only [List.length_cons] at hle ⊢
      omega
    next => cases h
  next => cases h

/-- The characters of a list that do not belong to a control sequence. -/
def withoutControls (cs : List Char) : List Char :=
  match cs with
  | [] => []
  | c :: cs =>
    match h : afterControl? (c :: cs) with
    | some rest =>
      have := length_afterControl?_lt h
      withoutControls rest
    | none => c :: withoutControls cs
termination_by cs.length
decreasing_by
  · assumption
  · apply Nat.lt_succ_self

/-- A text after the deletion of every control sequence. -/
def deleteControls (s : String) : String :=
  String.ofList (withoutControls s.toList)

/-- A text without the escape character. -/
def Unescaped (s : String) : Prop :=
  '\x1b' ∉ s.toList

instance (s : String) : Decidable (Unescaped s) :=
  inferInstanceAs (Decidable ('\x1b' ∉ s.toList))

theorem withoutControls_of_some {cs rest : List Char} (h : afterControl? cs = some rest) :
  withoutControls cs = withoutControls rest
  := by
  cases cs with
  | nil => simp [afterControl?] at h
  | cons c cs =>
    rw [withoutControls]
    split
    next rest' h' =>
      rw [h] at h'
      rw [Option.some.inj h']
    next h' => simp [h] at h'

/-- Only an escape character begins a control sequence. -/
theorem withoutControls_cons_of_ne {c : Char} (hc : c ≠ '\x1b') (cs : List Char) :
  withoutControls (c :: cs) = c :: withoutControls cs
  := by
  have hnone : afterControl? (c :: cs) = none := by
    rw [afterControl?.eq_def]
    split
    next heq => exact absurd (List.cons.inj heq).1 hc
    next => rfl
  rw [withoutControls]
  split
  next h => simp [hnone] at h
  next => rfl

theorem toList_toString (n : Nat) :
  (toString n).toList = Nat.toDigits 10 n
  := by
  show (Nat.repr n).toList = Nat.toDigits 10 n
  rw [Nat.repr_eq_ofList_toDigits, String.toList_ofList]

theorem afterControl?_control (code : Nat) (rest : List Char) :
  afterControl? ((control code).toList ++ rest) = some rest
  := by
  have hdigits : ∀ c ∈ Nat.toDigits 10 code, c.isDigit = true := fun c hc =>
    Nat.isDigit_of_mem_toDigits (by decide) (by decide) hc
  have hlist : (control code).toList ++ rest
      = '\x1b' :: '[' :: (Nat.toDigits 10 code ++ 'm' :: rest) := by
    simp [control]
  obtain ⟨d, ds, hcons⟩ := List.exists_cons_of_ne_nil (Nat.toDigits_ne_nil (n := code) (b := 10))
  have htake : (Nat.toDigits 10 code ++ 'm' :: rest).takeWhile Char.isDigit
      = Nat.toDigits 10 code := by
    rw [List.takeWhile_append_of_pos hdigits]
    simp
  have hdrop : (Nat.toDigits 10 code ++ 'm' :: rest).dropWhile Char.isDigit = 'm' :: rest := by
    rw [List.dropWhile_append_of_pos hdigits]
    simp
  rw [hlist, afterControl?, htake, hdrop, hcons]
  rfl

/-! ### What a text shows -/

/-- A text shows as `t` when `t` is what the deletion of the control sequences leaves of it,
whatever follows. -/
def ShowsAs (s t : String) : Prop :=
  ∀ rest, withoutControls (s.toList ++ rest) = t.toList ++ withoutControls rest

variable {s t s' t' text : String}

theorem ShowsAs.deleteControls_eq (h : ShowsAs s t) :
  deleteControls s = t
  := by
  have hlist := h []
  rw [List.append_nil, withoutControls, List.append_nil] at hlist
  rw [deleteControls, hlist, String.ofList_toList]

theorem ShowsAs.append (h : ShowsAs s t) (h' : ShowsAs s' t') :
  ShowsAs (s ++ s') (t ++ t')
  := by
  intro rest
  rw [String.toList_append, String.toList_append, List.append_assoc, h, h', List.append_assoc]

/-- A text without the escape character shows as itself. -/
theorem Unescaped.showsAs (h : Unescaped text) :
  ShowsAs text text
  := by
  intro rest
  rw [Unescaped] at h
  generalize text.toList = cs at h
  induction cs with
  | nil => rfl
  | cons c cs ih =>
    rw [List.mem_cons, not_or] at h
    rw [List.cons_append, withoutControls_cons_of_ne (Ne.symm h.1), ih h.2, List.cons_append]

/-- Nothing is shown of a control sequence. -/
theorem showsAs_control (code : Nat) :
  ShowsAs (control code) ""
  := by
  intro rest
  rw [withoutControls_of_some (afterControl?_control code rest)]
  rfl

/-- A text shows as itself within any styles. -/
theorem showsAs_wrap (h : Unescaped text) (styles : List Style) :
  ShowsAs (wrap text styles) text
  := by
  induction styles with
  | nil => apply h.showsAs
  | cons style styles ih =>
    have hinner := ((showsAs_control style.code).append ih).append (showsAs_control 0)
    rwa [String.empty_append, String.append_empty] at hinner

/-- Texts that are joined show as what they show as is joined. -/
theorem showsAs_join {α : Type} {xs : List α} {f g : α → String}
    (h : ∀ x ∈ xs, ShowsAs (f x) (g x)) :
  ShowsAs (String.join (xs.map f)) (String.join (xs.map g))
  := by
  induction xs with
  | nil =>
    intro rest
    rfl
  | cons x xs ih =>
    rw [List.map_cons, List.map_cons, String.join_cons, String.join_cons]
    apply (h x List.mem_cons_self).append
    apply ih
    intro y hy
    apply h y (List.mem_cons_of_mem x hy)

/-! ### Pages in colour -/

/-- A line on which no text holds the escape character. -/
def UnescapedLine (line : Line) : Prop :=
  ∀ span ∈ line, Unescaped span.text

/-- A page on which no text holds the escape character. -/
def UnescapedPage (lines : List Line) : Prop :=
  ∀ line ∈ lines, UnescapedLine line

theorem showsAs_span {span : Span} (h : Unescaped span.text) :
  ShowsAs (span.print true) (span.print false)
  := showsAs_wrap h span.styles

theorem showsAs_printLine {line : Line} (h : UnescapedLine line) :
  ShowsAs (printLine true line) (printLine false line)
  := by
  have hend : Unescaped "\n" := by decide
  apply ShowsAs.append (showsAs_join fun span hspan => showsAs_span (h span hspan)) hend.showsAs

/-- A page in colour shows as the plain page. -/
theorem showsAs_print {lines : List Line} (h : UnescapedPage lines) :
  ShowsAs (print true lines) (print false lines)
  := showsAs_join fun line hline => showsAs_printLine (h line hline)

/-! ### Report pages -/

theorem Unescaped.append (h : Unescaped s) (h' : Unescaped t) :
  Unescaped (s ++ t)
  := by
  rw [Unescaped, String.toList_append, List.mem_append, not_or]
  exact ⟨h, h'⟩

theorem escape_not_mem_toDigits (n : Nat) :
  '\x1b' ∉ Nat.toDigits 10 n
  := by
  intro hmem
  have hdigit := Nat.isDigit_of_mem_toDigits (by decide) (by decide) hmem
  revert hdigit
  decide

theorem unescaped_toString (n : Nat) :
  Unescaped (toString n)
  := by
  rw [Unescaped, toList_toString]
  apply escape_not_mem_toDigits

theorem unescaped_fixed (places : Nat) (x : Float) :
  Unescaped (Text.fixed places x)
  := by
  have hpoint : Unescaped "." := by decide
  apply ((unescaped_toString _).append hpoint).append
  rw [Unescaped, String.toList_ofList, List.mem_append, not_or]
  constructor
  · intro hmem
    exact absurd (List.eq_of_mem_replicate hmem) (by decide)
  · apply escape_not_mem_toDigits

@[simp]
theorem unescapedLine_nil :
  UnescapedLine []
  := nofun

@[simp]
theorem unescapedLine_cons {span : Span} {line : Line} :
  UnescapedLine (span :: line) ↔ Unescaped span.text ∧ UnescapedLine line
  := List.forall_mem_cons

@[simp]
theorem unescapedPage_nil :
  UnescapedPage []
  := nofun

@[simp]
theorem unescapedPage_cons {line : Line} {lines : List Line} :
  UnescapedPage (line :: lines) ↔ UnescapedLine line ∧ UnescapedPage lines
  := List.forall_mem_cons

theorem unescapedPage_append {lines lines' : List Line} :
  UnescapedPage (lines ++ lines') ↔ UnescapedPage lines ∧ UnescapedPage lines'
  := List.forall_mem_append

theorem unescapedPage_map {α : Type} {xs : List α} {f : α → Line} :
  UnescapedPage (xs.map f) ↔ ∀ x ∈ xs, UnescapedLine (f x)
  := List.forall_mem_map

theorem unescapedPage_flatMap {α : Type} {xs : List α} {f : α → List Line} :
  UnescapedPage (xs.flatMap f) ↔ ∀ x ∈ xs, UnescapedPage (f x)
  := List.forall_mem_flatMap

/-- The text of a span is the one it was made from. -/
theorem text_plain (text : String) :
  (plain text).text = text
  := rfl

theorem text_styled (style : Style) (text : String) :
  (styled style text).text = text
  := rfl

theorem text_strong (style : Style) (text : String) :
  (strong style text).text = text
  := rfl

section

variable {g : Grammar}

theorem unescaped_heading {title : String} (h : Unescaped title) :
  UnescapedPage (heading title)
  := by
  have hbanner : Unescaped ("━━━ " ++ title ++ " ━━━") :=
    (Unescaped.append (by decide) h).append (by decide)
  simp [heading, text_styled, hbanner]

theorem unescaped_opening {input : String} (h : Unescaped (Text.trim input)) :
  UnescapedPage (opening input g)
  := by
  have htitle : Unescaped ("⚙  Matching: \"" ++ Text.trim input ++ "\"") :=
    (Unescaped.append (by decide) h).append (by decide)
  have hfixed : Unescaped "  " ∧ Unescaped " rules  │  max arity " := by decide
  simp only [opening, unescapedPage_cons, unescapedPage_nil, unescapedLine_cons,
    unescapedLine_nil, text_plain, text_styled, text_strong, htitle, hfixed, unescaped_toString,
    and_self]

theorem unescaped_firstLine {first : Option Nat} (h : ∀ id ∈ first, Unescaped (g.ruleText id)) :
  UnescapedLine (firstLine g first)
  := by
  have hfixed : Unescaped "    " ∧ Unescaped "first:" ∧ Unescaped " " ∧ Unescaped "✗ none" := by
    decide
  simp only [firstLine, unescapedLine_cons, unescapedLine_nil, text_plain, text_styled, hfixed,
    true_and, and_true]
  cases first with
  | none => apply hfixed.2.2.2
  | some id => apply h id rfl

theorem unescaped_windowLines {window : WindowReport} (htext : Unescaped (windowText window))
    (hids : ∀ id ∈ window.ids, Unescaped (g.ruleText id)) :
  UnescapedPage (windowLines g window)
  := by
  have hlength : Unescaped ("len " ++ toString window.nodes.length) :=
    Unescaped.append (by decide) (unescaped_toString _)
  have hfixed : Unescaped "    " ∧ Unescaped " " ∧ Unescaped "      " ∧ Unescaped "✓" := by decide
  simp only [windowLines, unescapedPage_cons, unescapedPage_map, unescapedLine_cons,
    unescapedLine_nil, text_plain, text_styled, hfixed, hlength, htext, true_and, and_true]
  apply hids

/-- The texts of a window: its own, and those of its rules. -/
def windowTexts (g : Grammar) (window : WindowReport) : List String :=
  windowText window :: window.ids.map g.ruleText

/-- The texts of what was found at a position. -/
def positionTexts (g : Grammar) (position : PositionReport) : List String :=
  position.node.display :: position.first.toList.map g.ruleText
    ++ position.windows.flatMap (windowTexts g)

theorem unescaped_positionLines {position : PositionReport}
    (h : ∀ text ∈ positionTexts g position, Unescaped text) :
  UnescapedPage (positionLines g position)
  := by
  simp only [positionTexts, windowTexts, List.forall_mem_append, List.forall_mem_cons,
    List.forall_mem_map, List.forall_mem_flatMap, Option.mem_toList] at h
  obtain ⟨⟨hnode, hfirst⟩, hwindows⟩ := h
  have hstart : Unescaped ("@" ++ toString position.start) :=
    Unescaped.append (by decide) (unescaped_toString _)
  have hfixed : Unescaped "  " ∧ Unescaped " " := by decide
  simp only [positionLines, unescapedPage_cons, unescapedPage_flatMap, unescapedLine_cons,
    unescapedLine_nil, text_plain, text_styled, hfixed, hstart, hnode, and_self, true_and]
  use unescaped_firstLine hfirst
  intro window hwindow
  apply unescaped_windowLines (hwindows window hwindow).1 (hwindows window hwindow).2

theorem unescaped_foldedLines {folded : List Chunk}
    (h : ∀ chunk ∈ folded, Unescaped chunk.display) :
  UnescapedPage (foldedLines folded)
  := by
  have hfixed : Unescaped "  " ∧ Unescaped " " ∧ Unescaped "  No tokens" := by decide
  have hnumber (i : Nat) : Unescaped ("[" ++ toString i ++ "]") :=
    (Unescaped.append (by decide) (unescaped_toString i)).append (by decide)
  rw [foldedLines]
  split
  next =>
    simp only [unescapedPage_cons, unescapedPage_nil, unescapedLine_cons, unescapedLine_nil,
      text_styled, hfixed, and_self]
  next =>
    simp only [unescapedPage_map, unescapedLine_cons, unescapedLine_nil, text_plain, text_styled,
      text_strong, hfixed, hnumber, true_and, and_true]
    rintro ⟨chunk, i⟩ hmem
    apply h chunk (List.fst_mem_of_mem_zipIdx hmem)

theorem unescaped_cacheLine (stats : Clock.Stats) :
  UnescapedLine (cacheLine stats)
  := by
  have hfixed : Unescaped "  " ∧ Unescaped "disabled" ∧ Unescaped "  Entries: "
      ∧ Unescaped "  │  Hits: " ∧ Unescaped "  │  Misses: " ∧ Unescaped "  │  Evictions: "
      ∧ Unescaped "  │  Hit ratio: " := by decide
  have hslash : Unescaped "/" := by decide
  have hentries : Unescaped (toString stats.size ++ "/" ++ toString stats.capacity) :=
    ((unescaped_toString _).append hslash).append (unescaped_toString _)
  rw [cacheLine]
  split
  next =>
    simp only [unescapedLine_cons, unescapedLine_nil, text_plain, text_styled, hfixed, and_self]
  next =>
    simp only [unescapedLine_cons, unescapedLine_nil, text_plain, text_styled, hfixed, hentries,
      unescaped_toString, unescaped_fixed, and_self]

/-- The texts on a report page that are not fixed, numbers or decimals: the input and the texts of
chunks, windows and rules. -/
def reportTexts (input : String) (g : Grammar) (report : Report) : List String :=
  Text.trim input :: report.positions.flatMap (positionTexts g)
    ++ report.folded.map Chunk.display

theorem unescaped_ofReport {input : String} {report : Report}
    (h : ∀ text ∈ reportTexts input g report, Unescaped text) :
  UnescapedPage (ofReport input g report)
  := by
  simp only [reportTexts, List.forall_mem_append, List.forall_mem_cons, List.forall_mem_map,
    List.forall_mem_flatMap] at h
  obtain ⟨⟨hinput, hpositions⟩, hfolded⟩ := h
  have hpositionsTitle : Unescaped "Positions" := by decide
  have hfoldTitle : Unescaped "Greedy fold" := by decide
  have hcacheTitle : Unescaped "Cache" := by decide
  simp only [ofReport, unescapedPage_append, unescapedPage_cons, unescapedPage_nil,
    unescapedLine_nil, unescapedPage_flatMap, unescaped_opening hinput, unescaped_cacheLine,
    unescaped_foldedLines hfolded, unescaped_heading hpositionsTitle,
    unescaped_heading hfoldTitle, unescaped_heading hcacheTitle, and_true, true_and]
  intro position hposition
  apply unescaped_positionLines (hpositions position hposition)

end

/-- Deleting the control sequences from a page in colour leaves the plain page, if no text on the
page holds the escape character.  For the page of a report it is enough that the input and the texts
of chunks, windows and rules do not hold it. -/
theorem deleteControls_print :
  (∀ lines, UnescapedPage lines → deleteControls (print true lines) = print false lines)
    ∧ ∀ input g report, (∀ text ∈ reportTexts input g report, Unescaped text) →
      deleteControls (print true (ofReport input g report))
        = print false (ofReport input g report)
  := by
  constructor
  · intro lines h
    apply (showsAs_print h).deleteControls_eq
  · intro input g report h
    apply (showsAs_print (unescaped_ofReport h)).deleteControls_eq

/-- A report with a position where a rule is found and one where none is. -/
theorem deleteControls_print_noun_verb :
  let noun := Chunk.ofWord "dog" (Grammemes.ofList ["NOUN"])
  let verb := Chunk.ofTags (Grammemes.ofList ["VERB"])
  let g := (Grammar.empty.offer { left := "NP", right := "'dog'" }).1
  let report : Report :=
    ⟨[⟨0, noun, some 0, [⟨[noun], [0]⟩]⟩, ⟨1, verb, none, []⟩], [noun, verb], { capacity := 2 }⟩
  (∀ text ∈ reportTexts "dog/NOUN /VERB" g report, Unescaped text)
    ∧ deleteControls (print true (ofReport "dog/NOUN /VERB" g report))
      = print false (ofReport "dog/NOUN /VERB" g report)
  := by
  intro noun verb g report
  have htexts : ∀ text ∈ reportTexts "dog/NOUN /VERB" g report, Unescaped text := by
    decide +kernel
  use htexts
  apply deleteControls_print.2 _ _ _ htexts

end Chunking.Page
