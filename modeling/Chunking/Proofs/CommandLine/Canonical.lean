import Chunking.Proofs.CommandLine.Readings

/-!
# Canonical arguments

An argument list consists of complete options and of what follows them, which can only give the
input.  When it is accepted, it has the same outcome as a canonical list in which every kind of
options has its place: the demonstration grammar dropped or not, the rules in their order, the last
capacity, the last choice of colour, and the input, wherever it comes from.
-/

namespace Chunking.CommandLine

open Text

/-! ### Argument lists -/

/-- What follows the options. -/
inductive Tail where
  | nothing
  /-- The mark that ends the options, and any words. -/
  | marked (words : List String)
  /-- Words of which the first is not taken for an option. -/
  | operands (first : String) (rest : List String) (h : ¬beginsWith "-" first)

namespace Tail

def arguments : Tail → List String
  | nothing => []
  | marked words => "--" :: words
  | operands first rest _ => first :: rest

/-- The input that a tail gives: its words with single spaces between them.  Blank words behind the
mark give none. -/
def text? : Tail → Option String
  | nothing => none
  | marked words =>
    let text := String.intercalate " " words
    if isAllBlank text then none else some text
  | operands first rest _ => some (String.intercalate " " (first :: rest))

/-- The options that say the same as a tail. -/
def items (tail : Tail) : List Item :=
  tail.text?.toList.map (.valued .input)

end Tail

section

variable {items : List Item} {groups : List (List String)}

/-- Complete options are read before what follows them. -/
theorem ofArguments_flatten_append (h : List.Forall₂ Writes items groups) (s : Settings)
    (rest : List String) :
  Request.ofArguments s (groups.flatten ++ rest)
    = items.foldlM Settings.apply s >>= fun t => Request.ofArguments t rest
  := by
  induction h generalizing s with
  | nil => rfl
  | cons hitem _ ih =>
    rw [List.flatten_cons, List.append_assoc, ofArguments_append hitem, List.foldlM_cons,
      bind_assoc]
    simp only [ih]

/-- A tail is read like the option for the input with the same text. -/
theorem ofArguments_tail (s : Settings) (tail : Tail) :
  Request.ofArguments s tail.arguments = (tail.items.foldlM Settings.apply s).map .report
  := by
  cases tail with
  | nothing => rfl
  | marked words =>
    have hmark : Argument.ofText "--" = .endOfOptions := rfl
    rw [Tail.arguments, Request.ofArguments.eq_def, Tail.items, Tail.text?]
    simp only [hmark]
    split
    next => rfl
    next => simp [Settings.apply]
  | operands first rest h =>
    rw [Tail.arguments, Request.ofArguments.eq_def, Tail.items, Tail.text?]
    simp [ofText_of_not_beginsWith h, Settings.apply]

/-- Complete options and a tail ask for the report with the settings into which they change the
settings given. -/
theorem ofArguments_eq_report_iff {s t : Settings} (h : List.Forall₂ Writes items groups)
    (tail : Tail) :
  Request.ofArguments s (groups.flatten ++ tail.arguments) = .ok (.report t)
    ↔ s.Reads (items ++ tail.items) t
  := by
  rw [ofArguments_flatten_append h, ← foldlM_apply_eq_ok_iff, List.foldlM_append, bind_eq_ok_iff,
    bind_eq_ok_iff]
  simp only [ofArguments_tail, map_eq_ok_iff, Request.report.injEq, exists_eq_right]

end

/-! ### Inputs -/

/-- Arguments are accepted: they ask for a report, and the input is there and not blank. -/
def Accepts (arguments : List String) (stdin : ByteArray) : Prop :=
  ∃ s text, Request.ofArguments {} arguments = .ok (.report s) ∧ s.text stdin = .ok text
    ∧ ¬isAllBlank text

/-- The input that is given in the options, or else behind them, or else by all of the standard
input. -/
def givenText (items : List Item) (tail : Tail) (stdin : ByteArray) : Option String :=
  ((values .input items).head?.or tail.text?).or (String.fromUTF8? stdin)

theorem text_eq_ok_iff {s : Settings} {stdin : ByteArray} {text : String} :
  s.text stdin = .ok text ↔ s.input.or (String.fromUTF8? stdin) = some text
  := by
  rw [Settings.text]
  cases s.input with
  | some given => simp
  | none =>
    cases String.fromUTF8? stdin with
    | some all => simp
    | none => simp

/-- The report does not depend on where its input comes from. -/
theorem report_eq_of_text_eq {s : Settings} {stdin : ByteArray} {text : String}
    (h : s.text stdin = .ok text) (other : ByteArray) :
  report s stdin = report { s with input := some text } other
  := by
  have hother : { s with input := some text }.text other = .ok text := rfl
  rw [report, report, h, hother]
  rfl

/-- Two runs have the same outcome when the reports are the same that they are asked for. -/
theorem run_eq_of_report_eq {arguments arguments' : List String} {s s' : Settings}
    {stdin stdin' : ByteArray} (h : Request.ofArguments {} arguments = .ok (.report s))
    (h' : Request.ofArguments {} arguments' = .ok (.report s'))
    (hreport : report s stdin = report s' stdin') :
  run arguments stdin = run arguments' stdin'
  := by
  rw [run, run, h, h', Except.bind, Except.bind, answer, answer, hreport]

/-! ### Canonical lists -/

/-- The arguments that write an option by its long name. -/
def Item.arguments : Item → List String
  | color true => ["--color"]
  | color false => ["--no-color"]
  | noDemo => ["--no-demo"]
  | valued option value => [option.name, value]

theorem Item.writes (item : Item) :
  Writes item item.arguments
  := by
  cases item with
  | color on =>
    cases on with
    | true => apply Writes.color
    | false => apply Writes.noColor
  | noDemo => apply Writes.noDemo
  | valued option value => apply Writes.valued option.name_mem_names

/-- The options in their canonical order, with an input. -/
def canonicalItems (items : List Item) (text : String) : List Item :=
  (if dropsDemo items then [.noDemo] else [])
    ++ (values .rule items).map (.valued .rule)
    ++ [.valued .capacity
          ((values .capacity items).getLast?.getD (toString Chunker.defaultCapacity)),
        .color ((colors items).getLast?.getD false),
        .valued .input text]

/-- The canonical arguments. -/
def canonical (items : List Item) (text : String) : List String :=
  (canonicalItems items text).flatMap Item.arguments

section

variable {items : List Item} {s : Settings}

theorem values_canonicalItems (option : Valued) (items : List Item) (text : String) :
  values option (canonicalItems items text)
    = match option with
      | .rule => values .rule items
      | .capacity =>
        [(values .capacity items).getLast?.getD (toString Chunker.defaultCapacity)]
      | .input => [text]
  := by
  have hdemo : values option (if dropsDemo items then [.noDemo] else []) = [] := by
    split
    next => rfl
    next => rfl
  simp only [canonicalItems, values_append, hdemo, values_map_valued]
  cases option with
  | rule => simp [values]
  | capacity => simp [values]
  | input => simp [values]

theorem colors_canonicalItems (items : List Item) (text : String) :
  colors (canonicalItems items text) = [(colors items).getLast?.getD false]
  := by
  have hdemo : colors (if dropsDemo items then [.noDemo] else []) = [] := by
    split
    next => rfl
    next => rfl
  rw [canonicalItems, colors_append, colors_append, hdemo, colors_map_valued]
  rfl

theorem dropsDemo_canonicalItems (items : List Item) (text : String) :
  dropsDemo (canonicalItems items text) = dropsDemo items
  := by
  have hdemo : dropsDemo (if dropsDemo items then [.noDemo] else []) = dropsDemo items := by
    split
    next h => exact h.symm
    next h => exact (Bool.eq_false_iff.mpr h).symm
  rw [canonicalItems, dropsDemo_append, dropsDemo_append, hdemo, dropsDemo_map_valued,
    Bool.or_false]
  apply Bool.or_false

/-- A tail has no part in the canonical order of the options. -/
theorem canonicalItems_append_tail (items : List Item) (tail : Tail) (text : String) :
  canonicalItems (items ++ tail.items) text = canonicalItems items text
  := by
  simp [canonicalItems, Tail.items, values_append, colors_append, dropsDemo_append,
    values_map_valued, colors_map_valued, dropsDemo_map_valued]

/-- The canonical options change the settings into the same ones, but for the input. -/
theorem Settings.Reads.canonicalItems (h : Settings.Reads {} items s) (text : String) :
  Settings.Reads {} (canonicalItems items text) { s with input := some text }
  := by
  obtain ⟨-, hproductions, hdemo, ⟨sizes, hsizes, hcapacity⟩, hcolor⟩ := h
  have hdefault : readCapacity (toString Chunker.defaultCapacity) = .ok Chunker.defaultCapacity :=
    rfl
  have hlast := forall₂_getLast?_getD (R := fun text n => readCapacity text = .ok n) hdefault hsizes
  constructor
  · rw [values_canonicalItems]
    rfl
  · rw [values_canonicalItems]
    apply hproductions
  · rw [dropsDemo_canonicalItems]
    apply hdemo
  · rw [values_canonicalItems]
    exact ⟨_, .cons hlast .nil, hcapacity⟩
  · rw [colors_canonicalItems]
    apply hcolor

theorem ofArguments_canonical (h : Settings.Reads {} items s) (text : String) :
  Request.ofArguments {} (canonical items text) = .ok (.report { s with input := some text })
  := by
  have hwrites : List.Forall₂ Writes (canonicalItems items text)
      ((canonicalItems items text).map Item.arguments) := by
    rw [List.forall₂_map_right_iff, List.forall₂_same]
    intro item _
    apply item.writes
  have hreads := h.canonicalItems text
  rw [← List.append_nil (canonicalItems items text)] at hreads
  have hrequest := (ofArguments_eq_report_iff hwrites .nothing).mpr hreads
  rw [Tail.arguments, List.append_nil] at hrequest
  apply hrequest

end

/-- Two lists of options say the same in each kind. -/
structure AgreeByKind (items items' : List Item) : Prop where
  values_eq : ∀ option, values option items = values option items'
  last_color_eq : (colors items).getLast? = (colors items').getLast?
  dropsDemo_eq : dropsDemo items = dropsDemo items'

theorem AgreeByKind.reads_iff {items items' : List Item} (h : AgreeByKind items items')
    {s t : Settings} :
  s.Reads items t ↔ s.Reads items' t
  := by
  rw [Settings.reads_iff, Settings.reads_iff, h.values_eq, h.values_eq, h.values_eq,
    h.last_color_eq, h.dropsDemo_eq]

theorem givenText_eq {items : List Item} {tail : Tail} {s : Settings} {stdin : ByteArray}
    (h : Settings.Reads {} (items ++ tail.items) s) :
  givenText items tail stdin = s.input.or (String.fromUTF8? stdin)
  := by
  have hinput := congrArg List.head? h.input_eq
  simp only [values_append, Tail.items, values_map_valued, if_true, List.head?_append,
    Option.head?_toList, Option.toList_none, List.nil_append] at hinput
  rw [givenText, hinput]

/-- Arguments that are accepted have the outcome of the canonical arguments with their input,
whatever the standard input is.  Options of different kinds can be mixed in any way, and the input
can stand among them or behind them: arguments that say the same in each kind are accepted as well
and have the same outcome. -/
theorem run_eq_run_canonical {items : List Item} {groups : List (List String)}
    (hgroups : List.Forall₂ Writes items groups) (tail : Tail) {stdin : ByteArray}
    (h : Accepts (groups.flatten ++ tail.arguments) stdin) :
  (∃ text, givenText items tail stdin = some text
      ∧ ∀ other, run (groups.flatten ++ tail.arguments) stdin = run (canonical items text) other)
    ∧ ∀ {items' : List Item} {groups' : List (List String)} (tail' : Tail),
      List.Forall₂ Writes items' groups'
        → AgreeByKind (items ++ tail.items) (items' ++ tail'.items)
        → Accepts (groups'.flatten ++ tail'.arguments) stdin
          ∧ run (groups'.flatten ++ tail'.arguments) stdin
            = run (groups.flatten ++ tail.arguments) stdin
  := by
  obtain ⟨s, text, hrequest, htext, hblank⟩ := h
  have hreads := (ofArguments_eq_report_iff hgroups tail).mp hrequest
  constructor
  · have hcanonical := ofArguments_canonical hreads text
    rw [canonical, canonicalItems_append_tail] at hcanonical
    use text
    constructor
    · rw [givenText_eq hreads, ← text_eq_ok_iff]
      apply htext
    · intro other
      apply run_eq_of_report_eq hrequest hcanonical (report_eq_of_text_eq htext other)
  · intro items' groups' tail' hgroups' hagree
    have hreads' := hagree.reads_iff.mp hreads
    have hrequest' := (ofArguments_eq_report_iff hgroups' tail').mpr hreads'
    constructor
    · exact ⟨s, text, hrequest', htext, hblank⟩
    · apply run_eq_of_report_eq hrequest' hrequest rfl

/-- The same options in three orders, with the input behind the mark, in its canonical place and in
front. -/
theorem run_eq_run_canonical_of_mixed :
  run ["--color", "-r", "A -> B", "--cache-capacity", "5", "--no-demo", "--no-color",
      "--cache-capacity", "7", "--", "x/B", "y/D"] ByteArray.empty
      = run ["--no-demo", "--rule", "A -> B", "--cache-capacity", "7", "--no-color", "--input",
        "x/B y/D"] ByteArray.empty
    ∧ run ["-i", "x/B y/D", "--no-demo", "--cache-capacity", "5", "--cache-capacity", "7",
        "--no-color", "-r", "A -> B"] ByteArray.empty
      = run ["--color", "-r", "A -> B", "--cache-capacity", "5", "--no-demo", "--no-color",
        "--cache-capacity", "7", "--", "x/B", "y/D"] ByteArray.empty
  := by
  have hbehind : List.Forall₂ Writes
      [.color true, .valued .rule "A -> B", .valued .capacity "5", .noDemo, .color false,
        .valued .capacity "7"]
      [["--color"], ["-r", "A -> B"], ["--cache-capacity", "5"], ["--no-demo"], ["--no-color"],
        ["--cache-capacity", "7"]] :=
    .cons .color (.cons (.valued (by decide) _) (.cons (.valued (by decide) _) (.cons .noDemo
      (.cons .noColor (.cons (.valued (by decide) _) .nil)))))
  have hinFront : List.Forall₂ Writes
      [.valued .input "x/B y/D", .noDemo, .valued .capacity "5", .valued .capacity "7",
        .color false, .valued .rule "A -> B"]
      [["-i", "x/B y/D"], ["--no-demo"], ["--cache-capacity", "5"], ["--cache-capacity", "7"],
        ["--no-color"], ["-r", "A -> B"]] :=
    .cons (.valued (by decide) _) (.cons .noDemo (.cons (.valued (by decide) _)
      (.cons (.valued (by decide) _) (.cons .noColor (.cons (.valued (by decide) _) .nil)))))
  have haccepts : Accepts ["--color", "-r", "A -> B", "--cache-capacity", "5", "--no-demo",
      "--no-color", "--cache-capacity", "7", "--", "x/B", "y/D"] ByteArray.empty :=
    ⟨_, _, rfl, rfl, by decide⟩
  obtain ⟨⟨text, htext, hrun⟩, hmixed⟩ :=
    run_eq_run_canonical hbehind (.marked ["x/B", "y/D"]) haccepts
  obtain rfl : "x/B y/D" = text := Option.some.inj htext
  constructor
  · apply hrun
  · apply (hmixed .nothing hinFront _).2
    constructor
    · intro option
      cases option with
      | rule => rfl
      | capacity => rfl
      | input => rfl
    · rfl
    · rfl

end Chunking.CommandLine
