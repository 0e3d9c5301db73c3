import Chunking.CommandLine.Run
import Chunking.Proofs.Text.Cut
import Chunking.Proofs.Text.Words
import Chunking.Proofs.Traversal

/-!
# Options as they are written

An option is written by its name, and behind it stands the argument with its value, if it takes one.
A value can also be written in one argument with the option, behind an equals sign.  Options are
read one after another, and each of them changes the settings with which the rest is read.
-/

namespace Chunking.CommandLine

open Text

/-! ### Names -/

/-- The names of an option that takes a value. -/
def Valued.names : Valued → List String
  | rule => ["--rule", "-r"]
  | capacity => ["--cache-capacity"]
  | input => ["--input", "-i"]

/-- What an argument that holds an option together with its value begins with. -/
def Valued.mark (option : Valued) : String :=
  option.name ++ "="

theorem Valued.name_mem_names (option : Valued) :
  option.name ∈ option.names
  := by
  cases option with
  | rule => apply List.mem_cons_self
  | capacity => apply List.mem_cons_self
  | input => apply List.mem_cons_self

theorem Valued.mark_ne_empty (option : Valued) :
  option.mark ≠ ""
  := by
  simp [mark, String.append_eq_empty_iff]

theorem Valued.exists_toList_mark (option : Valued) :
  ∃ cs, option.mark.toList = '-' :: cs
  := by
  cases option with
  | rule => simp [mark, name]
  | capacity => simp [mark, name]
  | input => simp [mark, name]

/-- The arguments that write an option, its value in an argument of its own. -/
inductive Writes : Item → List String → Prop where
  | color : Writes (.color true) ["--color"]
  | noColor : Writes (.color false) ["--no-color"]
  | noDemo : Writes .noDemo ["--no-demo"]
  | valued {option : Valued} {name : String} (h : name ∈ option.names) (value : String) :
    Writes (.valued option value) [name, value]

/-! ### Kinds of arguments -/

/-- The arguments that are read as a whole. -/
def keywords : List String :=
  ["-h", "--help", "-V", "--version", "--color", "--no-color", "--no-demo", "--rule", "-r",
    "--cache-capacity", "--input", "-i", "--"]

theorem ofText_of_not_mem_keywords {argument : String} (h : argument ∉ keywords) :
  Argument.ofText argument
    = match joined? argument with
      | some item => .item item
      | none => if beginsWith "-" argument then .unknown else .operand
  := by
  rw [Argument.ofText.eq_def]
  -- One case for each keyword, and one for all other arguments.
  split <;> first | rfl | simp [keywords] at h

theorem ofText_of_mem_names {option : Valued} {name : String} (h : name ∈ option.names) :
  Argument.ofText name = .awaiting option
  := by
  cases option with
  | rule =>
    simp only [Valued.names, List.mem_cons, List.not_mem_nil, or_false] at h
    rcases h with rfl | rfl
    · rfl
    · rfl
  | capacity =>
    obtain rfl := List.mem_singleton.mp h
    rfl
  | input =>
    simp only [Valued.names, List.mem_cons, List.not_mem_nil, or_false] at h
    rcases h with rfl | rfl
    · rfl
    · rfl

theorem joined?_mark_append (option : Valued) (value : String) :
  joined? (option.mark ++ value) = some (.valued option (afterCopies option.mark value))
  := by
  rw [← afterCopies_append option.mark_ne_empty]
  cases option with
  | rule => simp [joined?, Valued.mark, Valued.name, beginsWith, List.findSome?]
  | capacity => simp [joined?, Valued.mark, Valued.name, beginsWith, List.findSome?]
  | input => simp [joined?, Valued.mark, Valued.name, beginsWith, List.findSome?]

/-- An option and its value in one argument are read without the further copies of the mark. -/
theorem ofText_mark_append (option : Valued) (value : String) :
  Argument.ofText (option.mark ++ value) = .item (.valued option (afterCopies option.mark value))
  := by
  have hkeywords : ∀ keyword ∈ keywords, '=' ∉ keyword.toList := by decide
  have hmem : option.mark ++ value ∉ keywords := by
    intro hmem
    apply hkeywords _ hmem
    simp [Valued.mark]
  rw [ofText_of_not_mem_keywords hmem, joined?_mark_append]

theorem joined?_eq_none {argument : String} (h : ¬beginsWith "-" argument) :
  joined? argument = none
  := by
  rw [joined?, List.findSome?_eq_none_iff]
  intro option _
  apply if_neg
  intro hbegins
  apply h
  rw [beginsWith, List.isPrefixOf_iff_prefix] at hbegins ⊢
  apply List.IsPrefix.trans _ hbegins
  cases option with
  | rule => decide
  | capacity => decide
  | input => decide

/-- An argument that does not begin with a dash is a word of the input. -/
theorem ofText_of_not_beginsWith {argument : String} (h : ¬beginsWith "-" argument) :
  Argument.ofText argument = .operand
  := by
  have hkeywords : ∀ keyword ∈ keywords, beginsWith "-" keyword = true := by decide
  have hmem : argument ∉ keywords := fun hmem => h (hkeywords argument hmem)
  rw [ofText_of_not_mem_keywords hmem, joined?_eq_none h]
  apply if_neg h

/-! ### Reading -/

/-- An option is read before what follows it. -/
theorem ofArguments_append {item : Item} {group : List String} (h : Writes item group)
    (s : Settings) (rest : List String) :
  Request.ofArguments s (group ++ rest) = s.apply item >>= fun t => Request.ofArguments t rest
  := by
  cases h with
  | color => rfl
  | noColor => rfl
  | noDemo => rfl
  | valued hname value =>
    rw [Request.ofArguments.eq_def]
    simp only [List.cons_append, List.nil_append, ofText_of_mem_names hname]

theorem ofArguments_mark_append (s : Settings) (option : Valued) (value : String)
    (rest : List String) :
  Request.ofArguments s ((option.mark ++ value) :: rest)
    = s.apply (.valued option (afterCopies option.mark value))
        >>= fun t => Request.ofArguments t rest
  := by
  rw [Request.ofArguments.eq_def]
  simp only [ofText_mark_append]

/-- The request of the arguments decides the outcome. -/
theorem run_eq_of_ofArguments_eq {arguments arguments' : List String}
    (h : Request.ofArguments {} arguments = Request.ofArguments {} arguments')
    (stdin : ByteArray) :
  run arguments stdin = run arguments' stdin
  := by
  rw [run, run, h]

end Chunking.CommandLine
