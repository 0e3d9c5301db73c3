import Chunking.Proofs.CommandLine.Options
import Chunking.Proofs.CommandLine.Rules

/-!
# The two spellings of an option with a value

A value stands in an argument of its own, or behind an equals sign in one argument with the option.
An argument with both is read as the option followed by the value without the copies of the mark, an
option with an equals sign, that stand in front of it.  So the two spellings mean the same for the
values that do not begin with the mark of their option, whatever stands before and behind them, and
for every other value they already differ when they stand alone.
-/

namespace Chunking.CommandLine

open Text

/-! ### Lists of complete options -/

/-- Arguments each of which is an option without a value, an option that is followed by its value,
or both in one. -/
inductive Complete : List String → Prop where
  | nil : Complete []
  | help {name : String} {rest : List String} (h : name ∈ ["-h", "--help"])
    (hrest : Complete rest) : Complete (name :: rest)
  | version {name : String} {rest : List String} (h : name ∈ ["-V", "--version"])
    (hrest : Complete rest) : Complete (name :: rest)
  | separate {item : Item} {group rest : List String} (h : Writes item group)
    (hrest : Complete rest) : Complete (group ++ rest)
  | joined (option : Valued) (value : String) {rest : List String} (hrest : Complete rest) :
    Complete ((option.mark ++ value) :: rest)

/-- Arguments that are read alike are read alike behind complete options. -/
theorem Complete.ofArguments_congr {before after after' : List String} (hbefore : Complete before)
    (h : ∀ s, Request.ofArguments s after = Request.ofArguments s after') (s : Settings) :
  Request.ofArguments s (before ++ after) = Request.ofArguments s (before ++ after')
  := by
  induction hbefore generalizing s with
  | nil => apply h
  | help hname _ _ =>
    simp only [List.mem_cons, List.not_mem_nil, or_false] at hname
    rcases hname with rfl | rfl
    · rfl
    · rfl
  | version hname _ _ =>
    simp only [List.mem_cons, List.not_mem_nil, or_false] at hname
    rcases hname with rfl | rfl
    · rfl
    · rfl
  | separate hitem _ ih =>
    rw [List.append_assoc, List.append_assoc, ofArguments_append hitem, ofArguments_append hitem]
    congr 1
    funext t
    apply ih
  | joined option value _ ih =>
    rw [List.cons_append, List.cons_append, ofArguments_mark_append, ofArguments_mark_append]
    congr 1
    funext t
    apply ih

/-! ### Copies of the mark -/

section

variable {option : Valued} {value rest : String} {copies : Nat}

theorem dash_mem_copies (option : Valued) (copies : Nat) :
  '-' ∈ (List.replicate (copies + 1) option.mark.toList).flatten
  := by
  obtain ⟨cs, hcs⟩ := option.exists_toList_mark
  rw [List.replicate_succ, List.flatten_cons, hcs, List.cons_append]
  apply List.mem_cons_self

theorem ne_of_copies
    (h : (List.replicate (copies + 1) option.mark.toList).flatten ++ rest.toList = value.toList) :
  rest ≠ value
  := by
  rintro rfl
  rw [List.append_left_eq_self] at h
  have hdash := dash_mem_copies option copies
  rw [h] at hdash
  cases hdash

/-- No arrow begins in the mark of the option for productions. -/
theorem arrow_infix_mark_append_iff (cs : List Char) :
  "->".toList <:+: Valued.rule.mark.toList ++ cs ↔ "->".toList <:+: cs
  := by
  simp [Valued.mark, Valued.name, List.infix_cons_iff]

theorem arrow_infix_copies_append_iff (copies : Nat) (cs : List Char) :
  "->".toList <:+: (List.replicate copies Valued.rule.mark.toList).flatten ++ cs
    ↔ "->".toList <:+: cs
  := by
  induction copies with
  | zero => rfl
  | succ copies ih =>
    rw [List.replicate_succ, List.flatten_cons, List.append_assoc, arrow_infix_mark_append_iff, ih]

/-! ### Values with copies of the mark -/

theorem eq_invalidRule_of_readRule {text : String} {cause : Failure}
    (h : readRule text = .error cause) :
  cause = .invalidRule text
  := by
  rw [readRule] at h
  split at h
  next => cases h
  next => exact (Except.error.inj h).symm

theorem eq_invalidCapacity_of_readCapacity {text : String} {cause : Failure}
    (h : readCapacity text = .error cause) :
  cause = .invalidCapacity text
  := by
  simp only [readCapacity] at h
  split at h
  next =>
    split at h
    next => cases h
    next => exact (Except.error.inj h).symm
  next => exact (Except.error.inj h).symm

/-- Copies of the mark in front of a production are read as a part of its left-hand side. -/
theorem readRule_ne_of_copies
    (h : (List.replicate (copies + 1) Valued.rule.mark.toList).flatten ++ rest.toList
      = value.toList) :
  readRule rest ≠ readRule value
  := by
  intro heq
  cases hrest : readRule rest with
  | error cause =>
    obtain rfl := eq_invalidRule_of_readRule hrest
    have hinvalid := eq_invalidRule_of_readRule (heq.symm.trans hrest)
    apply ne_of_copies h (Failure.invalidRule.inj hinvalid)
  | ok sides =>
    obtain ⟨left, right⟩ := sides
    obtain ⟨before, after, hcut, hleft, -⟩ := readRule_eq_ok_iff.mp hrest
    obtain ⟨happend, harrow⟩ := cutFirst_arrow_eq_some_iff.mp hcut
    have hvalue : cutFirst "->" value
        = some (String.ofList ((List.replicate (copies + 1) Valued.rule.mark.toList).flatten
          ++ before.toList), after) := by
      rw [cutFirst_arrow_eq_some_iff, HoldsArrow, String.toList_ofList,
        arrow_infix_copies_append_iff, ← h, ← happend]
      constructor
      · simp only [List.append_assoc]
      · apply harrow
    obtain ⟨before', after', hcut', hleft', -⟩ := readRule_eq_ok_iff.mp (heq.symm.trans hrest)
    rw [hvalue] at hcut'
    obtain ⟨rfl, -⟩ := Prod.mk.inj (Option.some.inj hcut')
    have hdash := dash_mem_copies .rule copies
    apply trimmed_append_ne hdash (by decide)
    rw [← toList_trim before, hleft, ← hleft', toList_trim, String.toList_ofList]

/-- A text that begins with a dash is not a capacity. -/
theorem readCapacity_dash {cs : List Char} (h : value.toList = '-' :: cs) :
  readCapacity value = .error (.invalidCapacity value)
  := by
  have hhead := head?_trimmed_cons (c := '-') (by decide) cs
  rw [← h] at hhead
  obtain ⟨ds, hds⟩ := List.head?_eq_some_iff.mp hhead
  simp [readCapacity, hds, decimal?]

/-- The settings tell a value with copies of the mark in front from the value without them. -/
theorem apply_ne_of_copies
    (h : (List.replicate (copies + 1) option.mark.toList).flatten ++ rest.toList = value.toList) :
  Settings.apply {} (.valued option rest) ≠ Settings.apply {} (.valued option value)
  := by
  intro heq
  cases option with
  | rule =>
    apply readRule_ne_of_copies h
    apply map_injective _ heq
    intro rule rule' hrules
    simpa using congrArg Settings.productions hrules
  | capacity =>
    have hvalue : readCapacity value = .error (.invalidCapacity value) := by
      obtain ⟨cs, hcs⟩ := Valued.capacity.exists_toList_mark
      rw [List.replicate_succ, List.flatten_cons, hcs, List.cons_append, List.cons_append] at h
      apply readCapacity_dash h.symm
    have hread : readCapacity rest = readCapacity value := by
      apply map_injective _ heq
      intro n n' hn
      apply congrArg Settings.capacity hn
    have hinvalid := eq_invalidCapacity_of_readCapacity (hread.trans hvalue)
    apply ne_of_copies h (Failure.invalidCapacity.inj hinvalid).symm
  | input => simp [Settings.apply, Settings.withInput, ne_of_copies h] at heq

end

/-! ### The spellings -/

theorem ofArguments_separate (s : Settings) (option : Valued) (value : String)
    (rest : List String) :
  Request.ofArguments s (option.name :: value :: rest)
    = s.apply (.valued option value) >>= fun t => Request.ofArguments t rest
  := ofArguments_append (.valued option.name_mem_names value) s rest

/-- The two spellings ask for the same exactly when the value does not begin with the mark. -/
theorem ofArguments_spellings_eq_iff {option : Valued} {value : String} :
  Request.ofArguments {} [option.mark ++ value] = Request.ofArguments {} [option.name, value]
    ↔ ¬beginsWith option.mark value
  := by
  have hmark := option.mark_ne_empty
  have hreport (result : Except Failure Settings) :
      (result >>= fun t => Request.ofArguments t []) = result.map .report := by
    cases result with
    | error cause => rfl
    | ok t => rfl
  rw [ofArguments_mark_append, ofArguments_separate, hreport, hreport,
    ← afterCopies_eq_self_iff hmark]
  constructor
  · intro heq
    obtain ⟨⟨copies, hcopies⟩, -⟩ := (afterCopies_eq_iff hmark (s := value)).mp rfl
    cases copies with
    | zero =>
      rw [List.replicate_zero, List.flatten_nil, List.nil_append, String.toList_inj] at hcopies
      apply hcopies
    | succ copies =>
      have hreport : Function.Injective Request.report := fun _ _ ht => Request.report.inj ht
      exact absurd (map_injective hreport heq) (apply_ne_of_copies hcopies)
  · intro heq
    rw [heq]

/-- An option and its value in one argument have the same outcome as the option followed by the
value without copies of the mark in front, whatever complete options stand before them and whatever
stands behind them.  So the two spellings of a value that does not begin with the mark have the same
outcome; and these are the only values for which the two spellings ask for the same when they stand
alone. -/
theorem run_mark_append {before : List String} (hbefore : Complete before) (option : Valued)
    (value : String) (after : List String) (stdin : ByteArray) :
  run (before ++ (option.mark ++ value) :: after) stdin
      = run (before ++ option.name :: afterCopies option.mark value :: after) stdin
    ∧ (¬beginsWith option.mark value →
      run (before ++ (option.mark ++ value) :: after) stdin
        = run (before ++ option.name :: value :: after) stdin)
    ∧ (Request.ofArguments {} [option.mark ++ value]
        = Request.ofArguments {} [option.name, value] ↔ ¬beginsWith option.mark value)
  := by
  have hrun : run (before ++ (option.mark ++ value) :: after) stdin
      = run (before ++ option.name :: afterCopies option.mark value :: after) stdin := by
    apply run_eq_of_ofArguments_eq
    apply hbefore.ofArguments_congr
    intro s
    rw [ofArguments_mark_append, ofArguments_separate]
  constructor
  · apply hrun
  constructor
  · intro hbegins
    rw [hrun, (afterCopies_eq_self_iff option.mark_ne_empty).mpr hbegins]
  · apply ofArguments_spellings_eq_iff

/-- A value may hold equals signs, the name of its option and marks of other options. -/
theorem run_mark_append_of_marks :
  run ["-r", "A -> B", "--color", "--input==--input --rule=a", "--no-demo"] ByteArray.empty
    = run ["-r", "A -> B", "--color", "--input", "=--input --rule=a", "--no-demo"] ByteArray.empty
  := by
  have hrule : Writes (.valued .rule "A -> B") ["-r", "A -> B"] := .valued (by decide) _
  have hbefore : Complete ["-r", "A -> B", "--color"] := .separate hrule (.separate .color .nil)
  have hbegins : ¬beginsWith Valued.input.mark "=--input --rule=a" := by decide
  have hsame := (run_mark_append hbefore .input _ ["--no-demo"] ByteArray.empty).2.1 hbegins
  have hmark : Valued.input.mark ++ "=--input --rule=a" = "--input==--input --rule=a" := by decide
  simp only [hmark, Valued.name, List.cons_append, List.nil_append] at hsame
  apply hsame

/-- A copy of the mark is dropped from a capacity that is written in one argument with its option,
and it makes the capacity invalid in an argument of its own. -/
theorem run_mark_twice_ne :
  run ["--cache-capacity=--cache-capacity=5", "--version"] ByteArray.empty
    ≠ run ["--cache-capacity", "--cache-capacity=5", "--version"] ByteArray.empty
  := by
  intro heq
  have hcode := congrArg Outcome.code heq
  revert hcode
  decide +kernel

end Chunking.CommandLine
