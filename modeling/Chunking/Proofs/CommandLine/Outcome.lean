import Chunking.CommandLine.Run
import Chunking.Proofs.Analysis.Positions
import Chunking.Proofs.Analysis.Segments
import Chunking.Proofs.Chunk.Token

/-!
# Outcomes of runs

A run fails or succeeds.  When it fails, it writes its cause to the standard error and nothing else.
When it succeeds, it writes what the arguments ask for and nothing else.  A report is about at least
one token and at least one rule: an input without tokens is blank, and blank inputs are refused, as
are empty grammars.  So the greedy fold shown in a report is never empty.
-/

namespace Chunking

open Text

/-! ### Pages -/

namespace Page

/-- The line shown in place of an empty fold. -/
def noTokens : Line :=
  [styled .dim "  No tokens"]

theorem print_ne_empty (color : Bool) {lines : List Line} (h : lines ≠ []) :
  print color lines ≠ ""
  := by
  obtain ⟨line, lines, rfl⟩ := List.exists_cons_of_ne_nil h
  rw [print, List.map_cons, String.join_cons, printLine]
  simp [String.append_eq_empty_iff]

theorem ofReport_ne_nil (input : String) (g : Grammar) (report : Report) :
  ofReport input g report ≠ []
  := by
  rw [ofReport, opening]
  apply List.cons_ne_nil

end Page

namespace CommandLine

/-! ### Reports -/

/-- The report that the settings ask for: `output` is the page of the report on the tokens of
`input` under the grammar `g`. -/
structure Settings.Reported (s : Settings) (stdin : ByteArray) (output input : String)
    (g : Grammar) (report : Report) : Prop where
  text_eq : s.text stdin = .ok input
  grammar_eq : s.grammar = .ok g
  report_eq :
    ∃ nodes, Chunk.ofText input = .ok nodes
      ∧ report = ((Chunker.ofGrammar g s.capacity).analyze nodes).1
  output_eq : output = Page.print s.color (Page.ofReport input g report)
  size_pos : 0 < g.size
  words_ne_nil : words input ≠ []
  /-- There is a position for each token, and its node is the chunk of the token. -/
  forall₂_positions :
    List.Forall₂ (fun token (position : PositionReport) => Chunk.ofToken token = .ok position.node)
      (words input) report.positions
  starts_eq : report.positions.map PositionReport.start = List.range (words input).length
  folded_ne_nil : report.folded ≠ []
  noTokens_not_mem : Page.noTokens ∉ Page.ofReport input g report

/-- The texts that answer a request. -/
inductive Request.Answered (stdin : ByteArray) : Request → String → Prop where
  | help : Answered stdin .help (helpText ++ "\n")
  | version : Answered stdin .version (versionText ++ "\n")
  | report {s : Settings} {output input : String} {g : Grammar} {report : Report}
    (h : s.Reported stdin output input g report) : Answered stdin (.report s) output

section

variable {request : Request} {stdin : ByteArray} {output : String}

theorem Request.Answered.ne_empty (h : request.Answered stdin output) :
  output ≠ ""
  := by
  cases h with
  | help => simp [String.append_eq_empty_iff]
  | version => simp [String.append_eq_empty_iff]
  | report hreported =>
    rw [hreported.output_eq]
    apply Page.print_ne_empty _ (Page.ofReport_ne_nil _ _ _)

end

/-! ### Success and failure -/

/-- The outcome of a run does not depend on the standard input when the input is given in the
arguments or not needed. -/
theorem run_eq_of_readsInput_eq_false {arguments : List String}
    (h : readsInput arguments = false) (stdin other : ByteArray) :
  run arguments stdin = run arguments other
  := by
  have hanswer (request : Request) (hrequest : Request.ofArguments {} arguments = .ok request) :
      answer stdin request = answer other request := by
    rw [readsInput, hrequest] at h
    cases request with
    | help => rfl
    | version => rfl
    | report s =>
      obtain ⟨text, htext⟩ := Option.isSome_iff_exists.mp (Option.isNone_eq_false_iff.mp h)
      have heq : s.text stdin = s.text other := by rw [Settings.text, Settings.text, htext]
      rw [answer, answer, CommandLine.report, CommandLine.report, heq]
  rw [run, run]
  cases hrequest : Request.ofArguments {} arguments with
  | error cause => rfl
  | ok request => rw [Except.bind, Except.bind, hanswer request hrequest]

/-- Both outcomes occur: without a rule there is no report. -/
example :
  (run ["--no-demo", "--rule", "NP -> NOUN", "dog/NOUN"] ByteArray.empty).code = 0
    ∧ (run ["--no-demo", "dog/NOUN"] ByteArray.empty).code = 2
  := by
  decide +kernel

end CommandLine

end Chunking
