import Chunking.CommandLine.Settings
import Chunking.Page

/-!
# Runs of the program

`run` gives what the program writes and its exit code as a function of the arguments and the
standard input.  A run that fails writes the cause to the standard error and ends with code 2; any
other run ends with code 0.
-/

namespace Chunking.CommandLine

/-- What a run leaves behind. -/
structure Outcome where
  code : UInt32
  stdout : String
  stderr : String
  deriving DecidableEq

/-- The outcome of a run that succeeds. -/
def Outcome.success (text : String) : Outcome :=
  ⟨0, text, ""⟩

/-- The outcome of a run that fails. -/
def Outcome.failure (cause : Failure) : Outcome :=
  ⟨2, "", cause.message ++ "\n"⟩

/-- The input of a run: the one given in the arguments, or all of the standard input. -/
def Settings.text (s : Settings) (stdin : ByteArray) : Except Failure String :=
  match s.input with
  | some text => .ok text
  | none =>
    match String.fromUTF8? stdin with
    | some text => .ok text
    | none => .error .unreadableInput

/-- The grammar of a run: the demonstration grammar, unless it is not wanted, and the productions
given. -/
def Settings.grammar (s : Settings) : Except Failure Grammar := do
  let base ← if s.demo then Grammar.demo.mapError .demo else .ok .empty
  let g ← s.productions.foldlM
    (fun g (left, right) =>
      (g.add { left := left, right := right }).mapError (.production left right))
    base
  if g.isEmpty then
    throw .noRules
  return g

/-- The report that the settings ask for. -/
def report (s : Settings) (stdin : ByteArray) : Except Failure String := do
  let input ← s.text stdin
  if Text.isAllBlank input then
    throw .noInput
  let g ← s.grammar
  let nodes ← (Chunk.ofText input).mapError .token
  let (report, _) := (Chunker.ofGrammar g s.capacity).analyze nodes
  return Page.print s.color (Page.ofReport input g report)

/-- The text that a request asks for. -/
def answer (stdin : ByteArray) : Request → Except Failure String
  | .help => .ok (helpText ++ "\n")
  | .version => .ok (versionText ++ "\n")
  | .report s => report s stdin

/-- The outcome of a run. -/
def run (arguments : List String) (stdin : ByteArray) : Outcome :=
  match (Request.ofArguments {} arguments).bind (answer stdin) with
  | .ok text => .success text
  | .error cause => .failure cause

/-- Whether the outcome depends on the standard input: only for a report whose input is not given
in the arguments. -/
def readsInput (arguments : List String) : Bool :=
  match Request.ofArguments {} arguments with
  | .ok (.report s) => s.input.isNone
  | _ => false

end Chunking.CommandLine
