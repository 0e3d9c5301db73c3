import Chunking.Chunker

/-!
# Settings of a run

The arguments of the program are read from left to right.  Each one is an option, with a value of
its own or in the next argument, or it ends the options: `--` is followed by the words of the
input, and an argument that does not begin with a dash is the first of them.  Later options of a
kind override earlier ones, but the input is given only once.  The reading ends also at a request
for the version of the program or for the page that explains its use.
-/

namespace Chunking.CommandLine

/-! ### Version and help -/

/-- The name and the version of the program. -/
def versionText : String :=
  "morphrules 0.1.0"

/-- The lines that explain the use of the program. -/
def helpLines : List String :=
  [versionText,
    "",
    "Grammar rule matching over tagged tokens.",
    "",
    "Usage:",
    "  morphrules [OPTIONS] [--] <tokens...>",
    "  morphrules [OPTIONS] --input <tokens>",
    "",
    "Tokens are whitespace-separated 'word/TAG,TAG' items, e.g.",
    "  morphrules the/DET big/ADJ dog/NOUN barks/VERB",
    "",
    "Options:",
    "  -i, --input <tokens>       Tokens to analyze. If omitted, reads remaining args",
    "                             or stdin when no args are provided.",
    "  -r, --rule <'L -> R'>      Add a production (repeatable), e.g. \"NP -> ADJ NOUN\".",
    "  --no-demo                  Do not load the built-in demo grammar.",
    "  --cache-capacity <n>       find_all cache size; 0 disables. Default: "
      ++ toString Chunker.defaultCapacity,
    "  --color                    Force ANSI color output.",
    "  --no-color                 Disable ANSI color output.",
    "  -h, --help                 Show this help message.",
    "  -V, --version              Print version information.",
    "",
    "Environment:",
    "  RUST_LOG                   Log filter, e.g. morphrules=trace. Default: warn",
    "",
    "Exit codes:",
    "  0  Success.",
    "  2  Invalid arguments, rules or input."]

/-- The help page, each line with its end. -/
def helpText : String :=
  String.join (helpLines.map (· ++ "\n"))

/-! ### Settings -/

/-- What a run of the program is asked to do. -/
structure Settings where
  /-- The input given in the arguments. -/
  input : Option String := none
  /-- The left- and right-hand sides of the productions given, in order. -/
  productions : List (String × String) := []
  /-- Whether the demonstration grammar is used. -/
  demo : Bool := true
  /-- The capacity of the cache. -/
  capacity : Nat := Chunker.defaultCapacity
  /-- Whether the report is printed in colour. -/
  color : Bool := false

/-! ### Causes of failure -/

/-- The options that take a value. -/
inductive Valued where
  | rule
  | capacity
  | input
  deriving DecidableEq

/-- The long name of an option that takes a value. -/
def Valued.name : Valued → String
  | rule => "--rule"
  | capacity => "--cache-capacity"
  | input => "--input"

/-- The cause for which a run fails. -/
inductive Failure where
  /-- The last argument is an option whose value is missing. -/
  | missingValue (option : Valued)
  /-- The input is given more than once. -/
  | repeatedInput
  | unknownOption (argument : String)
  /-- The text of a production has no arrow. -/
  | invalidRule (text : String)
  /-- The text is no number of 64 bits. -/
  | invalidCapacity (text : String)
  /-- The standard input is not UTF-8. -/
  | unreadableInput
  /-- The input is blank. -/
  | noInput
  | demo (cause : GrammarError)
  /-- A production given in the arguments is refused. -/
  | production (left right : String) (cause : GrammarError)
  /-- There are no productions at all. -/
  | noRules
  | token (e : TokenError)

/-- The wording of a failure. -/
def Failure.message : Failure → String
  | missingValue option => "error: " ++ option.name ++ " expects a value"
  | repeatedInput => "error: input provided multiple times"
  | unknownOption argument => "error: unknown option '" ++ argument ++ "'"
  | invalidRule text => "error: invalid --rule '" ++ text ++ "' (expected 'LEFT -> RIGHT')"
  | invalidCapacity text =>
    "error: invalid --cache-capacity '" ++ text ++ "' (expected a non-negative integer)"
  | unreadableInput =>
    "error: failed to read stdin: stream did not contain valid UTF-8"
  | noInput => "error: no input provided\n\n" ++ helpText
  | demo cause => "error: demo grammar: " ++ cause.message
  | production left right cause =>
    "error: rule '" ++ left ++ " -> " ++ right ++ "': " ++ cause.message
  | noRules => "error: no rules (pass --rule or drop --no-demo)"
  | token e => "error: " ++ e.message

/-! ### Values -/

/-- The two sides of a production written with an arrow between them: the first arrow counts. -/
def readRule (text : String) : Except Failure (String × String) :=
  match Text.cutFirst "->" text with
  | some (left, right) => .ok (Text.trim left, Text.trim right)
  | none => .error (.invalidRule text)

/-- The number that decimal digits write. -/
def decimal? (digits : List Char) : Option Nat :=
  if !digits.isEmpty && digits.all Char.isDigit then
    some (Nat.ofDigitChars 10 digits 0)
  else
    none

/-- The capacity that a text writes: decimal digits, after a plus sign or not, with blanks around
them or not, below the bound of 64-bit numbers. -/
def readCapacity (text : String) : Except Failure Nat :=
  let digits := match Text.trimmed text.toList with
    | '+' :: rest => rest
    | rest => rest
  match decimal? digits with
  | some n => if n < UInt64.size then .ok n else .error (.invalidCapacity text)
  | none => .error (.invalidCapacity text)

/-! ### Options -/

/-- An option with its value. -/
inductive Item where
  | color (on : Bool)
  | noDemo
  | valued (option : Valued) (value : String)

/-- What an argument is on its own. -/
inductive Argument where
  | help
  | version
  | item (item : Item)
  /-- An option whose value is the next argument. -/
  | awaiting (option : Valued)
  /-- The mark that ends the options. -/
  | endOfOptions
  | unknown
  /-- The first word of the input. -/
  | operand

/-- The item written as an option and its value in one argument, with an equals sign between
them.  Further copies of the option and the sign before the value do not count. -/
def joined? (argument : String) : Option Item :=
  [Valued.rule, .capacity, .input].findSome? fun option =>
    let mark := option.name ++ "="
    if Text.beginsWith mark argument then
      some (.valued option (Text.afterCopies mark argument))
    else
      none

/-- The kind of an argument. -/
def Argument.ofText (argument : String) : Argument :=
  match argument with
  | "-h" | "--help" => help
  | "-V" | "--version" => version
  | "--color" => item (.color true)
  | "--no-color" => item (.color false)
  | "--no-demo" => item .noDemo
  | "--rule" | "-r" => awaiting .rule
  | "--cache-capacity" => awaiting .capacity
  | "--input" | "-i" => awaiting .input
  | "--" => endOfOptions
  | _ =>
    match joined? argument with
    | some i => item i
    | none => if Text.beginsWith "-" argument then unknown else operand

namespace Settings

/-- The settings with the input given. -/
def withInput (s : Settings) (text : String) : Except Failure Settings :=
  if s.input.isSome then .error .repeatedInput else .ok { s with input := some text }

/-- The settings changed by an option. -/
def apply (s : Settings) : Item → Except Failure Settings
  | .color on => .ok { s with color := on }
  | .noDemo => .ok { s with demo := false }
  | .valued .rule text =>
    (readRule text).map fun rule => { s with productions := s.productions ++ [rule] }
  | .valued .capacity text => (readCapacity text).map fun n => { s with capacity := n }
  | .valued .input text => s.withInput text

end Settings

/-! ### Requests -/

/-- What the arguments ask for. -/
inductive Request where
  | help
  | version
  | report (s : Settings)

/-- The request that the arguments make, when `s` has been read from those before them.  The first
argument that is at fault decides the failure, and arguments after a request for help or for the
version do not count. -/
def Request.ofArguments (s : Settings) : List String → Except Failure Request
  | [] => .ok (.report s)
  | argument :: rest =>
    match Argument.ofText argument, rest with
    | .help, _ => .ok .help
    | .version, _ => .ok .version
    | .item item, rest => do ofArguments (← s.apply item) rest
    | .awaiting option, [] => .error (.missingValue option)
    | .awaiting option, value :: rest => do ofArguments (← s.apply (.valued option value)) rest
    | .endOfOptions, rest =>
      let text := String.intercalate " " rest
      if Text.isAllBlank text then .ok (.report s) else (s.withInput text).map .report
    | .unknown, _ => .error (.unknownOption argument)
    | .operand, rest =>
      (s.withInput (String.intercalate " " (argument :: rest))).map .report

end Chunking.CommandLine
