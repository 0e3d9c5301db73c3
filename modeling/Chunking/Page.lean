import Chunking.Analysis

/-!
# The report page

A page is a list of lines, and a line is a row of spans, each of which has its text and the styles
in which a terminal shows it.  A page is printed in colour, with control sequences around the
styled texts, or plain.  The page of a report shows the input, the size of the grammar, the
positions with the rules found there, the greedy fold and the statistics of the cache.

The hit ratio of the cache is shown with two decimal places.  A binary floating-point number is an
integer multiple of a power of two, and its decimal text with a given number of places is the
multiple of the last place nearest to that exact value; a value half-way between two multiples goes
to the even one.
-/

namespace Chunking

/-! ### Decimal text with fixed places -/

namespace Text

/-- The integer nearest to `numerator / denominator`; of two equally near ones, the even one. -/
def roundDiv (numerator denominator : Nat) : Nat :=
  let quotient := numerator / denominator
  let remainder := numerator % denominator
  if 2 * remainder < denominator then
    quotient
  else if denominator < 2 * remainder then
    quotient + 1
  else
    quotient + quotient % 2

/-- The number `significand * 2 ^ exponent`. -/
structure Dyadic where
  significand : Nat
  exponent : Int

/-- The exact magnitude of a finite double-precision number: a significand of 52 bits, with a
leading bit unless the exponent field is zero. -/
def Dyadic.ofFloat (x : Float) : Dyadic :=
  let bits : Nat := x.toBits.toNat
  let fraction : Nat := bits % (1 <<< 52)
  let field : Nat := bits >>> 52 % (1 <<< 11)
  if field = 0 then
    ⟨fraction, -1074⟩
  else
    ⟨1 <<< 52 + fraction, (field : Int) - 1075⟩

/-- The multiple of `1 / scale` nearest to `d`, as the multiplier. -/
def Dyadic.round (scale : Nat) (d : Dyadic) : Nat :=
  roundDiv ((scale * d.significand) <<< d.exponent.toNat) (1 <<< (-d.exponent).toNat)

/-- The magnitude of a finite number in decimal, with `places` digits after the point. -/
def fixed (places : Nat) (x : Float) : String :=
  let scale := Nat.pow 10 places
  let units := (Dyadic.ofFloat x).round scale
  let rest := Nat.toDigits 10 (units % scale)
  toString (units / scale) ++ "."
    ++ String.ofList (List.replicate (places - rest.length) '0' ++ rest)

end Text

namespace Page

/-! ### Spans and lines -/

/-- The weights and colours of a text. -/
inductive Style where
  | bold
  | dim
  | green
  | yellow
  | blue
  | cyan
  | gray
  deriving DecidableEq

/-- The number that selects a style on a terminal. -/
def Style.code : Style → Nat
  | bold => 1
  | dim => 2
  | green => 32
  | yellow => 33
  | blue => 34
  | cyan => 36
  | gray => 90

/-- The control sequence that selects a rendition: the escape character, a bracket, a number and
the letter `m`. -/
def control (code : Nat) : String :=
  "\x1b[" ++ toString code ++ "m"

/-- A text with its styles, the outermost first. -/
structure Span where
  styles : List Style
  text : String

/-- The spans of one line. -/
abbrev Line := List Span

/-- A text without styles. -/
def plain (text : String) : Span :=
  ⟨[], text⟩

/-- A text in one style. -/
def styled (style : Style) (text : String) : Span :=
  ⟨[style], text⟩

/-- A bold text in one more style. -/
def strong (style : Style) (text : String) : Span :=
  ⟨[.bold, style], text⟩

/-! ### Printing -/

/-- A text inside the control sequences of styles: each is selected before the text, and each is
followed by a reset after it. -/
def wrap (text : String) : List Style → String
  | [] => text
  | style :: styles => control style.code ++ wrap text styles ++ control 0

/-- A span in colour or plain. -/
def Span.print (color : Bool) (span : Span) : String :=
  if color then wrap span.text span.styles else span.text

/-- A line with its end. -/
def printLine (color : Bool) (line : Line) : String :=
  String.join (line.map (Span.print color)) ++ "\n"

/-- The lines of a page. -/
def print (color : Bool) (lines : List Line) : String :=
  String.join (lines.map (printLine color))

/-! ### Parts of the page -/

/-- A blank line and the heading of a section. -/
def heading (title : String) : List Line :=
  [[], [styled .gray ("━━━ " ++ title ++ " ━━━")]]

/-- The input and the size of the grammar. -/
def opening (input : String) (g : Grammar) : List Line :=
  [[],
    [strong .cyan ("⚙  Matching: \"" ++ Text.trim input ++ "\"")],
    [plain "  ", styled .green (toString g.size), plain " rules  │  max arity ",
      styled .green (toString g.maxArity)]]

/-- The text of a window: its chunks with spaces between them. -/
def windowText (window : WindowReport) : String :=
  String.intercalate " " (window.nodes.map Chunk.display)

/-- A window and the rules that fold it. -/
def windowLines (g : Grammar) (window : WindowReport) : List Line :=
  [plain "    ", styled .yellow ("len " ++ toString window.nodes.length), plain " ",
      styled .dim (windowText window)]
    :: window.ids.map fun id =>
      [plain "      ", styled .green "✓", plain " ", styled .cyan (g.ruleText id)]

/-- The rule that comes first at a position. -/
def firstLine (g : Grammar) (first : Option Nat) : Line :=
  [plain "    ", styled .dim "first:", plain " ",
    match first with
    | some id => styled .cyan (g.ruleText id)
    | none => styled .dim "✗ none"]

/-- A position with its windows. -/
def positionLines (g : Grammar) (position : PositionReport) : List Line :=
  [plain "  ", styled .blue ("@" ++ toString position.start), plain " ",
      styled .bold position.node.display]
    :: firstLine g position.first
    :: position.windows.flatMap (windowLines g)

/-- The nodes of the greedy fold, numbered from zero. -/
def foldedLines (folded : List Chunk) : List Line :=
  if folded.isEmpty then
    [[styled .dim "  No tokens"]]
  else
    folded.zipIdx.map fun (node, i) =>
      [plain "  ", styled .gray ("[" ++ toString i ++ "]"), plain " ",
        strong .green node.display]

/-- The statistics of the cache. -/
def cacheLine (stats : Clock.Stats) : Line :=
  if stats.capacity = 0 then
    [plain "  ", styled .dim "disabled"]
  else
    [plain "  Entries: ",
      styled .green (toString stats.size ++ "/" ++ toString stats.capacity),
      plain "  │  Hits: ", styled .blue (toString stats.hits),
      plain "  │  Misses: ", styled .yellow (toString stats.misses),
      plain "  │  Evictions: ", styled .dim (toString stats.evictions),
      plain "  │  Hit ratio: ", styled .dim (Text.fixed 2 stats.hitRatio)]

/-! ### The page -/

/-- The report on `input` under a grammar. -/
def ofReport (input : String) (g : Grammar) (report : Report) : List Line :=
  opening input g
    ++ heading "Positions" ++ report.positions.flatMap (positionLines g)
    ++ heading "Greedy fold" ++ foldedLines report.folded
    ++ heading "Cache" ++ [cacheLine report.cache, []]

end Page

end Chunking
