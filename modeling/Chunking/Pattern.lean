import Chunking.Grammemes

/-!
# Patterns and constituents

A pattern is one position of the right-hand side of a rule: a literal word, or a set of grammemes
that the node at this position has to carry.  In a grammar a literal stands between two equal
quotes, single or double, and everything else is a comma-separated list of grammemes.

Rules apply to sequences of nodes of any type that is a `Constituent`: a node decides which
patterns it meets, names its content by a key, and can be built from the nodes that a rule
consumes.  The key of a window of nodes is made of the keys of its nodes.
-/

namespace Chunking

/-- A requirement on a single node. -/
inductive Pattern where
  /-- The surface word of the node is exactly `text`. -/
  | word (text : String)
  /-- The grammemes of the node are compatible with those required. -/
  | tags (required : Grammemes)
  deriving DecidableEq

namespace Pattern

/-- The literal word of a pattern, if it has one. -/
def word? : Pattern → Option String
  | word text => some text
  | tags _ => none

/-- The required grammemes of a pattern, if it has any. -/
def tags? : Pattern → Option Grammemes
  | word _ => none
  | tags required => some required

/-- The text of a pattern: a literal between single quotes, or the list of grammemes. -/
def display : Pattern → String
  | word text => "'" ++ text ++ "'"
  | tags required => required.display

/-! ### Reading -/

/-- A quote: the apostrophe or the double quote. -/
def isQuote (c : Char) : Bool :=
  c = '\x27' || c = '"'

/-- Whether the first or the last character is a quote. -/
def touchesQuote (cs : List Char) : Bool :=
  cs.head?.any isQuote || cs.getLast?.any isQuote

/-- What stands between the first and the last of at least two characters, when these two are
equal quotes. -/
def interior? : List Char → Option (List Char)
  | quote :: c :: cs =>
    if isQuote quote && (c :: cs).getLast? == some quote then
      some (c :: cs).dropLast
    else
      none
  | _ => none

/-- The pattern written as `token` within `alternative`. -/
def ofToken (alternative token : String) : Except GrammarError Pattern :=
  if touchesQuote token.toList then
    match interior? token.toList with
    | none => .error (.unbalancedQuote token alternative)
    | some [] => .error (.emptyLiteral alternative)
    | some text => .ok (word (String.ofList text))
  else
    (Grammemes.parse token).map tags

end Pattern

/-! ### Constituents -/

/-- The character that stands between the keys of neighbouring nodes, U+001F. -/
def separator : Char :=
  '\x1f'

/-- The node types to which rules apply. -/
class Constituent (ν : Type) where
  /-- Whether a node meets a pattern. -/
  meets : ν → Pattern → Bool
  /-- The text that names the content of a node. -/
  key : ν → String
  /-- The node that stands for `parts` after a rule with this left-hand side has consumed them. -/
  fold : (left : Grammemes) → (parts : List ν) → (score : Float32) → ν

/-- What lookups expect of the keys: nodes with the same key meet the same patterns, and the
separator is in no key. -/
class LawfulConstituent (ν : Type) [Constituent ν] : Prop where
  meets_of_key_eq {a b : ν} (h : Constituent.key a = Constituent.key b) (p : Pattern) :
    Constituent.meets a p = Constituent.meets b p
  separator_not_mem_key (a : ν) :
    separator ∉ (Constituent.key a).toList

/-- The key of a window: the keys of its nodes with separators between them. -/
def windowKey {ν : Type} [Constituent ν] (nodes : List ν) : String :=
  String.intercalate (String.singleton separator) (nodes.map Constituent.key)

end Chunking
