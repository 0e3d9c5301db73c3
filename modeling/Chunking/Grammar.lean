import Chunking.Rule

/-!
# Grammars

A production is a line of a grammar: a left-hand side, a right-hand side and a weight.  The
right-hand side has alternatives with bars between them, and each alternative that is not blank
becomes a rule.  A right-hand side that is blank altogether becomes a rule of arity zero.

A grammar is a list of rules in order of priority.  A rule is named by its position, its id.  The
ids are also filed by arity, in ascending order, so that the rules that can fold a whole window
are found without a look at the others.
-/

namespace Chunking

/-! ### Productions -/

/-- A line of a grammar. -/
structure Production where
  left : String
  right : String
  weight : Float32 := 1.0

/-- The rule that `alternative` writes. -/
def Rule.ofAlternative (leftText : String) (left : Grammemes) (weight : Float32)
    (alternative : String) : Except GrammarError Rule := do
  let right ← (Text.words alternative).mapM (Pattern.ofToken alternative)
  return ⟨left, right, weight, leftText, alternative⟩

namespace Production

/-- The alternatives of a right-hand side, each without the blanks around it. -/
def alternatives (right : String) : Except GrammarError (List String) :=
  if Text.isAllBlank right then
    .ok [""]
  else
    match ((Text.fields '|' right).map Text.trim).filter (· ≠ "") with
    | [] => .error (.noAlternatives right)
    | texts => .ok texts

/-- The rules of a production, in the order of its alternatives. -/
def rules (p : Production) : Except GrammarError (List Rule) := do
  unless p.weight.isFinite do
    throw (.invalidWeight p.weight)
  let leftText := Text.trim p.left
  if leftText = "" then
    throw .emptyLeft
  let left ← Grammemes.parse leftText
  let texts ← alternatives p.right
  texts.mapM (Rule.ofAlternative leftText left p.weight)

end Production

/-! ### Grammars -/

/-- A list of rules, filed by arity. -/
structure Grammar where
  /-- The rules, the ones of higher priority first. -/
  rules : Array Rule
  /-- At each position the ids of the rules that have this arity. -/
  buckets : Array (Array Nat)
  /-- The largest arity of a rule, and zero when there is none. -/
  maxArity : Nat

namespace Grammar

/-- The grammar with no rule. -/
def empty : Grammar :=
  ⟨#[], #[], 0⟩

instance : Inhabited Grammar :=
  ⟨empty⟩

/-! ### Growth -/

/-- The buckets with `id` filed last under `arity`.  Empty buckets are added as needed. -/
def fileUnder (arity id : Nat) (buckets : Array (Array Nat)) : Array (Array Nat) :=
  (buckets ++ Array.replicate (arity + 1 - buckets.size) #[]).modify arity (·.push id)

/-- The grammar with a rule of lowest priority added. -/
def push (g : Grammar) (rule : Rule) : Grammar where
  rules := g.rules.push rule
  buckets := fileUnder rule.arity g.rules.size g.buckets
  maxArity := max g.maxArity rule.arity

/-- The grammar with the rules of a production added.  A production that is refused adds none of
its rules. -/
def add (g : Grammar) (p : Production) : Except GrammarError Grammar :=
  p.rules.map fun rules => rules.foldl push g

/-- The grammar after a production has been offered: with its rules added, or as before and the
cause of the refusal. -/
def offer (g : Grammar) (p : Production) : Grammar × Option GrammarError :=
  match g.add p with
  | .ok grown => (grown, none)
  | .error cause => (g, some cause)

/-- The grammar with several productions added, in order. -/
def addAll (g : Grammar) (ps : List Production) : Except GrammarError Grammar :=
  ps.foldlM add g

/-! ### Access -/

/-- The number of rules. -/
def size (g : Grammar) : Nat :=
  g.rules.size

/-- Whether there is no rule. -/
def isEmpty (g : Grammar) : Bool :=
  g.rules.isEmpty

/-- The rule of the given id. -/
def rule? (g : Grammar) (id : Nat) : Option Rule :=
  g.rules[id]?

/-- The ids of the rules of an arity, in ascending order. -/
def bucket (g : Grammar) (arity : Nat) : List Nat :=
  (g.buckets.getD arity #[]).toList

/-- The rules of an arity, in order of priority. -/
def rulesOfArity (g : Grammar) (arity : Nat) : List Rule :=
  (g.bucket arity).filterMap g.rule?

/-- A bucket after a filing: the id is last in the bucket of its arity, and the other buckets are
as before. -/
theorem getD_fileUnder (arity id n : Nat) (buckets : Array (Array Nat)) :
  (fileUnder arity id buckets).getD n #[]
    = if n = arity then (buckets.getD n #[]).push id else buckets.getD n #[]
  := by
  simp only [fileUnder, Array.getD_eq_getD_getElem?, Array.getElem?_modify,
    Array.getElem?_append, Array.getElem?_replicate]
  by_cases hn : n = arity
  · subst hn
    by_cases hlt : n < buckets.size
    · simp [hlt]
    · have hadded : n - buckets.size < n + 1 - buckets.size := by omega
      simp [hlt, hadded]
  · by_cases hlt : n < buckets.size
    · simp [hlt, hn, Ne.symm hn]
    · simp only [hlt, hn, Ne.symm hn, if_false]
      split
      · simp [hlt]
      · simp [hlt]

theorem bucket_push (g : Grammar) (rule : Rule) (n : Nat) :
  (g.push rule).bucket n = if n = rule.arity then g.bucket n ++ [g.size] else g.bucket n
  := by
  simp only [bucket, push, getD_fileUnder, size]
  split
  · simp
  · rfl

/-- The text of the rule of the given id, and nothing for an id that names no rule. -/
def ruleText (g : Grammar) (id : Nat) : String :=
  ((g.rule? id).map Rule.display).getD ""

/-- The text of a grammar: a line for each rule. -/
def display (g : Grammar) : String :=
  String.intercalate "\n" (g.rules.toList.map Rule.display)

/-! ### Lookup -/

variable {ν : Type} [Constituent ν]

/-- Whether the rule of the given id fits a sequence. -/
def fitsId (g : Grammar) (nodes : List ν) (id : Nat) : Bool :=
  (g.rule? id).any fun rule => rule.fits nodes

/-- The id of the first rule that fits a sequence, whatever its arity. -/
def first? (g : Grammar) (nodes : List ν) : Option Nat :=
  g.rules.findIdx? fun rule => rule.fits nodes

/-- The cut of a sequence by the first rule that fits it. -/
def firstMatch? (g : Grammar) (nodes : List ν) : Option (Match ν) :=
  (g.first? nodes).bind fun id => (g.rule? id).bind fun rule => rule.match? nodes

/-- The cut by the first rule loses nothing. -/
theorem consumed_append_rest {g : Grammar} {nodes : List ν} {m : Match ν}
    (h : g.firstMatch? nodes = some m) :
  m.consumed ++ m.rest = nodes
  := by
  simp only [firstMatch?, Option.bind_eq_some_iff] at h
  obtain ⟨_, -, _, -, hm⟩ := h
  apply Rule.consumed_append_rest hm

/-- The ids of the rules that fold a whole window: those of its length that fit it. -/
def scan (g : Grammar) (window : List ν) : List Nat :=
  (g.bucket window.length).filter (g.fitsId window)

/-- The number of nodes tested by the rules of the given ids. -/
def testsOfIds (g : Grammar) (nodes : List ν) (ids : List Nat) : Nat :=
  ids.foldl (fun total id => total + ((g.rule? id).map fun rule => rule.tests nodes).getD 0) 0

/-- The number of nodes tested in order to find `scan`: all rules of the bucket are tried. -/
def scanTests (g : Grammar) (window : List ν) : Nat :=
  g.testsOfIds window (g.bucket window.length)

/-! ### A small grammar of English

The demonstration grammar knows noun, prepositional and verb phrases and the sentence.  Longer
noun phrases come first, so that they are preferred to their own beginnings. -/

/-- The productions of the demonstration grammar, in order of priority. -/
def demoProductions : List Production :=
  [{ left := "NP", right := "DET ADJ NOUN | DET NOUN | ADJ NOUN | 'the' NOUN" },
    { left := "NP", right := "NOUN | PRON" },
    { left := "PP", right := "PREP NP" },
    { left := "VP", right := "VERB NP PP | VERB NP | VERB PP | VERB" },
    { left := "S", right := "NP VP" }]

/-- The demonstration grammar. -/
def demo : Except GrammarError Grammar :=
  empty.addAll demoProductions

end Grammar

end Chunking
