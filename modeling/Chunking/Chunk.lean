import Chunking.Pattern
import Chunking.Text.Quoted

/-!
# Chunks

A chunk is a node of a partial syntax tree.  A terminal chunk is a token, with or without a
surface word; a folded chunk has the grammemes of the left-hand side of a rule and the chunks that
the rule has consumed as its parts.  Every chunk has a score and a compatibility policy.

The policy of a chunk says how the grammemes that a pattern requires are compared with its own.  The
policies are ordered by strictness: what `exact` accepts, `subset` accepts, and what `subset`
accepts of a non-empty requirement, `overlap` accepts.  `Chunk.key` names what patterns can see of a
chunk, namely its word, grammemes and policy; the score and the parts do not enter it.

A text is a sequence of tokens with blanks between them.  A token `word/A,B` is a word with
grammemes, `/A,B` has grammemes only, and a token without a slash is a word with no grammemes.
The last slash counts, so a word can contain slashes.
-/

namespace Chunking

/-! ### Policies -/

/-- A way to compare required with actual grammemes. -/
inductive Policy where
  /-- Every required grammeme is present. -/
  | subset
  /-- At least one required grammeme is present. -/
  | overlap
  /-- The grammemes present are exactly those required. -/
  | exact
  deriving DecidableEq

namespace Policy

instance : Inhabited Policy :=
  ⟨subset⟩

/-- Whether a node that carries `actual` meets the requirement. -/
def accepts (policy : Policy) (required actual : Grammemes) : Bool :=
  match policy with
  | subset => required ⊆ actual
  | overlap => required.Meets actual
  | exact => required = actual

/-- The short name of a policy, as it is written in keys. -/
def tag : Policy → String
  | subset => "sub"
  | overlap => "any"
  | exact => "eq"

end Policy

/-! ### Chunks -/

/-- A node of a partial syntax tree. -/
structure Chunk where
  /-- The surface word, if there is one. -/
  word : Option String
  /-- The grammemes. -/
  tags : Grammemes
  score : Float32
  /-- The way in which required grammemes are compared with those of the chunk. -/
  policy : Policy
  /-- The chunks below this one, from left to right. -/
  parts : List Chunk

namespace Chunk

/-- Whether there is no chunk below this one. -/
def isTerminal (chunk : Chunk) : Bool :=
  chunk.parts.isEmpty

/-! ### Construction -/

/-- A token with a surface word, of score one. -/
def ofWord (word : String) (tags : Grammemes) : Chunk :=
  ⟨some word, tags, 1.0, .subset, []⟩

/-- A token known by its grammemes only, of score one. -/
def ofTags (tags : Grammemes) : Chunk :=
  ⟨none, tags, 1.0, .subset, []⟩

/-- The chunk above `parts`: it has no word, and the policy of the first part. -/
def fold (left : Grammemes) (parts : List Chunk) (score : Float32) : Chunk :=
  ⟨none, left, score, (parts.head?.map policy).getD .subset, parts⟩

/-! ### Words and text -/

mutual

/-- The surface words of the terminal chunks, from left to right. -/
def words : Chunk → List String
  | ⟨word, _, _, _, []⟩ => word.toList
  | ⟨_, _, _, _, part :: parts⟩ => part.words ++ wordsOfList parts

/-- The surface words of a sequence of chunks. -/
def wordsOfList : List Chunk → List String
  | [] => []
  | chunk :: chunks => chunk.words ++ wordsOfList chunks

end

theorem wordsOfList_eq_flatMap (chunks : List Chunk) :
  wordsOfList chunks = chunks.flatMap words
  := by
  induction chunks with
  | nil => rfl
  | cons chunk chunks ih => rw [wordsOfList, ih, List.flatMap_cons]

/-- The words of a folded chunk are those of its parts. -/
theorem words_fold (left : Grammemes) (parts : List Chunk) (score : Float32) :
  (fold left parts score).words = parts.flatMap words
  := by
  cases parts with
  | nil => rfl
  | cons part parts => rw [fold, words, wordsOfList_eq_flatMap, List.flatMap_cons]

mutual

/-- The text of a chunk: word and grammemes of a token, and the bracketed list of the grammemes
and the parts of a folded chunk. -/
def display : Chunk → String
  | ⟨word, tags, _, _, []⟩ => word.getD "" ++ "/" ++ tags.display
  | ⟨_, tags, _, _, part :: parts⟩ =>
    "[" ++ tags.display ++ " " ++ part.display ++ displayList parts ++ "]"

/-- The texts of a sequence of chunks, each after a space. -/
def displayList : List Chunk → String
  | [] => ""
  | chunk :: chunks => " " ++ chunk.display ++ displayList chunks

end

/-! ### Sameness -/

mutual

/-- Whether two chunks agree in all components.  Scores are compared as numbers: a score that is
not a number differs from itself, and the two zeros agree. -/
def same : Chunk → Chunk → Bool
  | ⟨word, tags, score, policy, parts⟩, ⟨word', tags', score', policy', parts'⟩ =>
    word == word' && tags == tags' && score == score' && policy == policy'
      && sameList parts parts'

/-- Whether two sequences of chunks agree position by position. -/
def sameList : List Chunk → List Chunk → Bool
  | [], [] => true
  | chunk :: chunks, chunk' :: chunks' => chunk.same chunk' && sameList chunks chunks'
  | _, _ => false

end

instance : BEq Chunk :=
  ⟨same⟩

/-! ### Matching -/

/-- Whether a chunk meets a pattern: a literal is compared with the word, and grammemes are
compared as the policy of the chunk says. -/
def meets (chunk : Chunk) : Pattern → Bool
  | .word text => chunk.word = some text
  | .tags required => chunk.policy.accepts required chunk.tags

/-- The key of a chunk: the quoted word, a slash, the quoted grammemes with commas between them,
an at-sign and the name of the policy. -/
def key (chunk : Chunk) : String :=
  (chunk.word.map Text.quoted).getD "" ++ "/"
    ++ String.intercalate "," (chunk.tags.labels.map Text.quoted) ++ "@" ++ chunk.policy.tag

instance : Constituent Chunk where
  meets := meets
  key := key
  fold := fold

end Chunk

/-! ### Scores of sequences

A scorer gives a score to the sequence of nodes that a rule consumes.  The arithmetic is that of
single-precision numbers, from left to right. -/

/-- A way to score the nodes that a rule consumes. -/
abbrev Scorer (ν : Type) := List ν → Float32

/-- The sum of scores, from left to right.  A sum of no scores is the negative zero, which is
neutral for addition. -/
def sumOfScores (scores : List Float32) : Float32 :=
  scores.foldl (· + ·) (-0.0)

/-- The mean of scores, which is zero for no scores. -/
def meanOfScores (scores : List Float32) : Float32 :=
  if scores.isEmpty then 0.0 else sumOfScores scores / scores.length.toFloat32

namespace Scorer

/-- The mean score of the chunks. -/
def mean : Scorer Chunk :=
  fun chunks => meanOfScores (chunks.map Chunk.score)

/-- The mean score of some chunks is the sum of their scores over their number. -/
theorem mean_of_ne_nil {chunks : List Chunk} (h : chunks ≠ []) :
  mean chunks = sumOfScores (chunks.map Chunk.score) / chunks.length.toFloat32
  := by
  have hsome : (chunks.map Chunk.score).isEmpty = false := by simpa using h
  rw [mean, meanOfScores, hsome, if_neg Bool.false_ne_true, List.length_map]

/-- The product of the scores of the chunks. -/
def product : Scorer Chunk :=
  fun chunks => (chunks.map Chunk.score).foldl (· * ·) 1.0

/-- The number of chunks. -/
def count : Scorer Chunk :=
  fun chunks => chunks.length.toFloat32

end Scorer

/-! ### Tokens -/

/-- The chunk written as `token`. -/
def Chunk.ofToken (token : String) : Except GrammarError Chunk :=
  match Text.cutLast '/' token with
  | none => .ok (ofWord token ∅)
  | some (word, list) =>
    (Grammemes.parse list).map fun tags => if word = "" then ofTags tags else ofWord word tags

/-- A token that is refused, and the cause. -/
structure TokenError where
  token : String
  cause : GrammarError

/-- The wording of the refusal of a token. -/
def TokenError.message (e : TokenError) : String :=
  "token '" ++ e.token ++ "': " ++ e.cause.message

/-- The chunks written in a text, from left to right.  The first token that is refused refuses
the text. -/
def Chunk.ofText (text : String) : Except TokenError (List Chunk) :=
  (Text.words text).mapM fun token => (ofToken token).mapError fun cause => ⟨token, cause⟩

end Chunking
