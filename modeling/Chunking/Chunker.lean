import Chunking.Clock
import Chunking.Grammar

/-!
# Chunkers

A chunker is a grammar together with a cache of the answers to `lookup`.  A lookup first probes
the cache with the key of the window.  When the probe finds no answer, the rules are scanned and
the answer is stored.  A chunker without a cache scans every time, and a window of a length that
is the arity of no rule never reaches the cache.
-/

namespace Chunking

/-- A grammar with a cache for its lookups, unless caching is off. -/
structure Chunker where
  grammar : Grammar
  cache : Option (Clock (List Nat))

/-- The answer to a lookup. -/
structure Found where
  /-- The ids of the rules found, in ascending order. -/
  ids : List Nat
  /-- The number of nodes that were tested for this answer. -/
  tests : Nat
  deriving DecidableEq

namespace Chunker

/-- The number of answers that a chunker keeps unless told otherwise. -/
def defaultCapacity : Nat :=
  10000

/-- The chunker of a grammar, with an empty cache.  Capacity zero turns caching off. -/
def ofGrammar (grammar : Grammar) (capacity : Nat) : Chunker where
  grammar := grammar
  cache := if h : 0 < capacity then some (Clock.empty capacity h) else none

/-- The statistics of the cache, which are zero when caching is off. -/
def stats (c : Chunker) : Clock.Stats :=
  (c.cache.map Clock.stats).getD {}

/-- Drops all stored answers. -/
def clear (c : Chunker) : Chunker :=
  { c with cache := c.cache.map Clock.clear }

variable {ν : Type} [Constituent ν]

/-! ### Lookup -/

/-- The first step of a lookup: the answer that needs no scan, if there is one.  It comes from the
cache, or is empty because no rule has the length of the window. -/
def probe (c : Chunker) (window : List ν) : Option (List Nat) × Chunker :=
  if (c.grammar.bucket window.length).isEmpty then
    (some [], c)
  else
    match c.cache with
    | none => (none, c)
    | some clock =>
      let (answer, clock) := clock.get (windowKey window)
      (answer, { c with cache := some clock })

/-- The second step of a lookup: the answer of a scan is stored. -/
def store (c : Chunker) (window : List ν) : Chunker :=
  { c with
    cache := c.cache.map fun clock => clock.insert (windowKey window) (c.grammar.scan window) }

/-- The rules that fold a whole window. -/
def lookup (c : Chunker) (window : List ν) : Found × Chunker :=
  match c.probe window with
  | (some ids, c) => (⟨ids, 0⟩, c)
  | (none, c) => (⟨c.grammar.scan window, c.grammar.scanTests window⟩, c.store window)

end Chunker

end Chunking
