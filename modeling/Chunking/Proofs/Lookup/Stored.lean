import Chunking.Chunker
import Chunking.Proofs.Clock.Contents
import Chunking.Proofs.Grammar.Buckets

/-!
# Stored answers

A chunker answers lookups from its cache when it can.  Whatever it was asked before, every answer
that it stores is the scan of a window that was looked up, and is stored under the key of that
window.  So a lookup is answered by the scan of the window itself, as soon as the windows with the
same key that were looked up have the same scan.
-/

namespace Chunking

variable {ν : Type}

/-- A question to a chunker. -/
inductive Query (ν : Type) where
  /-- Which rules fold a whole window. -/
  | lookup (window : List ν)
  /-- Which rule is the first to fit a sequence. -/
  | first (nodes : List ν)
  /-- No question: the stored answers are dropped. -/
  | clear

/-- The answer of a chunker to a question. -/
inductive Reply where
  | found (ids : List Nat)
  | first (id : Option Nat)
  | cleared
  deriving DecidableEq

namespace Chunker

/-- The answer stored under a key. -/
def stored? (c : Chunker) (key : String) : Option (List Nat) :=
  c.cache.bind fun clock => clock.value? key

/-- A chunker whose cache is in a state that it can reach. -/
def Consistent (c : Chunker) : Prop :=
  ∀ clock ∈ c.cache, clock.Consistent

/-! ### New and cleared chunkers -/

theorem stored?_ofGrammar (g : Grammar) (capacity : Nat) (key : String) :
  (ofGrammar g capacity).stored? key = none
  := by
  rw [stored?, ofGrammar]
  split
  · apply Clock.value?_empty
  · rfl

theorem consistent_ofGrammar (g : Grammar) (capacity : Nat) :
  (ofGrammar g capacity).Consistent
  := by
  intro clock hclock
  simp only [ofGrammar] at hclock
  split at hclock
  · obtain rfl := Option.mem_some.mp hclock
    apply Clock.consistent_empty
  · cases hclock

theorem stored?_clear (c : Chunker) (key : String) :
  c.clear.stored? key = none
  := by
  cases hcache : c.cache with
  | none => simp [stored?, clear, hcache]
  | some clock => simp [stored?, clear, hcache, Clock.value?_clear]

theorem consistent_clear (c : Chunker) :
  c.clear.Consistent
  := by
  intro clock hclock
  obtain ⟨old, -, rfl⟩ := Option.map_eq_some_iff.mp hclock
  apply Clock.consistent_clear

variable [Constituent ν]

/-! ### The steps of a lookup -/

section

variable {c : Chunker} {window : List ν}

/-- No rule has the length of the window: the answer is empty. -/
theorem probe_of_bucket_eq_nil (h : c.grammar.bucket window.length = []) :
  c.probe window = (some [], c)
  := by
  rw [probe, h]
  rfl

/-- Some rule has the length of the window: the answer is the one stored under its key. -/
theorem fst_probe (h : c.grammar.bucket window.length ≠ []) :
  (c.probe window).1 = c.stored? (windowKey window)
  := by
  rw [probe, if_neg (by simpa using h), stored?]
  cases c.cache with
  | none => rfl
  | some clock => exact clock.fst_get (windowKey window)

theorem grammar_probe (c : Chunker) (window : List ν) :
  (c.probe window).2.grammar = c.grammar
  := by
  rw [probe]
  split
  · rfl
  · split
    · rfl
    · rfl

theorem isSome_cache_probe (c : Chunker) (window : List ν) :
  (c.probe window).2.cache.isSome = c.cache.isSome
  := by
  rw [probe]
  split
  · rfl
  · cases hcache : c.cache with
    | none => rw [hcache]
    | some clock => rfl

theorem stored?_probe (c : Chunker) (window : List ν) (key : String) :
  (c.probe window).2.stored? key = c.stored? key
  := by
  rw [probe]
  split
  · rfl
  · cases hcache : c.cache with
    | none => rfl
    | some clock =>
      simp only [stored?, hcache, Option.bind_some]
      apply clock.value?_get

theorem Consistent.probe (h : c.Consistent) (window : List ν) :
  (c.probe window).2.Consistent
  := by
  rw [Chunker.probe]
  split
  · apply h
  · cases hcache : c.cache with
    | none => apply h
    | some clock =>
      intro next hnext
      obtain rfl := Option.mem_some.mp hnext
      apply (h clock hcache).get

theorem Consistent.store (h : c.Consistent) (window : List ν) :
  (c.store window).Consistent
  := by
  intro clock hclock
  obtain ⟨old, hold, rfl⟩ := Option.map_eq_some_iff.mp hclock
  apply (h old hold).insert

/-- After the answer of a scan has been stored, a key has this answer or the one it had before. -/
theorem stored?_of_store (h : c.Consistent) {key : String} {ids : List Nat}
    (hstored : (c.store window).stored? key = some ids) :
  (windowKey window = key ∧ c.grammar.scan window = ids) ∨ c.stored? key = some ids
  := by
  obtain ⟨clock, hclock, hvalue⟩ := Option.bind_eq_some_iff.mp hstored
  obtain ⟨old, hold, rfl⟩ := Option.map_eq_some_iff.mp hclock
  by_cases hkey : key = windowKey window
  · subst hkey
    rw [Clock.value?_insert_self (h old hold)] at hvalue
    left
    exact ⟨rfl, Option.some.inj hvalue⟩
  · right
    rw [stored?, hold, Option.bind_some]
    apply Clock.value?_of_insert_of_ne (h old hold) hkey hvalue

/-- The answer of a scan is found under the key of the window, if there is a cache. -/
theorem stored?_store_self (h : c.Consistent) (hcache : c.cache.isSome) (window : List ν) :
  (c.store window).stored? (windowKey window) = some (c.grammar.scan window)
  := by
  obtain ⟨clock, hclock⟩ := Option.isSome_iff_exists.mp hcache
  simp only [store, stored?, hclock, Option.map_some, Option.bind_some]
  apply Clock.value?_insert_self (h clock hclock)

/-! ### Lookups -/

theorem lookup_of_bucket_eq_nil (h : c.grammar.bucket window.length = []) :
  c.lookup window = (⟨[], 0⟩, c)
  := by
  rw [lookup, probe_of_bucket_eq_nil h]

theorem lookup_of_stored (h : c.grammar.bucket window.length ≠ []) {ids : List Nat}
    (hstored : c.stored? (windowKey window) = some ids) :
  c.lookup window = (⟨ids, 0⟩, (c.probe window).2)
  := by
  have hprobe := fst_probe h
  rw [hstored] at hprobe
  rw [lookup]
  split
  next found next heq =>
    rw [heq] at hprobe ⊢
    obtain rfl := Option.some.inj hprobe
    rfl
  next next heq =>
    rw [heq] at hprobe
    cases hprobe

theorem lookup_of_not_stored (h : c.grammar.bucket window.length ≠ [])
    (hstored : c.stored? (windowKey window) = none) :
  c.lookup window
    = (⟨c.grammar.scan window, c.grammar.scanTests window⟩, (c.probe window).2.store window)
  := by
  have hprobe := fst_probe h
  rw [hstored] at hprobe
  rw [lookup]
  split
  next found next heq =>
    rw [heq] at hprobe
    cases hprobe
  next next heq =>
    have hgrammar := grammar_probe c window
    rw [heq] at hgrammar ⊢
    rw [hgrammar]

end

/-! ### What is stored -/

/-- Windows that may share a stored answer: if there are rules for both and they have the same key,
they have the same scan. -/
def MayShare (g : Grammar) (ns ms : List ν) : Prop :=
  g.bucket ns.length ≠ [] → g.bucket ms.length ≠ [] → windowKey ns = windowKey ms →
    g.scan ns = g.scan ms

/-- A chunker of a grammar in which every stored answer is the scan of a window of a class, for
which there are rules, and is stored under the key of this window. -/
structure Records (c : Chunker) (g : Grammar) (looked : List ν → Prop) : Prop where
  grammar_eq : c.grammar = g
  consistent : c.Consistent
  exists_of_stored {key : String} {ids : List Nat} (h : c.stored? key = some ids) :
    ∃ window, looked window ∧ g.bucket window.length ≠ [] ∧ windowKey window = key
      ∧ g.scan window = ids

theorem records_ofGrammar (g : Grammar) (capacity : Nat) (looked : List ν → Prop) :
  (ofGrammar g capacity).Records g looked
  := by
  constructor
  · rfl
  · apply consistent_ofGrammar
  · intro key ids h
    rw [stored?_ofGrammar] at h
    cases h

section

variable {c : Chunker} {g : Grammar} {looked : List ν → Prop} (h : c.Records g looked)
include h

theorem Records.clear :
  c.clear.Records g looked
  := by
  constructor
  · apply h.grammar_eq
  · apply consistent_clear
  · intro key ids hstored
    rw [stored?_clear] at hstored
    cases hstored

theorem Records.probe (window : List ν) :
  (c.probe window).2.Records g looked
  := by
  constructor
  · rw [grammar_probe, h.grammar_eq]
  · apply h.consistent.probe
  · intro key ids hstored
    rw [stored?_probe] at hstored
    apply h.exists_of_stored hstored

theorem Records.store {window : List ν} (hlooked : looked window)
    (hbucket : g.bucket window.length ≠ []) :
  (c.store window).Records g looked
  := by
  constructor
  · apply h.grammar_eq
  · apply h.consistent.store
  · intro key ids hstored
    rcases stored?_of_store h.consistent hstored with ⟨hkey, hscan⟩ | hstored
    · rw [h.grammar_eq] at hscan
      exact ⟨window, hlooked, hbucket, hkey, hscan⟩
    · apply h.exists_of_stored hstored

theorem Records.lookup {window : List ν} (hlooked : looked window) :
  (c.lookup window).2.Records g looked
  := by
  by_cases hbucket : c.grammar.bucket window.length = []
  · rw [lookup_of_bucket_eq_nil hbucket]
    apply h
  · cases hstored : c.stored? (windowKey window) with
    | some ids =>
      rw [lookup_of_stored hbucket hstored]
      apply h.probe
    | none =>
      rw [lookup_of_not_stored hbucket hstored]
      rw [h.grammar_eq] at hbucket
      apply (h.probe window).store hlooked hbucket

/-- What is stored under the key of a window is its scan, when all windows of the class may share
their answers with it. -/
theorem Records.eq_scan_of_stored {window : List ν}
    (hshare : ∀ other, looked other → MayShare g other window)
    (hbucket : g.bucket window.length ≠ []) {ids : List Nat}
    (hstored : c.stored? (windowKey window) = some ids) :
  ids = g.scan window
  := by
  obtain ⟨other, hother, hne, hkey, rfl⟩ := h.exists_of_stored hstored
  apply hshare other hother hne hbucket hkey

/-- A lookup is answered by the scan of the window, when all windows of the class may share their
answers with it. -/
theorem Records.ids_lookup {window : List ν}
    (hshare : ∀ other, looked other → MayShare g other window) :
  (c.lookup window).1.ids = g.scan window
  := by
  have hgrammar := h.grammar_eq
  by_cases hbucket : c.grammar.bucket window.length = []
  · rw [lookup_of_bucket_eq_nil hbucket, Grammar.scan, ← hgrammar, hbucket]
    rfl
  · cases hstored : c.stored? (windowKey window) with
    | some ids =>
      rw [lookup_of_stored hbucket hstored]
      rw [hgrammar] at hbucket
      apply h.eq_scan_of_stored hshare hbucket hstored
    | none => rw [lookup_of_not_stored hbucket hstored, hgrammar]

end

/-! ### Questions one after another -/

/-- The answer to a question, and the chunker after it. -/
def serve (c : Chunker) : Query ν → Reply × Chunker
  | .lookup window =>
    let (found, next) := c.lookup window
    (.found found.ids, next)
  | .first nodes => (.first (c.grammar.first? nodes), c)
  | .clear => (.cleared, c.clear)

/-- A question keeps the records right, if it is not a lookup of a window outside the class. -/
theorem Records.serve {c : Chunker} {g : Grammar} {looked : List ν → Prop}
    (h : c.Records g looked) {query : Query ν}
    (hlooked : ∀ window, query = .lookup window → looked window) :
  (c.serve query).2.Records g looked
  := by
  cases query with
  | lookup window => apply h.lookup (hlooked window rfl)
  | first nodes => apply h
  | clear => apply h.clear

/-- After any questions the cache records scans of windows that were looked up. -/
theorem records_run (g : Grammar) (capacity : Nat) (queries : List (Query ν)) :
  (run serve (ofGrammar g capacity) queries).2.Records g
    fun window => Query.lookup window ∈ queries
  := by
  apply run_invariant (P := fun c : Chunker => c.Records g fun w => Query.lookup w ∈ queries)
  · intro query hquery c hc
    apply hc.serve
    rintro window rfl
    apply hquery
  · apply records_ofGrammar

/-- The chunker of a grammar after some questions. -/
def after (g : Grammar) (capacity : Nat) (queries : List (Query ν)) : Chunker :=
  (run serve (ofGrammar g capacity) queries).2

theorem after_append (g : Grammar) (capacity : Nat) (queries others : List (Query ν)) :
  after g capacity (queries ++ others) = (run serve (after g capacity queries) others).2
  := snd_run_append serve (ofGrammar g capacity) queries others

theorem grammar_after (g : Grammar) (capacity : Nat) (queries : List (Query ν)) :
  (after g capacity queries).grammar = g
  := (records_run g capacity queries).grammar_eq

end Chunker

end Chunking
