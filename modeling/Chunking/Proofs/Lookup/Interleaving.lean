import Chunking.Proofs.Lookup.Ledger
import Chunking.Proofs.Lookup.Transparency

/-!
# Interleaved lookups

Several lookups share a chunker and take their steps in any order: a lookup first probes the cache,
and when it finds no answer there, it stores that of a scan at some later moment.  In between other
lookups may have stored an answer under the same key, answers may have been evicted and all of them
dropped.  Every lookup returns the scan of its own window nevertheless, since whatever is stored
under the key of a window is the scan of this window.
-/

namespace Chunking

/-- A lookup that takes its steps one at a time. -/
inductive Task (ν : Type) where
  | waiting (window : List ν)
  /-- The probe has found no answer, and the one of a scan is yet to be stored. -/
  | pending (window : List ν)
  | returned (window : List ν) (ids : List Nat)

/-- What happens to a chunker that is shared by lookups. -/
inductive Event where
  /-- The lookup of the given number takes its next step. -/
  | advance (i : Nat)
  | clear
  deriving DecidableEq

/-- A chunker with the lookups that share it. -/
structure Session (ν : Type) where
  chunker : Chunker
  tasks : List (Task ν)

namespace Task

variable {ν : Type}

/-- The window that is looked up. -/
def window : Task ν → List ν
  | waiting window => window
  | pending window => window
  | returned window _ => window

def isPending : Task ν → Bool
  | pending _ => true
  | _ => false

/-- The number of steps that a lookup has behind it at least, and two when it has returned. -/
def stage : Task ν → Nat
  | waiting _ => 0
  | pending _ => 1
  | returned _ _ => 2

variable [Constituent ν]

/-- The next step of a lookup, and the chunker after it. -/
def advance (c : Chunker) : Task ν → Task ν × Chunker
  | waiting window =>
    match c.probe window with
    | (some ids, c) => (returned window ids, c)
    | (none, c) => (pending window, c)
  | pending window => (returned window (c.grammar.scan window), c.store window)
  | returned window ids => (returned window ids, c)

/-- A lookup returns at once if its probe gives an answer. -/
theorem advance_waiting (c : Chunker) (window : List ν) :
  (waiting window).advance c
    = ((match (c.probe window).1 with
        | some ids => returned window ids
        | none => pending window),
      (c.probe window).2)
  := by
  rw [advance]
  rcases c.probe window with ⟨_ | ids, next⟩
  · rfl
  · rfl

/-- The two steps of a lookup one after the other are the lookup as a whole. -/
theorem advance_advance (c : Chunker) (window : List ν) :
  (((waiting window).advance c).1.advance ((waiting window).advance c).2)
    = (returned window (c.lookup window).1.ids, (c.lookup window).2)
  := by
  rw [advance, Chunker.lookup]
  rcases c.probe window with ⟨_ | ids, next⟩
  · rfl
  · rfl

theorem window_advance (c : Chunker) (task : Task ν) :
  (task.advance c).1.window = task.window
  := by
  cases task with
  | waiting window =>
    rw [advance]
    rcases c.probe window with ⟨_ | ids, next⟩
    · rfl
    · rfl
  | pending window => rfl
  | returned window ids => rfl

/-- A step brings a lookup nearer to its return. -/
theorem stage_advance (c : Chunker) (task : Task ν) :
  min 2 (task.stage + 1) ≤ (task.advance c).1.stage
  := by
  cases task with
  | waiting window =>
    rw [advance]
    rcases c.probe window with ⟨_ | ids, next⟩
    · simp [stage]
    · simp [stage]
  | pending window => simp [stage, advance]
  | returned window ids => simp [stage, advance]

/-- A lookup that has returned nothing but the scan of its window, and is pending only if there are
rules for its window. -/
def Sound (g : Grammar) : Task ν → Prop
  | waiting _ => True
  | pending window => g.bucket window.length ≠ []
  | returned window ids => ids = g.scan window

/-! ### One step -/

/-- What a step of a lookup does. -/
structure Advanced (g : Grammar) (c : Chunker) (task : Task ν) (next : Task ν × Chunker) :
    Prop where
  records : next.2.Records g fun _ : List ν => True
  cached : next.2.Cached g
  sound : next.1.Sound g
  /-- What was missed is inserted or is about to be. -/
  insertions_eq :
    next.2.stats.insertions + (if next.1.isPending then 1 else 0) + c.stats.misses
      = c.stats.insertions + (if task.isPending then 1 else 0) + next.2.stats.misses

section

variable {c : Chunker} {g : Grammar} {window : List ν}

theorem advance_of_bucket_eq_nil (h : c.grammar.bucket window.length = []) :
  (waiting window).advance c = (returned window [], c)
  := by
  rw [advance, Chunker.probe_of_bucket_eq_nil h]

theorem advance_of_stored (h : c.grammar.bucket window.length ≠ []) {ids : List Nat}
    (hstored : c.stored? (windowKey window) = some ids) :
  (waiting window).advance c = (returned window ids, (c.probe window).2)
  := by
  rw [advance_waiting, Chunker.fst_probe h, hstored]

theorem advance_of_not_stored (h : c.grammar.bucket window.length ≠ [])
    (hstored : c.stored? (windowKey window) = none) :
  (waiting window).advance c = (pending window, (c.probe window).2)
  := by
  rw [advance_waiting, Chunker.fst_probe h, hstored]

variable (hcached : c.Cached g) (hrecords : c.Records g fun _ : List ν => True)
include hcached hrecords

theorem advanced_waiting (hshare : ∀ other : List ν, Chunker.MayShare g other window) :
  Advanced g c (waiting window) ((waiting window).advance c)
  := by
  have hgrammar := hcached.grammar_eq
  by_cases hbucket : g.bucket window.length = []
  · rw [advance_of_bucket_eq_nil (by rw [hgrammar, hbucket])]
    constructor
    · apply hrecords
    · apply hcached
    · rw [Sound, Grammar.scan, hbucket]
      rfl
    · rfl
  · have hbucket' : c.grammar.bucket window.length ≠ [] := by rwa [hgrammar]
    have hstats := hcached.stats_probe hbucket
    cases hstored : c.stored? (windowKey window) with
    | some ids =>
      rw [advance_of_stored hbucket' hstored]
      rw [hstored, Option.isSome_some, if_pos rfl] at hstats
      constructor
      · apply hrecords.probe
      · apply hcached.probe
      · apply hrecords.eq_scan_of_stored (fun other _ => hshare other) hbucket hstored
      · simp [hstats, isPending]
    | none =>
      rw [advance_of_not_stored hbucket' hstored]
      rw [hstored, Option.isSome_none, if_neg Bool.false_ne_true] at hstats
      constructor
      · apply hrecords.probe
      · apply hcached.probe
      · apply hbucket
      · simp [hstats, isPending]
        omega

theorem advanced_pending (hbucket : g.bucket window.length ≠ []) :
  Advanced g c (pending window) ((pending window).advance c)
  := by
  constructor
  · apply hrecords.store trivial hbucket
  · apply hcached.store
  · rw [← hcached.grammar_eq]
    rfl
  · rw [advance, hcached.stats_store]
    split
    next => simp [isPending]
    next =>
      split
      next => simp [isPending]
      next => simp [isPending]

theorem advanced_returned {ids : List Nat} (h : (returned window ids).Sound g) :
  Advanced g c (returned window ids) ((returned window ids).advance c)
  := by
  constructor
  · apply hrecords
  · apply hcached
  · apply h
  · rfl

/-- A step of a lookup keeps what is known of the lookup and of the chunker. -/
theorem Sound.advanced {task : Task ν} (h : task.Sound g)
    (hshare : ∀ ns ms : List ν, Chunker.MayShare g ns ms) :
  Advanced g c task (task.advance c)
  := by
  cases task with
  | waiting window =>
    apply advanced_waiting hcached hrecords
    intro other
    apply hshare
  | pending window => apply advanced_pending hcached hrecords h
  | returned window ids => apply advanced_returned hcached hrecords h

end

end Task

namespace Session

variable {ν : Type} [Constituent ν]

/-- The lookups of some windows before they begin, and a new chunker. -/
def start (g : Grammar) (capacity : Nat) (windows : List (List ν)) : Session ν :=
  ⟨.ofGrammar g capacity, windows.map .waiting⟩

/-- The session after an event.  A lookup that has returned takes no more steps. -/
def step (s : Session ν) : Event → Session ν
  | .advance i =>
    match s.tasks[i]? with
    | some task =>
      let (next, c) := task.advance s.chunker
      ⟨c, s.tasks.set i next⟩
    | none => s
  | .clear => { s with chunker := s.chunker.clear }

/-- The session after several events. -/
def after (g : Grammar) (capacity : Nat) (windows : List (List ν)) (events : List Event) :
    Session ν :=
  events.foldl step (start g capacity windows)

theorem after_concat (g : Grammar) (capacity : Nat) (windows : List (List ν)) (events : List Event)
    (event : Event) :
  after g capacity windows (events ++ [event]) = (after g capacity windows events).step event
  := by
  rw [after, List.foldl_concat, after]

/-! ### What every event keeps -/

/-- A session of lookups of some windows in which all is right. -/
structure Sound (g : Grammar) (windows : List (List ν)) (s : Session ν) : Prop where
  records : s.chunker.Records g fun _ : List ν => True
  cached : s.chunker.Cached g
  windows_eq : s.tasks.map Task.window = windows
  sound {task : Task ν} (h : task ∈ s.tasks) : task.Sound g
  /-- What was missed was inserted or is about to be. -/
  insertions_eq :
    s.chunker.stats.insertions + s.tasks.countP Task.isPending = s.chunker.stats.misses

theorem sound_start (g : Grammar) {capacity : Nat} (h : 0 < capacity) (windows : List (List ν)) :
  (start g capacity windows).Sound g windows
  := by
  constructor
  · apply Chunker.records_ofGrammar
  · apply Chunker.cached_ofGrammar g h
  · simp [start, Function.comp_def, Task.window]
  · intro task htask
    obtain ⟨window, -, rfl⟩ := List.mem_map.mp htask
    trivial
  · simp [start, Chunker.stats_ofGrammar g h, List.countP_map, Function.comp_def, Task.isPending]

section

variable {g : Grammar} {windows : List (List ν)} {s : Session ν} (h : s.Sound g windows)
include h

theorem Sound.clear :
  (s.step .clear).Sound g windows
  := by
  constructor
  · apply h.records.clear
  · apply h.cached.clear
  · apply h.windows_eq
  · intro task
    apply h.sound
  · rw [step, h.cached.stats_clear]
    apply h.insertions_eq

theorem Sound.advance (hshare : ∀ ns ms : List ν, Chunker.MayShare g ns ms) (i : Nat) :
  (s.step (.advance i)).Sound g windows
  := by
  rw [step]
  cases htask : s.tasks[i]? with
  | none => apply h
  | some task =>
    have hmem := List.mem_of_getElem? htask
    obtain ⟨hi, rfl⟩ := List.getElem?_eq_some_iff.mp htask
    have hadvanced := (h.sound hmem).advanced h.cached h.records hshare
    constructor
    · apply hadvanced.records
    · apply hadvanced.cached
    · rw [List.map_set, Task.window_advance, ← List.map_set, List.set_getElem_self hi, h.windows_eq]
    · intro other hother
      rcases List.mem_or_eq_of_mem_set hother with hother | rfl
      · apply h.sound hother
      · apply hadvanced.sound
    · have hbalance := hadvanced.insertions_eq
      have hinsertions := h.insertions_eq
      have hcounted : (if s.tasks[i].isPending then 1 else 0) ≤ s.tasks.countP Task.isPending := by
        split
        next hpending => apply List.countP_pos_iff.mpr ⟨_, hmem, hpending⟩
        next => apply Nat.zero_le
      rw [List.countP_set hi]
      dsimp only
      omega

end

/-- After any events all is right. -/
theorem sound_after {g : Grammar} {capacity : Nat} (h : 0 < capacity)
    (hshare : ∀ ns ms : List ν, Chunker.MayShare g ns ms) (windows : List (List ν))
    (events : List Event) :
  (after g capacity windows events).Sound g windows
  := by
  apply List.foldlRecOn events step (sound_start g h windows)
  intro s hs event _
  cases event with
  | advance i => apply hs.advance hshare
  | clear => apply hs.clear

/-! ### Returns -/

/-- An event changes the lookup that takes a step, and no other. -/
theorem getElem?_tasks_advance (s : Session ν) (i j : Nat) :
  (s.step (.advance i)).tasks[j]?
    = if i = j then s.tasks[j]?.map fun task => (task.advance s.chunker).1 else s.tasks[j]?
  := by
  cases htask : s.tasks[i]? with
  | none =>
    simp only [step, htask]
    split
    next heq =>
      obtain rfl := heq
      rw [htask]
      rfl
    next => rfl
  | some task =>
    simp only [step, htask]
    obtain ⟨hi, -⟩ := List.getElem?_eq_some_iff.mp htask
    rw [List.getElem?_set, if_pos hi]
    split
    next heq =>
      obtain rfl := heq
      rw [htask, Option.map_some]
    next => rfl

/-- A lookup has as many steps behind it as it was given, unless it has returned. -/
theorem stage_after (g : Grammar) (capacity : Nat) (windows : List (List ν)) (events : List Event)
    {i : Nat} {task : Task ν} (htask : (after g capacity windows events).tasks[i]? = some task) :
  min 2 (events.count (.advance i)) ≤ task.stage
  := by
  induction events using List.reverseRecOn generalizing task with
  | nil => apply Nat.zero_le
  | append_singleton events event ih =>
    rw [after_concat] at htask
    rw [List.count_append, List.count_singleton]
    cases event with
    | clear => apply ih htask
    | advance j =>
      rw [getElem?_tasks_advance] at htask
      split at htask
      next heq =>
        obtain ⟨old, hold, rfl⟩ := Option.map_eq_some_iff.mp htask
        have hstage := old.stage_advance (after g capacity windows events).chunker
        have hbefore := ih hold
        rw [heq, beq_self_eq_true, if_pos rfl]
        omega
      next hne =>
        have hcount : (Event.advance j == Event.advance i) = false := by simp [hne]
        rw [hcount]
        apply ih htask

/-! ### Correctness -/

/-- A session of lookups of some windows after some events, in which every lookup is answered
rightly. -/
structure Correct (g : Grammar) (windows : List (List ν)) (events : List Event) (s : Session ν) :
    Prop where
  windows_eq : s.tasks.map Task.window = windows
  ids_eq {window : List ν} {ids : List Nat} (h : .returned window ids ∈ s.tasks) :
    ids = g.scan window
  /-- A lookup returns when it has taken two steps. -/
  returned {i : Nat} {window : List ν} (hwindow : windows[i]? = some window)
    (hcount : 2 ≤ events.count (.advance i)) :
    s.tasks[i]? = some (.returned window (g.scan window))
  /-- What is present under the key of an answer that is yet to be stored is this answer. -/
  stored?_store {window : List ν} (hpending : .pending window ∈ s.tasks) {ids : List Nat}
    (hstored : s.chunker.stored? (windowKey window) = some ids) :
    ids = g.scan window ∧ (s.chunker.store window).stored? (windowKey window) = some ids
  insertions_eq (hnone : ∀ window, .pending window ∉ s.tasks) :
    s.chunker.stats.insertions = s.chunker.stats.misses

theorem correct_after {g : Grammar} {capacity : Nat} (h : 0 < capacity)
    (hshare : ∀ ns ms : List ν, Chunker.MayShare g ns ms) (windows : List (List ν))
    (events : List Event) :
  (after g capacity windows events).Correct g windows events
  := by
  have hsound := sound_after h hshare windows events
  constructor
  · apply hsound.windows_eq
  · intro window ids hreturned
    apply hsound.sound hreturned
  · intro i window hwindow hcount
    rw [← hsound.windows_eq, List.getElem?_map, Option.map_eq_some_iff] at hwindow
    obtain ⟨task, htask, rfl⟩ := hwindow
    have hstage := stage_after g capacity windows events htask
    have hids := hsound.sound (List.mem_of_getElem? htask)
    cases task with
    | waiting window =>
      rw [Task.stage] at hstage
      omega
    | pending window =>
      rw [Task.stage] at hstage
      omega
    | returned window ids =>
      rw [htask, Task.window, ← hids]
  · intro window hpending ids hstored
    obtain rfl := hsound.records.eq_scan_of_stored (fun other _ => hshare other window)
      (hsound.sound hpending) hstored
    constructor
    · rfl
    · rw [Chunker.stored?_store_self hsound.records.consistent hsound.cached.isSome_cache,
        hsound.records.grammar_eq]
  · intro hnone
    have hcount : (after g capacity windows events).tasks.countP Task.isPending = 0 := by
      apply List.countP_eq_zero.mpr
      intro task htask hpending
      cases task with
      | waiting window => cases hpending
      | pending window => apply hnone window htask
      | returned window ids => cases hpending
    have hinsertions := hsound.insertions_eq
    rwa [hcount, Nat.add_zero] at hinsertions

/-- Lookups of chunks that share a chunker are answered by the scans of their own windows, in
whatever order they take their steps and the stored answers are dropped.  An answer that is stored
where there is one already is equal to it, and as soon as no answer is yet to be stored, as many
were stored as were missed. -/
theorem correct_after_chunks (g : Grammar) (capacity : Nat) (h : 0 < capacity)
    (windows : List (List Chunk)) (events : List Event) :
  (after g capacity windows events).Correct g windows events
  := correct_after h (Chunker.mayShare_chunks g) windows events

/-- Two lookups of one window both miss.  The second one to store its answer finds its key present,
unless all answers are dropped before. -/
theorem correct_after_equal_windows :
  let g := Grammar.grown [{ left := "X", right := "N" }]
  let noun := Chunk.ofTags (Grammemes.ofList ["N"])
  let s := after g 1 [[noun], [noun]] [.advance 0, .advance 1, .advance 0]
  0 < 1
    ∧ s.chunker.stats.misses = 2 ∧ s.chunker.stats.insertions = 1
    ∧ s.chunker.stored? (windowKey [noun]) = some [0]
    ∧ (s.chunker.store [noun]).stored? (windowKey [noun]) = some [0]
    ∧ (after g 1 [[noun], [noun]]
        [.advance 0, .advance 1, .advance 0, .clear, .advance 1]).tasks[1]?
      = some (.returned [noun] (g.scan [noun]))
  := by
  intro g noun s
  have hone : s.tasks[1]? = some (.pending [noun]) := rfl
  have hstored : s.chunker.stored? (windowKey [noun]) = some [0] := by decide +kernel
  have hcorrect := correct_after_chunks g 1 (by decide) [[noun], [noun]]
    [.advance 0, .advance 1, .advance 0]
  have hcleared := correct_after_chunks g 1 (by decide) [[noun], [noun]]
    [.advance 0, .advance 1, .advance 0, .clear, .advance 1]
  constructor
  · decide
  constructor
  · decide +kernel
  constructor
  · decide +kernel
  constructor
  · apply hstored
  constructor
  · apply (hcorrect.stored?_store (List.mem_of_getElem? hone) hstored).2
  · apply hcleared.returned rfl (by decide)

end Session

end Chunking
