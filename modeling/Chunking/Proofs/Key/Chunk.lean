import Chunking.Chunk
import Chunking.Proofs.Key.Window
import Chunking.Proofs.Text.Quoted

/-!
# Keys of chunks

The key of a chunk is the quoted word, a slash, the quoted grammemes with commas between them, an
at-sign and the name of the policy.  Quoted texts can be told from what follows them, so the key
determines all of these.  It holds no separator and is not empty.  Hence chunks are lawful
constituents, and the key of a window of chunks determines all that patterns can see of them.
-/

namespace Chunking.Chunk

/-! ### Parts of a key -/

/-- The part of a key that names the word. -/
def wordChars (word : Option String) : List Char :=
  (word.map fun text => Text.quotedChars text.toList).getD []

/-- The part of a key that names the grammemes. -/
def labelChars (labels : List String) : List Char :=
  [','].intercalate (labels.map fun label => Text.quotedChars label.toList)

theorem toList_key (chunk : Chunk) :
  chunk.key.toList
    = wordChars chunk.word ++ '/' :: (labelChars chunk.tags.labels
        ++ '@' :: chunk.policy.tag.toList)
  := by
  have hword : ((chunk.word.map Text.quoted).getD "").toList = wordChars chunk.word := by
    cases chunk.word with
    | none => rfl
    | some text => apply Text.toList_quoted
  have hlabels : (String.intercalate "," (chunk.tags.labels.map Text.quoted)).toList
      = labelChars chunk.tags.labels := by
    rw [String.toList_intercalate, List.map_map, labelChars]
    congr 1
    apply List.map_congr_left
    intro label _
    apply Text.toList_quoted
  simp only [key, String.toList_append, hword, hlabels, List.append_assoc]
  rfl

/-- The word is read up to the slash behind it. -/
theorem wordChars_append_inj {word word' : Option String} {cs ds : List Char}
    (h : wordChars word ++ '/' :: cs = wordChars word' ++ '/' :: ds) :
  word = word' ∧ cs = ds
  := by
  cases word with
  | none =>
    cases word' with
    | none => simpa [wordChars] using h
    | some text' => simp [wordChars, Text.quotedChars] at h
  | some text =>
    cases word' with
    | none => simp [wordChars, Text.quotedChars] at h
    | some text' =>
      obtain ⟨htext, htail⟩ := Text.quotedChars_append_inj h
      rw [String.toList_inj.mp htext]
      constructor
      · rfl
      · apply List.tail_eq_of_cons_eq htail

/-- The grammemes after the first one are read up to the at-sign behind them. -/
theorem flatMap_comma_append_inj {labels labels' : List String} {cs ds : List Char}
    (h : (labels.flatMap fun label => ',' :: Text.quotedChars label.toList) ++ '@' :: cs
      = (labels'.flatMap fun label => ',' :: Text.quotedChars label.toList) ++ '@' :: ds) :
  labels = labels' ∧ cs = ds
  := by
  induction labels generalizing labels' with
  | nil =>
    cases labels' with
    | nil => simpa using h
    | cons label' labels' => simp at h
  | cons label labels ih =>
    cases labels' with
    | nil => simp at h
    | cons label' labels' =>
      simp only [List.flatMap_cons, List.cons_append, List.append_assoc, List.cons.injEq,
        true_and] at h
      obtain ⟨hlabel, htail⟩ := Text.quotedChars_append_inj h
      obtain ⟨rfl, rfl⟩ := ih htail
      rw [String.toList_inj.mp hlabel]
      exact ⟨rfl, rfl⟩

theorem labelChars_cons (label : String) (labels : List String) :
  labelChars (label :: labels)
    = Text.quotedChars label.toList
      ++ labels.flatMap fun label => ',' :: Text.quotedChars label.toList
  := by
  induction labels generalizing label with
  | nil => simp [labelChars]
  | cons next labels ih =>
    have hcons := ih next
    rw [labelChars, List.map_cons] at hcons
    rw [labelChars, List.map_cons, List.map_cons, List.intercalate_cons_cons, hcons,
      List.flatMap_cons, List.append_assoc]
    rfl

/-- The grammemes are read up to the at-sign behind them. -/
theorem labelChars_append_inj {labels labels' : List String} {cs ds : List Char}
    (h : labelChars labels ++ '@' :: cs = labelChars labels' ++ '@' :: ds) :
  labels = labels' ∧ cs = ds
  := by
  cases labels with
  | nil =>
    cases labels' with
    | nil => simpa [labelChars] using h
    | cons label' labels' =>
      rw [labelChars_cons] at h
      simp [labelChars, Text.quotedChars] at h
  | cons label labels =>
    cases labels' with
    | nil =>
      rw [labelChars_cons] at h
      simp [labelChars, Text.quotedChars] at h
    | cons label' labels' =>
      rw [labelChars_cons, labelChars_cons, List.append_assoc, List.append_assoc] at h
      obtain ⟨hlabel, htail⟩ := Text.quotedChars_append_inj h
      obtain ⟨rfl, rfl⟩ := flatMap_comma_append_inj htail
      rw [String.toList_inj.mp hlabel]
      exact ⟨rfl, rfl⟩

theorem tag_inj {p q : Policy} (h : p.tag = q.tag) :
  p = q
  := by
  cases p <;> cases q <;> first | rfl | (exact absurd h (by decide))

/-! ### What a key determines -/

/-- The key of a chunk determines its word, its grammemes and its policy, and nothing else. -/
theorem key_eq_iff {a b : Chunk} :
  a.key = b.key ↔ a.word = b.word ∧ a.tags = b.tags ∧ a.policy = b.policy
  := by
  constructor
  · intro h
    have hchars := congrArg String.toList h
    rw [toList_key, toList_key] at hchars
    obtain ⟨hword, hrest⟩ := wordChars_append_inj hchars
    obtain ⟨hlabels, htag⟩ := labelChars_append_inj hrest
    refine ⟨hword, ?_, ?_⟩
    · apply Grammemes.eq_of_labels_eq hlabels
    · apply tag_inj (String.toList_inj.mp htag)
  · rintro ⟨hword, htags, hpolicy⟩
    rw [key, key, hword, htags, hpolicy]

theorem key_ne_empty (chunk : Chunk) :
  chunk.key ≠ ""
  := by
  intro h
  have hchars := congrArg String.toList h
  rw [toList_key] at hchars
  simp at hchars

/-! ### Visibility -/

theorem not_isHidden_of_mem_wordChars {c : Char} {word : Option String} (h : c ∈ wordChars word) :
  Text.isHidden c = false
  := by
  cases word with
  | none => cases h
  | some text => apply Text.not_isHidden_of_mem_quotedChars h

theorem not_isHidden_of_mem_labelChars {c : Char} {labels : List String}
    (h : c ∈ labelChars labels) :
  Text.isHidden c = false
  := by
  cases labels with
  | nil => cases h
  | cons label labels =>
    rw [labelChars_cons, List.mem_append, List.mem_flatMap] at h
    rcases h with h | ⟨next, -, h⟩
    · apply Text.not_isHidden_of_mem_quotedChars h
    · rcases List.mem_cons.mp h with rfl | h
      · apply Text.not_isHidden_of_ascii
        · decide
        · decide
      · apply Text.not_isHidden_of_mem_quotedChars h

/-- A key consists of visible characters. -/
theorem not_isHidden_of_mem_key {c : Char} {chunk : Chunk} (h : c ∈ chunk.key.toList) :
  Text.isHidden c = false
  := by
  have hascii : ∀ p : Policy, ('/' :: '@' :: p.tag.toList).all fun c =>
      0x20 ≤ c.toNat && c.toNat < 0x7F := by
    intro p
    cases p <;> decide
  have hmark (c : Char) (hc : c ∈ '/' :: '@' :: chunk.policy.tag.toList) :
      Text.isHidden c = false := by
    have hrange := List.all_eq_true.mp (hascii chunk.policy) c hc
    simp only [Bool.and_eq_true, decide_eq_true_eq] at hrange
    apply Text.not_isHidden_of_ascii hrange.1 hrange.2
  rw [toList_key, List.mem_append, List.mem_cons, List.mem_append, List.mem_cons] at h
  rcases h with h | rfl | h | rfl | h
  · apply not_isHidden_of_mem_wordChars h
  · apply hmark _ List.mem_cons_self
  · apply not_isHidden_of_mem_labelChars h
  · apply hmark
    simp
  · apply hmark
    simp [h]

theorem separator_not_mem_key (chunk : Chunk) :
  separator ∉ chunk.key.toList
  := by
  intro h
  have hhidden : Text.isHidden separator = true := by
    simp [separator, Text.isHidden, Text.hiddenRanges, Text.covers]
  rw [not_isHidden_of_mem_key h] at hhidden
  cases hhidden

instance : LawfulConstituent Chunk where
  meets_of_key_eq := by
    intro a b h p
    obtain ⟨hword, htags, hpolicy⟩ := key_eq_iff.mp h
    cases p with
    | word text => simp only [Constituent.meets, meets, hword]
    | tags required => simp only [Constituent.meets, meets, htags, hpolicy]
  separator_not_mem_key := separator_not_mem_key

/-! ### Windows of chunks -/

/-- The key of a window of chunks determines exactly its length and, position by position, the
words, grammemes and policies.  No key of a chunk holds the separator, and neither the score nor the
parts of a chunk enter it. -/
theorem windowKey_eq_iff_content :
  (∀ ns ms : List Chunk, windowKey ns = windowKey ms
      ↔ ns.length = ms.length ∧ ∀ (i : Nat) (hn : i < ns.length) (hm : i < ms.length),
          ns[i].word = ms[i].word ∧ ns[i].tags = ms[i].tags ∧ ns[i].policy = ms[i].policy)
    ∧ (∀ chunk : Chunk, separator ∉ chunk.key.toList)
    ∧ ∀ (chunk : Chunk) (score : Float32) (parts : List Chunk),
        key { chunk with score := score, parts := parts } = chunk.key
  := by
  refine ⟨?_, separator_not_mem_key, ?_⟩
  · intro ns ms
    have hkeys : windowKey ns = windowKey ms ↔ ns.map key = ms.map key :=
      windowKey_eq_iff_of_ne_empty key_ne_empty
    rw [hkeys]
    constructor
    · intro h
      use length_eq_of_keys_eq h
      intro i hn hm
      have hi : (ns.map key)[i]? = (ms.map key)[i]? := by rw [h]
      rw [List.getElem?_map, List.getElem?_map, List.getElem?_eq_getElem hn,
        List.getElem?_eq_getElem hm] at hi
      apply key_eq_iff.mp (Option.some.inj hi)
    · rintro ⟨hlength, hcontent⟩
      apply List.ext_getElem
      · simpa using hlength
      · intro i hn hm
        rw [List.length_map] at hn hm
        rw [List.getElem_map, List.getElem_map]
        apply key_eq_iff.mpr (hcontent i hn hm)
  · intro chunk score parts
    rfl

end Chunking.Chunk
