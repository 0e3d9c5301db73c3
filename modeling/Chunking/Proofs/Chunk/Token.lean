import Chunking.Chunk
import Chunking.Proofs.Grammar.Tokens
import Chunking.Proofs.Text.Cut

/-!
# Tokens and texts of chunks

`Chunk.Denotes` says which chunk a token stands for.  A token is refused exactly when there is an
empty label behind its last slash.  The text of a chunk that has grammemes is a token for the same
chunk.  The text of a chunk without grammemes ends with a slash, so that it is refused.
-/

namespace Chunking

open Text

namespace Chunk

/-- The chunk that a token stands for. -/
inductive Denotes : String → Chunk → Prop where
  /-- A token without a slash is a word. -/
  | bare {token : String} (hslash : '/' ∉ token.toList) : Denotes token (ofWord token ∅)
  /-- A word stands before the last slash, and grammemes behind it. -/
  | word {word list : String} {tags : Grammemes} (hne : word ≠ "") (hslash : '/' ∉ list.toList)
    (hlist : tags.Listed list) : Denotes (word ++ "/" ++ list) (ofWord word tags)
  /-- There are only grammemes behind a slash. -/
  | tags {list : String} {tags : Grammemes} (hslash : '/' ∉ list.toList)
    (hlist : tags.Listed list) : Denotes ("" ++ "/" ++ list) (ofTags tags)

/-- A token with an empty label behind its last slash. -/
def Refused (token : String) : Prop :=
  ∃ word list, word ++ "/" ++ list = token ∧ '/' ∉ list.toList ∧ "" ∈ fields ',' list

/-! ### Tokens -/

theorem slash_mem (word list : String) :
  '/' ∈ (word ++ "/" ++ list).toList
  := by
  simp

/-- A token without a slash is a word, any other one has a last slash. -/
theorem not_mem_or_exists_slash (token : String) :
  '/' ∉ token.toList ∨ ∃ word list, word ++ "/" ++ list = token ∧ '/' ∉ list.toList
  := by
  cases hcut : cutLast '/' token with
  | none =>
    left
    apply cutLast_eq_none_iff.mp hcut
  | some parts =>
    right
    use parts.1, parts.2
    apply cutLast_eq_some_iff.mp hcut

/-- The cut is at the slash behind which there is no other one. -/
theorem cutLast_slash (word : String) {list : String} (h : '/' ∉ list.toList) :
  cutLast '/' (word ++ "/" ++ list) = some (word, list)
  := cutLast_eq_some_iff.mpr ⟨rfl, h⟩

theorem ofToken_of_not_mem {token : String} (h : '/' ∉ token.toList) :
  ofToken token = .ok (ofWord token ∅)
  := by
  rw [ofToken, cutLast_eq_none_iff.mpr h]

theorem ofToken_slash (word : String) {list : String} (h : '/' ∉ list.toList) :
  ofToken (word ++ "/" ++ list)
    = (Grammemes.parse list).map fun tags => if word = "" then ofTags tags else ofWord word tags
  := by
  rw [ofToken, cutLast_slash word h]

/-- A token without blanks is read as the chunk that it denotes. -/
theorem ofToken_eq_ok_iff {token : String} {node : Chunk}
    (hblank : ∀ c ∈ token.toList, isBlank c = false) :
  ofToken token = .ok node ↔ Denotes token node
  := by
  have hlisted {word list : String} (htoken : word ++ "/" ++ list = token) {tags : Grammemes} :
      Grammemes.parse list = .ok tags ↔ tags.Listed list := by
    apply Grammemes.parse_eq_ok_iff_of_not_isBlank
    intro c hc
    apply hblank
    simp [← htoken, hc]
  constructor
  · intro h
    rcases not_mem_or_exists_slash token with hslash | ⟨word, list, rfl, hslash⟩
    · rw [ofToken_of_not_mem hslash] at h
      cases h
      apply Denotes.bare hslash
    · rw [ofToken_slash word hslash, map_eq_ok_iff] at h
      obtain ⟨tags, hparse, rfl⟩ := h
      split
      next hword =>
        rw [hword]
        apply Denotes.tags hslash ((hlisted rfl).mp hparse)
      next hword => apply Denotes.word hword hslash ((hlisted rfl).mp hparse)
  · intro h
    cases h with
    | bare hslash => apply ofToken_of_not_mem hslash
    | word hne hslash hlist =>
      rw [ofToken_slash _ hslash, (hlisted rfl).mpr hlist, Except.map, if_neg hne]
    | tags hslash hlist =>
      rw [ofToken_slash _ hslash, (hlisted rfl).mpr hlist, Except.map, if_pos rfl]

/-- There is one last slash. -/
theorem slash_inj {word word' list list' : String} (h : '/' ∉ list.toList)
    (h' : '/' ∉ list'.toList) (heq : word ++ "/" ++ list = word' ++ "/" ++ list') :
  list = list'
  := by
  have hcut := cutLast_slash word h
  rw [heq, cutLast_slash word' h', Option.some.injEq] at hcut
  apply congrArg Prod.snd hcut.symm

theorem Denotes.not_refused {token : String} {node : Chunk} (h : Denotes token node) :
  ¬Refused token
  := by
  rintro ⟨word', list', heq, hslash', hempty⟩
  cases h with
  | bare hslash =>
    apply hslash
    rw [← heq]
    apply slash_mem
  | word _ hslash hlist =>
    rw [slash_inj hslash' hslash heq] at hempty
    apply hlist.1 "" hempty rfl
  | tags hslash hlist =>
    rw [slash_inj hslash' hslash heq] at hempty
    apply hlist.1 "" hempty rfl

/-- A token stands for a chunk unless there is an empty label behind its last slash. -/
theorem exists_denotes_iff {token : String} :
  (∃ node, Denotes token node) ↔ ¬Refused token
  := by
  constructor
  · rintro ⟨node, hnode⟩
    apply hnode.not_refused
  · intro hrefused
    rcases not_mem_or_exists_slash token with hslash | ⟨word, list, rfl, hslash⟩
    · exact ⟨_, .bare hslash⟩
    · have hlist : (Grammemes.ofList (fields ',' list)).Listed list := by
        constructor
        · rintro label hlabel rfl
          exact hrefused ⟨word, list, rfl, hslash, hlabel⟩
        · intro label
          apply Grammemes.mem_ofList
      by_cases hword : word = ""
      · rw [hword]
        exact ⟨_, .tags hslash hlist⟩
      · exact ⟨_, .word hword hslash hlist⟩

/-! ### Texts of chunks -/

theorem display_ofWord (word : String) (tags : Grammemes) :
  (ofWord word tags).display = word ++ "/" ++ tags.display
  := by
  rw [ofWord, display, Option.getD_some]

theorem display_ofTags (tags : Grammemes) :
  (ofTags tags).display = "" ++ "/" ++ tags.display
  := by
  rw [ofTags, display, Option.getD_none]

section

variable {token : String} {node : Chunk} (h : Denotes token node)
include h

/-- A chunk has grammemes exactly when its token has a slash. -/
theorem Denotes.labels_ne_nil_iff :
  node.tags.labels ≠ [] ↔ '/' ∈ token.toList
  := by
  cases h with
  | bare hslash =>
    constructor
    · intro hne
      exact absurd rfl hne
    · intro hmem
      contradiction
  | word _ _ hlist => exact iff_of_true hlist.labels_ne_nil (slash_mem _ _)
  | tags _ hlist => exact iff_of_true hlist.labels_ne_nil (slash_mem _ _)

/-- A chunk with grammemes is denoted by its text. -/
theorem Denotes.denotes_display (hne : node.tags.labels ≠ []) :
  Denotes node.display node
  := by
  have hslash {list : String} {tags : Grammemes} (hslash : '/' ∉ list.toList)
      (hlist : tags.Listed list) : '/' ∉ tags.display.toList := by
    intro hmem
    rcases hlist.mem_of_mem_display hmem with hcomma | hmem
    · revert hcomma
      decide
    · exact hslash hmem
  cases h with
  | bare _ => exact absurd rfl hne
  | word hword hlast hlist =>
    rw [display_ofWord]
    apply Denotes.word hword (hslash hlast hlist) hlist.display
  | tags hlast hlist =>
    rw [display_ofTags]
    apply Denotes.tags (hslash hlast hlist) hlist.display

/-- The text of a chunk without grammemes is refused. -/
theorem Denotes.refused_display (hnil : node.tags.labels = []) :
  Refused node.display
  := by
  cases h with
  | @bare _ hslash =>
    rw [display_ofWord]
    refine ⟨token, "", rfl, ?_, List.mem_cons_self⟩
    apply List.not_mem_nil
  | word _ _ hlist => exact absurd hnil hlist.labels_ne_nil
  | tags _ hlist => exact absurd hnil hlist.labels_ne_nil

theorem Denotes.display_eq :
  node.display = node.word.getD "" ++ "/" ++ node.tags.display
  := by
  cases h with
  | bare _ => apply display_ofWord
  | word _ _ _ => apply display_ofWord
  | tags _ _ => apply display_ofTags

/-- The characters of the text of a chunk are slashes, commas and characters of its token. -/
theorem Denotes.mem_of_mem_display {c : Char} (hc : c ∈ node.display.toList) :
  c = '/' ∨ c = ',' ∨ c ∈ token.toList
  := by
  rw [h.display_eq, String.toList_append, String.toList_append, List.mem_append,
    List.mem_append] at hc
  rcases hc with (hc | hc) | hc
  · right
    right
    cases h with
    | bare _ => apply hc
    | word _ _ _ =>
      rw [String.append_assoc, String.toList_append]
      apply List.mem_append_left _ hc
    | tags _ _ => cases hc
  · left
    apply List.mem_singleton.mp hc
  · right
    cases h with
    | bare _ => cases hc
    | word _ _ hlist =>
      rw [String.toList_append]
      apply (hlist.mem_of_mem_display hc).imp_right (List.mem_append_right _)
    | tags _ hlist =>
      rw [String.toList_append]
      apply (hlist.mem_of_mem_display hc).imp_right (List.mem_append_right _)

/-- The text of a chunk is a word when its token is. -/
theorem Denotes.isWord_display (htoken : ∀ c ∈ token.toList, isBlank c = false) :
  node.display ≠ "" ∧ ∀ c ∈ node.display.toList, isBlank c = false
  := by
  constructor
  · intro hempty
    have hslash := slash_mem (node.word.getD "") node.tags.display
    rw [← h.display_eq, hempty] at hslash
    cases hslash
  · intro c hc
    rcases h.mem_of_mem_display hc with rfl | rfl | hc
    · decide
    · decide
    · apply htoken c hc

end

/-! ### Texts -/

/-- The texts of several chunks, with single spaces between them. -/
def texts (nodes : List Chunk) : String :=
  String.intercalate " " (nodes.map display)

/-- The chunks of a text are those of its tokens. -/
theorem ofText_eq_ok_iff {text : String} {nodes : List Chunk} :
  ofText text = .ok nodes
    ↔ List.Forall₂ (fun token node => ofToken token = .ok node) (Text.words text) nodes
  := by
  rw [ofText, mapM_eq_ok_iff]
  simp only [mapError_eq_ok_iff]

theorem ofText_eq_ok_iff_denotes {text : String} {nodes : List Chunk} :
  ofText text = .ok nodes ↔ List.Forall₂ Denotes (Text.words text) nodes
  := by
  rw [ofText_eq_ok_iff]
  apply forall₂_congr_of_mem
  intro token htoken node
  apply ofToken_eq_ok_iff (not_isBlank_of_mem_words htoken).2

/-- A text is refused exactly when one of its tokens is. -/
theorem exists_ofText_error_iff {text : String} :
  (∃ error, ofText text = .error error) ↔ ∃ token ∈ Text.words text, Refused token
  := by
  have hok : (∃ nodes, ofText text = .ok nodes) ↔ ∀ token ∈ Text.words text, ¬Refused token := by
    simp only [ofText_eq_ok_iff_denotes, exists_forall₂_iff, exists_denotes_iff]
  have hnot : (∃ error, ofText text = .error error) ↔ ¬∃ nodes, ofText text = .ok nodes := by
    cases ofText text with
    | error error => simp
    | ok nodes => simp
  rw [hnot, hok]
  simp only [not_forall, not_not, exists_prop]

section

variable {text : String} {nodes : List Chunk} (h : List.Forall₂ Denotes (Text.words text) nodes)
include h

/-- The texts of the chunks of a text are the words of the joined text. -/
theorem words_texts :
  Text.words (texts nodes) = nodes.map display
  := by
  apply words_intercalate
  intro part hpart
  obtain ⟨node, hnode, rfl⟩ := List.mem_map.mp hpart
  obtain ⟨token, htoken, hdenotes⟩ := exists_of_forall₂_of_mem h hnode
  apply hdenotes.isWord_display (not_isBlank_of_mem_words htoken).2

/-- All chunks of a text have grammemes exactly when there is a slash in every token. -/
theorem forall_labels_ne_nil_iff :
  (∀ node ∈ nodes, node.tags.labels ≠ []) ↔ ∀ token ∈ Text.words text, '/' ∈ token.toList
  := by
  constructor
  · intro hne token htoken
    obtain ⟨node, hnode, hdenotes⟩ := exists_of_forall₂_of_mem h.flip htoken
    apply hdenotes.labels_ne_nil_iff.mp (hne node hnode)
  · intro hslash node hnode
    obtain ⟨token, htoken, hdenotes⟩ := exists_of_forall₂_of_mem h hnode
    apply hdenotes.labels_ne_nil_iff.mpr (hslash token htoken)

/-- The texts of the chunks of a text are read back when all of them have grammemes. -/
theorem ofText_texts (hne : ∀ node ∈ nodes, node.tags.labels ≠ []) :
  ofText (texts nodes) = .ok nodes
  := by
  rw [ofText_eq_ok_iff_denotes, words_texts h, List.forall₂_map_left_iff, List.forall₂_same]
  intro node hnode
  obtain ⟨token, -, hdenotes⟩ := exists_of_forall₂_of_mem h hnode
  apply hdenotes.denotes_display (hne node hnode)

theorem labels_ne_nil_of_ofText_texts {restored : List Chunk}
    (hrestored : ofText (texts nodes) = .ok restored) :
  ∀ node ∈ nodes, node.tags.labels ≠ []
  := by
  intro node hnode hnil
  obtain ⟨token, -, hdenotes⟩ := exists_of_forall₂_of_mem h hnode
  have herror : ∃ error, ofText (texts nodes) = .error error := by
    rw [exists_ofText_error_iff, words_texts h]
    exact ⟨node.display, List.mem_map_of_mem hnode, hdenotes.refused_display hnil⟩
  obtain ⟨error, herror⟩ := herror
  rw [hrestored] at herror
  cases herror

end

/-- A text is refused exactly when there is an empty label behind the last slash of some token.
Otherwise it has one chunk for each token, in order.  The texts of these chunks, with single spaces
between them, are accepted exactly when every chunk has grammemes, that is when no token is a bare
word, and then they are read as the same chunks. -/
theorem ofText_texts_iff (text : String) :
  ((∃ error, ofText text = .error error)
    ↔ ∃ token ∈ Text.words text, ∃ word list, word ++ "/" ++ list = token
      ∧ '/' ∉ list.toList ∧ "" ∈ fields ',' list)
    ∧ ∀ nodes, ofText text = .ok nodes →
      List.Forall₂ Denotes (Text.words text) nodes
        ∧ ((∃ restored, ofText (texts nodes) = .ok restored)
          ↔ ∀ node ∈ nodes, node.tags.labels ≠ [])
        ∧ ((∀ node ∈ nodes, node.tags.labels ≠ [])
          ↔ ∀ token ∈ Text.words text, '/' ∈ token.toList)
        ∧ ((∀ node ∈ nodes, node.tags.labels ≠ []) → ofText (texts nodes) = .ok nodes)
  := by
  constructor
  · apply exists_ofText_error_iff
  · intro nodes hnodes
    have hdenotes := ofText_eq_ok_iff_denotes.mp hnodes
    constructor
    · apply hdenotes
    constructor
    · constructor
      · rintro ⟨restored, hrestored⟩
        apply labels_ne_nil_of_ofText_texts hdenotes hrestored
      · intro hne
        exact ⟨nodes, ofText_texts hdenotes hne⟩
    constructor
    · apply forall_labels_ne_nil_iff hdenotes
    · apply ofText_texts hdenotes

/-- A word with a slash, grammemes without a word and a repeated label are read back. -/
theorem ofText_texts_of_slashes :
  ∃ nodes, ofText "the/DET /plur,NOUN,plur a/b/X" = .ok nodes
    ∧ texts nodes = "the/DET /NOUN,plur a/b/X"
    ∧ ofText (texts nodes) = .ok nodes
  := by
  have hnodes : ofText "the/DET /plur,NOUN,plur a/b/X" = .ok [ofWord "the" (.ofList ["DET"]),
      ofTags (.ofList ["NOUN", "plur"]), ofWord "a/b" (.ofList ["X"])] := by rfl
  obtain ⟨-, hread⟩ := ofText_texts_iff "the/DET /plur,NOUN,plur a/b/X"
  obtain ⟨-, -, -, hrestored⟩ := hread _ hnodes
  refine ⟨_, hnodes, by decide +kernel, ?_⟩
  apply hrestored
  decide +kernel

end Chunk

end Chunking
