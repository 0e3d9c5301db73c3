import Chunking.Proofs.Grammar.Arity
import Chunking.Proofs.Grammar.Productions

/-!
# Faults of productions

A production that is refused is refused for its first fault.  The weight comes before the left-hand
side, and the left-hand side before the right-hand side.  In the right-hand side the first token
that denotes no pattern counts, from left to right through all alternatives, whatever follows it.
-/

namespace Chunking

open Text

/-! ### Tokens -/

namespace Pattern

/-- What is at fault with a token of an alternative that denotes no pattern. -/
inductive Fault (alternative token : String) : GrammarError → Prop where
  /-- There is a quote at an end, and the token is not a text between two equal quotes. -/
  | unbalancedQuote (hquoted : Quoted token.toList)
    (hpair : ∀ quote text, isQuote quote → token.toList ≠ quote :: (text ++ [quote])) :
    Fault alternative token (.unbalancedQuote token alternative)
  /-- The token is a pair of equal quotes. -/
  | emptyLiteral {quote : Char} (hquote : isQuote quote) (htoken : token.toList = [quote, quote]) :
    Fault alternative token (.emptyLiteral alternative)
  /-- There is no quote at an end, and a label is missing. -/
  | emptyGrammeme (hquoted : ¬Quoted token.toList) (hlabel : "" ∈ fields ',' token) :
    Fault alternative token (.emptyGrammeme token)

theorem interior?_eq_none_iff {token : List Char} :
  interior? token = none ↔ ∀ quote text, isQuote quote → token ≠ quote :: (text ++ [quote])
  := by
  rw [Option.eq_none_iff_forall_ne_some]
  simp only [ne_eq, interior?_eq_some_iff, not_exists, not_and]
  apply forall_comm

variable {alternative token : String}

/-- A text with an interior has quotes at its ends. -/
theorem quoted_of_interior? {token text : List Char} (h : interior? token = some text) :
  Quoted token
  := by
  obtain ⟨quote, hquote, rfl⟩ := interior?_eq_some_iff.mp h
  exact ⟨quote, hquote, Or.inl rfl⟩

/-- A token without blanks is refused for what is at fault with it. -/
theorem ofToken_eq_error_iff {cause : GrammarError}
    (hblank : ∀ c ∈ token.toList, isBlank c = false) :
  ofToken alternative token = .error cause ↔ Fault alternative token cause
  := by
  constructor
  · intro h
    rw [ofToken] at h
    split at h
    next hquoted =>
      rw [touchesQuote_iff] at hquoted
      split at h
      next hnone =>
        cases h
        apply Fault.unbalancedQuote hquoted (interior?_eq_none_iff.mp hnone)
      next hempty =>
        cases h
        obtain ⟨quote, hquote, htoken⟩ := interior?_eq_some_iff.mp hempty
        apply Fault.emptyLiteral hquote htoken
      next => cases h
    next hquoted =>
      rw [touchesQuote_iff] at hquoted
      rw [map_eq_error_iff, Grammemes.parse_eq_error_iff_of_not_isBlank hblank] at h
      obtain ⟨hlabel, rfl⟩ := h
      apply Fault.emptyGrammeme hquoted hlabel
  · intro hfault
    rw [ofToken]
    cases hfault with
    | unbalancedQuote hquoted hpair =>
      rw [if_pos (touchesQuote_iff.mpr hquoted), interior?_eq_none_iff.mpr hpair]
    | @emptyLiteral quote hquote htoken =>
      have hinterior : interior? token.toList = some [] :=
        interior?_eq_some_iff.mpr ⟨quote, hquote, htoken⟩
      rw [if_pos (touchesQuote_iff.mpr (quoted_of_interior? hinterior)), hinterior]
    | emptyGrammeme hquoted hlabel =>
      rw [if_neg (mt touchesQuote_iff.mp hquoted), map_eq_error_iff,
        Grammemes.parse_eq_error_iff_of_not_isBlank hblank]
      exact ⟨hlabel, rfl⟩

theorem exists_ofToken_iff (hblank : ∀ c ∈ token.toList, isBlank c = false) :
  (∃ p, ofToken alternative token = .ok p) ↔ WellFormed token
  := by
  simp only [ofToken_eq_ok_iff hblank, exists_denotes_iff]

/-- There is nothing at fault with a well-formed token. -/
theorem Fault.not_wellFormed {cause : GrammarError} (h : Fault alternative token cause)
    (hblank : ∀ c ∈ token.toList, isBlank c = false) :
  ¬WellFormed token
  := by
  intro hformed
  obtain ⟨p, hp⟩ : ∃ p, ofToken alternative token = .ok p := (exists_ofToken_iff hblank).mpr hformed
  rw [(ofToken_eq_error_iff hblank).mpr h] at hp
  cases hp

end Pattern

/-! ### Right-hand sides -/

namespace Production

/-- The first token of a right-hand side that is not well formed, with its alternative: the tokens
of the pieces before this one are well formed, and so are the tokens before it in its piece. -/
inductive FirstIllFormed (right : String) : (alternative token : String) → Prop where
  | intro {earlier later : List String} {piece token : String} {front rest : List String}
    (hpieces : fields '|' right = earlier ++ piece :: later)
    (hearlier : ∀ other ∈ earlier, ∀ token ∈ words other, Pattern.WellFormed token)
    (htokens : words piece = front ++ token :: rest)
    (hfront : ∀ other ∈ front, Pattern.WellFormed other)
    (htoken : ¬Pattern.WellFormed token) :
    FirstIllFormed right (trim piece) token

/-- The fault for which a production is refused. -/
inductive FirstFault (p : Production) : GrammarError → Prop where
  | invalidWeight (hweight : ¬p.weight.isFinite) : FirstFault p (.invalidWeight p.weight)
  | emptyLeft (hweight : p.weight.isFinite) (hleft : isAllBlank p.left) : FirstFault p .emptyLeft
  | emptyGrammeme (hweight : p.weight.isFinite) (hleft : ¬isAllBlank p.left)
    (hpart : ∃ part ∈ fields ',' (trim p.left), isAllBlank part) :
    FirstFault p (.emptyGrammeme (trim p.left))
  | noAlternatives (hweight : p.weight.isFinite)
    (hleft : ∀ part ∈ fields ',' (trim p.left), ¬isAllBlank part) (hbar : '|' ∈ p.right.toList)
    (hblank : ∀ piece ∈ fields '|' p.right, isAllBlank piece) :
    FirstFault p (.noAlternatives p.right)
  | token {alternative token : String} {cause : GrammarError} (hweight : p.weight.isFinite)
    (hleft : ∀ part ∈ fields ',' (trim p.left), ¬isAllBlank part)
    (hfirst : FirstIllFormed p.right alternative token)
    (hfault : Pattern.Fault alternative token cause) :
    FirstFault p cause

theorem exists_ofAlternative_iff {leftText alternative : String} {left : Grammemes}
    {weight : Float32} :
  (∃ rule, Rule.ofAlternative leftText left weight alternative = .ok rule)
    ↔ ∀ token ∈ words alternative, Pattern.WellFormed token
  := by
  simp only [ofAlternative_eq_ok_iff, ← Pattern.exists_denotes_iff, ← exists_forall₂_iff]
  constructor
  · rintro ⟨_, right, hright, -⟩
    use right
  · rintro ⟨right, hright⟩
    exact ⟨_, right, hright, rfl⟩

/-- An alternative is refused for its first token that is not well formed. -/
theorem ofAlternative_eq_error_iff {leftText alternative : String} {left : Grammemes}
    {weight : Float32} {cause : GrammarError} :
  Rule.ofAlternative leftText left weight alternative = .error cause
    ↔ ∃ front token rest, words alternative = front ++ token :: rest
      ∧ (∀ other ∈ front, Pattern.WellFormed other) ∧ Pattern.Fault alternative token cause
  := by
  have hreturn {right : List Pattern} :
      (return (⟨left, right, weight, leftText, alternative⟩ : Rule)) ≠ Except.error cause := nofun
  simp only [Rule.ofAlternative, bind_eq_error_iff, mapM_eq_error_iff, hreturn, and_false,
    exists_false, or_false]
  apply exists_congr
  intro front
  apply exists_congr
  intro token
  apply exists_congr
  intro rest
  apply and_congr_right
  intro htokens
  have hblank {word : String} (hword : word ∈ front ++ token :: rest) :=
    (not_isBlank_of_mem_words (htokens ▸ hword)).2
  rw [Pattern.ofToken_eq_error_iff (hblank (by simp))]
  apply and_congr_left
  intro _
  apply forall₂_congr
  intro other hother
  apply Pattern.exists_ofToken_iff (hblank (List.mem_append_left _ hother))

/-- There is no alternative when there are bars and all pieces are blank. -/
theorem alternatives_eq_error_iff {right : String} {cause : GrammarError} :
  alternatives right = .error cause
    ↔ ('|' ∈ right.toList ∧ ∀ piece ∈ fields '|' right, isAllBlank piece)
      ∧ .noAlternatives right = cause
  := by
  have hblanks : ((fields '|' right).map trim).filter (· ≠ "") = []
      ↔ ∀ piece ∈ fields '|' right, isAllBlank piece := by
    simp [List.filter_eq_nil_iff, trim_eq_empty_iff]
  rw [alternatives]
  split
  next hblank =>
    constructor
    · rintro ⟨⟩
    · rintro ⟨⟨hbar, -⟩, -⟩
      exact absurd hbar (bar_not_mem_of_isAllBlank hblank)
  next hblank =>
    split
    next hnil =>
      rw [hblanks] at hnil
      have hbar : '|' ∈ right.toList := by
        by_contra hbar
        apply hblank
        apply hnil
        rw [fields_eq_singleton hbar]
        apply List.mem_cons_self
      constructor
      · rintro ⟨⟩
        exact ⟨⟨hbar, hnil⟩, rfl⟩
      · rintro ⟨-, rfl⟩
        rfl
    next hne =>
      constructor
      · rintro ⟨⟩
      · rintro ⟨⟨-, hpieces⟩, -⟩
        exact absurd (hblanks.mpr hpieces) hne

/-- A right-hand side with a token has alternatives. -/
theorem FirstIllFormed.exists_alternatives {right alternative token : String}
    (h : FirstIllFormed right alternative token) :
  ∃ texts, alternatives right = .ok texts
  := by
  obtain ⟨hpieces, -, htokens, -, -⟩ := h
  cases halternatives : alternatives right with
  | ok texts => use texts
  | error cause =>
    obtain ⟨⟨-, hblank⟩, -⟩ := alternatives_eq_error_iff.mp halternatives
    rw [words_eq_nil_iff.mpr (hblank _ (by simp [hpieces]))] at htokens
    exact absurd htokens.symm (List.append_ne_nil_of_right_ne_nil _ (List.cons_ne_nil _ _))

section

variable {right leftText : String} {left : Grammemes} {weight : Float32} {cause : GrammarError}

/-- The blank pieces, which are no alternatives, have no part in a failure. -/
theorem mapM_alternatives_eq_error_iff {texts : List String} (h : alternatives right = .ok texts) :
  texts.mapM (Rule.ofAlternative leftText left weight) = .error cause
    ↔ (fields '|' right).mapM (Rule.ofAlternative leftText left weight ∘ trim) = .error cause
  := by
  rw [← List.mapM_map]
  rw [alternatives] at h
  split at h
  next hblank =>
    cases h
    rw [fields_eq_singleton (bar_not_mem_of_isAllBlank hblank), List.map_singleton,
      trim_eq_empty_iff.mpr hblank]
  next =>
    split at h
    next => cases h
    next =>
      cases h
      apply mapM_filter_eq_error_iff
      intro text _ hempty
      rw [decide_eq_false_iff_not, not_not] at hempty
      apply exists_ofAlternative_iff.mpr
      rw [hempty, words_empty]
      simp

/-- The alternatives are refused for the first token that is not well formed. -/
theorem mapM_ofAlternative_eq_error_iff {texts : List String} (h : alternatives right = .ok texts) :
  texts.mapM (Rule.ofAlternative leftText left weight) = .error cause
    ↔ ∃ alternative token, FirstIllFormed right alternative token
      ∧ Pattern.Fault alternative token cause
  := by
  rw [mapM_alternatives_eq_error_iff h, mapM_eq_error_iff]
  simp only [Function.comp_apply, exists_ofAlternative_iff, ofAlternative_eq_error_iff, words_trim]
  constructor
  · rintro ⟨earlier, piece, later, hpieces, hearlier, front, token, rest, htokens, hfront, hfault⟩
    have hmem : token ∈ words piece := by simp [htokens]
    have htoken := hfault.not_wellFormed (not_isBlank_of_mem_words hmem).2
    use trim piece, token
    exact ⟨⟨hpieces, hearlier, htokens, hfront, htoken⟩, hfault⟩
  · rintro ⟨_, token, ⟨hpieces, hearlier, htokens, hfront, -⟩, hfault⟩
    exact ⟨_, _, _, hpieces, hearlier, _, _, _, htokens, hfront, hfault⟩

end

/-! ### Productions -/

/-- Behind a left-hand side that can be read only the right-hand side counts. -/
theorem exists_rules_eq {p : Production} (hweight : p.weight.isFinite)
    (hleft : ∀ part ∈ fields ',' (trim p.left), ¬isAllBlank part) :
  ∃ left, p.rules = (do
    let texts ← alternatives p.right
    texts.mapM (Rule.ofAlternative (trim p.left) left p.weight))
  := by
  have hne : trim p.left ≠ "" := by
    intro hempty
    rw [hempty] at hleft
    apply hleft "" List.mem_cons_self rfl
  obtain ⟨left, hlabels⟩ := p.exists_left
  use left
  rw [rules_of_left hweight hne, Grammemes.parse_eq_ok_iff.mpr ⟨hleft, hlabels⟩]
  rfl

/-- A production is refused for its first fault. -/
theorem rules_eq_error_iff {p : Production} {cause : GrammarError} :
  p.rules = .error cause ↔ p.FirstFault cause
  := by
  constructor
  · intro h
    by_cases hweight : p.weight.isFinite = true
    · by_cases hempty : trim p.left = ""
      · rw [rules_of_left_blank hweight hempty] at h
        cases h
        apply FirstFault.emptyLeft hweight (trim_eq_empty_iff.mp hempty)
      · rw [rules_of_left hweight hempty] at h
        rcases bind_eq_error_iff.mp h with hparse | ⟨left, hparse, hright⟩
        · obtain ⟨hpart, rfl⟩ := Grammemes.parse_eq_error_iff.mp hparse
          apply FirstFault.emptyGrammeme hweight (mt trim_eq_empty_iff.mpr hempty) hpart
        · obtain ⟨hleft, -⟩ := Grammemes.parse_eq_ok_iff.mp hparse
          rcases bind_eq_error_iff.mp hright with halternatives | ⟨texts, htexts, hrules⟩
          · obtain ⟨⟨hbar, hblank⟩, rfl⟩ := alternatives_eq_error_iff.mp halternatives
            apply FirstFault.noAlternatives hweight hleft hbar hblank
          · obtain ⟨_, _, hfirst, hfault⟩ := (mapM_ofAlternative_eq_error_iff htexts).mp hrules
            apply FirstFault.token hweight hleft hfirst hfault
    · rw [rules_of_not_isFinite hweight] at h
      cases h
      apply FirstFault.invalidWeight hweight
  · intro hfault
    cases hfault with
    | invalidWeight hweight => apply rules_of_not_isFinite hweight
    | emptyLeft hweight hleft => apply rules_of_left_blank hweight (trim_eq_empty_iff.mpr hleft)
    | emptyGrammeme hweight hleft hpart =>
      rw [rules_of_left hweight (mt trim_eq_empty_iff.mp hleft),
        Grammemes.parse_eq_error_iff.mpr ⟨hpart, rfl⟩]
      rfl
    | noAlternatives hweight hleft hbar hblank =>
      obtain ⟨left, hrules⟩ := exists_rules_eq hweight hleft
      rw [hrules, alternatives_eq_error_iff.mpr ⟨⟨hbar, hblank⟩, rfl⟩]
      rfl
    | token hweight hleft hfirst hfault =>
      obtain ⟨left, hrules⟩ := exists_rules_eq hweight hleft
      obtain ⟨texts, htexts⟩ := hfirst.exists_alternatives
      rw [hrules, htexts]
      apply (mapM_ofAlternative_eq_error_iff htexts).mpr ⟨_, _, hfirst, hfault⟩

/-! ### The place of a token -/

section

variable {right alternative token : String} (h : FirstIllFormed right alternative token)
include h

/-- The alternative stands in the right-hand side, and the token in the alternative. -/
theorem FirstIllFormed.isInfix :
  alternative.toList <:+: right.toList ∧ token.toList <:+: alternative.toList
  := by
  obtain @⟨_, _, piece, _, _, _, hpieces, -, htokens, -, -⟩ := h
  constructor
  · rw [toList_trim]
    apply (isInfix_trimmed _).trans
    apply isInfix_of_mem_fields
    rw [hpieces]
    simp
  · apply isInfix_of_mem_words
    rw [words_trim, htokens]
    simp

/-- What stands in the right-hand side before the token has well-formed tokens only. -/
theorem FirstIllFormed.exists_append :
  ∃ before after, right.toList = before ++ token.toList ++ after
    ∧ ∀ piece ∈ fields '|' (String.ofList before), ∀ other ∈ words piece, Pattern.WellFormed other
  := by
  obtain @⟨earlier, _, piece, _, front, _, hpieces, hearlier, htokens, hfront, -⟩ := h
  obtain ⟨outside, after, hright, houtside⟩ := exists_append_of_fields_eq hpieces
  obtain ⟨inside, rest, hpiece, hinside⟩ := exists_append_of_words_eq htokens
  have hbar : '|' ∉ inside := by
    intro hbar
    have hpiecebar : '|' ∉ piece.toList := not_mem_of_mem_fields (s := right) (by simp [hpieces])
    apply hpiecebar
    rw [hpiece]
    simp [hbar]
  use outside ++ inside, rest ++ after
  constructor
  · simp [hright, hpiece]
  · intro other hother
    rw [houtside inside hbar, List.mem_append, List.mem_singleton] at hother
    rcases hother with hother | rfl
    · apply hearlier other hother
    · rw [hinside]
      apply hfront

end

end Production

namespace Grammar

/-- A production is refused exactly for its first fault: a weight that is not finite, a blank
left-hand side, a blank label of the left-hand side, bars with nothing but blanks between them, or
the first token of the right-hand side that is not well formed.  A production that is refused leaves
the grammar as it is.  The alternative of the token stands in the right-hand side, the token stands
in the alternative, and no token before it is at fault. -/
theorem offer_refused_iff_firstFault (g : Grammar) (p : Production) :
  (∀ cause, (g.offer p).2 = some cause ↔ p.FirstFault cause)
    ∧ (∀ cause, (g.offer p).2 = some cause → (g.offer p).1 = g)
    ∧ ∀ alternative token, Production.FirstIllFormed p.right alternative token →
      alternative.toList <:+: p.right.toList ∧ token.toList <:+: alternative.toList
        ∧ ∃ before after, p.right.toList = before ++ token.toList ++ after
          ∧ ∀ piece ∈ fields '|' (String.ofList before), ∀ other ∈ words piece,
            Pattern.WellFormed other
  := by
  constructor
  · intro cause
    rw [← Production.rules_eq_error_iff]
    simp only [offer, add]
    cases p.rules with
    | error found => simp [Except.map]
    | ok rules => simp [Except.map]
  constructor
  · intro cause
    apply fst_offer_of_refused
  · intro alternative token hfirst
    exact ⟨hfirst.isInfix.1, hfirst.isInfix.2, hfirst.exists_append⟩

/-- Of several tokens at fault the first one counts. -/
example :
    (empty.offer ⟨"X", "a,b | 'c' 'd  e,, | ''", 1.0⟩).2
      = some (.unbalancedQuote "'d" "'c' 'd  e,,") := by
  decide +kernel

end Grammar

end Chunking
