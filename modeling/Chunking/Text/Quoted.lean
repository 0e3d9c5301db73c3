import Chunking.Text.Hidden

/-!
# Quoted text

The quoted form of a text stands between double quotes and consists of visible characters only:
a quote, a backslash, a tab, a line end and the null character are written as a backslash and one
character, and every other hidden character as its hexadecimal code point between `\u{` and `}`.
In particular U+001F never occurs in a quoted text.
-/

namespace Chunking.Text

/-- The form of a character inside a quoted text. -/
def escaped (c : Char) : List Char :=
  match c with
  | '\t' => ['\\', 't']
  | '\n' => ['\\', 'n']
  | '\r' => ['\\', 'r']
  | '\\' => ['\\', '\\']
  | '"' => ['\\', '"']
  | '\x00' => ['\\', '0']
  | c =>
    if isHidden c then
      ['\\', 'u', '{'] ++ Nat.toDigits 16 c.toNat ++ ['}']
    else
      [c]

/-- The characters of the quoted form of `cs`. -/
def quotedChars (cs : List Char) : List Char :=
  '"' :: (cs.flatMap escaped ++ ['"'])

/-- The quoted form of a text. -/
def quoted (s : String) : String :=
  String.ofList (quotedChars s.toList)

theorem toList_quoted (s : String) :
  (quoted s).toList = quotedChars s.toList
  := String.toList_ofList

/-! ### Visibility -/

/-- Hexadecimal digits are visible. -/
theorem not_isHidden_of_mem_toDigits {c : Char} {n : Nat} (h : c ∈ Nat.toDigits 16 n) :
  isHidden c = false
  := by
  have hdigit : ∀ k < 16, 0x20 ≤ k.digitChar.toNat ∧ k.digitChar.toNat < 0x7F := by decide
  induction n using Nat.strongRecOn with
  | _ n ih =>
    rw [Nat.toDigits_eq_if (by decide)] at h
    split at h
    next hlt =>
      rw [List.mem_singleton.mp h]
      apply not_isHidden_of_ascii (hdigit n hlt).1 (hdigit n hlt).2
    next hge =>
      rcases List.mem_append.mp h with h | h
      · apply ih (n / 16) _ h
        omega
      · have hlt : n % 16 < 16 := Nat.mod_lt n (by decide)
        rw [List.mem_singleton.mp h]
        apply not_isHidden_of_ascii (hdigit _ hlt).1 (hdigit _ hlt).2

/-- The form of a character inside a quoted text is visible. -/
theorem not_isHidden_of_mem_escaped {c d : Char} (h : c ∈ escaped d) :
  isHidden c = false
  := by
  have hmark : ∀ e ∈ ['\\', 't', 'n', 'r', '"', '0', 'u', '{', '}'], isHidden e = false := by
    have hascii : ['\\', 't', 'n', 'r', '"', '0', 'u', '{', '}'].all fun e =>
        0x20 ≤ e.toNat && e.toNat < 0x7F := by decide
    intro e he
    have hrange := List.all_eq_true.mp hascii e he
    simp only [Bool.and_eq_true, decide_eq_true_eq] at hrange
    apply not_isHidden_of_ascii hrange.1 hrange.2
  simp only [List.mem_cons, List.not_mem_nil, or_false] at hmark
  unfold escaped at h
  split at h
  case h_7 =>
    split at h
    next =>
      simp only [List.mem_append, List.mem_cons, List.not_mem_nil, or_false] at h
      rcases h with (h | h) | h
      · grind
      · apply not_isHidden_of_mem_toDigits h
      · grind
    next hvisible =>
      rw [List.mem_singleton.mp h]
      simpa using hvisible
  all_goals
    simp only [List.mem_cons, List.not_mem_nil, or_false] at h
    grind

/-- A quoted text consists of visible characters. -/
theorem not_isHidden_of_mem_quotedChars {c : Char} {cs : List Char} (h : c ∈ quotedChars cs) :
  isHidden c = false
  := by
  have hquote : isHidden '"' = false := by
    apply not_isHidden_of_ascii
    · decide
    · decide
  simp only [quotedChars, List.mem_cons, List.mem_append, List.mem_flatMap, List.not_mem_nil,
    or_false] at h
  rcases h with rfl | ⟨d, -, hd⟩ | rfl
  · exact hquote
  · apply not_isHidden_of_mem_escaped hd
  · exact hquote

end Chunking.Text
