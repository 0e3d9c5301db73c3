import Chunking.Text.Quoted
import Mathlib.Data.List.Basic

/-!
# Unique reading of quoted texts

The quoted form of a text can be told from whatever follows it: it is the beginning of a list of
characters in one way at most.  The form of a character inside quotes is of one of three shapes,
`Escape`, none of which begins with a quote or is the beginning of another one.
-/

namespace Chunking.Text

/-- What stands before an end mark and after it, when the mark is not in the former. -/
theorem append_cons_inj_of_not_mem {mark : Char} {xs ys cs ds : List Char} (hxs : mark ∉ xs)
    (hys : mark ∉ ys) (h : xs ++ mark :: cs = ys ++ mark :: ds) :
  xs = ys ∧ cs = ds
  := by
  induction xs generalizing ys with
  | nil =>
    cases ys with
    | nil => simpa using h
    | cons y ys =>
      obtain rfl := List.head_eq_of_cons_eq h
      exact absurd List.mem_cons_self hys
  | cons x xs ih =>
    cases ys with
    | nil =>
      obtain rfl := List.head_eq_of_cons_eq h
      exact absurd List.mem_cons_self hxs
    | cons y ys =>
      obtain ⟨rfl, htail⟩ := List.cons.inj h
      rw [List.mem_cons, not_or] at hxs hys
      obtain ⟨rfl, rfl⟩ := ih hxs.2 hys.2 htail
      exact ⟨rfl, rfl⟩

/-! ### Hexadecimal digits -/

theorem digitChar_inj {m n : Nat} (hm : m < 16) (hn : n < 16) (h : m.digitChar = n.digitChar) :
  m = n
  := by
  have hinj : ∀ k < 16, ∀ l < 16, k.digitChar = l.digitChar → k = l := by decide
  apply hinj m hm n hn h

/-- The last digit of a number, and the digits before it. -/
theorem toDigits_eq_append (n : Nat) :
  ∃ leading, Nat.toDigits 16 n = leading ++ [(n % 16).digitChar]
    ∧ (leading = [] ∧ n < 16 ∨ leading = Nat.toDigits 16 (n / 16) ∧ 16 ≤ n)
  := by
  rw [Nat.toDigits_eq_if (by decide)]
  split
  next hlt =>
    use []
    rw [Nat.mod_eq_of_lt hlt]
    exact ⟨rfl, .inl ⟨rfl, hlt⟩⟩
  next hge =>
    use Nat.toDigits 16 (n / 16)
    exact ⟨rfl, .inr ⟨rfl, Nat.not_lt.mp hge⟩⟩

/-- Numbers with the same hexadecimal digits are equal. -/
theorem toDigits_inj {m n : Nat} (h : Nat.toDigits 16 m = Nat.toDigits 16 n) :
  m = n
  := by
  induction m using Nat.strongRecOn generalizing n with
  | _ m ih =>
    obtain ⟨xs, hm, hxs⟩ := toDigits_eq_append m
    obtain ⟨ys, hn, hys⟩ := toDigits_eq_append n
    rw [hm, hn] at h
    obtain ⟨rfl, hlast⟩ := List.append_inj' h rfl
    have hmod : m % 16 = n % 16 := by
      apply digitChar_inj
      · apply Nat.mod_lt m (by decide)
      · apply Nat.mod_lt n (by decide)
      · apply List.head_eq_of_cons_eq hlast
    rcases hxs with ⟨rfl, hm⟩ | ⟨rfl, hm⟩
    · rcases hys with ⟨-, hn⟩ | ⟨hnil, -⟩
      · omega
      · exact absurd hnil.symm Nat.toDigits_ne_nil
    · rcases hys with ⟨hnil, -⟩ | ⟨hdiv, hn⟩
      · exact absurd hnil Nat.toDigits_ne_nil
      · have hquotient := ih (m / 16) (by omega) hdiv
        omega

/-- The brace that ends a code point is not one of its digits. -/
theorem brace_not_mem_toDigits (n : Nat) :
  '}' ∉ Nat.toDigits 16 n
  := by
  have hdigit : ∀ k < 16, k.digitChar ≠ '}' := by decide
  induction n using Nat.strongRecOn with
  | _ n ih =>
    obtain ⟨leading, hn, hleading⟩ := toDigits_eq_append n
    rw [hn, List.mem_append, List.mem_singleton, not_or]
    constructor
    · rcases hleading with ⟨rfl, -⟩ | ⟨rfl, hge⟩
      · apply List.not_mem_nil
      · apply ih
        omega
    · apply (hdigit _ (Nat.mod_lt n (by decide))).symm

/-! ### Forms of characters -/

/-- The character that a backslash and `mark` stand for. -/
def meaning : Char → Option Char
  | 't' => some '\t'
  | 'n' => some '\n'
  | 'r' => some '\r'
  | '\\' => some '\\'
  | '"' => some '"'
  | '0' => some '\x00'
  | _ => none

/-- The shapes of the form of a character. -/
inductive Escape (c : Char) : List Char → Prop where
  /-- The character itself. -/
  | plain (hbackslash : c ≠ '\\') (hquote : c ≠ '"') : Escape c [c]
  /-- A backslash and a character that has a meaning after it. -/
  | mark (m : Char) (h : meaning m = some c) : Escape c ['\\', m]
  /-- The code point in hexadecimal digits. -/
  | code : Escape c ('\\' :: 'u' :: '{' :: (Nat.toDigits 16 c.toNat ++ ['}']))

theorem escape_escaped (c : Char) :
  Escape c (escaped c)
  := by
  unfold escaped
  split
  case h_7 hbackslash hquote _ =>
    split
    · apply Escape.code
    · apply Escape.plain hbackslash hquote
  all_goals
    apply Escape.mark
    rfl

/-- The form of a character ends before a quote of its own. -/
theorem Escape.ne_quote {c : Char} {form : List Char} (h : Escape c form) (cs ds : List Char) :
  form ++ cs ≠ '"' :: ds
  := by
  intro heq
  cases h with
  | plain _ hquote => exact hquote (List.head_eq_of_cons_eq heq)
  | mark _ _ => exact absurd (List.head_eq_of_cons_eq heq) (by decide)
  | code => exact absurd (List.head_eq_of_cons_eq heq) (by decide)

/-- No form of a character is the beginning of the form of another one. -/
theorem Escape.append_inj {c d : Char} {form form' cs ds : List Char} (hc : Escape c form)
    (hd : Escape d form') (h : form ++ cs = form' ++ ds) :
  c = d ∧ cs = ds
  := by
  cases hc with
  | plain hc _ =>
    cases hd with
    | plain => simpa using h
    | mark => exact absurd (List.head_eq_of_cons_eq h) hc
    | code => exact absurd (List.head_eq_of_cons_eq h) hc
  | mark m hm =>
    cases hd with
    | plain hd => exact absurd (List.head_eq_of_cons_eq h).symm hd
    | mark m' hm' =>
      obtain ⟨rfl, rfl⟩ : m = m' ∧ cs = ds := by simpa using h
      rw [hm] at hm'
      constructor
      · apply Option.some.inj hm'
      · rfl
    | code =>
      obtain ⟨rfl, -⟩ : m = 'u' ∧ _ := by simpa using h
      cases hm
  | code =>
    cases hd with
    | plain hd => exact absurd (List.head_eq_of_cons_eq h).symm hd
    | mark m hm =>
      obtain ⟨rfl, -⟩ : 'u' = m ∧ _ := by simpa using h
      cases hm
    | code =>
      simp only [List.cons_append, List.append_assoc, List.nil_append, List.cons.injEq,
        true_and] at h
      obtain ⟨hdigits, rfl⟩ :=
        append_cons_inj_of_not_mem (brace_not_mem_toDigits _) (brace_not_mem_toDigits _) h
      constructor
      · apply Char.toNat_inj.mp (toDigits_inj hdigits)
      · rfl

/-! ### Quoted texts -/

/-- The forms of the characters of a text are read up to the quote that ends them. -/
theorem flatMap_escaped_append_inj {cs ds xs ys : List Char}
    (h : cs.flatMap escaped ++ '"' :: xs = ds.flatMap escaped ++ '"' :: ys) :
  cs = ds ∧ xs = ys
  := by
  induction cs generalizing ds with
  | nil =>
    cases ds with
    | nil => simpa using h
    | cons d ds =>
      rw [List.flatMap_cons, List.append_assoc] at h
      exact absurd h.symm ((escape_escaped d).ne_quote _ _)
  | cons c cs ih =>
    rw [List.flatMap_cons, List.append_assoc] at h
    cases ds with
    | nil => exact absurd h ((escape_escaped c).ne_quote _ _)
    | cons d ds =>
      rw [List.flatMap_cons, List.append_assoc] at h
      obtain ⟨rfl, htail⟩ := (escape_escaped c).append_inj (escape_escaped d) h
      obtain ⟨rfl, rfl⟩ := ih htail
      exact ⟨rfl, rfl⟩

/-- A quoted text is read in one way, whatever follows it. -/
theorem quotedChars_append_inj {cs ds xs ys : List Char}
    (h : quotedChars cs ++ xs = quotedChars ds ++ ys) :
  cs = ds ∧ xs = ys
  := by
  apply flatMap_escaped_append_inj
  simpa [quotedChars] using h

end Chunking.Text
