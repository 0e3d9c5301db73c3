import Mathlib.Data.List.Forall2

/-!
# Traversals that can fail

The traversal of a list by a step that can fail succeeds exactly when the step succeeds at every
element, and then has one result for each element.  Otherwise it fails for the cause of the first
element at which the step fails.
-/

namespace Chunking

variable {ε α β : Type}

instance decidableExistsEqOk (step : Except ε α) : Decidable (∃ x, step = .ok x) :=
  match step with
  | .ok x => isTrue ⟨x, rfl⟩
  | .error _ => isFalse nofun

/-- Two steps in a row succeed exactly when the first one does, and the second one on its result. -/
theorem bind_eq_ok_iff {step : Except ε α} {next : α → Except ε β} {y : β} :
  step >>= next = .ok y ↔ ∃ x, step = .ok x ∧ next x = .ok y
  := by
  cases step with
  | error cause =>
    constructor
    · rintro ⟨⟩
    · rintro ⟨_, ⟨⟩, _⟩
  | ok x =>
    constructor
    · intro h
      use x, rfl, h
    · rintro ⟨_, ⟨⟩, h⟩
      apply h

theorem map_eq_ok_iff {step : Except ε α} {f : α → β} {y : β} :
  step.map f = .ok y ↔ ∃ x, step = .ok x ∧ f x = y
  := by
  cases step with
  | error cause => simp [Except.map]
  | ok x => simp [Except.map]

theorem map_injective {f : α → β} (hf : Function.Injective f) :
  Function.Injective (Except.map f : Except ε α → Except ε β)
  := by
  intro step step' heq
  cases step with
  | error cause =>
    cases step' with
    | error cause' => rw [Except.error.inj heq]
    | ok x' => cases heq
  | ok x =>
    cases step' with
    | error cause' => cases heq
    | ok x' => rw [hf (Except.ok.inj heq)]

theorem mapError_eq_ok_iff {ε' : Type} {step : Except ε α} {f : ε → ε'} {x : α} :
  step.mapError f = .ok x ↔ step = .ok x
  := by
  cases step with
  | error cause => simp [Except.mapError]
  | ok y => simp [Except.mapError]

/-- The results of a traversal are those of the step, element by element. -/
theorem mapM_eq_ok_iff {f : α → Except ε β} {xs : List α} {ys : List β} :
  xs.mapM f = .ok ys ↔ List.Forall₂ (fun x y => f x = .ok y) xs ys
  := by
  induction xs generalizing ys with
  | nil =>
    rw [List.mapM_nil, List.forall₂_nil_left_iff]
    constructor
    · rintro ⟨⟩
      rfl
    · rintro rfl
      rfl
  | cons x xs ih =>
    simp only [List.mapM_cons, bind_eq_ok_iff, ih, List.forall₂_cons_left_iff]
    constructor
    · rintro ⟨y, hx, ys', hxs, ⟨⟩⟩
      exact ⟨y, ys', hx, hxs, rfl⟩
    · rintro ⟨y, ys', hx, hxs, rfl⟩
      exact ⟨y, hx, ys', hxs, rfl⟩

/-- Two steps in a row fail when the first one does, or the second one after it. -/
theorem bind_eq_error_iff {step : Except ε α} {next : α → Except ε β} {cause : ε} :
  step >>= next = .error cause ↔ step = .error cause ∨ ∃ x, step = .ok x ∧ next x = .error cause
  := by
  cases step with
  | error found =>
    constructor
    · rintro ⟨⟩
      left
      rfl
    · rintro (⟨⟨⟩⟩ | ⟨_, ⟨⟩, _⟩)
      rfl
  | ok x =>
    constructor
    · intro h
      right
      use x, rfl, h
    · rintro (⟨⟨⟩⟩ | ⟨_, ⟨⟩, h⟩)
      apply h

theorem map_eq_error_iff {step : Except ε α} {f : α → β} {cause : ε} :
  step.map f = .error cause ↔ step = .error cause
  := by
  cases step with
  | error found => simp [Except.map]
  | ok x => simp [Except.map]

/-- A traversal fails for the cause of the first element at which the step fails. -/
theorem mapM_eq_error_iff {f : α → Except ε β} {xs : List α} {cause : ε} :
  xs.mapM f = .error cause
    ↔ ∃ before x after, xs = before ++ x :: after ∧ (∀ y ∈ before, ∃ z, f y = .ok z)
      ∧ f x = .error cause
  := by
  induction xs with
  | nil =>
    rw [List.mapM_nil]
    constructor
    · rintro ⟨⟩
    · rintro ⟨before, x, after, hnil, -⟩
      exact absurd hnil.symm (List.append_ne_nil_of_right_ne_nil _ (List.cons_ne_nil x after))
  | cons x xs ih =>
    simp only [List.mapM_cons, bind_eq_error_iff, ih]
    constructor
    · rintro (hx | ⟨y, hx, ⟨before, bad, after, rfl, hbefore, hbad⟩ | ⟨_, _, ⟨⟩⟩⟩)
      · exact ⟨[], x, xs, rfl, by simp, hx⟩
      · use x :: before, bad, after, rfl
        exact ⟨List.forall_mem_cons.mpr ⟨⟨y, hx⟩, hbefore⟩, hbad⟩
    · rintro ⟨before, bad, after, hxs, hbefore, hbad⟩
      cases before with
      | nil =>
        obtain ⟨rfl, -⟩ := List.cons.inj hxs
        left
        apply hbad
      | cons first before =>
        obtain ⟨rfl, rfl⟩ := List.cons.inj hxs
        obtain ⟨⟨y, hy⟩, hbefore⟩ := List.forall_mem_cons.mp hbefore
        right
        exact ⟨y, hy, Or.inl ⟨before, bad, after, rfl, hbefore, hbad⟩⟩

/-- Elements at which the step does not fail have no part in the failure of a traversal. -/
theorem mapM_filter_eq_error_iff {f : α → Except ε β} {p : α → Bool} {xs : List α} {cause : ε}
    (h : ∀ x ∈ xs, p x = false → ∃ y, f x = .ok y) :
  (xs.filter p).mapM f = .error cause ↔ xs.mapM f = .error cause
  := by
  induction xs with
  | nil => rfl
  | cons x xs ih =>
    obtain ⟨hx, hxs⟩ := List.forall_mem_cons.mp h
    cases hp : p x with
    | true =>
      rw [List.filter_cons_of_pos hp]
      simp only [List.mapM_cons, bind_eq_error_iff, ih hxs, pure, Except.pure, reduceCtorEq,
        and_false, exists_false]
    | false =>
      obtain ⟨y, hy⟩ := hx hp
      rw [List.filter_cons_of_neg (by simp [hp]), ih hxs]
      simp [List.mapM_cons, bind_eq_error_iff, hy, pure, Except.pure]

/-- A traversal whose steps write one result each is the traversal of these results. -/
theorem foldlM_eq_of_steps {γ : Type} {step : γ → α → Except ε γ} {f : α → Except ε β}
    {write : γ → β → γ} {xs : List α}
    (h : ∀ x ∈ xs, ∀ state, step state x = (f x).map (write state)) (start : γ) :
  xs.foldlM step start = (xs.mapM f).map fun ys => ys.foldl write start
  := by
  induction xs generalizing start with
  | nil => rfl
  | cons x xs ih =>
    rw [List.foldlM_cons, List.mapM_cons, h x List.mem_cons_self]
    cases f x with
    | error cause => rfl
    | ok y =>
      have htail := ih (fun x hx => h x (List.mem_cons_of_mem _ hx)) (write start y)
      apply htail.trans
      cases xs.mapM f with
      | error cause => rfl
      | ok ys => rfl

/-- A relation between lists depends on the pairs with an element of the first list only. -/
theorem forall₂_congr_of_mem {R S : α → β → Prop} {xs : List α} {ys : List β}
    (h : ∀ x ∈ xs, ∀ y, R x y ↔ S x y) :
  List.Forall₂ R xs ys ↔ List.Forall₂ S xs ys
  := by
  induction xs generalizing ys with
  | nil => rw [List.forall₂_nil_left_iff, List.forall₂_nil_left_iff]
  | cons x xs ih =>
    rw [List.forall₂_cons_left_iff, List.forall₂_cons_left_iff]
    simp only [h x List.mem_cons_self, ih fun x hx => h x (List.mem_cons_of_mem _ hx)]

/-- There is a list of results when there is a result for every element. -/
theorem exists_forall₂_iff {R : α → β → Prop} {xs : List α} :
  (∃ ys, List.Forall₂ R xs ys) ↔ ∀ x ∈ xs, ∃ y, R x y
  := by
  induction xs with
  | nil => simp
  | cons x xs ih =>
    simp only [List.forall₂_cons_left_iff, List.forall_mem_cons, ← ih]
    constructor
    · rintro ⟨_, y, ys, hx, hxs, -⟩
      exact ⟨⟨y, hx⟩, ys, hxs⟩
    · rintro ⟨⟨y, hx⟩, ys, hxs⟩
      exact ⟨y :: ys, y, ys, hx, hxs, rfl⟩

/-- Every result is the result of some element. -/
theorem exists_of_forall₂_of_mem {R : α → β → Prop} {xs : List α} {ys : List β} {y : β}
    (h : List.Forall₂ R xs ys) (hy : y ∈ ys) :
  ∃ x ∈ xs, R x y
  := by
  induction h with
  | nil => cases hy
  | @cons x z xs ys hx _ ih =>
    rcases List.mem_cons.mp hy with rfl | hy
    · use x, List.mem_cons_self
    · obtain ⟨x, hmem, hx⟩ := ih hy
      use x, List.mem_cons_of_mem _ hmem

/-- The last elements are related when those are that stand in for them in empty lists. -/
theorem forall₂_getLast?_getD {R : α → β → Prop} {xs : List α} {ys : List β} {x : α} {y : β}
    (hxy : R x y) (h : List.Forall₂ R xs ys) :
  R (xs.getLast?.getD x) (ys.getLast?.getD y)
  := by
  induction h generalizing x y with
  | nil => apply hxy
  | cons hfirst _ ih =>
    rw [List.getLast?_cons, List.getLast?_cons, Option.getD_some, Option.getD_some]
    apply ih hfirst

end Chunking
