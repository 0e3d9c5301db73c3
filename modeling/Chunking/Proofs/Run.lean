/-!
# Runs of a machine

A machine answers a request and passes to its next state.  `run` collects the answers to a
sequence of requests.  Two machines whose states are related, and stay related under equal
requests with equal answers, cannot be told apart by any sequence of requests.
-/

namespace Chunking

variable {σ τ ρ ω : Type}

/-- The answers to a sequence of requests, and the state after them. -/
def run (step : σ → ρ → ω × σ) (s : σ) : List ρ → List ω × σ
  | [] => ([], s)
  | request :: requests =>
    let (answer, next) := step s request
    let (answers, final) := run step next requests
    (answer :: answers, final)

theorem run_cons (step : σ → ρ → ω × σ) (s : σ) (request : ρ) (requests : List ρ) :
  run step s (request :: requests)
    = ((step s request).1 :: (run step (step s request).2 requests).1,
        (run step (step s request).2 requests).2)
  := rfl

/-- Machines in related states give the same answers and end in related states, when each of the
requests is answered alike and keeps the states related. -/
theorem run_simulation
    {step : σ → ρ → ω × σ} {step' : τ → ρ → ω × τ} {R : σ → τ → Prop} {requests : List ρ}
    (hstep : ∀ request ∈ requests, ∀ s t, R s t →
      (step s request).1 = (step' t request).1 ∧ R (step s request).2 (step' t request).2)
    {s : σ} {t : τ} (h : R s t) :
  (run step s requests).1 = (run step' t requests).1
    ∧ R (run step s requests).2 (run step' t requests).2
  := by
  induction requests generalizing s t with
  | nil =>
    constructor
    · rfl
    · apply h
  | cons request requests ih =>
    obtain ⟨hanswer, hnext⟩ := hstep request List.mem_cons_self s t h
    obtain ⟨hanswers, hfinal⟩ := ih (fun r hr => hstep r (List.mem_cons_of_mem request hr)) hnext
    rw [run_cons, run_cons, hanswer, hanswers]
    constructor
    · rfl
    · apply hfinal

/-- What each of the requests preserves holds at the end if it holds at the beginning. -/
theorem run_invariant
    {step : σ → ρ → ω × σ} {P : σ → Prop} {requests : List ρ}
    (hstep : ∀ request ∈ requests, ∀ s, P s → P (step s request).2) {s : σ} (h : P s) :
  P (run step s requests).2
  := by
  induction requests generalizing s with
  | nil => apply h
  | cons request requests ih =>
    apply ih (fun r hr => hstep r (List.mem_cons_of_mem request hr))
    apply hstep request List.mem_cons_self s h

/-- A relation between the requests so far and the state that holds at the beginning and is kept by
every request holds at the end. -/
theorem run_history
    {step : σ → ρ → ω × σ} {P : List ρ → σ → Prop}
    (hstep : ∀ past request s, P past s → P (past ++ [request]) (step s request).2)
    {s : σ} (h : P [] s) (requests : List ρ) :
  P requests (run step s requests).2
  := by
  suffices ∀ past s, P past s → P (past ++ requests) (run step s requests).2 from this [] s h
  intro past s hpast
  induction requests generalizing past s with
  | nil =>
    rw [List.append_nil]
    apply hpast
  | cons request requests ih =>
    rw [run_cons, List.append_cons]
    apply ih
    apply hstep past request s hpast

/-- The requests of two sequences can be made one sequence after the other. -/
theorem snd_run_append (step : σ → ρ → ω × σ) (s : σ) (requests others : List ρ) :
  (run step s (requests ++ others)).2 = (run step (run step s requests).2 others).2
  := by
  induction requests generalizing s with
  | nil => rfl
  | cons request requests ih => rw [List.cons_append, run_cons, run_cons, ih]

/-- What can be seen of the answers is `answer` of the requests, for a machine that answers so in
every state of a class that it does not leave. -/
theorem map_run_eq_map
    {step : σ → ρ → ω × σ} {P : σ → Prop} {view : ω → τ} {answer : ρ → τ} {requests : List ρ}
    (hstep : ∀ request ∈ requests, ∀ s, P s →
      view (step s request).1 = answer request ∧ P (step s request).2)
    {s : σ} (h : P s) :
  (run step s requests).1.map view = requests.map answer
  := by
  induction requests generalizing s with
  | nil => rfl
  | cons request requests ih =>
    obtain ⟨hanswer, hnext⟩ := hstep request List.mem_cons_self s h
    rw [run_cons, List.map_cons, List.map_cons, hanswer]
    rw [ih (fun r hr => hstep r (List.mem_cons_of_mem request hr)) hnext]

/-- A machine that answers each of the requests by `answer` in every state of a class that it
does not leave answers the whole sequence by `answer`. -/
theorem run_eq_map
    {step : σ → ρ → ω × σ} {P : σ → Prop} {answer : ρ → ω} {requests : List ρ}
    (hstep : ∀ request ∈ requests, ∀ s, P s →
      (step s request).1 = answer request ∧ P (step s request).2)
    {s : σ} (h : P s) :
  (run step s requests).1 = requests.map answer
  := by
  rw [← List.map_id (run step s requests).1]
  apply map_run_eq_map hstep h

/-! ### Tallies -/

/-- The sum of a quantity over a sequence of requests, each taken in the state in which it is
made. -/
def tally (step : σ → ρ → ω × σ) (quantity : σ → ρ → Nat) (s : σ) : List ρ → Nat
  | [] => 0
  | request :: requests => quantity s request + tally step quantity (step s request).2 requests

/-- A quantity of one for some requests and zero for the others adds up to their number. -/
theorem tally_eq_countP (step : σ → ρ → ω × σ) (p : ρ → Bool) (s : σ) (requests : List ρ) :
  tally step (fun _ request => if p request then 1 else 0) s requests = requests.countP p
  := by
  induction requests generalizing s with
  | nil => rfl
  | cons request requests ih => rw [tally, ih, List.countP_cons, Nat.add_comm]

theorem tally_add (step : σ → ρ → ω × σ) (quantity other : σ → ρ → Nat) (s : σ)
    (requests : List ρ) :
  tally step (fun s request => quantity s request + other s request) s requests
    = tally step quantity s requests + tally step other s requests
  := by
  induction requests generalizing s with
  | nil => rfl
  | cons request requests ih =>
    rw [tally, tally, tally, ih]
    omega

/-- The account of a run: if each request changes the balance of two quantities by a third one, in
every state of a class that no request leaves, then the run changes it by the sum of the third. -/
theorem run_balance
    (step : σ → ρ → ω × σ) {P : σ → Prop} {f g : σ → Nat} {q : σ → ρ → Nat}
    (hstep : ∀ request s, P s → P (step s request).2
      ∧ f (step s request).2 + g s = f s + g (step s request).2 + q s request)
    {s : σ} (h : P s) (requests : List ρ) :
  f (run step s requests).2 + g s = f s + g (run step s requests).2 + tally step q s requests
  := by
  induction requests generalizing s with
  | nil => rfl
  | cons request requests ih =>
    obtain ⟨hnext, hbalance⟩ := hstep request s h
    have hrest := ih hnext
    simp only [run_cons, tally]
    omega

/-- What grows by one with each request of a kind counts these requests. -/
theorem run_count
    (step : σ → ρ → ω × σ) {P : σ → Prop} {f : σ → Nat} {p : ρ → Bool}
    (hstep : ∀ request s, P s → P (step s request).2
      ∧ f (step s request).2 = f s + if p request then 1 else 0)
    {s : σ} (h : P s) (requests : List ρ) :
  f (run step s requests).2 = f s + requests.countP p
  := by
  rw [← tally_eq_countP step p s]
  apply run_balance step (P := P) (g := fun _ => 0) _ h
  apply hstep

end Chunking
