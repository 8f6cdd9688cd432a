import Mathlib.Data.List.Forall2
import Mathlib.Data.List.ReduceOption

/-!
Sequential transducers: a step function that consumes one input and emits one
output, iterated over a list of inputs.

* `after` is the state a run ends in, `outputs` the list of what it emitted.
* `after_invariant` and `outputs_forall` are the run lemmas: what one step
  preserves, a whole run preserves.
* `forall_states_iff` finds the exact condition on the steps for a property of the
  states.
* `outputs_guarded` is the run lemma for steps that are well behaved as long as
  what they emit is.
* `simulation` is the refinement rule: two machines kept in a relation by equal
  inputs, emitting matching outputs, do so along whole runs.
* `cascade` feeds one machine with what another emits; `cascade_run` takes its runs apart.
* `faultingRun` is for machines whose steps can fault; `faultingRun_exact` compares them with one
  that cannot, and `faultingRun_simulation` does for the runs without a fault.
-/

namespace SmartScale.Transducer

variable {σ τ ι ο : Type*}

/-- The state after consuming `xs` from `s`. -/
def after (step : σ → ι → σ × ο) : σ → List ι → σ
  | s, [] => s
  | s, x :: xs => after step (step s x).1 xs

/-- What is emitted while consuming `xs` from `s`, in order. -/
def outputs (step : σ → ι → σ × ο) : σ → List ι → List ο
  | _, [] => []
  | s, x :: xs => (step s x).2 :: outputs step (step s x).1 xs

section Runs

variable {step : σ → ι → σ × ο} {s : σ} {x : ι} {xs ys : List ι}

@[simp] theorem after_nil : after step s [] = s := rfl

@[simp] theorem after_cons : after step s (x :: xs) = after step (step s x).1 xs := rfl

@[simp] theorem outputs_nil : outputs step s [] = [] := rfl

@[simp] theorem outputs_cons :
    outputs step s (x :: xs) = (step s x).2 :: outputs step (step s x).1 xs := rfl

theorem after_append : after step s (xs ++ ys) = after step (after step s xs) ys := by
  induction xs generalizing s with
  | nil => rfl
  | cons x xs ih => exact ih

theorem outputs_append :
    outputs step s (xs ++ ys) = outputs step s xs ++ outputs step (after step s xs) ys := by
  induction xs generalizing s with
  | nil => rfl
  | cons x xs ih => simp [ih]

@[simp] theorem length_outputs : (outputs step s xs).length = xs.length := by
  induction xs generalizing s with
  | nil => rfl
  | cons x xs ih => simp [ih]

/-- The `i`-th output is emitted by the state the first `i` inputs lead to. -/
theorem getElem?_outputs (i : Nat) :
    (outputs step s xs)[i]? = xs[i]?.map fun x => (step (after step s (xs.take i)) x).2 := by
  induction xs generalizing s i with
  | nil => simp
  | cons x xs ih =>
      cases i with
      | zero => simp
      | succ i => simpa using ih i

/-- What a machine emits does not matter to where it goes. -/
theorem after_congr {ο' : Type*} {step' : σ → ι → σ × ο'}
    (same : ∀ s x, (step' s x).1 = (step s x).1) : after step' s xs = after step s xs := by
  induction xs generalizing s with
  | nil => rfl
  | cons x xs ih => rw [after, after, same, ih]

/-- What holds of every output holds of each step of the run, and conversely. -/
theorem forall_outputs_iff {P : ο → Prop} :
    (∀ o ∈ outputs step s xs, P o) ↔
      ∀ i x, xs[i]? = some x → P (step (after step s (xs.take i)) x).2 := by
  constructor
  · intro all i x hi
    refine all _ (List.mem_iff_getElem?.mpr ⟨i, ?_⟩)
    rw [getElem?_outputs, hi]
    rfl
  · intro each o ho
    obtain ⟨i, hi⟩ := List.mem_iff_getElem?.mp ho
    rw [getElem?_outputs] at hi
    obtain ⟨x, hx, rfl⟩ := Option.map_eq_some_iff.mp hi
    exact each i x hx

/-- A property kept by every step on the inputs of a run holds after the run. -/
theorem after_invariant {I : σ → Prop} (init : I s)
    (kept : ∀ s, ∀ x ∈ xs, I s → I (step s x).1) : I (after step s xs) := by
  induction xs generalizing s with
  | nil => exact init
  | cons x xs ih =>
      have next : I (step s x).1 := kept s x List.mem_cons_self init
      exact ih next fun s y hy => kept s y (List.mem_cons_of_mem _ hy)

/-- **Exact conditions.** If a step keeps the invariant, and keeps `P` exactly if it is `ok`,
then every state of a run satisfies `P` exactly if the first does and every step is `ok`. -/
theorem forall_states_iff {I P : σ → Prop} {ok : σ → ι → Prop} (init : I s)
    (kept : ∀ s x, I s → I (step s x).1)
    (exact_step : ∀ s x, I s → P s → (ok s x ↔ P (step s x).1)) :
    (∀ i, P (after step s (xs.take i))) ↔
      P s ∧ ∀ i x, xs[i]? = some x → ok (after step s (xs.take i)) x := by
  have inv (i : Nat) : I (after step s (xs.take i)) :=
    after_invariant init fun s x _ => kept s x
  have next {i : Nat} {x : ι} (hx : xs[i]? = some x) :
      after step s (xs.take (i + 1)) = (step (after step s (xs.take i)) x).1 := by
    rw [List.take_add_one, hx, Option.toList_some, after_append, after_cons, after_nil]
  constructor
  · intro all
    refine ⟨all 0, ?_⟩
    intro i x hx
    exact (exact_step _ x (inv i) (all i)).mpr (next hx ▸ all (i + 1))
  · rintro ⟨first, steps⟩ i
    induction i with
    | zero => exact first
    | succ i ih =>
        cases hx : xs[i]? with
        | none =>
            rw [List.take_add_one, hx, Option.toList_none, List.append_nil]
            exact ih
        | some x =>
            rw [next hx]
            exact (exact_step _ x (inv i) ih).mp (steps i x hx)

/-- An invariant that forces a property of each output forces it of them all. -/
theorem outputs_forall {I : σ → Prop} {P : ο → Prop} (init : I s)
    (kept : ∀ s, ∀ x ∈ xs, I s → I (step s x).1)
    (emits : ∀ s, ∀ x ∈ xs, I s → P (step s x).2) : ∀ o ∈ outputs step s xs, P o := by
  induction xs generalizing s with
  | nil => simp
  | cons x xs ih =>
      intro o ho
      rcases List.mem_cons.mp ho with rfl | ho
      · exact emits s x List.mem_cons_self init
      · exact ih (kept s x List.mem_cons_self init)
          (fun s y hy => kept s y (List.mem_cons_of_mem _ hy))
          (fun s y hy => emits s y (List.mem_cons_of_mem _ hy)) o ho

/-- The same where a step is only known to keep the invariant when its own output
satisfies `Q`, and all outputs of the run do. -/
theorem outputs_guarded {I : σ → Prop} {Q P : ο → Prop} (init : I s)
    (guard : ∀ o ∈ outputs step s xs, Q o)
    (kept : ∀ s x, I s → Q (step s x).2 → I (step s x).1 ∧ P (step s x).2) :
    I (after step s xs) ∧ ∀ o ∈ outputs step s xs, P o := by
  induction xs generalizing s with
  | nil => exact ⟨init, by simp⟩
  | cons x xs ih =>
      obtain ⟨next, emitted⟩ := kept s x init (guard _ List.mem_cons_self)
      obtain ⟨final, rest⟩ := ih next fun o ho => guard o (List.mem_cons_of_mem _ ho)
      refine ⟨final, ?_⟩
      intro o ho
      rcases List.mem_cons.mp ho with rfl | ho
      · exact emitted
      · exact rest o ho

end Runs

section Simulation

variable {π : Type*} {step : σ → ι → σ × ο} {step' : τ → ι → τ × π} {R : σ → τ → Prop}
  {M : ο → π → Prop}

/-- **Refinement**: if each input of a run takes related states to related states and
makes them emit matching outputs, so does the whole run. -/
theorem simulation_of_mem {xs : List ι}
    (sim : ∀ s t, ∀ x ∈ xs, R s t → R (step s x).1 (step' t x).1 ∧ M (step s x).2 (step' t x).2)
    {s : σ} {t : τ} (h : R s t) :
    R (after step s xs) (after step' t xs) ∧
      List.Forall₂ M (outputs step s xs) (outputs step' t xs) := by
  induction xs generalizing s t with
  | nil => exact ⟨h, .nil⟩
  | cons x xs ih =>
      obtain ⟨next, emitted⟩ := sim s t x List.mem_cons_self h
      obtain ⟨final, rest⟩ := ih (fun s t y hy => sim s t y (List.mem_cons_of_mem _ hy)) next
      exact ⟨final, .cons emitted rest⟩

/-- The same where every input does. -/
theorem simulation
    (sim : ∀ s t x, R s t → R (step s x).1 (step' t x).1 ∧ M (step s x).2 (step' t x).2)
    {s : σ} {t : τ} (h : R s t) (xs : List ι) :
    R (after step s xs) (after step' t xs) ∧
      List.Forall₂ M (outputs step s xs) (outputs step' t xs) :=
  simulation_of_mem (fun s t x _ => sim s t x) h

end Simulation

section Cascade

variable {κ : Type*} {first : σ → ι → σ × Option κ} {second : τ → κ → τ × ο}

/-- Two machines in a row: what the first emits, the second consumes. -/
def cascade (first : σ → ι → σ × Option κ) (second : τ → κ → τ × ο) (s : σ × τ) (x : ι) :
    (σ × τ) × Option ο :=
  match first s.1 x with
  | (s', none) => ((s', s.2), none)
  | (s', some y) => ((s', (second s.2 y).1), some (second s.2 y).2)

/-- A run of the cascade is a run of the first machine, and one of the second on what it emits. -/
theorem cascade_run (s : σ × τ) (xs : List ι) :
    after (cascade first second) s xs =
        (after first s.1 xs, after second s.2 (outputs first s.1 xs).reduceOption) ∧
      (outputs (cascade first second) s xs).reduceOption =
        outputs second s.2 (outputs first s.1 xs).reduceOption := by
  induction xs generalizing s with
  | nil => exact ⟨rfl, rfl⟩
  | cons x xs ih =>
      obtain ⟨final, emitted⟩ := ih (cascade first second s x).1
      rw [after_cons, outputs_cons, after_cons, outputs_cons, final]
      cases step : first s.1 x with
      | mk s' y =>
          cases y with
          | none =>
              have stepped : cascade first second s x = ((s', s.2), none) := by
                simp [cascade, step]
              rw [stepped] at emitted ⊢
              exact ⟨rfl, emitted⟩
          | some y =>
              have stepped : cascade first second s x =
                  ((s', (second s.2 y).1), some (second s.2 y).2) := by
                simp [cascade, step]
              rw [stepped] at emitted ⊢
              refine ⟨rfl, ?_⟩
              rw [List.reduceOption_cons_of_some, List.reduceOption_cons_of_some, outputs_cons,
                emitted]

end Cascade

section Faults

/-- The final state and the outputs of a machine whose steps can fault, if none of them does. -/
def faultingRun (step : σ → ι → Option (σ × ο)) : σ → List ι → Option (σ × List ο)
  | s, [] => some (s, [])
  | s, x :: xs =>
      (step s x).bind fun next =>
        (faultingRun step next.1 xs).map fun rest => (rest.1, next.2 :: rest.2)

/-- Every input is one the machine may get where it gets it. -/
def allowed (step' : τ → ι → τ × ο) (ok : τ → ι → Bool) : τ → List ι → Bool
  | _, [] => true
  | t, x :: xs => ok t x && allowed step' ok (step' t x).1 xs

/-- **Exactly the faults that are known**: a machine whose steps fault exactly on the inputs that
are not allowed, and otherwise do what the steps of one that cannot fault do, faults in exactly the
runs with such an input, and otherwise emits the same. -/
theorem faultingRun_exact {step : σ → ι → Option (σ × ο)} {step' : τ → ι → τ × ο}
    {ok : τ → ι → Bool} {R : σ → τ → Prop} {xs : List ι}
    (sim : ∀ s t, ∀ x ∈ xs, R s t → ok t x = true →
      ∃ s', step s x = some (s', (step' t x).2) ∧ R s' (step' t x).1)
    (faults : ∀ s t, ∀ x ∈ xs, R s t → ok t x = false → step s x = none)
    {s : σ} {t : τ} (h : R s t) :
    (allowed step' ok t xs = true → ∃ s', faultingRun step s xs = some (s', outputs step' t xs) ∧
        R s' (after step' t xs)) ∧
      (allowed step' ok t xs = false → faultingRun step s xs = none) := by
  induction xs generalizing s t with
  | nil => exact ⟨fun _ => ⟨s, rfl, h⟩, Bool.noConfusion⟩
  | cons x xs ih =>
      have later {s : σ} {t : τ} :=
        ih (s := s) (t := t) (fun s t y hy => sim s t y (List.mem_cons_of_mem _ hy))
          fun s t y hy => faults s t y (List.mem_cons_of_mem _ hy)
      cases here : ok t x with
      | false =>
          rw [allowed, here, Bool.false_and, faultingRun,
            faults s t x List.mem_cons_self h here]
          exact ⟨Bool.noConfusion, fun _ => rfl⟩
      | true =>
          obtain ⟨next, stepped, related⟩ := sim s t x List.mem_cons_self h here
          obtain ⟨returns, faulted⟩ := later related
          rw [allowed, here, Bool.true_and, faultingRun, stepped, Option.bind_some]
          constructor
          · intro fine
            obtain ⟨final, ran, end_related⟩ := returns fine
            rw [ran, Option.map_some, outputs_cons]
            exact ⟨final, rfl, end_related⟩
          · intro refused
            rw [faulted refused, Option.map_none]

/-- **Refinement of the runs without a fault**: what they emit matches what the other machine
emits. -/
theorem faultingRun_simulation {π : Type*} {step : σ → ι → Option (σ × ο)}
    {step' : τ → ι → τ × π} {R : σ → τ → Prop} {M : ο → π → Prop} {xs : List ι}
    (sim : ∀ s t, ∀ x ∈ xs, R s t → ∀ next, step s x = some next →
      R next.1 (step' t x).1 ∧ M next.2 (step' t x).2)
    {s s' : σ} {t : τ} (h : R s t) {os : List ο} (ran : faultingRun step s xs = some (s', os)) :
    R s' (after step' t xs) ∧ List.Forall₂ M os (outputs step' t xs) := by
  induction xs generalizing s t os with
  | nil =>
      cases ran
      exact ⟨h, .nil⟩
  | cons x xs ih =>
      obtain ⟨next, stepped, mapped⟩ := Option.bind_eq_some_iff.mp ran
      obtain ⟨rest, later, same⟩ := Option.map_eq_some_iff.mp mapped
      cases same
      obtain ⟨related, emitted⟩ := sim s t x List.mem_cons_self h next stepped
      obtain ⟨final, others⟩ :=
        ih (fun s t y hy => sim s t y (List.mem_cons_of_mem _ hy)) related later
      exact ⟨final, .cons emitted others⟩

/-- What an input has to be for a match in whatever states, every input of a matching run is. -/
theorem forall_of_faultingRun {π : Type*} {step : σ → ι → Option (σ × ο)}
    {step' : τ → ι → τ × π} {M : ο → π → Prop} {P : ι → Prop}
    (forced : ∀ s t x next, step s x = some next → M next.2 (step' t x).2 → P x)
    {xs : List ι} {s s' : σ} {t : τ} {os : List ο}
    (ran : faultingRun step s xs = some (s', os))
    (matching : List.Forall₂ M os (outputs step' t xs)) : ∀ x ∈ xs, P x := by
  induction xs generalizing s t os with
  | nil => simp
  | cons x xs ih =>
      obtain ⟨next, stepped, mapped⟩ := Option.bind_eq_some_iff.mp ran
      obtain ⟨rest, later, same⟩ := Option.map_eq_some_iff.mp mapped
      cases same
      obtain ⟨here, others⟩ := List.forall₂_cons.mp matching
      exact List.forall_mem_cons.mpr ⟨forced s t x next stepped here, ih later others⟩

end Faults

end SmartScale.Transducer
