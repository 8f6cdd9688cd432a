import SmartScale.Base.CriticalSection

/-!
Code over a shared state, one statement at a time, for parties that run it between taking a lock
and giving it back.

* `Code` is a monad with the state's operations, so that code is written statement by statement;
  `Code.run` executes all of it at once.
* `Code.refined_states`: under the lock, code that refines a transducer when run at once refines it
  in every interleaving of its statements.
* `Code.interrupted`: without a lock, other code may run between any two statements.
-/

namespace SmartScale.Statements

open SmartScale.Schedule SmartScale.CriticalSection SmartScale.Transducer

/-- What is left to execute: nothing but the result, or a statement and what follows it, which may
depend on the state the statement found. -/
inductive Code (σ ρ : Type) where
  | done (r : ρ)
  | more (next : σ → σ) (rest : σ → Code σ ρ)

variable {σ α ρ υ : Type}

/-- All statements, undisturbed. -/
def Code.run : Code σ ρ → σ → σ × ρ
  | .done r, s => (s, r)
  | .more next rest, s => (rest s).run (next s)

/-- One piece of code after another. -/
def Code.bind : Code σ ρ → (ρ → Code σ υ) → Code σ υ
  | .done r, f => f r
  | .more next rest, f => .more next fun s => (rest s).bind f

instance : Monad (Code σ) where
  pure := .done
  bind := .bind

/-- A statement that reads the state. -/
def Code.read (f : σ → ρ) : Code σ ρ := .more id fun s => .done (f s)

/-- A condition that is looked at. -/
def Code.test (p : σ → Bool) : Code σ Bool := .read p

/-- A statement that changes the state. -/
def Code.change (f : σ → σ) : Code σ Unit := .more f fun _ => .done ()

section Run

variable {s : σ} {f : σ → σ} {g : σ → ρ} {r : ρ}

@[simp] theorem Code.run_pure : (pure r : Code σ ρ).run s = (s, r) := rfl

@[simp] theorem Code.run_read : (Code.read g).run s = (s, g s) := rfl

@[simp] theorem Code.run_test {p : σ → Bool} : (Code.test p).run s = (s, p s) := rfl

@[simp] theorem Code.run_change : (Code.change f).run s = (f s, ()) := rfl

@[simp] theorem Code.run_bind (c : Code σ ρ) (k : ρ → Code σ υ) :
    (c >>= k).run s = (k (c.run s).2).run (c.run s).1 := by
  induction c generalizing s with
  | done r => rfl
  | more next rest ih => exact ih s

@[simp] theorem Code.run_ite {p : Prop} [Decidable p] (c d : Code σ ρ) :
    (if p then c else d).run s = if p then c.run s else d.run s := by
  split <;> rfl

end Run

/-! ### Under a lock -/

/-- The sections that execute `code`. -/
def Code.sections (code : α → Code σ ρ) : Sections σ α (Code σ ρ) ρ Unit where
  enter := code
  step s c _ :=
    match c with
    | .done r => (s, .inr r)
    | .more next rest => (next s, .inl (rest s))

/-- A section leaves what its code leaves, run at once. -/
theorem Code.completes_run {code : α → Code σ ρ} {a : α} {s t : σ} {r : ρ}
    (completes : Completes (Code.sections code) s (code a) t r) : (code a).run s = (t, r) := by
  refine completes.rule (P := fun u c => (code a).run s = c.run u)
    (Q := fun t r => (code a).run s = (t, r)) rfl ?_
  intro u c _ same
  cases c with
  | done r => exact same
  | more next rest => exact same

/-- **Refinement in every interleaving.** -/
theorem Code.refined_states {τ ο : Type} [DecidableEq τ] {code : α → Code σ ρ}
    {spec : υ → α → υ × ο} {R : σ → υ → Prop} {M : ρ → ο → Prop} {s₀ : σ} {v : υ}
    (start : R s₀ v)
    (sim : ∀ s v a, R s v →
      R ((code a).run s).1 (spec v a).1 ∧ M ((code a).run s).2 (spec v a).2)
    (actions : List (Action τ α Unit)) :
    AllStates (step (Code.sections code)) (Refined spec R M v) (.start s₀) actions := by
  refine (serial_states _ s₀ actions).mono ?_
  intro s serialised
  refine serialised.refines start ?_
  intro s v a t r related completes
  have next := sim s v a related
  rwa [Code.completes_run completes] at next

/-- Code that computes `spec` when run at once computes runs of it in every interleaving. -/
theorem Code.sequential_states {τ : Type} [DecidableEq τ] {code : α → Code σ ρ}
    {spec : σ → α → σ × ρ} (computes : ∀ s a, (code a).run s = spec s a) (s₀ : σ)
    (actions : List (Action τ α Unit)) :
    AllStates (step (Code.sections code))
      (fun s => s.finished.map Prod.snd = outputs spec s₀ (s.finished.map Prod.fst) ∧
        (s.free = true → s.shared = after spec s₀ (s.finished.map Prod.fst)))
      (.start s₀) actions := by
  have refined : AllStates (step (Code.sections code)) (Refined spec Eq Eq s₀) (.start s₀)
      actions := by
    refine Code.refined_states rfl ?_ actions
    rintro s _ a rfl
    rw [computes]
    exact ⟨rfl, rfl⟩
  refine refined.mono ?_
  intro s refined
  exact ⟨List.forall₂_eq_eq_eq ▸ refined.results, refined.free⟩

/-! ### Without a lock -/

/-- Code runs to its end. -/
theorem Code.completes {code : α → Code σ ρ} (c : Code σ ρ) (s : σ) :
    Completes (Code.sections code) s c (c.run s).1 (c.run s).2 := by
  induction c generalizing s with
  | done r => exact ⟨s, .done r, (), .here, rfl⟩
  | more next rest ih => exact (ih s (next s)).of_step (x := ()) rfl

/-- The first `n` statements: the state after them, and what is left to execute. -/
def Code.advance : ℕ → Code σ ρ → σ → σ × Code σ ρ
  | n + 1, .more next rest, s => (rest s).advance n (next s)
  | _, c, s => (s, c)

section Advance

variable {s : σ} {f : σ → σ} {g : σ → ρ} {p : σ → Bool} {n : ℕ}

@[simp] theorem Code.advance_zero (c : Code σ ρ) : c.advance 0 s = (s, c) := by
  cases c <;> rfl

@[simp] theorem Code.advance_change (k : Unit → Code σ υ) :
    (Code.change f >>= k).advance (n + 1) s = (k ()).advance n (f s) := rfl

@[simp] theorem Code.advance_read (k : ρ → Code σ υ) :
    (Code.read g >>= k).advance (n + 1) s = (k (g s)).advance n s := rfl

@[simp] theorem Code.advance_test (k : Bool → Code σ υ) :
    (Code.test p >>= k).advance (n + 1) s = (k (p s)).advance n s := rfl

theorem Code.bind_assoc {φ : Type} (c : Code σ ρ) (k : ρ → Code σ υ) (l : υ → Code σ φ) :
    c >>= k >>= l = c >>= fun r => k r >>= l := by
  induction c with
  | done r => rfl
  | more next rest ih => exact congrArg (Code.more next) (funext ih)

end Advance

theorem Code.advance_reaches {code : α → Code σ ρ} (n : ℕ) (c : Code σ ρ) (s : σ) :
    Reaches (Code.sections code) s c (c.advance n s).1 (c.advance n s).2 := by
  induction n generalizing c s with
  | zero => exact .here
  | succ n ih =>
      cases c with
      | done r => exact .here
      | more next rest => exact (ih (rest s) (next s)).of_step (x := ()) rfl

/-- **Interruption**: without a lock, a whole call may run after the first `n` statements of
another. -/
theorem Code.interrupted {τ : Type} [DecidableEq τ] [Nontrivial τ] (code : α → Code σ ρ) (n : ℕ)
    (s : σ) (a b : α) :
    let paused := (code a).advance n s
    let amid := (code b).run paused.1
    let ended := paused.2.run amid.1
    ∃ w : CriticalSection.State τ σ α (Code σ ρ) ρ,
      Leads (step (Code.sections code)) (.startWith false s) w ∧
        w.free = true ∧ w.shared = ended.1 ∧ w.finished = [(b, amid.2), (a, ended.2)] := by
  obtain ⟨p, q, other⟩ := exists_pair_ne τ
  exact (Code.advance_reaches n (code a) s).interrupted other.symm (Code.completes _ _)
    (Code.completes _ _)

end SmartScale.Statements
