import Mathlib.Data.List.Basic
import Mathlib.Data.Set.Defs

/-!
Transition systems under a schedule of actions: `step s a` is the next state when
action `a` is enabled in `s`, and `none` otherwise. A schedule runs until it ends
or an action is disabled.

* `AllSteps` and `AllStates` say what holds of every step taken and of every state
  visited by a schedule; `allStates_of_invariant` is the invariant rule.
* `allSteps_iff_allStates` finds the exact condition on the steps for a property of
  the states, from an invariant and one step.
* `stateAt` follows a schedule without end, which skips what is disabled;
  `Fair.eventually` is the rule for what a fair one comes to.
-/

namespace SmartScale.Schedule

variable {σ α : Type*}

/-- The state a schedule leads to; `none` if one of its actions is disabled. -/
def run (step : σ → α → Option σ) : σ → List α → Option σ
  | s, [] => some s
  | s, a :: as => (step s a).bind fun t => run step t as

/-- Every step the schedule takes satisfies `ok` in the state it is taken from. -/
def AllSteps (step : σ → α → Option σ) (ok : σ → α → Prop) : σ → List α → Prop
  | _, [] => True
  | s, a :: as => ∀ t, step s a = some t → ok s a ∧ AllSteps step ok t as

/-- Every state the schedule visits, the first included, satisfies `P`. -/
def AllStates (step : σ → α → Option σ) (P : σ → Prop) : σ → List α → Prop
  | s, [] => P s
  | s, a :: as => P s ∧ ∀ t, step s a = some t → AllStates step P t as

variable {step : σ → α → Option σ} {ok : σ → α → Prop} {I P : σ → Prop} {s t : σ}

theorem allSteps_cons_of_eq {a : α} {as : List α} (enabled : step s a = some t) :
    AllSteps step ok s (a :: as) ↔ ok s a ∧ AllSteps step ok t as := by
  constructor
  · exact fun all => all t enabled
  · intro both u enabled'
    rw [enabled, Option.some.injEq] at enabled'
    exact enabled' ▸ both

theorem allSteps_cons_of_none {a : α} {as : List α} (disabled : step s a = none) :
    AllSteps step ok s (a :: as) := by
  intro t enabled
  rw [disabled] at enabled
  cases enabled

instance decidableAllSteps [∀ s a, Decidable (ok s a)] :
    ∀ s as, Decidable (AllSteps step ok s as)
  | _, [] => instDecidableTrue
  | s, a :: as =>
    match enabled : step s a with
    | none => .isTrue (allSteps_cons_of_none enabled)
    | some t =>
      let _ := decidableAllSteps t as
      decidable_of_iff _ (allSteps_cons_of_eq enabled).symm

theorem AllStates.first {as : List α} (all : AllStates step P s as) : P s := by
  cases as with
  | nil => exact all
  | cons a as => exact all.1

/-- What holds of every state visited holds of the one a run ends in. -/
theorem AllStates.of_run {as : List α} (all : AllStates step P s as)
    (ends : run step s as = some t) : P t := by
  induction as generalizing s with
  | nil =>
      cases ends
      exact all
  | cons a as ih =>
      obtain ⟨u, enabled, rest⟩ := Option.bind_eq_some_iff.mp ends
      exact ih (all.2 u enabled) rest

theorem run_append (as bs : List α) :
    run step s (as ++ bs) = (run step s as).bind fun t => run step t bs := by
  induction as generalizing s with
  | nil => rfl
  | cons a as ih =>
      rw [List.cons_append, run, run, Option.bind_assoc]
      congr 1
      funext t
      exact ih

/-- Some schedule leads from `s` to `t`. -/
def Leads (step : σ → α → Option σ) (s t : σ) : Prop := ∃ as, run step s as = some t

theorem Leads.refl : Leads step s s := ⟨[], rfl⟩

theorem Leads.of_step {a : α} (enabled : step s a = some t) : Leads step s t :=
  ⟨[a], by rw [run, enabled]; rfl⟩

theorem Leads.trans {u : σ} (first : Leads step s t) (second : Leads step t u) :
    Leads step s u := by
  obtain ⟨as, run_as⟩ := first
  obtain ⟨bs, run_bs⟩ := second
  refine ⟨as ++ bs, ?_⟩
  rw [run_append, run_as, Option.bind_some, run_bs]

/-- What every schedule keeps to holds wherever one leads. -/
theorem Leads.of_allStates (leads : Leads step s t) (all : ∀ as, AllStates step P s as) : P t := by
  obtain ⟨as, ends⟩ := leads
  exact (all as).of_run ends

/-- Only the steps on the actions of the schedule matter. -/
theorem run_congr {step' : σ → α → Option σ} {as : List α}
    (same : ∀ s, ∀ a ∈ as, step' s a = step s a) : run step' s as = run step s as := by
  induction as generalizing s with
  | nil => rfl
  | cons a as ih =>
      rw [run, run, same s a List.mem_cons_self]
      congr 1
      funext t
      exact ih fun s b hb => same s b (List.mem_cons_of_mem a hb)

theorem AllStates.of_append {as bs : List α} (all : AllStates step P s (as ++ bs)) :
    AllStates step P s as := by
  induction as generalizing s with
  | nil => exact all.first
  | cons a as ih => exact ⟨all.1, fun t enabled => ih (all.2 t enabled)⟩

theorem AllStates.mono {Q : σ → Prop} {as : List α} (imp : ∀ s, P s → Q s)
    (all : AllStates step P s as) : AllStates step Q s as := by
  induction as generalizing s with
  | nil => exact imp s all
  | cons a as ih => exact ⟨imp s all.1, fun t enabled => ih (all.2 t enabled)⟩

/-- What every step keeps holds in every state visited. -/
theorem allStates_of_invariant (kept : ∀ s a t, I s → step s a = some t → I t) (inv : I s)
    (as : List α) : AllStates step I s as := by
  induction as generalizing s with
  | nil => exact inv
  | cons a as ih => exact ⟨inv, fun t enabled => ih (kept s a t inv enabled)⟩

/-- **Exact conditions.** If, from states with the invariant and `P`, a step keeps
the invariant and is `ok` exactly when `P` holds after it, then a schedule takes
only `ok` steps exactly when `P` holds in every state it visits. -/
theorem allSteps_iff_allStates
    (exact_step : ∀ s a t, I s → P s → step s a = some t → I t ∧ (ok s a ↔ P t))
    (inv : I s) (init : P s) (as : List α) :
    AllSteps step ok s as ↔ AllStates step P s as := by
  induction as generalizing s with
  | nil => exact iff_of_true trivial init
  | cons a as ih =>
      constructor
      · intro steps
        refine ⟨init, ?_⟩
        intro t enabled
        obtain ⟨allowed, rest⟩ := steps t enabled
        obtain ⟨next, same⟩ := exact_step s a t inv init enabled
        exact (ih next (same.mp allowed)).mp rest
      · rintro ⟨_, states⟩ t enabled
        obtain ⟨next, same⟩ := exact_step s a t inv init enabled
        have rest := states t enabled
        have holds : P t := rest.first
        exact ⟨same.mpr holds, (ih next holds).mpr rest⟩

/-! ### Schedules without end -/

/-- The state before the `n`-th action of a schedule without end; what is disabled when its turn
comes is skipped. -/
def stateAt (step : σ → α → Option σ) (s : σ) (schedule : ℕ → α) : ℕ → σ
  | 0 => s
  | n + 1 => (step (stateAt step s schedule n) (schedule n)).getD (stateAt step s schedule n)

/-- The turn of each of `actions` comes again and again. -/
def Fair (actions : Set α) (schedule : ℕ → α) : Prop :=
  ∀ a ∈ actions, ∀ n, ∃ m, n ≤ m ∧ schedule m = a

theorem stateAt_succ_of_eq {schedule : ℕ → α} {n : ℕ}
    (enabled : step (stateAt step s schedule n) (schedule n) = some t) :
    stateAt step s schedule (n + 1) = t := by
  rw [stateAt, enabled, Option.getD_some]

/-- What every step keeps holds at all times. -/
theorem stateAt_invariant (kept : ∀ s a t, I s → step s a = some t → I t) (inv : I s)
    (schedule : ℕ → α) (n : ℕ) : I (stateAt step s schedule n) := by
  induction n with
  | zero => exact inv
  | succ n ih =>
      cases enabled : step (stateAt step s schedule n) (schedule n) with
      | none =>
          rw [stateAt, enabled, Option.getD_none]
          exact ih
      | some t =>
          rw [stateAt_succ_of_eq enabled]
          exact kept _ _ t ih enabled

section Progress

variable {goal : σ → Prop} {rank : σ → ℕ} {helpful : ℕ → α} {actions : Set α} {schedule : ℕ → α}

/-- Between two times either the goal is met or the rank has not grown. -/
theorem goal_or_rank_le (kept : ∀ s a t, I s → step s a = some t → I t)
    (down : ∀ s a t, I s → step s a = some t → goal t ∨ rank t ≤ rank s) (inv : I s) (n k : ℕ) :
    (∃ m, goal (stateAt step s schedule m)) ∨
      rank (stateAt step s schedule (n + k)) ≤ rank (stateAt step s schedule n) := by
  induction k with
  | zero => exact .inr (Nat.le_refl _)
  | succ k ih =>
      rcases ih with met | below
      · exact .inl met
      cases enabled : step (stateAt step s schedule (n + k)) (schedule (n + k)) with
      | none =>
          right
          rw [← Nat.add_assoc, stateAt, enabled, Option.getD_none]
          exact below
      | some t =>
          have here := stateAt_invariant kept inv schedule (n + k)
          rcases down _ _ t here enabled with met | lower
          · exact .inl ⟨n + k + 1, stateAt_succ_of_eq enabled ▸ met⟩
          · right
            rw [← Nat.add_assoc, stateAt_succ_of_eq enabled]
            exact Nat.le_trans lower below

/-- **Progress.** Where no step leads away from the goal, and short of it one action, which the
rank tells, leads closer, a fair schedule comes to the goal. -/
theorem Fair.eventually (goal : σ → Prop) (rank : σ → ℕ) (helpful : ℕ → α)
    (fair : Fair actions schedule) (kept : ∀ s a t, I s → step s a = some t → I t)
    (down : ∀ s a t, I s → step s a = some t → goal t ∨ rank t ≤ rank s)
    (helps : ∀ s, I s → goal s ∨ helpful (rank s) ∈ actions ∧
      ∃ t, step s (helpful (rank s)) = some t ∧ (goal t ∨ rank t < rank s))
    (inv : I s) : ∃ n, goal (stateAt step s schedule n) := by
  -- From any time on, by induction on the rank then.
  have from_time (r : ℕ) : ∀ n, rank (stateAt step s schedule n) = r →
      ∃ m, goal (stateAt step s schedule m) := by
    induction r using Nat.strongRecOn with
    | ind r ih =>
        intro n ranked
        have here := stateAt_invariant kept inv schedule n
        rcases helps _ here with met | ⟨fairly, -⟩
        · exact ⟨n, met⟩
        obtain ⟨m, later, turn⟩ := fair _ fairly n
        obtain ⟨k, rfl⟩ := Nat.exists_eq_add_of_le later
        rcases goal_or_rank_le kept down inv n k with met | below
        · exact met
        rcases Nat.lt_or_eq_of_le below with lower | same
        · exact ih _ (ranked ▸ lower) (n + k) rfl
        rcases helps _ (stateAt_invariant kept inv schedule (n + k)) with met | ⟨-, t, enabled, on⟩
        · exact ⟨n + k, met⟩
        rw [same, ← turn] at enabled
        rcases on with met | lower
        · exact ⟨n + k + 1, stateAt_succ_of_eq enabled ▸ met⟩
        · refine ih _ ?_ (n + k + 1) rfl
          rw [stateAt_succ_of_eq enabled, ← ranked, ← same]
          exact lower
  exact from_time _ 0 rfl

end Progress

end SmartScale.Schedule
