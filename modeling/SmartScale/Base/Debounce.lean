import SmartScale.Base.Transducer
import Mathlib.Data.List.Infix
import Mathlib.Data.List.ReduceOption

/-!
Exact debouncing of a two-level signal with hysteresis, over any type of inputs.

The abstract debouncer remembers its level and the inputs since it entered it. It
changes level exactly at the input that completes `n` consecutive inputs asking
for the other level (`rise` from low, `fall` from high), and emits an edge there.

* `le_trailing_iff`: the length of the trailing run is at least `n` when the last
  `n` inputs satisfy the predicate.
* `alternates_outputs`: edges alternate, starting with `up` from low.
* `run_of_edge`: each edge ends a run of `n` inputs.
* `outputs_eq_succ_iff`: asking for `n` or for `n + 1` inputs can be told apart
  exactly by the signals with `n` consecutive rising inputs.
* `after_run_leaves`: `n` inputs in a row that ask to leave a level leave it behind.
-/

namespace SmartScale.Debounce

open Transducer

variable {α : Type*}

/-! ### Trailing runs -/

/-- The length of the run of `p` at the end of `xs`. -/
def trailing (p : α → Bool) (xs : List α) : Nat := (xs.reverse.takeWhile p).length

/-- Some `n` consecutive entries of `xs` satisfy `p`. -/
def HasRun (p : α → Bool) (n : Nat) (xs : List α) : Prop :=
  ∃ run, run <:+: xs ∧ run.length = n ∧ ∀ x ∈ run, p x = true

/-- The last `n` entries of `xs` satisfy `p`. -/
def EndsInRun (p : α → Bool) (n : Nat) (xs : List α) : Prop :=
  ∃ run, run <:+ xs ∧ run.length = n ∧ ∀ x ∈ run, p x = true

section Trailing

variable {p : α → Bool} {n : Nat} {xs ys : List α} {x : α}

@[simp] theorem trailing_nil : trailing p [] = 0 := rfl

theorem trailing_concat :
    trailing p (xs ++ [x]) = if p x = true then trailing p xs + 1 else 0 := by
  rw [trailing, trailing, List.reverse_append, List.reverse_singleton, List.singleton_append,
    List.takeWhile_cons]
  cases p x <;> simp

theorem trailing_concat_of_pos (h : p x = true) :
    trailing p (xs ++ [x]) = trailing p xs + 1 := by
  rw [trailing_concat, if_pos h]

theorem trailing_concat_of_neg (h : p x = false) : trailing p (xs ++ [x]) = 0 := by
  rw [trailing_concat, if_neg (by simp [h])]

theorem concat_suffix_concat_iff {a b : α} :
    ys ++ [a] <:+ xs ++ [b] ↔ ys <:+ xs ∧ a = b := by
  have len : [a].length = [b].length := rfl
  rw [List.suffix_append_inj_of_length_eq len, List.singleton_inj]

theorem endsInRun_zero : EndsInRun p 0 xs := ⟨[], List.nil_suffix, rfl, by simp⟩

/-- A run that ends in one more entry is a run before it, and that entry. -/
theorem endsInRun_concat_succ_iff :
    EndsInRun p (n + 1) (xs ++ [x]) ↔ p x = true ∧ EndsInRun p n xs := by
  constructor
  · rintro ⟨run, suffix, len, all⟩
    rcases List.eq_nil_or_concat run with rfl | ⟨init, last, rfl⟩
    · cases len
    · rw [List.concat_eq_append] at suffix len all
      obtain ⟨inits, same⟩ := concat_suffix_concat_iff.mp suffix
      have lastTrue := all last (List.mem_append_right _ List.mem_cons_self)
      rw [same] at lastTrue
      exact ⟨lastTrue, init, inits, by simpa using len,
        fun y hy => all y (List.mem_append_left _ hy)⟩
  · rintro ⟨hx, run, suffix, rfl, all⟩
    refine ⟨run ++ [x], concat_suffix_concat_iff.mpr ⟨suffix, rfl⟩, by simp, ?_⟩
    intro y hy
    rcases List.mem_append.mp hy with hy | hy
    · exact all y hy
    · exact (List.mem_singleton.mp hy) ▸ hx

/-- The trailing run is the longest one: it has length at least `n` exactly when
the last `n` entries satisfy `p`. -/
theorem le_trailing_iff : n ≤ trailing p xs ↔ EndsInRun p n xs := by
  induction xs using List.reverseRecOn generalizing n with
  | nil =>
      constructor
      · intro h
        rw [Nat.le_zero.mp h]
        exact endsInRun_zero
      · rintro ⟨run, suffix, rfl, _⟩
        simpa using suffix.length_le
  | append_singleton xs x ih =>
      cases n with
      | zero => exact iff_of_true (Nat.zero_le _) endsInRun_zero
      | succ n =>
          rw [endsInRun_concat_succ_iff, ← ih]
          cases hx : p x with
          | true =>
              rw [trailing_concat_of_pos hx, Nat.add_le_add_iff_right]
              exact (and_iff_right rfl).symm
          | false =>
              rw [trailing_concat_of_neg hx]
              exact iff_of_false (Nat.not_succ_le_zero n) fun both => Bool.false_ne_true both.1

theorem EndsInRun.of_suffix (h : EndsInRun p n ys) (suffix : ys <:+ xs) : EndsInRun p n xs := by
  obtain ⟨run, inner, len, all⟩ := h
  exact ⟨run, inner.trans suffix, len, all⟩

/-- A longer run contains the shorter one. -/
theorem EndsInRun.mono {m : Nat} (h : EndsInRun p n xs) (le : m ≤ n) : EndsInRun p m xs :=
  le_trailing_iff.mp (le.trans (le_trailing_iff.mpr h))

theorem EndsInRun.hasRun (h : EndsInRun p n xs) : HasRun p n xs := by
  obtain ⟨run, suffix, len, all⟩ := h
  exact ⟨run, suffix.isInfix, len, all⟩

/-- A run is completed by the last entry or was there before. -/
theorem hasRun_concat_iff : HasRun p n (xs ++ [x]) ↔ EndsInRun p n (xs ++ [x]) ∨ HasRun p n xs := by
  constructor
  · rintro ⟨run, inside, len, all⟩
    rcases List.infix_concat_iff.mp inside with ends | before
    · exact .inl ⟨run, ends, len, all⟩
    · exact .inr ⟨run, before, len, all⟩
  · rintro (ends | ⟨run, before, len, all⟩)
    · exact ends.hasRun
    · exact ⟨run, before.trans (List.infix_append' [] xs [x]), len, all⟩

theorem HasRun.append (h : HasRun p n xs) (ys : List α) : HasRun p n (xs ++ ys) := by
  obtain ⟨run, inside, len, all⟩ := h
  exact ⟨run, inside.trans (List.prefix_append xs ys).isInfix, len, all⟩

end Trailing

/-! ### The abstract debouncer -/

inductive Level where
  | low
  | high
deriving DecidableEq, Repr

inductive Edge where
  | up
  | down
deriving DecidableEq, Repr

/-- The level and the inputs since it was entered. -/
structure State (α : Type*) where
  level : Level
  since : List α

/-- Low, with no input seen. -/
def start : State α := ⟨.low, []⟩

/-- Consume one input. The output is the level afterwards and the edge, if this
input completed a run of `n`. -/
def step (rise fall : α → Bool) (n : Nat) (s : State α) (x : α) :
    State α × (Level × Option Edge) :=
  match s.level with
  | .low =>
      if n ≤ trailing rise (s.since ++ [x]) then (⟨.high, []⟩, .high, some .up)
      else (⟨.low, s.since ++ [x]⟩, .low, none)
  | .high =>
      if n ≤ trailing fall (s.since ++ [x]) then (⟨.low, []⟩, .low, some .down)
      else (⟨.high, s.since ++ [x]⟩, .high, none)

/-- The level on the other side. -/
def Level.other : Level → Level
  | .low => .high
  | .high => .low

/-- The edge that leaves a level. -/
def Level.edge : Level → Edge
  | .low => .up
  | .high => .down

/-- The inputs that ask to leave a level. -/
def Level.asks (rise fall : α → Bool) : Level → α → Bool
  | .low => rise
  | .high => fall

section Steps

variable {rise fall : α → Bool} {n : Nat} {xs : List α} {x : α}

theorem step_stays (level : Level) (h : ¬ n ≤ trailing (level.asks rise fall) (xs ++ [x])) :
    step rise fall n ⟨level, xs⟩ x = (⟨level, xs ++ [x]⟩, level, none) := by
  cases level with
  | low => exact if_neg h
  | high => exact if_neg h

theorem step_leaves (level : Level) (h : n ≤ trailing (level.asks rise fall) (xs ++ [x])) :
    step rise fall n ⟨level, xs⟩ x = (⟨level.other, []⟩, level.other, some level.edge) := by
  cases level with
  | low => exact if_pos h
  | high => exact if_pos h

end Steps

/-! ### What runs emit -/

/-- `es` alternates, starting with the edge that leaves `level`. -/
def Alternates : Level → List Edge → Prop
  | _, [] => True
  | .low, .up :: es => Alternates .high es
  | .high, .down :: es => Alternates .low es
  | .low, .down :: _ => False
  | .high, .up :: _ => False

/-- The edges of a list of outputs, in order. -/
def edges (os : List (Level × Option Edge)) : List Edge := os.filterMap Prod.snd

section Runs

variable {rise fall : α → Bool} {n : Nat}

theorem alternates_edge_cons (level : Level) (es : List Edge) :
    Alternates level (level.edge :: es) ↔ Alternates level.other es := by
  cases level with
  | low => exact Iff.rfl
  | high => exact Iff.rfl

/-- **Edges alternate** in every run. -/
theorem alternates_outputs (s : State α) (xs : List α) :
    Alternates s.level (edges (outputs (step rise fall n) s xs)) := by
  induction xs generalizing s with
  | nil => trivial
  | cons x xs ih =>
      obtain ⟨level, since⟩ := s
      by_cases complete : n ≤ trailing (level.asks rise fall) (since ++ [x])
      · rw [outputs_cons, step_leaves level complete]
        apply (alternates_edge_cons level _).mpr
        exact ih ⟨level.other, []⟩
      · rw [outputs_cons, step_stays level complete]
        exact ih ⟨level, since ++ [x]⟩

/-- In an alternating list from low, exactly the edges at even places are up. -/
theorem Alternates.getElem?_iff {es : List Edge} :
    (Alternates .low es → ∀ i e, es[i]? = some e → (e = .up ↔ i % 2 = 0)) ∧
      (Alternates .high es → ∀ i e, es[i]? = some e → (e = .up ↔ i % 2 = 1)) := by
  induction es with
  | nil => simp
  | cons first es ih =>
      constructor
      · intro alternates i e hi
        cases first with
        | down => cases alternates
        | up =>
            cases i with
            | zero => simpa using hi.symm
            | succ i =>
                have rest := ih.2 alternates i e (by simpa using hi)
                rw [rest]
                omega
      · intro alternates i e hi
        cases first with
        | up => cases alternates
        | down =>
            cases i with
            | zero =>
                have same : e = .down := by simpa using hi.symm
                simp [same]
            | succ i =>
                have rest := ih.1 alternates i e (by simpa using hi)
                rw [rest]
                omega

/-- What the debouncer remembers is the end of what it has seen. -/
theorem since_suffix (xs : List α) : (after (step rise fall n) start xs).since <:+ xs := by
  induction xs using List.reverseRecOn with
  | nil => exact List.suffix_refl _
  | append_singleton xs x ih =>
      rw [after_append]
      generalize after (step rise fall n) start xs = s at ih
      obtain ⟨level, since⟩ := s
      have grown : since ++ [x] <:+ xs ++ [x] :=
        concat_suffix_concat_iff.mpr ⟨ih, rfl⟩
      by_cases complete : n ≤ trailing (level.asks rise fall) (since ++ [x])
      · simp [step_leaves level complete]
      · simpa [step_stays level complete] using grown

/-- **Each edge ends a run** of `n` inputs asking for it. -/
theorem run_of_edge {xs : List α} {i : Nat} {level : Level} {e : Edge}
    (h : (outputs (step rise fall n) start xs)[i]? = some (level, some e)) :
    EndsInRun (match e with | .up => rise | .down => fall) n (xs.take (i + 1)) := by
  rw [getElem?_outputs] at h
  obtain ⟨x, hx, emitted⟩ := Option.map_eq_some_iff.mp h
  have seen : xs.take (i + 1) = xs.take i ++ [x] := by
    rw [List.take_add_one, hx]
    rfl
  have suffix : (after (step rise fall n) start (xs.take i)).since ++ [x] <:+ xs.take i ++ [x] :=
    concat_suffix_concat_iff.mpr ⟨since_suffix (xs.take i), rfl⟩
  rw [seen]
  revert suffix emitted
  generalize after (step rise fall n) start (xs.take i) = s
  obtain ⟨before, since⟩ := s
  intro emitted suffix
  by_cases complete : n ≤ trailing (before.asks rise fall) (since ++ [x])
  · rw [step_leaves before complete] at emitted
    cases emitted
    have run := (le_trailing_iff.mp complete).of_suffix suffix
    cases before with
    | low => exact run
    | high => exact run
  · rw [step_stays before complete] at emitted
    cases emitted

/-- The same from any low state that has not seen `n` rising inputs in a row: the
debouncers for `n` and for `n + 1` inputs agree on `xs` exactly when `xs` does
not complete such a run. -/
theorem outputs_eq_succ_iff_from {since : List α} (fresh : ¬ HasRun rise n since) (xs : List α) :
    outputs (step rise fall n) ⟨.low, since⟩ xs = outputs (step rise fall (n + 1)) ⟨.low, since⟩ xs
      ↔ ¬ HasRun rise n (since ++ xs) := by
  induction xs generalizing since with
  | nil => simpa using fresh
  | cons x xs ih =>
      have short : trailing rise since < n := by
        by_contra long
        exact fresh (le_trailing_iff.mp (Nat.le_of_not_lt long)).hasRun
      have patient : ¬ n + 1 ≤ trailing rise (since ++ [x]) := by
        rw [trailing_concat]
        split <;> omega
      have regroup : since ++ x :: xs = since ++ [x] ++ xs := by simp
      by_cases complete : n ≤ trailing rise (since ++ [x])
      · have ran : HasRun rise n (since ++ x :: xs) := by
          rw [regroup]
          exact (le_trailing_iff.mp complete).hasRun.append xs
        rw [outputs_cons, outputs_cons, step_leaves .low complete, step_stays .low patient]
        refine iff_of_false ?_ (not_not_intro ran)
        intro same
        cases (List.cons.inj same).1
      · have still : ¬ HasRun rise n (since ++ [x]) := by
          rw [hasRun_concat_iff]
          rintro (ends | before)
          · exact complete (le_trailing_iff.mpr ends)
          · exact fresh before
        rw [outputs_cons, outputs_cons, step_stays .low complete, step_stays .low patient, regroup,
          ← ih still]
        constructor
        · intro same
          exact (List.cons.inj same).2
        · intro same
          rw [same]

/-- **Off by one.** Debouncing with `n` and with `n + 1` inputs gives the same
levels and edges exactly on signals without `n` consecutive rising inputs. -/
theorem outputs_eq_succ_iff (hn : 0 < n) (xs : List α) :
    outputs (step rise fall n) start xs = outputs (step rise fall (n + 1)) start xs ↔
      ¬ HasRun rise n xs := by
  have fresh : ¬ HasRun rise n ([] : List α) := by
    rintro ⟨run, inside, rfl, _⟩
    have := inside.length_le
    rw [List.length_nil] at this
    omega
  simpa [start] using outputs_eq_succ_iff_from fresh xs

end Runs

/-! ### Settling -/

section Settling

variable {rise fall : α → Bool} {n k : Nat} {level : Level} {s : State α} {x : α}

/-- What the debouncer has seen in a row of `k` inputs asking to leave `level`. -/
def Leaving (rise fall : α → Bool) (level : Level) (k : Nat) (s : State α) : Prop :=
  (s.level = level ∧ k ≤ trailing (level.asks rise fall) s.since) ∨
    (s.level = level.other ∧ (0 < k → trailing (level.other.asks rise fall) s.since = 0))

/-- One step keeps the run short of `n`, since a run of `n` starts a new level. -/
theorem step_trailing_lt (hn : 0 < n) (s : State α) (x : α) :
    trailing ((step rise fall n s x).1.level.asks rise fall)
      (step rise fall n s x).1.since < n := by
  obtain ⟨level, since⟩ := s
  by_cases complete : n ≤ trailing (level.asks rise fall) (since ++ [x])
  · rw [step_leaves level complete]
    exact trailing_nil.symm ▸ hn
  · rw [step_stays level complete]
    exact Nat.lt_of_not_le complete

theorem Leaving.step (h : Leaving rise fall level k s) (hn : 0 < n)
    (asks : level.asks rise fall x = true) (calm : level.other.asks rise fall x = false) :
    Leaving rise fall level (k + 1) (step rise fall n s x).1 := by
  obtain ⟨now, since⟩ := s
  rcases h with ⟨same, seen⟩ | ⟨other, _⟩
  · obtain rfl : now = level := same
    by_cases complete : n ≤ trailing (now.asks rise fall) (since ++ [x])
    · rw [step_leaves now complete]
      exact .inr ⟨rfl, fun _ => trailing_nil⟩
    · rw [step_stays now complete]
      refine .inl ⟨rfl, ?_⟩
      rw [trailing_concat_of_pos asks]
      exact Nat.succ_le_succ seen
  · obtain rfl : now = level.other := other
    have broken : trailing (level.other.asks rise fall) (since ++ [x]) = 0 :=
      trailing_concat_of_neg calm
    rw [step_stays level.other (by omega)]
    exact .inr ⟨rfl, fun _ => broken⟩

/-- **Settling**: after `n` inputs in a row that ask to leave `level` and not to come back, the
debouncer is at the other level, and nothing asks to leave that. -/
theorem after_run_leaves (level : Level) (hn : 0 < n) {xs : List α}
    (short : trailing (s.level.asks rise fall) s.since < n) (long : n ≤ xs.length)
    (asks : ∀ x ∈ xs, level.asks rise fall x = true ∧ level.other.asks rise fall x = false) :
    (after (step rise fall n) s xs).level = level.other ∧
      trailing (level.other.asks rise fall) (after (step rise fall n) s xs).since = 0 := by
  have seen (k : Nat) (s : State α) (xs : List α) (h : Leaving rise fall level k s)
      (asks : ∀ x ∈ xs, level.asks rise fall x = true ∧ level.other.asks rise fall x = false) :
      Leaving rise fall level (k + xs.length) (after (step rise fall n) s xs) := by
    induction xs generalizing k s with
    | nil => exact h
    | cons x xs ih =>
        obtain ⟨ask, calm⟩ := asks x List.mem_cons_self
        have rest := ih (k + 1) _ (h.step hn ask calm)
          fun y hy => asks y (List.mem_cons_of_mem x hy)
        rwa [Nat.add_right_comm, Nat.add_assoc] at rest
  have zero : Leaving rise fall level 0 s := by
    by_cases same : s.level = level
    · exact .inl ⟨same, Nat.zero_le _⟩
    · refine .inr ⟨?_, fun positive => absurd positive (Nat.lt_irrefl 0)⟩
      revert same
      cases s.level <;> cases level <;> simp [Level.other]
  have bounded : trailing ((after (step rise fall n) s xs).level.asks rise fall)
      (after (step rise fall n) s xs).since < n :=
    after_invariant (I := fun s : State α => trailing (s.level.asks rise fall) s.since < n) short
      fun s x _ _ => step_trailing_lt hn s x
  rcases seen 0 s xs zero asks with ⟨same, enough⟩ | ⟨other, broken⟩
  · rw [same] at bounded
    omega
  · exact ⟨other, broken (by omega)⟩

end Settling

end SmartScale.Debounce
