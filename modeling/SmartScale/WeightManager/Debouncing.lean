import SmartScale.Base.Debounce
import SmartScale.WeightManager.Machine

/-!
The weight manager as a debouncer.

`NO_WEIGHT` and `DEBOUNCE_ADD` are the low level, `MEASURING` and
`DEBOUNCE_REMOVE` the high one. The reading that enters a debounce state is not
counted, since the counter is zeroed on that state change: the machine refines
the debouncer for `wmDebounceCount + 1` readings, not for `wmDebounceCount`.

* `exactDebounce_succ`: the log is that of exact debouncing with one more reading.
* `exact_debounce_iff`: it is that of `wmDebounceCount` readings exactly when no
  `wmDebounceCount` consecutive readings are above the wake threshold.
* `debouncing_sound`: events alternate, each ends a long enough run, the error
  state is never entered and the counter stays bounded.
-/

namespace SmartScale.WeightManager

open SmartScale.Binary32 SmartScale.Debounce SmartScale.Transducer

/-! ### One iteration of the task -/

/-- The readings that count towards an event. -/
def asksFor : WeightEvent → Value → Bool
  | .weightAdded => wakes
  | .weightRemoved => sleeps

/-- The stable state in which an event is awaited. -/
def awaits : WeightEvent → WmState
  | .weightAdded => .noWeight
  | .weightRemoved => .measuring

/-- The state in which its readings are counted. -/
def debounces : WeightEvent → WmState
  | .weightAdded => .debounceAdd
  | .weightRemoved => .debounceRemove

/-- The event awaited after it. -/
def nextEvent : WeightEvent → WeightEvent
  | .weightAdded => .weightRemoved
  | .weightRemoved => .weightAdded

section Iteration

variable {event : WeightEvent} {count : Nat} {weight : Value}

/-- The first reading asking for an event is not counted. -/
theorem process_awaits_enters (h : asksFor event weight = true) :
    processWeight ⟨awaits event, 0⟩ weight = (⟨debounces event, 0⟩, none) := by
  cases event <;> simp only [asksFor] at h <;>
    simp [processWeight, handleStateTransition, awaits, debounces, h, wmDebounceCount]

theorem process_awaits_stays (h : asksFor event weight = false) :
    processWeight ⟨awaits event, 0⟩ weight = (⟨awaits event, 0⟩, none) := by
  cases event <;> simp only [asksFor] at h <;>
    simp [processWeight, handleStateTransition, awaits, h]

theorem process_debounces_counts (h : asksFor event weight = true)
    (short : count + 1 < wmDebounceCount) :
    processWeight ⟨debounces event, count⟩ weight = (⟨debounces event, count + 1⟩, none) := by
  cases event <;> simp only [asksFor] at h <;>
    simp [processWeight, handleStateTransition, debounces, h, Nat.not_le_of_lt short]

theorem process_debounces_completes (h : asksFor event weight = true)
    (full : wmDebounceCount ≤ count + 1) :
    processWeight ⟨debounces event, count⟩ weight =
      (⟨awaits (nextEvent event), 0⟩, some ⟨event, weight⟩) := by
  cases event <;> simp only [asksFor] at h <;>
    simp [processWeight, handleStateTransition, awaits, debounces, nextEvent, h, full]

theorem process_debounces_breaks (h : asksFor event weight = false) :
    processWeight ⟨debounces event, count⟩ weight = (⟨awaits event, 0⟩, none) := by
  cases event <;> simp only [asksFor] at h <;>
    simp [processWeight, handleStateTransition, awaits, debounces, h]

end Iteration

/-! ### Refinement of the debouncer -/

/-- The level a state stands for. -/
def levelOf : WmState → Option Level
  | .noWeight | .debounceAdd => some .low
  | .measuring | .debounceRemove => some .high
  | .error => none

/-- The edge an event reports. -/
def edgeOf : WeightEvent → Edge
  | .weightAdded => .up
  | .weightRemoved => .down

/-- An iteration does what the debouncer says: it is at that level, it logs the
edge if there is one, and with the edge it enters `MEASURING` or `NO_WEIGHT`. -/
structure Matches (o : WmState × Option LogEntry) (a : Level × Option Edge) : Prop where
  level : levelOf o.1 = some a.1
  logged : o.2.map (edgeOf ∘ LogEntry.event) = a.2
  up : a.2 = some .up → o.1 = .measuring
  down : a.2 = some .down → o.1 = .noWeight

/-- The task logs and changes level as exact debouncing with `n` readings does. -/
def ExactDebounce (n : Nat) (weights : List Value) : Prop :=
  List.Forall₂ Matches (weightLog weights) (outputs (step wakes sleeps n) start weights)

/-- The level at which an event is awaited. -/
def levelBefore : WeightEvent → Level
  | .weightAdded => .low
  | .weightRemoved => .high

/-- The task against the debouncer for `wmDebounceCount + 1` readings. In a debounce
state the trailing run is one longer than the counter. -/
inductive Simulates : Wm → State Value → Prop
  | stable {event : WeightEvent} {since : List Value} : trailing (asksFor event) since = 0 →
      Simulates ⟨awaits event, 0⟩ ⟨levelBefore event, since⟩
  | counting {event : WeightEvent} {count : Nat} {since : List Value} :
      count < wmDebounceCount → trailing (asksFor event) since = count + 1 →
      Simulates ⟨debounces event, count⟩ ⟨levelBefore event, since⟩

section Matching

variable (event : WeightEvent)

theorem asks_levelBefore : (levelBefore event).asks wakes sleeps = asksFor event := by
  cases event <;> rfl

theorem levelBefore_next : levelBefore (nextEvent event) = (levelBefore event).other := by
  cases event <;> rfl

theorem matches_awaits : Matches (awaits event, none) (levelBefore event, none) := by
  cases event <;> exact ⟨rfl, rfl, nofun, nofun⟩

theorem matches_debounces : Matches (debounces event, none) (levelBefore event, none) := by
  cases event <;> exact ⟨rfl, rfl, nofun, nofun⟩

theorem matches_completes (weight : Value) :
    Matches (awaits (nextEvent event), some ⟨event, weight⟩)
      ((levelBefore event).other, some (levelBefore event).edge) := by
  cases event with
  | weightAdded => exact ⟨rfl, rfl, fun _ => rfl, nofun⟩
  | weightRemoved => exact ⟨rfl, rfl, nofun, fun _ => rfl⟩

end Matching

theorem observe_of_process {s s' : Wm} {weight : Value} {logged : Option LogEntry}
    (h : processWeight s weight = (s', logged)) :
    observe s weight = (s', s'.currentState, logged) := by
  rw [observe, h]

/-- The debouncer stays where too few readings have asked for the event. -/
theorem step_levelBefore_stays {event : WeightEvent} {n : Nat} {since : List Value}
    {weight : Value} (h : ¬ n ≤ trailing (asksFor event) (since ++ [weight])) :
    step wakes sleeps n ⟨levelBefore event, since⟩ weight =
      (⟨levelBefore event, since ++ [weight]⟩, levelBefore event, none) :=
  step_stays _ (asks_levelBefore event ▸ h)

theorem step_levelBefore_leaves {event : WeightEvent} {n : Nat} {since : List Value}
    {weight : Value} (h : n ≤ trailing (asksFor event) (since ++ [weight])) :
    step wakes sleeps n ⟨levelBefore event, since⟩ weight =
      (⟨(levelBefore event).other, []⟩, (levelBefore event).other,
        some (levelBefore event).edge) :=
  step_leaves _ (asks_levelBefore event ▸ h)

/-- **One iteration** keeps the relation and does what the debouncer does. -/
theorem simulates_step (s : Wm) (d : State Value) (weight : Value) (h : Simulates s d) :
    Simulates (observe s weight).1 (step wakes sleeps (wmDebounceCount + 1) d weight).1 ∧
      Matches (observe s weight).2 (step wakes sleeps (wmDebounceCount + 1) d weight).2 := by
  cases h with
  | @stable event since fresh =>
      have early : ¬ wmDebounceCount + 1 ≤ trailing (asksFor event) (since ++ [weight]) := by
        rw [trailing_concat, fresh]
        split <;> simp [wmDebounceCount]
      rw [step_levelBefore_stays early]
      cases asks : asksFor event weight with
      | true =>
          have first : trailing (asksFor event) (since ++ [weight]) = 0 + 1 := by
            rw [trailing_concat_of_pos asks, fresh]
          rw [observe_of_process (process_awaits_enters asks)]
          exact ⟨.counting (by simp [wmDebounceCount]) first, matches_debounces event⟩
      | false =>
          rw [observe_of_process (process_awaits_stays asks)]
          exact ⟨.stable (trailing_concat_of_neg asks), matches_awaits event⟩
  | @counting event count since below streak =>
      cases asks : asksFor event weight with
      | true =>
          have longer : trailing (asksFor event) (since ++ [weight]) = count + 1 + 1 := by
            rw [trailing_concat_of_pos asks, streak]
          by_cases full : wmDebounceCount ≤ count + 1
          · rw [observe_of_process (process_debounces_completes asks full),
              step_levelBefore_leaves (by omega)]
            refine ⟨?_, matches_completes event weight⟩
            rw [← levelBefore_next]
            exact .stable trailing_nil
          · rw [observe_of_process (process_debounces_counts asks (Nat.lt_of_not_le full)),
              step_levelBefore_stays (by omega)]
            exact ⟨.counting (Nat.lt_of_not_le full) longer, matches_debounces event⟩
      | false =>
          have broken : trailing (asksFor event) (since ++ [weight]) = 0 :=
            trailing_concat_of_neg asks
          rw [observe_of_process (process_debounces_breaks asks),
            step_levelBefore_stays (by omega)]
          exact ⟨.stable broken, matches_awaits event⟩

theorem simulates_start : Simulates Wm.start start :=
  @Simulates.stable .weightAdded [] trailing_nil

/-- The task's variables after a run, against what the debouncer remembers. -/
theorem simulates_run (weights : List Value) :
    Simulates (weightState weights)
      (after (step wakes sleeps (wmDebounceCount + 1)) start weights) :=
  (simulation simulates_step simulates_start weights).1

/-- **Refinement.** The task debounces exactly, with one reading more than
`wmDebounceCount`. -/
theorem exactDebounce_succ (weights : List Value) : ExactDebounce (wmDebounceCount + 1) weights :=
  (simulation simulates_step simulates_start weights).2

/-- An iteration matches at most one output of a debouncer. -/
theorem matches_rightUnique : Relator.RightUnique Matches := by
  rintro o ⟨level₁, edge₁⟩ ⟨level₂, edge₂⟩ h₁ h₂
  have level : level₁ = level₂ := Option.some.inj (h₁.level.symm.trans h₂.level)
  have edge : edge₁ = edge₂ := h₁.logged.symm.trans h₂.logged
  rw [level, edge]

/-- The log is that of `n` readings exactly when the debouncers for `n` and for
`wmDebounceCount + 1` readings cannot be told apart on the run. -/
theorem exactDebounce_iff_outputs_eq (n : Nat) (weights : List Value) :
    ExactDebounce n weights ↔ outputs (step wakes sleeps n) start weights =
      outputs (step wakes sleeps (wmDebounceCount + 1)) start weights := by
  constructor
  · intro exact_n
    exact List.right_unique_forall₂' matches_rightUnique exact_n (exactDebounce_succ weights)
  · intro same
    rw [ExactDebounce, same]
    exact exactDebounce_succ weights

/-- **Exact debouncing**: the task does what debouncing with `wmDebounceCount`
readings asks for exactly on the runs in which no `wmDebounceCount` consecutive
readings are above the wake threshold. -/
theorem exact_debounce_iff (weights : List Value) :
    ExactDebounce wmDebounceCount weights ↔ ¬ HasRun wakes wmDebounceCount weights := by
  rw [exactDebounce_iff_outputs_eq]
  exact outputs_eq_succ_iff (by simp [wmDebounceCount]) weights

/-- Three readings of 25 g: the event is due at the third one and not logged. -/
theorem exact_debounce_fails :
    ¬ ExactDebounce wmDebounceCount [.finite 25, .finite 25, .finite 25] := by
  intro exact_three
  have log : weightLog [.finite 25, .finite 25, .finite 25] =
      [(.debounceAdd, none), (.debounceAdd, none), (.debounceAdd, none)] := by
    decide +kernel
  have due : outputs (step wakes sleeps wmDebounceCount) start
      [.finite 25, .finite 25, .finite 25] =
      [(.low, none), (.low, none), (.high, some .up)] := by
    decide +kernel
  rw [ExactDebounce, log, due] at exact_three
  simp only [List.forall₂_cons] at exact_three
  have third := exact_three.2.2.1.logged
  cases third

/-! ### Soundness -/

/-- The logged events of a run, in order. -/
def loggedEvents (weights : List Value) : List WeightEvent :=
  (weightLog weights).filterMap fun o => o.2.map LogEntry.event

/-- Matching outputs carry the same edges. -/
theorem edges_of_matches {os : List (WmState × Option LogEntry)} {as : List (Level × Option Edge)}
    (h : List.Forall₂ Matches os as) :
    (os.filterMap fun o => o.2.map LogEntry.event).map edgeOf = edges as := by
  induction h with
  | nil => rfl
  | @cons o a os as first _ ih =>
      have head : (o.2.map LogEntry.event).map edgeOf = a.2 := by
        rw [Option.map_map]
        exact first.logged
      rw [edges, List.filterMap_cons, List.filterMap_cons, ← head]
      cases o.2 with
      | none => exact ih
      | some entry => exact congrArg _ ih

theorem edges_of_run (weights : List Value) :
    (loggedEvents weights).map edgeOf =
      edges (outputs (step wakes sleeps (wmDebounceCount + 1)) start weights) :=
  edges_of_matches (exactDebounce_succ weights)

/-- An output of a matched list has its counterpart at the same place. -/
theorem matches_getElem? {os : List (WmState × Option LogEntry)} {as : List (Level × Option Edge)}
    (h : List.Forall₂ Matches os as) {i : Nat} {o : WmState × Option LogEntry}
    (hi : os[i]? = some o) : ∃ a, as[i]? = some a ∧ Matches o a := by
  induction h generalizing i with
  | nil => simp at hi
  | cons first _ ih =>
      cases i with
      | zero =>
          cases hi
          exact ⟨_, rfl, first⟩
      | succ i => exact ih hi

/-- Added and removed alternate, starting with added. -/
theorem events_alternate (weights : List Value) (i : Nat) (event : WeightEvent)
    (hi : (loggedEvents weights)[i]? = some event) : event = .weightAdded ↔ i % 2 = 0 := by
  have mapped : ((loggedEvents weights).map edgeOf)[i]? = some (edgeOf event) := by
    rw [List.getElem?_map, hi]
    rfl
  rw [edges_of_run] at mapped
  rw [← Alternates.getElem?_iff.1 (alternates_outputs start weights) i _ mapped]
  cases event <;> simp [edgeOf]

/-- A logged event ends a run of readings asking for it. -/
theorem event_ends_run (weights : List Value) (i : Nat) (state : WmState) (entry : LogEntry)
    (hi : (weightLog weights)[i]? = some (state, some entry)) :
    EndsInRun (asksFor entry.event) (wmDebounceCount + 1) (weights.take (i + 1)) := by
  obtain ⟨⟨level, edge⟩, emitted, agrees⟩ := matches_getElem? (exactDebounce_succ weights) hi
  obtain rfl : some (edgeOf entry.event) = edge := agrees.logged
  have run := run_of_edge emitted
  cases event : entry.event with
  | weightAdded => simpa [event, edgeOf, asksFor] using run
  | weightRemoved => simpa [event, edgeOf, asksFor] using run

/-- What the relation says about the counter, and that it excludes the error state. -/
theorem Simulates.counter {s : Wm} {d : State Value} (h : Simulates s d) :
    s.currentState ≠ .error ∧
      (s.currentState = .noWeight ∨ s.currentState = .measuring → s.debounceCount = 0) ∧
      (s.currentState = .debounceAdd ∨ s.currentState = .debounceRemove →
        s.debounceCount < wmDebounceCount) := by
  cases h with
  | @stable event _ _ => cases event <;> simp [awaits]
  | @counting event _ _ below _ => cases event <;> simp [debounces, below]

/-- **Soundness of debouncing.** In every run of the task the logged events
alternate, starting with `WEIGHT_ADDED`; each is logged at the end of a run of
readings asking for it; the error state is never entered, and the counter is zero
in the stable states and below `wmDebounceCount` in the debounce states. -/
theorem debouncing_sound (weights : List Value) :
    (∀ i event, (loggedEvents weights)[i]? = some event →
      (event = .weightAdded ↔ i % 2 = 0)) ∧
    (∀ i state entry, (weightLog weights)[i]? = some (state, some entry) →
      EndsInRun (asksFor entry.event) wmDebounceCount (weights.take (i + 1))) ∧
    (weightState weights).currentState ≠ .error ∧
    ((weightState weights).currentState = .noWeight ∨
        (weightState weights).currentState = .measuring →
      (weightState weights).debounceCount = 0) ∧
    ((weightState weights).currentState = .debounceAdd ∨
        (weightState weights).currentState = .debounceRemove →
      (weightState weights).debounceCount < wmDebounceCount) := by
  refine ⟨events_alternate weights, ?_, (simulates_run weights).counter⟩
  intro i state entry hi
  exact (event_ends_run weights i state entry hi).mono (Nat.le_succ _)

end SmartScale.WeightManager
