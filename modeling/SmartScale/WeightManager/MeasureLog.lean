import SmartScale.Base.WrappedClock
import SmartScale.WeightManager.Machine

/-!
The periodic row of `weight_manager_task` (`weight_manager/weight_manager.c`): while the state is
MEASURING, the weight is logged whenever the tick counter has advanced by
`pdMS_TO_TICKS(WM_MEASURE_INTERVAL_MS)` since `last_measure_time`.

`weightManagerIteration` is one iteration of the task, given the two ticks it reads.
`timedIteration` runs it on a clock: the true time only grows, and the counter is the true time
modulo `2^32`. The invariant is that `last_measure_time` is the tick of the true time at which it
was taken (`Timed.Synchronous`).
-/

namespace SmartScale.WeightManager

open SmartScale.Binary32 SmartScale.Transducer SmartScale.WrappedClock

/-- `TickType_t` -/
abbrev TickType := BitVec 32

/-- The variables of `weight_manager_task` that outlive an iteration. -/
structure Task where
  wm : Wm
  lastMeasureTime : TickType
deriving DecidableEq

/-- The body of the loop on a calibrated weight: `first` and `second` are what the two calls of
`xTaskGetTickCount` return, if they are made. A row is the weight it shows. -/
def weightManagerIteration (interval : TickType) (t : Task) (weight : Value)
    (first second : TickType) : Task × Option LogEntry × Option Value :=
  let handled := processWeight t.wm weight
  if handled.1.currentState = .measuring ∧ interval ≤ first - t.lastMeasureTime then
    (⟨handled.1, second⟩, handled.2, some weight)
  else (⟨handled.1, t.lastMeasureTime⟩, handled.2, none)

/-! ### Runs on a clock -/

/-- What one iteration receives, and how long it takes: up to the first look at the clock, from
there to the row, and from the row to the second look. -/
structure Reading where
  weight : Value
  waiting : Nat
  printing : Nat
  taking : Nat

/-- The task at a true time, with the true time at which `last_measure_time` was taken. -/
structure Timed where
  task : Task
  now : Nat
  taken : Nat

/-- The task as it enters its loop. -/
def Timed.start (time : Nat) : Timed := ⟨⟨.start, tick 32 time⟩, time, time⟩

/-- A `Weight:` row and the true time at which it is written. -/
structure Row where
  weight : Value
  time : Nat

/-- What is observable of one iteration: the state that handled the reading, the true time since
`last_measure_time` was taken, and what was logged. -/
structure Iterated where
  state : WmState
  sinceTaken : Nat
  logged : Option LogEntry
  row : Option Row

/-- One iteration on the clock. -/
def timedIteration (interval : TickType) (s : Timed) (r : Reading) : Timed × Iterated :=
  let first := s.now + r.waiting
  let written := first + r.printing
  let second := written + r.taking
  let after := weightManagerIteration interval s.task r.weight (tick 32 first) (tick 32 second)
  (match after.2.2 with
    | some _ => ⟨after.1, second, second⟩
    | none => ⟨after.1, first, s.taken⟩,
    { state := after.1.wm.currentState
      sinceTaken := first - s.taken
      logged := after.2.1
      row := after.2.2.map fun weight => ⟨weight, written⟩ })

/-- The iterations of a task that enters its loop at a true time. -/
def measureLog (interval : TickType) (time : Nat) (readings : List Reading) : List Iterated :=
  outputs (timedIteration interval) (.start time) readings

/-- The `Weight:` rows among them. -/
def rows (iterations : List Iterated) : List Row := iterations.filterMap Iterated.row

/-! ### One iteration -/

/-- `last_measure_time` is the tick of the time at which it was taken. -/
structure Timed.Synchronous (s : Timed) : Prop where
  ticks : s.task.lastMeasureTime = tick 32 s.taken
  past : s.taken ≤ s.now

theorem start_synchronous (time : Nat) : (Timed.start time).Synchronous := ⟨rfl, le_rfl⟩

section Iteration

variable {interval : TickType} {s : Timed} {r : Reading}

/-- The comparison an iteration makes in MEASURING. -/
def Timed.Due (interval : TickType) (s : Timed) (r : Reading) : Prop :=
  interval ≤ tick 32 (s.now + r.waiting) - s.task.lastMeasureTime

/-- **What an iteration does**: it writes a row and takes the time anew, or neither. -/
theorem timedIteration_cases (interval : TickType) (s : Timed) (r : Reading) :
    let next := timedIteration interval s r
    let written := s.now + r.waiting + r.printing
    (next.2.state = .measuring ∧ s.Due interval r ∧ next.2.row = some ⟨r.weight, written⟩ ∧
      next.1.taken = written + r.taking ∧ next.1.now = written + r.taking ∧
      next.1.task.lastMeasureTime = tick 32 (written + r.taking)) ∨
    (¬ (next.2.state = .measuring ∧ s.Due interval r) ∧ next.2.row = none ∧
      next.1.taken = s.taken ∧ next.1.now = s.now + r.waiting ∧
      next.1.task.lastMeasureTime = s.task.lastMeasureTime) := by
  intro next written
  by_cases writes : (processWeight s.task.wm r.weight).1.currentState = .measuring ∧
    s.Due interval r
  · have after : weightManagerIteration interval s.task r.weight (tick 32 (s.now + r.waiting))
        (tick 32 (written + r.taking)) =
        (⟨(processWeight s.task.wm r.weight).1, tick 32 (written + r.taking)⟩,
          (processWeight s.task.wm r.weight).2, some r.weight) := if_pos writes
    simp only [next, timedIteration]
    rw [after]
    exact .inl ⟨writes.1, writes.2, rfl, rfl, rfl, rfl⟩
  · have after : weightManagerIteration interval s.task r.weight (tick 32 (s.now + r.waiting))
        (tick 32 (written + r.taking)) =
        (⟨(processWeight s.task.wm r.weight).1, s.task.lastMeasureTime⟩,
          (processWeight s.task.wm r.weight).2, none) := if_neg writes
    simp only [next, timedIteration]
    rw [after]
    exact .inr ⟨writes, rfl, rfl, rfl, rfl⟩

theorem weightManagerIteration_handled (interval : TickType) (t : Task) (weight : Value)
    (first second : TickType) :
    (weightManagerIteration interval t weight first second).1.wm = (processWeight t.wm weight).1 ∧
      (weightManagerIteration interval t weight first second).2.1 =
        (processWeight t.wm weight).2 := by
  unfold weightManagerIteration
  dsimp only
  split <;> exact ⟨rfl, rfl⟩

/-- The clock does not change the state handling. -/
theorem timedIteration_observe (interval : TickType) (s : Timed) (r : Reading) :
    let next := timedIteration interval s r
    (next.1.task.wm, next.2.state, next.2.logged) = observe s.task.wm r.weight := by
  obtain ⟨wm, logged⟩ := weightManagerIteration_handled interval s.task r.weight
    (tick 32 (s.now + r.waiting)) (tick 32 (s.now + r.waiting + r.printing + r.taking))
  have task : (timedIteration interval s r).1.task =
      (weightManagerIteration interval s.task r.weight (tick 32 (s.now + r.waiting))
        (tick 32 (s.now + r.waiting + r.printing + r.taking))).1 := by
    simp only [timedIteration]
    split <;> rfl
  simp only [task, wm, observe]
  simp only [timedIteration, wm, logged]

/-- **Step lemma.** -/
theorem timedIteration_synchronous (h : s.Synchronous) (r : Reading) :
    (timedIteration interval s r).1.Synchronous := by
  rcases timedIteration_cases interval s r with
    ⟨-, -, -, taken, now, ticks⟩ | ⟨-, -, taken, now, ticks⟩
  · exact ⟨by rw [ticks, taken], by rw [taken, now]⟩
  · refine ⟨by rw [ticks, taken, h.ticks], ?_⟩
    rw [taken, now]
    exact h.past.trans (Nat.le_add_right _ _)

/-- A row is written at least `interval` after the time was taken, and the time is taken anew
at or after the row. -/
theorem timedIteration_row (h : s.Synchronous) {r : Reading} {row : Row}
    (written : (timedIteration interval s r).2.row = some row) :
    s.taken + interval.toNat ≤ row.time ∧ row.time ≤ (timedIteration interval s r).1.taken := by
  rcases timedIteration_cases interval s r with
    ⟨-, due, shown, taken, -, -⟩ | ⟨-, shown, -, -, -⟩
  · rw [written] at shown
    obtain rfl := Option.some.inj shown
    have elapsed := toNat_elapsed_le (w := 32) (h.past.trans (Nat.le_add_right s.now r.waiting))
    rw [Timed.Due, h.ticks, BitVec.le_def] at due
    rw [taken]
    have past := h.past
    constructor
    · show s.taken + interval.toNat ≤ s.now + r.waiting + r.printing
      omega
    · exact Nat.le_add_right _ _
  · rw [written] at shown
    exact absurd shown (Option.some_ne_none row)

theorem taken_le (h : s.Synchronous) (interval : TickType) (r : Reading) :
    s.taken ≤ (timedIteration interval s r).1.taken := by
  rcases timedIteration_cases interval s r with ⟨-, -, -, taken, -, -⟩ | ⟨-, -, taken, -, -⟩
  · have past := h.past
    rw [taken]
    omega
  · exact taken.ge

/-- A reading that is handled in MEASURING while the counter tells the true time is logged once
the interval is over. -/
theorem timedIteration_due (h : s.Synchronous) {r : Reading}
    (measuring : (timedIteration interval s r).2.state = .measuring)
    (passed : interval.toNat ≤ (timedIteration interval s r).2.sinceTaken)
    (fits : (timedIteration interval s r).2.sinceTaken < 2 ^ 32) :
    ((timedIteration interval s r).2.row).isSome := by
  rcases timedIteration_cases interval s r with ⟨-, -, shown, -⟩ | ⟨skipped, -⟩
  · rw [shown, Option.isSome_some]
  · have later := h.past.trans (Nat.le_add_right s.now r.waiting)
    have elapsed := toNat_elapsed later fits
    refine absurd ⟨measuring, ?_⟩ skipped
    rw [Timed.Due, h.ticks, BitVec.le_def, elapsed]
    exact passed

end Iteration

/-! ### Runs -/

/-- From a state on, rows are apart from one another and from the time taken. -/
theorem rows_apart {interval : TickType} {s : Timed} (h : s.Synchronous) (readings : List Reading) :
    (∀ row ∈ rows (outputs (timedIteration interval) s readings),
      s.taken + interval.toNat ≤ row.time) ∧
    (rows (outputs (timedIteration interval) s readings)).Pairwise
      fun a b => a.time + interval.toNat ≤ b.time := by
  induction readings generalizing s with
  | nil => exact ⟨by simp [rows], .nil⟩
  | cons r readings ih =>
      obtain ⟨after, apart⟩ := ih (timedIteration_synchronous h r)
      have kept := taken_le h interval r
      rw [outputs_cons, rows, List.filterMap_cons]
      cases written : (timedIteration interval s r).2.row with
      | none => exact ⟨fun row hrow => (Nat.add_le_add_right kept _).trans (after row hrow), apart⟩
      | some first =>
          obtain ⟨due, taken⟩ := timedIteration_row h written
          refine ⟨?_, List.pairwise_cons.mpr ⟨fun row hrow => ?_, apart⟩⟩
          · intro row hrow
            rcases List.mem_cons.mp hrow with rfl | later
            · exact due
            · exact (Nat.add_le_add_right kept _).trans (after row later)
          · exact (Nat.add_le_add_right taken _).trans (after row hrow)

/-- The states and events are those of the state machine on the weights. -/
theorem measureLog_weightLog (interval : TickType) (time : Nat) (readings : List Reading) :
    (measureLog interval time readings).map (fun o => (o.state, o.logged)) =
      weightLog (readings.map Reading.weight) := by
  suffices from_state : ∀ s : Timed,
      (outputs (timedIteration interval) s readings).map (fun o => (o.state, o.logged)) =
        outputs observe s.task.wm (readings.map Reading.weight) from from_state (.start time)
  induction readings with
  | nil => exact fun _ => rfl
  | cons r readings ih =>
      intro s
      obtain ⟨wm, observed⟩ := Prod.mk.inj (timedIteration_observe interval s r)
      rw [outputs_cons, List.map_cons, List.map_cons, outputs_cons, ih, wm, observed]
      rfl

/-- **The rows keep their distance, and none is missed**: any two are at least the interval apart,
over any number of wrap-arounds, and a reading handled in MEASURING gives a row if the interval is
over and the counter has not gone all the way round since the time was taken. -/
theorem measureLog_rate (interval : TickType) (time : Nat) (readings : List Reading) :
    (rows (measureLog interval time readings)).Pairwise
      (fun a b => a.time + interval.toNat ≤ b.time) ∧
    ∀ o ∈ measureLog interval time readings, o.state = .measuring →
      interval.toNat ≤ o.sinceTaken → o.sinceTaken < 2 ^ 32 → o.row.isSome := by
  refine ⟨(rows_apart (start_synchronous time) readings).2, ?_⟩
  exact outputs_forall (I := Timed.Synchronous) (start_synchronous time)
    (fun s r _ h => timedIteration_synchronous h r)
    fun s r _ h measuring passed fits => timedIteration_due h measuring passed fits

end SmartScale.WeightManager
