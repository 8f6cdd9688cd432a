import SmartScale.Base.Transducer
import SmartScale.Filter.MovingAverage

/-!
The moving average with its median prefilter (`moving_avg/moving_average.c`): runs of
`moving_average_update`, `moving_average_update_median3` and `moving_average_reset`.

`History` says what these calls are for: a list of pushes, averaged over a window, and the
arguments the prefilter has seen, of which it takes the median of the last three. The filter
refines it (`opStep_refines`), so every value an update returns is the mean the history gives
(`movingAverage_outputs`).
-/

namespace SmartScale.MovingAverage

open SmartScale.SlidingWindow SmartScale.Transducer SmartScale.Median

/-! ### The prefilter -/

/-- The median buffer of `moving_average_update_median3`: it fills from the front, then
shifts. -/
def updateMedianBuffer (lastVals : Vector ℚ 3) (lastCount : Nat) (newValue : ℚ) :
    Vector ℚ 3 × Nat :=
  if free : lastCount < 3 then (lastVals.set lastCount newValue free, lastCount + 1)
  else (#v[lastVals[1], lastVals[2], newValue], lastCount)

/-- `moving_average_update_median3`. -/
def movingAverageUpdateMedian3 (filter : MovingAvg) (newValue : ℚ) : MovingAvg × ℚ :=
  let buffered := updateMedianBuffer filter.lastVals filter.lastCount newValue
  let med :=
    if buffered.2 = 3 then median3 buffered.1[0] buffered.1[1] buffered.1[2] else newValue
  movingAverageUpdate { filter with lastVals := buffered.1, lastCount := buffered.2 } med

/-- A call on an initialised filter. -/
inductive Op where
  | update (newValue : ℚ)
  | median3 (newValue : ℚ)
  | reset (initValue : ℚ)

/-- One call, with the value an update returns. -/
def opStep (filter : MovingAvg) : Op → MovingAvg × Option ℚ
  | .update v => ((movingAverageUpdate filter v).1, some (movingAverageUpdate filter v).2)
  | .median3 v =>
      ((movingAverageUpdateMedian3 filter v).1, some (movingAverageUpdateMedian3 filter v).2)
  | .reset v => (movingAverageReset filter v, none)

/-! ### What the calls are for -/

/-- What was pushed into the window since it was last cleared, and the arguments of the
prefilter since then, the latest first. -/
structure History where
  pushes : List ℚ
  args : List ℚ

/-- The history after an initialisation. -/
def History.empty : History := ⟨[], []⟩

/-- A push, with the mean of the last `n`. -/
def History.push (n : Nat) (h : History) (v : ℚ) : History × Option ℚ :=
  ({ h with pushes := h.pushes ++ [v] }, some (mean (recent n (h.pushes ++ [v]))))

/-- The value the prefilter pushes for an argument: the median of it and the two before it. -/
def History.prefiltered (h : History) (v : ℚ) : ℚ :=
  match h.args with
  | b :: a :: _ => middle a b v
  | _ => v

theorem History.prefiltered_median {h : History} {a b : ℚ} {older : List ℚ}
    (seen : h.args = b :: a :: older) (v : ℚ) : median [a, b, v] = some (h.prefiltered v) := by
  rw [median_three, History.prefiltered, seen]

/-- One call, on the history. -/
def historyStep (n : Nat) (h : History) : Op → History × Option ℚ
  | .update v => h.push n v
  | .median3 v => History.push n { h with args := v :: h.args } (h.prefiltered v)
  | .reset v => (⟨[v], [v, v, v]⟩, none)

/-! ### Refinement -/

/-- The median buffer holds the last arguments, three at most, oldest first. -/
inductive Remembers : Vector ℚ 3 → Nat → List ℚ → Prop where
  | none (x y z : ℚ) : Remembers #v[x, y, z] 0 []
  | one (a y z : ℚ) : Remembers #v[a, y, z] 1 [a]
  | two (a b z : ℚ) : Remembers #v[a, b, z] 2 [b, a]
  | three (a b c : ℚ) (older : List ℚ) : Remembers #v[a, b, c] 3 (c :: b :: a :: older)

theorem remembers_nil (vals : Vector ℚ 3) : Remembers vals 0 [] := by
  have entries : vals = #v[vals[0], vals[1], vals[2]] := by
    ext i hi
    match i, hi with
    | 0, _ => rfl
    | 1, _ => rfl
    | 2, _ => rfl
  rw [entries]
  exact .none _ _ _

/-- A filter with a window of `n` cells and its history. -/
structure Refines (n : Nat) (filter : MovingAvg) (h : History) : Prop where
  window : Represents filter n h.pushes
  buffer : Remembers filter.lastVals filter.lastCount h.args

theorem Remembers.update {lastVals : Vector ℚ 3} {lastCount : Nat} {args : List ℚ}
    (h : Remembers lastVals lastCount args) (v : ℚ) :
    Remembers (updateMedianBuffer lastVals lastCount v).1
      (updateMedianBuffer lastVals lastCount v).2 (v :: args) := by
  cases h with
  | none x y z => exact .one v y z
  | one a y z => exact .two a v z
  | two a b z => exact .three a b v []
  | three a b c older => exact .three b c v (a :: older)

theorem Remembers.prefiltered {lastVals : Vector ℚ 3} {lastCount : Nat} {h : History}
    (remembers : Remembers lastVals lastCount h.args) (v : ℚ) :
    (if (updateMedianBuffer lastVals lastCount v).2 = 3 then
      MovingAverage.median3 (updateMedianBuffer lastVals lastCount v).1[0]
        (updateMedianBuffer lastVals lastCount v).1[1]
        (updateMedianBuffer lastVals lastCount v).1[2]
      else v) = h.prefiltered v := by
  obtain ⟨pushes, args⟩ := h
  cases remembers with
  | none x y z => rfl
  | one a y z => rfl
  | two a b z => exact median3_eq_middle a b v
  | three a b c older => exact median3_eq_middle b c v

section Steps

variable {n : Nat} {filter : MovingAvg} {h : History}

/-- A plain update does not touch the median buffer. -/
theorem movingAverageUpdate_lastVals (filter : MovingAvg) (v : ℚ) :
    (movingAverageUpdate filter v).1.lastVals = filter.lastVals ∧
      (movingAverageUpdate filter v).1.lastCount = filter.lastCount := by
  unfold movingAverageUpdate
  cases filter.buffer with
  | none => exact ⟨rfl, rfl⟩
  | some buffer =>
      dsimp only
      split_ifs <;> exact ⟨rfl, rfl⟩

theorem movingAverageReset_lastVals {xs : List ℚ} (window : Represents filter n xs) (v : ℚ) :
    (movingAverageReset filter v).lastVals = #v[v, v, v] ∧
      (movingAverageReset filter v).lastCount = 3 := by
  obtain ⟨buffer, hbuffer, _, _⟩ := window.ring
  simp only [movingAverageReset, hbuffer, window.size_eq, window.size_pos.ne', if_false]
  exact ⟨rfl, trivial⟩

theorem Refines.update (refines : Refines n filter h) (v : ℚ) :
    Refines n (movingAverageUpdate filter v).1 (h.push n v).1 ∧
      some (movingAverageUpdate filter v).2 = (h.push n v).2 := by
  obtain ⟨vals, count⟩ := movingAverageUpdate_lastVals filter v
  refine ⟨⟨movingAverageUpdate_represents refines.window v, ?_⟩,
    congrArg some (movingAverageUpdate_mean refines.window v)⟩
  rw [vals, count]
  exact refines.buffer

/-- The median update is a plain update with the value the prefilter gives, once the argument
is buffered. -/
theorem movingAverageUpdateMedian3_eq
    (remembers : Remembers filter.lastVals filter.lastCount h.args) (v : ℚ) :
    movingAverageUpdateMedian3 filter v =
      movingAverageUpdate
        { filter with
          lastVals := (updateMedianBuffer filter.lastVals filter.lastCount v).1
          lastCount := (updateMedianBuffer filter.lastVals filter.lastCount v).2 }
        (h.prefiltered v) := by
  rw [← remembers.prefiltered v]
  rfl

theorem Refines.buffered (refines : Refines n filter h) (v : ℚ) :
    Refines n
      { filter with
        lastVals := (updateMedianBuffer filter.lastVals filter.lastCount v).1
        lastCount := (updateMedianBuffer filter.lastVals filter.lastCount v).2 }
      { h with args := v :: h.args } where
  window := ⟨refines.window.size_eq, refines.window.count_eq, refines.window.ring⟩
  buffer := refines.buffer.update v

theorem Refines.reset (refines : Refines n filter h) (v : ℚ) :
    Refines n (movingAverageReset filter v) ⟨[v], [v, v, v]⟩ where
  window := movingAverageReset_represents refines.window v
  buffer := by
    obtain ⟨vals, count⟩ := movingAverageReset_lastVals refines.window v
    rw [vals, count]
    exact .three v v v []

/-- **Step lemma.** -/
theorem opStep_refines (refines : Refines n filter h) (op : Op) :
    Refines n (opStep filter op).1 (historyStep n h op).1 ∧
      (opStep filter op).2 = (historyStep n h op).2 := by
  cases op with
  | update v => exact refines.update v
  | median3 v =>
      rw [opStep, movingAverageUpdateMedian3_eq refines.buffer]
      exact (refines.buffered v).update (h.prefiltered v)
  | reset v => exact ⟨refines.reset v, rfl⟩

theorem movingAverageInit_refines (filter : MovingAvg) (buffer : List ℚ) {size : Int}
    (hsize : 0 < size) :
    Refines size.toNat (movingAverageInit filter (some buffer) size) .empty where
  window := movingAverageInit_represents filter buffer hsize
  buffer := by
    have cleared : (movingAverageInit filter (some buffer) size).lastCount = 0 := by
      rw [movingAverageInit, if_neg (by simpa using hsize)]
    rw [cleared]
    exact remembers_nil _

end Steps

/-- **The moving average is the mean of the window**, over every mix of plain updates, median
updates and resets of an initialised filter. -/
theorem movingAverage_outputs (filter : MovingAvg) (buffer : List ℚ) {size : Int}
    (hsize : 1 ≤ size) (ops : List Op) :
    outputs opStep (movingAverageInit filter (some buffer) size) ops =
      outputs (historyStep size.toNat) .empty ops := by
  have start := movingAverageInit_refines filter buffer hsize
  exact List.forall₂_eq_eq_eq ▸
    (simulation (R := Refines size.toNat) (fun _ _ op refines => opStep_refines refines op)
      start ops).2

/-- A window of 2: three median updates, a reset, then an outlier. -/
theorem movingAverage_outputs_two :
    outputs opStep (movingAverageInit .zero (some [0, 0]) 2)
        [.median3 5, .median3 9, .median3 1, .reset 4, .median3 100, .update 6] =
      [some 5, some 7, some 7, none, some 4, some 5] :=
  (movingAverage_outputs .zero [0, 0] (by decide) _).trans (by decide +kernel)

end SmartScale.MovingAverage
