import SmartScale.Base.Median
import SmartScale.Base.SlidingWindow
import Mathlib.Algebra.Order.Ring.Rat

/-!
The moving-average filter (`moving_avg/moving_average.c`), in exact rational
arithmetic: the ring buffer with its running sum, and `median3`.

`Represents` is the joint invariant: the filter holds the sliding window of a
list of pushes. Initialisation, `movingAverageUpdate` and `movingAverageReset`
keep it, so the value an update returns is the mean of the recent pushes
(`movingAverageUpdate_mean`).

`last_vals` and `last_count` are kept for the median prefilter; the RTOS mutex
is not modelled, since no function here reads it.
-/

namespace SmartScale.MovingAverage

open SmartScale.SlidingWindow

/-- `moving_avg_t`. A NULL `buffer` is `none`. -/
structure MovingAvg where
  buffer : Option (List ℚ)
  size : Nat
  index : Nat
  sum : ℚ
  count : Nat
  lastVals : Vector ℚ 3
  lastCount : Nat
deriving DecidableEq

/-- The zero-initialised static `moving_avg_t`. -/
def MovingAvg.zero : MovingAvg where
  buffer := none
  size := 0
  index := 0
  sum := 0
  count := 0
  lastVals := Vector.replicate 3 0
  lastCount := 0

/-- `if (a > b) { swap a and b }`. -/
def compareSwap {α : Type*} [LT α] [DecidableLT α] (a b : α) : α × α :=
  if b < a then (b, a) else (a, b)

/-- `median3`: order `a, b`, then `b, c`, then `a, b` again, and return `b`. -/
def median3 {α : Type*} [LT α] [DecidableLT α] (a b c : α) : α :=
  let ab := compareSwap a b
  let bc := compareSwap ab.2 c
  (compareSwap ab.1 bc.1).2

/-- `moving_average_init`. The buffer is cleared; `last_vals` keeps its content. -/
def movingAverageInit (filter : MovingAvg) (buffer : Option (List ℚ)) (size : Int) : MovingAvg :=
  if buffer.isNone ∨ size ≤ 0 then filter
  else
    { filter with
      buffer := some (List.replicate size.toNat 0)
      size := size.toNat
      index := 0
      sum := 0
      count := 0
      lastCount := 0 }

/-- `moving_average_update`: swap the outgoing cell for the new value in the
buffer and in the running sum, and divide by the number of filled cells. -/
def movingAverageUpdate (filter : MovingAvg) (newValue : ℚ) : MovingAvg × ℚ :=
  match filter.buffer with
  | none => (filter, 0)
  | some buffer =>
      if filter.size = 0 then (filter, 0)
      else
        let sum := filter.sum - buffer.getD filter.index 0 + newValue
        let count := if filter.count < filter.size then filter.count + 1 else filter.count
        ({ filter with
            buffer := some (buffer.set filter.index newValue)
            sum := sum
            index := (filter.index + 1) % filter.size
            count := count },
          sum / count)

/-- `moving_average_reset`: a cleared window holding `initValue` alone, and a
median history primed with it. -/
def movingAverageReset (filter : MovingAvg) (initValue : ℚ) : MovingAvg :=
  match filter.buffer with
  | none => filter
  | some _ =>
      if filter.size = 0 then filter
      else
        { filter with
          buffer := some ((List.replicate filter.size 0).set 0 initValue)
          sum := initValue
          count := 1
          index := 1 % filter.size
          lastVals := Vector.replicate 3 initValue
          lastCount := 3 }

/-- `moving_average_deinit`. -/
def movingAverageDeinit (filter : MovingAvg) : MovingAvg :=
  { filter with buffer := none, size := 0, index := 0, sum := 0, count := 0, lastCount := 0 }

/-! ### The median of three -/

theorem compareSwap_cases {α : Type*} [LT α] [DecidableLT α] (a b : α) :
    compareSwap a b = (a, b) ∨ compareSwap a b = (b, a) := by
  unfold compareSwap
  split
  · exact .inr rfl
  · exact .inl rfl

/-- The median is one of the three. -/
theorem median3_mem {α : Type*} [LT α] [DecidableLT α] (a b c : α) :
    median3 a b c = a ∨ median3 a b c = b ∨ median3 a b c = c := by
  unfold median3
  rcases compareSwap_cases a b with first | first <;> rw [first] <;> dsimp only
  · rcases compareSwap_cases b c with second | second <;> rw [second] <;> dsimp only
    · rcases compareSwap_cases a b with third | third <;> simp [third]
    · rcases compareSwap_cases a c with third | third <;> simp [third]
  · rcases compareSwap_cases a c with second | second <;> rw [second] <;> dsimp only
    · rcases compareSwap_cases b a with third | third <;> simp [third]
    · rcases compareSwap_cases b c with third | third <;> simp [third]

theorem median3_of_forall {α : Type*} [LT α] [DecidableLT α] {P : α → Prop} {a b c : α}
    (ha : P a) (hb : P b) (hc : P c) : P (median3 a b c) := by
  rcases median3_mem a b c with eq | eq | eq
  · rw [eq]
    exact ha
  · rw [eq]
    exact hb
  · rw [eq]
    exact hc

theorem compareSwap_eq {α : Type*} [LinearOrder α] (a b : α) :
    compareSwap a b = (min a b, max a b) := by
  unfold compareSwap
  split_ifs with swapped
  · rw [min_eq_right swapped.le, max_eq_left swapped.le]
  · rw [min_eq_left (not_lt.mp swapped), max_eq_right (not_lt.mp swapped)]

/-- The three swaps leave the median in the middle. -/
theorem median3_eq_middle {α : Type*} [LinearOrder α] (a b c : α) :
    median3 a b c = Median.middle a b c := by
  simp only [median3, compareSwap_eq, Median.middle]

/-! ### The window invariant -/

/-- `filter` is a window of `n` cells that has seen the pushes `xs`. -/
structure Represents (filter : MovingAvg) (n : Nat) (xs : List ℚ) : Prop where
  size_eq : filter.size = n
  count_eq : filter.count = min xs.length n
  ring : ∃ buffer, filter.buffer = some buffer ∧ Ring.Holds n 0 buffer filter.index xs ∧
    filter.sum = buffer.sum

variable {filter : MovingAvg} {n : Nat} {xs : List ℚ}

theorem Represents.size_pos (h : Represents filter n xs) : 0 < n := by
  obtain ⟨_, _, held, _⟩ := h.ring
  exact Nat.zero_lt_of_lt held.index_lt

/-- The running sum is the sum of the recent pushes. -/
theorem Represents.sum_eq (h : Represents filter n xs) : filter.sum = (recent n xs).sum := by
  obtain ⟨buffer, _, held, sum_eq⟩ := h.ring
  rw [sum_eq, Ring.sum_eq held]

theorem movingAverageInit_represents (filter : MovingAvg) (buffer : List ℚ) {size : Int}
    (hsize : 0 < size) :
    Represents (movingAverageInit filter (some buffer) size) size.toNat [] := by
  have guard : ¬ ((some buffer).isNone = true ∨ size ≤ 0) := by simpa using hsize
  have pos : 0 < size.toNat := by omega
  simp only [movingAverageInit, if_neg guard]
  exact ⟨rfl, by simp, _, rfl, Ring.holds_nil pos, by simp⟩

/-- A reset leaves the window with one push. -/
theorem movingAverageReset_represents (h : Represents filter n xs) (v : ℚ) :
    Represents (movingAverageReset filter v) n [v] := by
  obtain ⟨buffer, hbuffer, _, _⟩ := h.ring
  have pos : 0 < n := h.size_pos
  have held : Ring.Holds n 0 ((List.replicate n 0).set 0 v) (1 % n) [v] :=
    Ring.holds_singleton pos v
  have one : recent n [v] = [v] := by
    rw [recent, List.length_singleton, Nat.sub_eq_zero_of_le pos, List.drop_zero]
  simp only [movingAverageReset, hbuffer, h.size_eq, pos.ne', if_false]
  refine ⟨rfl, ?_, _, rfl, held, ?_⟩
  · show 1 = min [v].length n
    rw [List.length_singleton]
    omega
  · rw [Ring.sum_eq held, one, List.sum_singleton]

/-- An update pushes its argument. -/
theorem movingAverageUpdate_represents (h : Represents filter n xs) (v : ℚ) :
    Represents (movingAverageUpdate filter v).1 n (xs ++ [v]) := by
  obtain ⟨buffer, hbuffer, held, sum_eq⟩ := h.ring
  have pos : 0 < n := h.size_pos
  have inside : filter.index < buffer.length := held.length_eq ▸ held.index_lt
  simp only [movingAverageUpdate, hbuffer, h.size_eq, pos.ne', if_false]
  refine ⟨rfl, ?_, _, rfl, Ring.holds_push held v, ?_⟩
  · have counted := h.count_eq
    simp only [List.length_append, List.length_singleton]
    split <;> omega
  · rw [Ring.sum_set inside, sum_eq]

/-- **The returned value is the mean of the recent pushes**, the new one
included. -/
theorem movingAverageUpdate_mean (h : Represents filter n xs) (v : ℚ) :
    (movingAverageUpdate filter v).2 = mean (recent n (xs ++ [v])) := by
  have next := movingAverageUpdate_represents h v
  obtain ⟨buffer, hbuffer, _, _⟩ := h.ring
  have quotient : (movingAverageUpdate filter v).2 =
      (movingAverageUpdate filter v).1.sum / (movingAverageUpdate filter v).1.count := by
    simp only [movingAverageUpdate, hbuffer, h.size_eq, h.size_pos.ne', if_false]
  rw [quotient, next.sum_eq, next.count_eq, mean, length_recent]

end SmartScale.MovingAverage
