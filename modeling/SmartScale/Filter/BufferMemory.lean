import SmartScale.Base.Heap
import SmartScale.Filter.MovingAverage

/-!
The moving-average filter (`moving_avg/moving_average.c`) with its buffer where it really is,
in memory that the caller allocated and `moving_average_deinit` frees. `filter->buffer` is a
pointer, NULL as `none`, the counters are signed, and every access can fault.

`Holds` says that a filter and the memory it points to are a filter of `MovingAverage` with an
index inside of its buffer. Each function, called on such a filter, does not fault and does what
the function of `MovingAverage` does (`update_holds`, `reset_holds`, `init_holds`,
`deinit_holds`).
-/

namespace SmartScale.MovingAverage

/-- `moving_avg_t`. -/
structure MovingAvgT where
  buffer : Option Nat
  size : Int
  index : Int
  sum : ℚ
  count : Int
  lastVals : Vector ℚ 3
  lastCount : Nat
deriving DecidableEq

/-- The zero-initialised static `moving_avg_t`. -/
def MovingAvgT.zero : MovingAvgT where
  buffer := none
  size := 0
  index := 0
  sum := 0
  count := 0
  lastVals := Vector.replicate 3 0
  lastCount := 0

/-- `size * sizeof(float)` in a 32-bit `size_t`, in cells. -/
def floatCells (size : Int) : Nat := 4 * size.toNat % 2 ^ 32 / 4

section Functions

variable (heap : Heap ℚ) (filter : MovingAvgT)

/-- `moving_average_init`. -/
def MovingAvgT.init (buffer : Option Nat) (size : Int) : Option (Heap ℚ × MovingAvgT) :=
  match buffer with
  | none => some (heap, filter)
  | some p =>
      if size ≤ 0 then some (heap, filter)
      else
        (heap.fill p (floatCells size) 0).map fun heap =>
          (heap,
            { filter with
              buffer := some p
              size := size
              index := 0
              sum := 0
              count := 0
              lastCount := 0 })

/-- `moving_average_update`. -/
def MovingAvgT.update (newValue : ℚ) : Option (Heap ℚ × MovingAvgT × ℚ) :=
  match filter.buffer with
  | none => some (heap, filter, 0)
  | some p =>
      if filter.size ≤ 0 then some (heap, filter, 0)
      else
        (heap.load p filter.index).bind fun outgoing =>
        (heap.store p filter.index newValue).map fun heap =>
          let sum := filter.sum - outgoing + newValue
          let count := if filter.count < filter.size then filter.count + 1 else filter.count
          (heap,
            { filter with
              sum := sum
              index := (filter.index + 1).tmod filter.size
              count := count },
            sum / count)

/-- `moving_average_reset`. -/
def MovingAvgT.reset (initValue : ℚ) : Option (Heap ℚ × MovingAvgT) :=
  match filter.buffer with
  | none => some (heap, filter)
  | some p =>
      if filter.size ≤ 0 then some (heap, filter)
      else
        (heap.fill p (floatCells filter.size) 0).bind fun heap =>
        (heap.store p 0 initValue).map fun heap =>
          (heap,
            { filter with
              sum := initValue
              count := 1
              index := (1 : Int).tmod filter.size
              lastVals := Vector.replicate 3 initValue
              lastCount := 3 })

/-- `moving_average_deinit`. -/
def MovingAvgT.deinit : Option (Heap ℚ × MovingAvgT) :=
  let cleared : MovingAvgT :=
    { filter with buffer := none, size := 0, index := 0, sum := 0, count := 0, lastCount := 0 }
  match filter.buffer with
  | none => some (heap, cleared)
  | some p => (heap.free p).map fun heap => (heap, cleared)

end Functions

/-! ### The filter a filter in memory is -/

/-- `filter` and the memory it points to are `v`, whose buffer has fewer than `2 ^ 30` cells. -/
structure MovingAvgT.Holds (heap : Heap ℚ) (filter : MovingAvgT) (v : MovingAvg) : Prop where
  size_eq : filter.size = v.size
  index_eq : filter.index = v.index
  sum_eq : filter.sum = v.sum
  count_eq : filter.count = v.count
  lastVals_eq : filter.lastVals = v.lastVals
  lastCount_eq : filter.lastCount = v.lastCount
  null : filter.buffer = none → v.buffer = none
  block : ∀ p, filter.buffer = some p →
    ∃ cells, v.buffer = some cells ∧ heap.Stores p cells ∧ cells.length = v.size ∧
      v.index < v.size ∧ v.size < 2 ^ 30

theorem floatCells_natCast {n : Nat} (small : n < 2 ^ 30) : floatCells n = n := by
  unfold floatCells
  rw [Int.toNat_natCast]
  omega

open MovingAvgT in
/-- The zero-initialised filter, with nothing allocated. -/
theorem zero_holds : Holds .empty .zero .zero where
  size_eq := rfl
  index_eq := rfl
  sum_eq := rfl
  count_eq := rfl
  lastVals_eq := rfl
  lastCount_eq := rfl
  null _ := rfl
  block p null := by simp [MovingAvgT.zero] at null

section Steps

variable {heap : Heap ℚ} {filter : MovingAvgT} {v : MovingAvg} {p : Nat} {cells : List ℚ}

/-- What a filter needs of the memory after its buffer was written. -/
theorem block_of_update (stored : heap.Stores p cells) {cells' : List ℚ} {size index : Nat}
    (length : cells'.length = size) (inside : index < size) (small : size < 2 ^ 30) :
    ∀ q, some p = some q → ∃ xs, some cells' = some xs ∧
      Heap.Stores (heap.update p (cells'.map some)) q xs ∧ xs.length = size ∧ index < size ∧
        size < 2 ^ 30 := by
  intro q same
  obtain rfl := Option.some.inj same
  exact ⟨cells', rfl, Heap.stores_update stored.live cells', length, inside, small⟩

/-- **An update does not fault**, and is the update of the filter it is. -/
theorem update_holds (h : filter.Holds heap v) (newValue : ℚ) :
    ∃ heap' filter',
      filter.update heap newValue = some (heap', filter', (movingAverageUpdate v newValue).2) ∧
        filter'.Holds heap' (movingAverageUpdate v newValue).1 ∧
        heap.SameArrays heap' ∧ filter'.buffer = filter.buffer := by
  cases pointer : filter.buffer with
  | none =>
      have none_too := h.null pointer
      simp only [MovingAvgT.update, pointer, movingAverageUpdate, none_too]
      exact ⟨heap, filter, rfl, h, .refl heap, pointer⟩
  | some p =>
      obtain ⟨cells, buffer, stored, length, inside, small⟩ := h.block p pointer
      have within : v.index < cells.length := length ▸ inside
      have pos : ¬ v.size = 0 := Nat.ne_zero_of_lt inside
      have guard : ¬ (v.size : Int) ≤ 0 := by omega
      have loaded := Heap.load_of_stores stored within 0
      have written := Heap.store_of_stores stored within newValue
      have next : (v.index + 1) % v.size < v.size := Nat.mod_lt _ (Nat.zero_lt_of_lt inside)
      have counted : (if filter.count < (v.size : Int) then filter.count + 1 else filter.count) =
          ((if v.count < v.size then v.count + 1 else v.count : Nat) : Int) := by
        rw [h.count_eq]
        split_ifs <;> omega
      simp only [MovingAvgT.update, pointer, h.size_eq, h.index_eq, if_neg guard, loaded, written,
        Option.bind_some, Option.map_some, movingAverageUpdate, buffer, if_neg pos, counted,
        h.sum_eq, Int.cast_natCast]
      refine ⟨_, _, rfl, ?_, Heap.sameArrays_update _, rfl⟩
      exact
        { size_eq := rfl
          index_eq := rfl
          sum_eq := rfl
          count_eq := rfl
          lastVals_eq := h.lastVals_eq
          lastCount_eq := h.lastCount_eq
          null := by simp
          block := block_of_update stored ((List.length_set ..).trans length) next small }

/-- **A reset does not fault**, and is the reset of the filter it is. -/
theorem reset_holds (h : filter.Holds heap v) (initValue : ℚ) :
    ∃ heap' filter', filter.reset heap initValue = some (heap', filter') ∧
      filter'.Holds heap' (movingAverageReset v initValue) ∧
      heap.SameArrays heap' ∧ filter'.buffer = filter.buffer := by
  cases pointer : filter.buffer with
  | none =>
      have none_too := h.null pointer
      simp only [MovingAvgT.reset, pointer, movingAverageReset, none_too]
      exact ⟨heap, filter, rfl, h, .refl heap, pointer⟩
  | some p =>
      obtain ⟨cells, buffer, stored, length, inside, small⟩ := h.block p pointer
      have positive : 0 < v.size := Nat.zero_lt_of_lt inside
      have guard : ¬ (v.size : Int) ≤ 0 := by omega
      have cleared := Heap.fill_of_get? stored 0
      rw [List.length_map, length] at cleared
      have zeros := Heap.stores_update stored.live (List.replicate v.size 0)
      have written := Heap.store_of_stores zeros
        (positive.trans_eq List.length_replicate.symm) initValue
      have next : 1 % v.size < v.size := Nat.mod_lt _ positive
      rw [Nat.cast_zero] at written
      simp only [MovingAvgT.reset, pointer, h.size_eq, if_neg guard, floatCells_natCast small,
        cleared, written, Option.bind_some, Option.map_some, movingAverageReset, buffer,
        if_neg positive.ne']
      refine ⟨_, _, rfl, ?_, (Heap.sameArrays_update _).trans (Heap.sameArrays_update _), rfl⟩
      exact
        { size_eq := rfl
          index_eq := rfl
          sum_eq := rfl
          count_eq := rfl
          lastVals_eq := rfl
          lastCount_eq := rfl
          null := by simp
          block := block_of_update zeros (by simp) next small }

/-- **Initialising a filter with a fresh array does not fault**, and keeps no record of the array
it had. -/
theorem init_holds (h : filter.Holds heap v) (buffer : List ℚ) {size : Int} (pos : 0 < size)
    (small : size < 2 ^ 30) :
    ∃ heap' filter',
      filter.init (heap.malloc (floatCells size)) (some heap.next) size = some (heap', filter') ∧
        filter'.Holds heap' (movingAverageInit v (some buffer) size) ∧
        (heap.malloc (floatCells size)).SameArrays heap' ∧ filter'.buffer = some heap.next := by
  obtain ⟨n, rfl⟩ := Int.eq_ofNat_of_zero_le pos.le
  have positive : 0 < n := by omega
  have fits : n < 2 ^ 30 := by omega
  have guard : ¬ (n : Int) ≤ 0 := by omega
  have guard' : ¬ ((some buffer).isNone = true ∨ (n : Int) ≤ 0) := by
    rintro (null | empty)
    · simp at null
    · exact guard empty
  have cleared := Heap.fill_of_get? (Heap.get?_malloc heap n) (0 : ℚ)
  rw [List.length_replicate] at cleared
  have live : (heap.malloc n).Live heap.next := Objects.live_iff.mpr ⟨_, Heap.get?_malloc heap n⟩
  simp only [MovingAvgT.init, if_neg guard, floatCells_natCast fits, cleared, Option.map_some,
    movingAverageInit, if_neg guard', Int.toNat_natCast]
  refine ⟨_, _, rfl, ?_, Heap.sameArrays_update _, rfl⟩
  exact
    { size_eq := rfl
      index_eq := rfl
      sum_eq := rfl
      count_eq := rfl
      lastVals_eq := h.lastVals_eq
      lastCount_eq := rfl
      null := by simp
      block := by
        intro q same
        obtain rfl := Option.some.inj same
        exact ⟨_, rfl, Heap.stores_update live _, List.length_replicate, positive, fits⟩ }

/-- **Giving a filter up does not fault**, and frees its array and no other. -/
theorem deinit_holds (h : filter.Holds heap v) :
    ∃ heap' filter', filter.deinit heap = some (heap', filter') ∧
      filter'.Holds heap' (movingAverageDeinit v) ∧ filter'.buffer = none ∧
      heap'.next = heap.next ∧ ∀ p, heap'.Live p ↔ some p ≠ filter.buffer ∧ heap.Live p := by
  cases pointer : filter.buffer with
  | none =>
      have none_too := h.null pointer
      simp only [MovingAvgT.deinit, pointer]
      exact ⟨heap, _, rfl, ⟨rfl, rfl, rfl, rfl, h.lastVals_eq, rfl, fun _ => rfl, by simp⟩, rfl,
        rfl, by simp⟩
  | some p =>
      obtain ⟨cells, -, stored, -, -, -⟩ := h.block p pointer
      simp only [MovingAvgT.deinit, pointer, Heap.free_of_stores stored, Option.map_some]
      refine ⟨_, _, rfl, ⟨rfl, rfl, rfl, rfl, h.lastVals_eq, rfl, fun _ => rfl, by simp⟩, rfl,
        Objects.next_delete, ?_⟩
      intro q
      simp [Objects.live_delete_iff]

end Steps

end SmartScale.MovingAverage
