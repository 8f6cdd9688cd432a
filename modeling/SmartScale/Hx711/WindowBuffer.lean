import SmartScale.Filter.BufferMemory
import SmartScale.Hx711.MedianWindow

/-!
The window buffer of the HX711 driver (`hx711/hx711.c`) in memory, with `scale->mutex`:
`hx711_init` allocates the buffer, the read functions write through the pointer in `s_ma`, and
`hx711_deinit` frees it, but only while `s_ma_window` is positive. The functions are those of
`Driver` over the pointer-level moving average of `BufferMemory`. Any access may fault, and
`xSemaphoreTake` does on NULL.

The calls are on one `hx711_t`, as those of `app_main`, and come one after another. The creations
that `hx711_init_rtos` asserts succeed.

* `window_memory_safe`: whatever the application calls, in any order and whether or not its
  allocations succeed, nothing faults but an `_rtos` read without a mutex, and the driver does what
  the model without memory does.
* `live_buffers_eq`: a buffer is freed exactly if the next initialisation or `hx711_deinit` after
  its allocation is a `hx711_deinit`.

The second is why `app_main` loses one: it initialises the driver for the calibration and again
for the sampling task, with no `hx711_deinit` between the two.
-/

namespace SmartScale.Hx711

open SmartScale.MovingAverage SmartScale.Kalman SmartScale.Binary32 SmartScale.Transducer

/-- The static variables and the memory they point to, and whether `scale->mutex` is there. -/
structure Statics where
  heap : Heap ℚ
  mutex : Bool
  sMaBuf : Option Nat
  sMaWindow : Int
  sMa : MovingAvgT
  sUseKf : Bool
  sKf : KalmanFilter
  sBoostCount : Int
  sLastOutput : ℚ
  adaptiveWindow : Nat
deriving DecidableEq

namespace Statics

/-- As the program starts; the `hx711_t` is global. -/
def boot : Statics where
  heap := .empty
  mutex := false
  sMaBuf := none
  sMaWindow := 0
  sMa := .zero
  sUseKf := false
  sKf := .zero
  sBoostCount := 0
  sLastOutput := 0
  adaptiveWindow := medianMinSamples

/-- The static variables of the model without memory, `ma` being the moving average. -/
def withMa (s : Statics) (ma : MovingAvg) : Driver where
  sMaWindow := s.sMaWindow
  sMa := ma
  sUseKf := s.sUseKf
  sKf := s.sKf
  sBoostCount := s.sBoostCount
  sLastOutput := s.sLastOutput
  adaptiveWindow := s.adaptiveWindow

/-- The same for what does not look at the moving average. -/
def scalars (s : Statics) : Driver := s.withMa .zero

/-! ### The functions -/

/-- `get_moving_average_value`. -/
def getMovingAverageValue (ma : MovingAvgT) : ℚ :=
  if ma.count = 0 then 0 else ma.sum / ma.count

/-- The moving-average setup of `hx711_init`; `allocated` tells whether `malloc` succeeds. -/
def setUpWindow (s : Statics) (allocated : Bool) (maWindow : Int) : Option Statics :=
  if 0 < maWindow then
    if allocated then
      (s.sMa.init (s.heap.malloc (floatCells maWindow)) (some s.heap.next) maWindow).map
        fun ready =>
          { s with
            heap := ready.1
            sMaBuf := some s.heap.next
            sMa := ready.2
            sMaWindow := maWindow }
    else some { s with sMaBuf := none, sMaWindow := 0 }
  else some { s with sMaWindow := maWindow }

/-- The moving-average stage of the read functions. -/
def windowStage (s : Statics) (reset : Bool) (w : ℚ) : Option (Statics × ℚ) :=
  if 0 < s.sMaWindow then
    (if reset then s.sMa.reset s.heap w else some (s.heap, s.sMa)).bind fun cleared =>
    (cleared.2.update cleared.1 w).map fun averaged =>
      ({ s with heap := averaged.1, sMa := averaged.2.1 }, averaged.2.2)
  else some (s, w)

/-- `hx711_init`. -/
def hx711Init (s : Statics) (allocated : Bool) (cfg : Config) (raw0 : Int) : Option Statics :=
  let s := { s with mutex := false }
  (s.setUpWindow allocated cfg.maWindow).bind fun s =>
  -- priming is an update without a reset
  (s.windowStage false raw0).map fun primed =>
    let s := primed.1
    let sKf :=
      if cfg.useKf then
        (kalmanUpdateAdaptive (kalmanInitAdaptive s.sKf cfg.qInit cfg.rInit) raw0).1
      else s.sKf
    { s with
      sUseKf := cfg.useKf
      sKf := sKf
      sBoostCount := 0
      sLastOutput :=
        if cfg.useKf then sKf.xEst
        else if 0 < s.sMaWindow then getMovingAverageValue s.sMa else raw0 }

/-- `hx711_init_rtos`. -/
def hx711InitRtos (s : Statics) (allocated : Bool) (cfg : Config) (raw0 : Int) : Option Statics :=
  (s.hx711Init allocated cfg raw0).map fun s => { s with mutex := true }

/-- `hx711_deinit`. -/
def hx711Deinit (s : Statics) : Option Statics :=
  let s := { s with mutex := false }
  if 0 < s.sMaWindow then
    (s.sMa.deinit s.heap).map fun freed =>
      { s with heap := freed.1, sMa := freed.2, sMaWindow := 0 }
  else some s

/-- `hx711_read_filtered`. -/
def hx711ReadFiltered (s : Statics) (raw : Int) : Option (Statics × ℚ) :=
  (s.windowStage (s.scalars.boosting raw) raw).map fun averaged =>
    let estimated := stepAwareKalman averaged.1.scalars averaged.2
    ({ averaged.1 with
        sKf := estimated.1
        sBoostCount := estimated.2.1
        sLastOutput := estimated.2.2 },
      estimated.2.2)

/-- `hx711_read_filtered_rtos`; `lock` tells whether `xSemaphoreTake` got a mutex that is there. -/
def hx711ReadFilteredRtos (s : Statics) (lock : Bool) (raw : Int) : Option (Statics × ℚ) :=
  if s.mutex = false then none
  else if lock then s.hx711ReadFiltered raw
  else some (s, 0)

/-- `hx711_read_median_rtos`. -/
def hx711ReadMedianRtos (s : Statics) (lock : Bool) (samples : Nat → Int) :
    Option (Statics × MedianRead) :=
  if s.mutex = false then none
  else if lock then
    let window := nextAdaptiveWindow s.scalars
    let cascaded := medianCascade (medianSamples s.scalars samples)
    let w : ℚ := (cascaded.getD (window - 1) 0 : Int)
    (s.windowStage (s.scalars.stepDetected w) w).map fun averaged =>
      ({ averaged.1 with adaptiveWindow := window, sLastOutput := averaged.2 },
        { value := truncate averaged.2, currentSampleSize := some window })
  else some (s, { value := 0, currentSampleSize := none })

end Statics

/-- A call of the driver, with what its environment answers. -/
inductive DriverCall where
  | init (sMaBuf : Option (List ℚ)) (cfg : Config) (raw0 : Int)
  | initRtos (sMaBuf : Option (List ℚ)) (cfg : Config) (raw0 : Int)
  | deinit
  | readFiltered (raw : Int)
  | readFilteredRtos (lock : Bool) (raw : Int)
  | readMedianRtos (lock : Bool) (samples : Nat → Int)

/-- One call, with what it returns. Of an allocation only its success matters: what the array holds
is indeterminate. -/
def Statics.callStep (s : Statics) : DriverCall → Option (Statics × Option ℚ)
  | .init sMaBuf cfg raw0 => (s.hx711Init sMaBuf.isSome cfg raw0).map fun s => (s, none)
  | .initRtos sMaBuf cfg raw0 => (s.hx711InitRtos sMaBuf.isSome cfg raw0).map fun s => (s, none)
  | .deinit => s.hx711Deinit.map fun s => (s, none)
  | .readFiltered raw => (s.hx711ReadFiltered raw).map fun read => (read.1, some read.2)
  | .readFilteredRtos lock raw =>
      (s.hx711ReadFilteredRtos lock raw).map fun read => (read.1, some read.2)
  | .readMedianRtos lock samples =>
      (s.hx711ReadMedianRtos lock samples).map fun read => (read.1, some (read.2.value : ℚ))

/-! ### Without memory -/

/-- The same call in the model without memory. -/
def plainStep (t : Driver) : DriverCall → Driver × Option ℚ
  | .init sMaBuf cfg raw0 | .initRtos sMaBuf cfg raw0 => (hx711Init t sMaBuf cfg raw0, none)
  | .deinit => (hx711Deinit t, none)
  | .readFiltered raw => ((hx711ReadFiltered t raw).1, some (hx711ReadFiltered t raw).2)
  | .readFilteredRtos true raw => ((hx711ReadFiltered t raw).1, some (hx711ReadFiltered t raw).2)
  | .readFilteredRtos false _ => (t, some 0)
  | .readMedianRtos lock samples =>
      ((hx711ReadMedianRtos t lock samples).1,
        some ((hx711ReadMedianRtos t lock samples).2.value : ℚ))

namespace DriverCall

/-- The window asked for, in bytes, fits a `size_t`. -/
def Fits : DriverCall → Prop
  | .init _ cfg _ | .initRtos _ cfg _ => cfg.maWindow < 2 ^ 30
  | _ => True

/-- The call leaves the driver with a new buffer. -/
def allocates : DriverCall → Bool
  | .init sMaBuf cfg _ | .initRtos sMaBuf cfg _ => decide (0 < cfg.maWindow) && sMaBuf.isSome
  | _ => false

/-- The call takes the mutex. -/
def locks : DriverCall → Bool
  | .readFilteredRtos _ _ | .readMedianRtos _ _ => true
  | _ => false

/-- Whether there is a mutex after the call. -/
def mutexAfter (mutex : Bool) : DriverCall → Bool
  | .init _ _ _ | .deinit => false
  | .initRtos _ _ _ => true
  | _ => mutex

end DriverCall

/-- Every call that takes the mutex comes when there is one. -/
def mutexThere : Bool → List DriverCall → Bool
  | _, [] => true
  | mutex, call :: calls => (!call.locks || mutex) && mutexThere (call.mutexAfter mutex) calls

/-- The next initialisation or `hx711_deinit` is a `hx711_deinit`. -/
def deinitNext : List DriverCall → Bool
  | [] => false
  | .init _ _ _ :: _ | .initRtos _ _ _ :: _ => false
  | .deinit :: _ => true
  | _ :: calls => deinitNext calls

/-- The buffers never freed, by the number of buffers allocated before each. -/
def unfreed : Nat → List DriverCall → List Nat
  | _, [] => []
  | before, call :: calls =>
      if call.allocates then
        if deinitNext calls then unfreed (before + 1) calls
        else before :: unfreed (before + 1) calls
      else unfreed before calls

/-- The model without memory, with an account of what is in memory: the mutex, how many buffers
were allocated, the one `s_ma` points to, and those not freed. -/
structure Ledger where
  driver : Driver
  mutex : Bool
  next : Nat
  inUse : Option Nat
  live : List Nat

namespace Ledger

def boot : Ledger := ⟨.boot, false, 0, none, []⟩

/-- The static variables change. -/
def withDriver (g : Ledger) (t : Driver) : Ledger := { g with driver := t }

/-- A buffer is allocated, or none is. -/
def allocate (g : Ledger) : Bool → Ledger
  | true => { g with next := g.next + 1, inUse := some g.next, live := g.live ++ [g.next] }
  | false => g

/-- The buffer in use is freed. -/
def release (g : Ledger) : Ledger :=
  { g with inUse := none, live := g.live.filter fun p => decide (some p ≠ g.inUse) }

/-- What a call does to the buffers. -/
def buffers (g : Ledger) : DriverCall → Ledger
  | .deinit => if 0 < g.driver.sMaWindow then g.release else g
  | call => g.allocate call.allocates

/-- One call. -/
def step (g : Ledger) (call : DriverCall) : Ledger × Option ℚ :=
  ({ g.buffers call with
      driver := (plainStep g.driver call).1
      mutex := call.mutexAfter g.mutex },
    (plainStep g.driver call).2)

/-- The call does not take a mutex that is not there. -/
def ok (g : Ledger) (call : DriverCall) : Bool := !call.locks || g.mutex

end Ledger

/-! ### The driver that the statics are -/

/-- The static variables and their memory are those of the ledger. While there is a window, its
buffer is there too. -/
structure Statics.Views (s : Statics) (g : Ledger) : Prop where
  agrees : s.withMa g.driver.sMa = g.driver
  holds : s.sMa.Holds s.heap g.driver.sMa
  mutex : s.mutex = g.mutex
  next : s.heap.next = g.next
  inUse : s.sMa.buffer = g.inUse
  live : ∀ p, s.heap.Live p ↔ p ∈ g.live
  buffered : 0 < g.driver.sMaWindow → g.driver.sMa.buffer.isSome = true

theorem boot_views : Statics.boot.Views .boot where
  agrees := rfl
  holds := zero_holds
  mutex := rfl
  next := rfl
  inUse := rfl
  live _ := iff_of_false Objects.not_live_empty List.not_mem_nil
  buffered window := absurd window (lt_irrefl 0)

/-- The window has a buffer after an update, if it had one. -/
theorem isSome_update (v : MovingAvg) (w : ℚ) :
    (movingAverageUpdate v w).1.buffer.isSome = v.buffer.isSome := by
  unfold movingAverageUpdate
  cases buffer : v.buffer with
  | none => simp [buffer]
  | some cells => split_ifs <;> simp [buffer]

theorem isSome_reset (v : MovingAvg) (w : ℚ) :
    (movingAverageReset v w).buffer.isSome = v.buffer.isSome := by
  unfold movingAverageReset
  cases buffer : v.buffer with
  | none => simp [buffer]
  | some cells => split_ifs <;> simp [buffer]

section Steps

variable {s : Statics} {g : Ledger}

/-- What does not touch the memory. -/
theorem Statics.Views.change (h : s.Views g) (f : Driver → Driver) {s' : Statics}
    (sMa : ∀ t, (f t).sMa = t.sMa) (sMaWindow : ∀ t, (f t).sMaWindow = t.sMaWindow)
    (same : ∀ ma, s'.withMa ma = f (s.withMa ma)) (heap : s'.heap = s.heap)
    (pointer : s'.sMa = s.sMa) (mutex : s'.mutex = s.mutex) :
    s'.Views (g.withDriver (f g.driver)) where
  agrees := by
    show s'.withMa (f g.driver).sMa = f g.driver
    rw [sMa, same, h.agrees]
  holds := by
    show s'.sMa.Holds s'.heap (f g.driver).sMa
    rw [sMa, heap, pointer]
    exact h.holds
  mutex := mutex.trans h.mutex
  next := heap ▸ h.next
  inUse := pointer ▸ h.inUse
  live := heap ▸ h.live
  buffered window := by
    show (f g.driver).sMa.buffer.isSome = true
    rw [sMa]
    exact h.buffered (sMaWindow g.driver ▸ window)

/-- The stage does not fault, and is the stage of the driver that the statics are. -/
theorem windowStage_views (h : s.Views g) (reset : Bool) (w : ℚ) :
    ∃ s', s.windowStage reset w = some (s', (windowStage g.driver reset w).2) ∧
      s'.Views (g.withDriver { g.driver with sMa := (windowStage g.driver reset w).1 }) := by
  have window : s.sMaWindow = g.driver.sMaWindow := congrArg Driver.sMaWindow h.agrees
  by_cases positive : 0 < g.driver.sMaWindow
  · have cleared : ∃ heap' ma',
        (if reset then s.sMa.reset s.heap w else some (s.heap, s.sMa)) = some (heap', ma') ∧
          ma'.Holds heap'
            (if reset then movingAverageReset g.driver.sMa w else g.driver.sMa) ∧
          s.heap.SameArrays heap' ∧ ma'.buffer = s.sMa.buffer := by
      cases reset with
      | true => exact reset_holds h.holds w
      | false => exact ⟨s.heap, s.sMa, rfl, h.holds, .refl _, rfl⟩
    obtain ⟨heap', ma', cleared, holds', arrays', pointer'⟩ := cleared
    obtain ⟨heap'', ma'', updated, holds'', arrays'', pointer''⟩ := update_holds holds' w
    have arrays := arrays'.trans arrays''
    rw [Statics.windowStage, if_pos (window ▸ positive), cleared, Option.bind_some, updated,
      windowStage, if_pos positive]
    refine ⟨_, rfl, ?_, holds'', h.mutex, arrays.next.trans h.next,
      (pointer''.trans pointer').trans h.inUse, fun p => (arrays.live p).trans (h.live p), ?_⟩
    · exact congrArg
        (fun t : Driver =>
          { t with
            sMa := (movingAverageUpdate
              (if reset then movingAverageReset g.driver.sMa w else g.driver.sMa) w).1 })
        h.agrees
    · intro still
      refine (isSome_update _ w).trans ?_
      cases reset with
      | true => exact (isSome_reset g.driver.sMa w).trans (h.buffered still)
      | false => exact h.buffered still
  · rw [Statics.windowStage, if_neg (window ▸ positive), windowStage, if_neg positive]
    exact ⟨s, rfl, h⟩

theorem Statics.Views.scalars_eq (h : s.Views g) : s.scalars = { g.driver with sMa := .zero } :=
  congrArg (fun t : Driver => { t with sMa := .zero }) h.agrees

/-- **A filtered read does not fault.** -/
theorem hx711ReadFiltered_views (h : s.Views g) (raw : Int) :
    ∃ s', s.hx711ReadFiltered raw = some (s', (hx711ReadFiltered g.driver raw).2) ∧
      s'.Views (g.withDriver (hx711ReadFiltered g.driver raw).1) := by
  obtain ⟨s', staged, views⟩ := windowStage_views h (g.driver.boosting raw) raw
  have guard : s.scalars.boosting raw = g.driver.boosting raw := by
    rw [h.scalars_eq]
    rfl
  have estimated : stepAwareKalman s'.scalars (windowStage g.driver (g.driver.boosting raw) raw).2 =
      stepAwareKalman g.driver (windowStage g.driver (g.driver.boosting raw) raw).2 := by
    rw [views.scalars_eq]
    rfl
  rw [Statics.hx711ReadFiltered, guard, staged, Option.map_some]
  dsimp only
  rw [estimated]
  refine ⟨_, rfl, views.change
    (fun t => { t with
      sKf := (stepAwareKalman g.driver (windowStage g.driver (g.driver.boosting raw) raw).2).1
      sBoostCount :=
        (stepAwareKalman g.driver (windowStage g.driver (g.driver.boosting raw) raw).2).2.1
      sLastOutput :=
        (stepAwareKalman g.driver (windowStage g.driver (g.driver.boosting raw) raw).2).2.2 })
    ?_ ?_ ?_ rfl rfl rfl⟩
  all_goals exact fun _ => rfl

/-- **A median read does not fault**, where there is a mutex. -/
theorem hx711ReadMedianRtos_views (h : s.Views g) (mutex : g.mutex = true) (lock : Bool)
    (samples : Nat → Int) :
    ∃ s', s.hx711ReadMedianRtos lock samples =
        some (s', (hx711ReadMedianRtos g.driver lock samples).2) ∧
      s'.Views (g.withDriver (hx711ReadMedianRtos g.driver lock samples).1) := by
  have there : ¬ s.mutex = false := by
    rw [h.mutex, mutex]
    decide
  cases lock with
  | false =>
      rw [Statics.hx711ReadMedianRtos, if_neg there, if_neg Bool.false_ne_true]
      exact ⟨s, rfl, h⟩
  | true =>
      have window : nextAdaptiveWindow s.scalars = nextAdaptiveWindow g.driver := by
        rw [h.scalars_eq]
        rfl
      have taken : medianSamples s.scalars samples = medianSamples g.driver samples :=
        congrArg (fun n => (List.range n).map samples) window
      have guard (w : ℚ) : s.scalars.stepDetected w = g.driver.stepDetected w := by
        rw [h.scalars_eq]
        rfl
      obtain ⟨s', staged, views⟩ := windowStage_views h
        (g.driver.stepDetected ((medianCascade (medianSamples g.driver samples)).getD
          (nextAdaptiveWindow g.driver - 1) 0 : Int))
        ((medianCascade (medianSamples g.driver samples)).getD
          (nextAdaptiveWindow g.driver - 1) 0 : Int)
      rw [Statics.hx711ReadMedianRtos, if_neg there, if_pos rfl, window, taken]
      dsimp only
      rw [guard, staged, Option.map_some]
      refine ⟨_, rfl, views.change
        (fun t => { t with
          adaptiveWindow := nextAdaptiveWindow g.driver
          sLastOutput := (hx711ReadMedianRtos g.driver true samples).1.sLastOutput })
        ?_ ?_ ?_ rfl rfl rfl⟩
      all_goals exact fun _ => rfl

/-- What the moving-average setup of `hx711_init` leaves. -/
def setUpWindow (t : Driver) (sMaBuf : Option (List ℚ)) (maWindow : Int) : Driver :=
  let sMaWindow := if 0 < maWindow ∧ sMaBuf.isNone then 0 else maWindow
  { t with
    sMaWindow := sMaWindow
    sMa := if 0 < sMaWindow then movingAverageInit t.sMa sMaBuf maWindow else t.sMa }

/-- **The moving-average setup does not fault.** -/
theorem setUpWindow_views (h : s.Views g) (sMaBuf : Option (List ℚ)) {maWindow : Int}
    (small : maWindow < 2 ^ 30) :
    ∃ s', s.setUpWindow sMaBuf.isSome maWindow = some s' ∧
      s'.Views
        ((g.allocate (decide (0 < maWindow) && sMaBuf.isSome)).withDriver
          (setUpWindow g.driver sMaBuf maWindow)) := by
  have resized (maWindow : Int) :=
    congrArg (fun t : Driver => { t with sMaWindow := maWindow }) h.agrees
  by_cases positive : 0 < maWindow
  · cases sMaBuf with
    | none =>
        simp only [Statics.setUpWindow, setUpWindow, positive, Option.isSome_none,
          Option.isNone_none, Bool.false_eq_true, if_false, and_true, Bool.and_false, if_true,
          lt_irrefl]
        exact ⟨_, rfl, resized 0, h.holds, h.mutex, h.next, h.inUse, h.live,
          fun window => absurd window (lt_irrefl 0)⟩
    | some block =>
        obtain ⟨heap', ma', initialised, holds', arrays, pointer⟩ :=
          init_holds h.holds block positive small
        simp only [Statics.setUpWindow, setUpWindow, if_pos positive, Option.isSome_some,
          Option.isNone_some, Bool.false_eq_true, if_true, and_false, if_false,
          decide_eq_true positive, Bool.and_true, initialised, Option.map_some]
        refine ⟨_, rfl, ?_, holds', h.mutex, ?_, ?_, ?_, ?_⟩
        · exact congrArg
            (fun t : Driver =>
              { t with
                sMaWindow := maWindow
                sMa := movingAverageInit g.driver.sMa (some block) maWindow })
            h.agrees
        · show heap'.next = g.next + 1
          rw [arrays.next, ← h.next]
          exact Objects.next_create
        · show ma'.buffer = some g.next
          rw [pointer, h.next]
        · intro p
          show heap'.Live p ↔ p ∈ g.live ++ [g.next]
          rw [arrays.live, Heap.live_malloc_iff, h.live, h.next, List.mem_append,
            List.mem_singleton, or_comm]
        · intro _
          simp [Ledger.withDriver, movingAverageInit, not_le.mpr positive]
  · simp only [Statics.setUpWindow, setUpWindow, positive, false_and, if_false, decide_false,
      Bool.false_and]
    exact ⟨_, rfl, resized maWindow, h.holds, h.mutex, h.next, h.inUse, h.live,
      fun window => absurd window positive⟩

theorem getMovingAverageValue_holds {heap : Heap ℚ} {ma : MovingAvgT} {v : MovingAvg}
    (h : ma.Holds heap v) : Statics.getMovingAverageValue ma = getMovingAverageValue v := by
  rw [Statics.getMovingAverageValue, getMovingAverageValue, h.count_eq, h.sum_eq, Int.cast_natCast]
  exact if_congr Int.natCast_eq_zero rfl rfl

/-- `hx711_init` by its parts: the window is set up, then primed by an update. -/
theorem hx711Init_eq (t : Driver) (sMaBuf : Option (List ℚ)) (cfg : Config) (raw0 : Int) :
    hx711Init t sMaBuf cfg raw0 =
      let ready := setUpWindow t sMaBuf cfg.maWindow
      let sMa := (windowStage ready false raw0).1
      let sKf :=
        if cfg.useKf then
          (kalmanUpdateAdaptive (kalmanInitAdaptive t.sKf cfg.qInit cfg.rInit) raw0).1
        else t.sKf
      { ready with
        sMa := sMa
        sUseKf := cfg.useKf
        sKf := sKf
        sBoostCount := 0
        sLastOutput :=
          if cfg.useKf then sKf.xEst
          else if 0 < ready.sMaWindow then getMovingAverageValue sMa else raw0 } := by
  simp only [hx711Init, setUpWindow, windowStage, Bool.false_eq_true, if_false]
  generalize (if 0 < cfg.maWindow ∧ sMaBuf.isNone = true then 0 else cfg.maWindow) = window
  by_cases positive : 0 < window
  · simp only [if_pos positive]
    cases cfg.useKf <;> rfl
  · simp only [if_neg positive]
    cases cfg.useKf <;> rfl

/-- **Initialising the driver does not fault.** -/
theorem hx711Init_views (h : s.Views g) (sMaBuf : Option (List ℚ)) (cfg : Config) (raw0 : Int)
    (small : cfg.maWindow < 2 ^ 30) :
    ∃ s', s.hx711Init sMaBuf.isSome cfg raw0 = some s' ∧
      s'.Views (g.step (.init sMaBuf cfg raw0)).1 := by
  have unlocked : Statics.Views { s with mutex := false } { g with mutex := false } :=
    ⟨h.agrees, h.holds, rfl, h.next, h.inUse, h.live, h.buffered⟩
  obtain ⟨ready, setUp, views⟩ := setUpWindow_views unlocked sMaBuf small
  obtain ⟨primed, staged, views'⟩ := windowStage_views views false raw0
  have window : primed.sMaWindow = (setUpWindow g.driver sMaBuf cfg.maWindow).sMaWindow :=
    congrArg Driver.sMaWindow views'.agrees
  have kf : primed.sKf = g.driver.sKf := congrArg Driver.sKf views'.agrees
  have average : (if 0 < primed.sMaWindow then Statics.getMovingAverageValue primed.sMa
        else (raw0 : ℚ)) =
      if 0 < (setUpWindow g.driver sMaBuf cfg.maWindow).sMaWindow then
        getMovingAverageValue (windowStage (setUpWindow g.driver sMaBuf cfg.maWindow) false raw0).1
      else raw0 := by
    rw [window, getMovingAverageValue_holds views'.holds]
    rfl
  have initialised : s.hx711Init sMaBuf.isSome cfg raw0 = some
      { primed with
        sUseKf := cfg.useKf
        sKf := (hx711Init g.driver sMaBuf cfg raw0).sKf
        sBoostCount := 0
        sLastOutput := (hx711Init g.driver sMaBuf cfg raw0).sLastOutput } := by
    rw [Statics.hx711Init, hx711Init_eq]
    dsimp only
    rw [setUp, Option.bind_some, staged, Option.map_some]
    dsimp only
    rw [kf, average]
  have configured : Statics.Views
      { primed with
        sUseKf := cfg.useKf
        sKf := (hx711Init g.driver sMaBuf cfg raw0).sKf
        sBoostCount := 0
        sLastOutput := (hx711Init g.driver sMaBuf cfg raw0).sLastOutput } _ := views'.change
    (fun t => { t with
      sUseKf := cfg.useKf
      sKf := (hx711Init g.driver sMaBuf cfg raw0).sKf
      sBoostCount := 0
      sLastOutput := (hx711Init g.driver sMaBuf cfg raw0).sLastOutput })
    (fun _ => rfl) (fun _ => rfl) (fun _ => rfl) rfl rfl rfl
  refine ⟨_, initialised, Eq.mp (congrArg _ ?_) configured⟩
  rw [Ledger.step, plainStep, hx711Init_eq]
  cases allocated : decide (0 < cfg.maWindow) && sMaBuf.isSome <;>
    simp only [Ledger.buffers, DriverCall.allocates, allocated] <;> rfl

/-- **Initialising it with a mutex does not fault.** -/
theorem hx711InitRtos_views (h : s.Views g) (sMaBuf : Option (List ℚ)) (cfg : Config) (raw0 : Int)
    (small : cfg.maWindow < 2 ^ 30) :
    ∃ s', s.hx711InitRtos sMaBuf.isSome cfg raw0 = some s' ∧
      s'.Views (g.step (.initRtos sMaBuf cfg raw0)).1 := by
  obtain ⟨s', initialised, views⟩ := hx711Init_views h sMaBuf cfg raw0 small
  rw [Statics.hx711InitRtos, initialised, Option.map_some]
  exact ⟨_, rfl, views.agrees, views.holds, rfl, views.next, views.inUse, views.live,
    views.buffered⟩

/-- **Giving the driver up does not fault.** -/
theorem hx711Deinit_views (h : s.Views g) :
    ∃ s', s.hx711Deinit = some s' ∧ s'.Views (g.step .deinit).1 := by
  have window : s.sMaWindow = g.driver.sMaWindow := congrArg Driver.sMaWindow h.agrees
  by_cases positive : 0 < g.driver.sMaWindow
  · obtain ⟨heap', ma', freed, holds', pointer, next, live⟩ := deinit_holds h.holds
    have positive' : 0 < s.sMaWindow := window ▸ positive
    simp only [Statics.hx711Deinit, if_pos positive', freed, Option.map_some, Ledger.step,
      Ledger.buffers, if_pos positive, plainStep, hx711Deinit, DriverCall.mutexAfter]
    refine ⟨_, rfl, ?_, holds', rfl, next.trans h.next, pointer, ?_,
      fun window => absurd window (lt_irrefl 0)⟩
    · exact congrArg
        (fun t : Driver => { t with sMa := movingAverageDeinit g.driver.sMa, sMaWindow := 0 })
        h.agrees
    · intro p
      show heap'.Live p ↔ p ∈ g.live.filter fun p => decide (some p ≠ g.inUse)
      rw [live, List.mem_filter, h.live, h.inUse, decide_eq_true_eq, and_comm]
  · have none' : ¬ 0 < s.sMaWindow := window ▸ positive
    simp only [Statics.hx711Deinit, if_neg none', Ledger.step, Ledger.buffers, if_neg positive,
      plainStep, hx711Deinit, DriverCall.mutexAfter]
    exact ⟨_, rfl, h.agrees, h.holds, rfl, h.next, h.inUse, h.live, h.buffered⟩

/-- **No call faults** but a read without a mutex. -/
theorem callStep_views (h : s.Views g) {call : DriverCall} (fits : call.Fits)
    (ok : g.ok call = true) :
    ∃ s', s.callStep call = some (s', (g.step call).2) ∧ s'.Views (g.step call).1 := by
  cases call with
  | init sMaBuf cfg raw0 =>
      obtain ⟨s', initialised, views⟩ := hx711Init_views h sMaBuf cfg raw0 fits
      rw [Statics.callStep, initialised, Option.map_some]
      exact ⟨s', rfl, views⟩
  | initRtos sMaBuf cfg raw0 =>
      obtain ⟨s', initialised, views⟩ := hx711InitRtos_views h sMaBuf cfg raw0 fits
      rw [Statics.callStep, initialised, Option.map_some]
      exact ⟨s', rfl, views⟩
  | deinit =>
      obtain ⟨s', freed, views⟩ := hx711Deinit_views h
      rw [Statics.callStep, freed, Option.map_some]
      exact ⟨s', rfl, views⟩
  | readFiltered raw =>
      obtain ⟨s', read, views⟩ := hx711ReadFiltered_views h raw
      rw [Statics.callStep, read, Option.map_some]
      exact ⟨s', rfl, views⟩
  | readFilteredRtos lock raw =>
      have mutex : g.mutex = true := ok
      have there : ¬ s.mutex = false := by
        rw [h.mutex, mutex]
        decide
      rw [Statics.callStep, Statics.hx711ReadFilteredRtos, if_neg there]
      cases lock with
      | true =>
          obtain ⟨s', read, views⟩ := hx711ReadFiltered_views h raw
          rw [if_pos rfl, read, Option.map_some]
          exact ⟨s', rfl, views⟩
      | false => exact ⟨s, rfl, h⟩
  | readMedianRtos lock samples =>
      obtain ⟨s', read, views⟩ := hx711ReadMedianRtos_views h ok lock samples
      rw [Statics.callStep, read, Option.map_some]
      exact ⟨s', rfl, views⟩

/-- **A read without a mutex faults.** -/
theorem callStep_faults (h : s.Views g) {call : DriverCall} (missing : g.ok call = false) :
    s.callStep call = none := by
  cases call with
  | readFilteredRtos lock raw =>
      have none' : s.mutex = false := h.mutex.trans missing
      rw [Statics.callStep, Statics.hx711ReadFilteredRtos, if_pos none', Option.map_none]
  | readMedianRtos lock samples =>
      have none' : s.mutex = false := h.mutex.trans missing
      rw [Statics.callStep, Statics.hx711ReadMedianRtos, if_pos none', Option.map_none]
  | init | initRtos | deinit | readFiltered => cases missing

end Steps

/-! ### Runs -/

section Runs

variable {g : Ledger} {calls : List DriverCall}

/-- The account changes nothing. -/
theorem ledger_run (g : Ledger) (calls : List DriverCall) :
    (after Ledger.step g calls).driver = after plainStep g.driver calls ∧
      outputs Ledger.step g calls = outputs plainStep g.driver calls := by
  induction calls generalizing g with
  | nil => exact ⟨rfl, rfl⟩
  | cons call calls ih =>
      obtain ⟨final, emitted⟩ := ih (g.step call).1
      rw [after_cons, after_cons, outputs_cons, outputs_cons]
      exact ⟨final, congrArg _ emitted⟩

theorem allowed_eq (g : Ledger) (calls : List DriverCall) :
    allowed Ledger.step Ledger.ok g calls = mutexThere g.mutex calls := by
  induction calls generalizing g with
  | nil => rfl
  | cons call calls ih =>
      rw [allowed, mutexThere, ih]
      rfl

/-- A run from statics with memory, next to the model without. -/
theorem run_views (calls : List DriverCall) (fits : ∀ call ∈ calls, call.Fits) :
    (mutexThere false calls = true → ∃ s, faultingRun Statics.callStep .boot calls =
        some (s, outputs plainStep .boot calls) ∧ s.Views (after Ledger.step .boot calls)) ∧
      (mutexThere false calls = false → faultingRun Statics.callStep .boot calls = none) := by
  have sim : ∀ (s : Statics) (g : Ledger), ∀ call ∈ calls, s.Views g → g.ok call = true →
      ∃ s', s.callStep call = some (s', (g.step call).2) ∧ s'.Views (g.step call).1 :=
    fun _ _ call member h ok => callStep_views h (fits call member) ok
  have faults : ∀ (s : Statics) (g : Ledger), ∀ call ∈ calls, s.Views g → g.ok call = false →
      s.callStep call = none :=
    fun _ _ _ _ h missing => callStep_faults h missing
  have ran := faultingRun_exact sim faults boot_views
  rwa [allowed_eq, (ledger_run .boot calls).2] at ran

theorem hx711Init_window_pos_iff (t : Driver) (sMaBuf : Option (List ℚ)) (cfg : Config)
    (raw0 : Int) :
    0 < (hx711Init t sMaBuf cfg raw0).sMaWindow ↔
      (decide (0 < cfg.maWindow) && sMaBuf.isSome) = true := by
  show 0 < (if 0 < cfg.maWindow ∧ sMaBuf.isNone = true then 0 else cfg.maWindow) ↔ _
  cases sMaBuf with
  | none =>
      by_cases positive : 0 < cfg.maWindow
      · simp [positive]
      · simp [positive]
  | some block => simp

theorem hx711Deinit_window (t : Driver) : ¬ 0 < (hx711Deinit t).sMaWindow := by
  unfold hx711Deinit
  split_ifs with positive
  · exact lt_irrefl 0
  · exact positive

/-- The buffers are numbered as they are allocated. -/
def Ledger.Numbered (g : Ledger) : Prop := ∀ p ∈ g.live, p < g.next

theorem Ledger.Numbered.step (h : g.Numbered) (call : DriverCall) : (g.step call).1.Numbered := by
  have allocated (b : Bool) : (g.allocate b).Numbered := by
    cases b with
    | false => exact h
    | true =>
        intro p mem
        rcases List.mem_append.mp mem with old | new
        · exact Nat.lt_succ_of_lt (h p old)
        · rw [List.mem_singleton.mp new]
          exact Nat.lt_succ_self _
  cases call with
  | deinit =>
      simp only [Ledger.step, Ledger.buffers]
      split
      · exact fun p mem => h p (List.mem_filter.mp mem).1
      · exact h
  | init | initRtos => exact allocated _
  | readFiltered | readFilteredRtos | readMedianRtos => exact h

/-- The calls free the buffer in use. -/
def Frees (g : Ledger) (calls : List DriverCall) (p : Nat) : Prop :=
  0 < g.driver.sMaWindow ∧ deinitNext calls = true ∧ g.inUse = some p

/-- The buffers after an initialisation, given what the calls after it do. -/
theorem mem_live_init {t : Driver} {mutex allocated : Bool} (h : g.Numbered) (p : Nat)
    (window : 0 < t.sMaWindow ↔ allocated = true) :
    let g' : Ledger := { g.allocate allocated with driver := t, mutex := mutex }
    (p ∈ g'.live ∧ ¬ Frees g' calls p ∨ p ∈ unfreed g'.next calls) ↔
      p ∈ g.live ∨ p ∈
        (if allocated then
          if deinitNext calls then unfreed (g.next + 1) calls
          else g.next :: unfreed (g.next + 1) calls
        else unfreed g.next calls) := by
  intro g'
  cases allocated with
  | false =>
      have kept : ¬ Frees g' calls p := fun frees => Bool.false_ne_true (window.mp frees.1)
      exact or_congr (and_iff_left kept) Iff.rfl
  | true =>
      have older (mem : p ∈ g.live) : g.next ≠ p := (h p mem).ne'
      have frees : Frees g' calls p ↔ deinitNext calls = true ∧ g.next = p :=
        ⟨fun frees => ⟨frees.2.1, Option.some.inj frees.2.2⟩,
          fun next => ⟨window.mpr rfl, next.1, congrArg some next.2⟩⟩
      have member : p ∈ g'.live ↔ p ∈ g.live ∨ p = g.next := by
        show p ∈ g.live ++ [g.next] ↔ _
        rw [List.mem_append, List.mem_singleton]
      rw [frees, member, if_pos rfl]
      show _ ∨ p ∈ unfreed (g.next + 1) calls ↔ _
      cases deinitNext calls with
      | false =>
          rw [if_neg Bool.false_ne_true, List.mem_cons]
          simp [or_assoc]
      | true =>
          rw [if_pos rfl]
          constructor
          · rintro (⟨old | rfl, other⟩ | new)
            · exact .inl old
            · exact absurd ⟨rfl, rfl⟩ other
            · exact .inr new
          · rintro (old | new)
            · exact .inl ⟨.inl old, fun both => older old both.2⟩
            · exact .inr new

/-- **Run lemma.** The buffers that are left: those there were, but for the one in use where a
`hx711_deinit` is next, and the new ones that are not freed. -/
theorem mem_live_iff (h : g.Numbered) (p : Nat) :
    p ∈ (after Ledger.step g calls).live ↔
      p ∈ g.live ∧ ¬ Frees g calls p ∨ p ∈ unfreed g.next calls := by
  induction calls generalizing g with
  | nil => simp [Frees, deinitNext, unfreed]
  | cons call calls ih =>
      rw [after_cons, ih (h.step call)]
      cases call with
      | init sMaBuf cfg raw0 =>
          have kept : ¬ Frees g (.init sMaBuf cfg raw0 :: calls) p :=
            fun frees => Bool.false_ne_true frees.2.1
          rw [and_iff_left kept]
          exact mem_live_init h p (hx711Init_window_pos_iff g.driver sMaBuf cfg raw0)
      | initRtos sMaBuf cfg raw0 =>
          have kept : ¬ Frees g (.initRtos sMaBuf cfg raw0 :: calls) p :=
            fun frees => Bool.false_ne_true frees.2.1
          rw [and_iff_left kept]
          exact mem_live_init h p (hx711Init_window_pos_iff g.driver sMaBuf cfg raw0)
      | deinit =>
          have kept : ¬ Frees (g.step .deinit).1 calls p :=
            fun frees => hx711Deinit_window g.driver frees.1
          rw [and_iff_left kept]
          by_cases positive : 0 < g.driver.sMaWindow
          · have frees : Frees g (.deinit :: calls) p ↔ g.inUse = some p :=
              ⟨fun frees => frees.2.2, fun inUse => ⟨positive, rfl, inUse⟩⟩
            simp only [Ledger.step, Ledger.buffers, if_pos positive, Ledger.release, frees,
              List.mem_filter, decide_eq_true_eq, eq_comm (a := g.inUse)]
            rfl
          · have frees : ¬ Frees g (.deinit :: calls) p := fun frees => positive frees.1
            simp only [Ledger.step, Ledger.buffers, if_neg positive, frees, not_false_eq_true,
              and_true]
            rfl
      | readFiltered raw => rfl
      | readFilteredRtos lock raw => cases lock <;> rfl
      | readMedianRtos lock samples => cases lock <;> rfl

end Runs

/-! ### What holds of every run -/

/-- The two initialisations of `app_main`, a step after the first and a median read after the
second, and one `hx711_deinit`. -/
def reinitialised : List DriverCall :=
  [.init (some []) ⟨10, false, 1, 10⟩ 84000, .readFiltered 184000,
    .initRtos (some []) ⟨10, false, 1, 10⟩ 184000, .readMedianRtos true fun _ => 84000, .deinit]

theorem reinitialised_fits : ∀ call ∈ reinitialised, call.Fits := by
  simp [reinitialised, DriverCall.Fits]

/-- **Leaks**: the buffers not freed after a run are those whose allocation was not followed by
`hx711_deinit` before the next initialisation. -/
theorem live_buffers_eq (calls : List DriverCall) (fits : ∀ call ∈ calls, call.Fits)
    (there : mutexThere false calls = true) :
    ∃ s os, faultingRun Statics.callStep .boot calls = some (s, os) ∧
      ∀ p, s.heap.Live p ↔ p ∈ unfreed 0 calls := by
  obtain ⟨s, ran, views⟩ := (run_views calls fits).1 there
  refine ⟨s, _, ran, ?_⟩
  intro p
  have numbered : Ledger.boot.Numbered := fun p mem => absurd mem List.not_mem_nil
  have counted : p ∈ (after Ledger.step .boot calls).live ↔
      p ∈ Ledger.boot.live ∧ ¬ Frees .boot calls p ∨ p ∈ unfreed 0 calls := mem_live_iff numbered p
  rw [views.live, counted]
  exact or_iff_right fun old => List.not_mem_nil old.1

/-- The buffer of the first initialisation. -/
theorem live_buffers_reinitialised :
    ∃ s os, faultingRun Statics.callStep .boot reinitialised = some (s, os) ∧
      ∀ p, s.heap.Live p ↔ p ∈ [0] :=
  live_buffers_eq reinitialised reinitialised_fits rfl

end SmartScale.Hx711
