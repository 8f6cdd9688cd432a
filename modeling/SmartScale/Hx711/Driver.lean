import SmartScale.Filter.Kalman
import SmartScale.Filter.MovingAverage
import SmartScale.Base.Binary32
import SmartScale.Base.Transducer

/-!
The HX711 driver (`hx711/hx711.c`): its static state, `hx711_init`, and the two
read functions that share that state, `hx711_read_filtered` and
`hx711_read_median_rtos`. Floats are exact rationals, and the value each
`hx711_read_raw` returns is an input.

`hx711ReadFiltered` is the composition of its two step-aware stages, so that the
results of the other modules are about one stage at a time:
`stepAwareMovingAverage` and `stepAwareKalman`. A `Call` is one call of either
read function, and a run is a list of calls after `hx711Init`.

Pins, gain and the bit-serial protocol below `hx711_read_raw` play no part here.
-/

namespace SmartScale.Hx711

open SmartScale.MovingAverage SmartScale.Kalman SmartScale.Binary32

/-! ### Parameters -/

/-- `STEP_THRESHOLD` -/
def stepThreshold : ℚ := 1000

/-- `BOOSTED_Q` -/
def boostedQ : ℚ := 10

/-- `NORMAL_Q` -/
def normalQ : ℚ := 1 / 2

/-- `BOOST_SAMPLES` -/
def boostSamples : Nat := 5

/-- `MEDIAN_MIN_SAMPLES` -/
def medianMinSamples : Nat := 3

/-- `MEDIAN_MAX_SAMPLES` -/
def medianMaxSamples : Nat := 11

/-- `MEDIAN_STEP_INCREASE` -/
def medianStepIncrease : Nat := 2

/-! ### State -/

/-- The static variables of `hx711.c`, with `adaptive_window`, the static local
of `hx711_read_median_rtos`. -/
structure Driver where
  sMaWindow : Int
  sMa : MovingAvg
  sUseKf : Bool
  sKf : KalmanFilter
  sBoostCount : Int
  sLastOutput : ℚ
  adaptiveWindow : Nat
deriving DecidableEq

/-- The static variables as the program starts. -/
def Driver.boot : Driver where
  sMaWindow := 0
  sMa := .zero
  sUseKf := false
  sKf := .zero
  sBoostCount := 0
  sLastOutput := 0
  adaptiveWindow := medianMinSamples

/-- The filter arguments of `hx711_init`. -/
structure Config where
  maWindow : Int
  useKf : Bool
  qInit : ℚ
  rInit : ℚ

/-- `get_moving_average_value`. -/
def getMovingAverageValue (ma : MovingAvg) : ℚ :=
  if ma.count = 0 then 0 else ma.sum / ma.count

/-- `hx711_init`: `sMaBuf` is what `malloc` returned for the window buffer, and
`raw0` the priming read. `adaptive_window` survives. -/
def hx711Init (s : Driver) (sMaBuf : Option (List ℚ)) (cfg : Config) (raw0 : Int) : Driver :=
  let sMaWindow := if 0 < cfg.maWindow ∧ sMaBuf.isNone then 0 else cfg.maWindow
  let sMa := if 0 < sMaWindow then movingAverageInit s.sMa sMaBuf cfg.maWindow else s.sMa
  let sKf := if cfg.useKf then kalmanInitAdaptive s.sKf cfg.qInit cfg.rInit else s.sKf
  -- priming: the filters see `raw0` before the first call does
  let sMa := if 0 < sMaWindow then (movingAverageUpdate sMa raw0).1 else sMa
  let sKf := if cfg.useKf then (kalmanUpdateAdaptive sKf raw0).1 else sKf
  { s with
    sMaWindow := sMaWindow
    sMa := sMa
    sUseKf := cfg.useKf
    sKf := sKf
    sBoostCount := 0
    sLastOutput :=
      if cfg.useKf then sKf.xEst
      else if 0 < sMaWindow then getMovingAverageValue sMa else raw0 }

/-- `hx711_deinit`, its effect on the static variables. -/
def hx711Deinit (s : Driver) : Driver :=
  if 0 < s.sMaWindow then { s with sMa := movingAverageDeinit s.sMa, sMaWindow := 0 } else s

/-! ### The filtered read -/

/-- `fabsf(w - s_last_output) > STEP_THRESHOLD` -/
def Driver.stepDetected (s : Driver) (w : ℚ) : Bool :=
  decide (stepThreshold < |w - s.sLastOutput|)

/-- The guard of both step-aware stages of `hx711_read_filtered`. -/
def Driver.boosting (s : Driver) (w : ℚ) : Bool :=
  decide (0 < s.sBoostCount) || s.stepDetected w

/-- The moving-average stage both read functions share, with its reset guard as
an argument: where there is a window, clear it on `reset` and push `w`. -/
def windowStage (s : Driver) (reset : Bool) (w : ℚ) : MovingAvg × ℚ :=
  if 0 < s.sMaWindow then
    movingAverageUpdate (if reset then movingAverageReset s.sMa w else s.sMa) w
  else (s.sMa, w)

/-- Stage 2 of `hx711_read_filtered`, "step-aware moving average". -/
def stepAwareMovingAverage (s : Driver) (w : ℚ) : MovingAvg × ℚ :=
  windowStage s (s.boosting w) w

/-- `s_kf.Q` as stage 3 leaves it for the update. -/
def boostQ (s : Driver) (w : ℚ) : ℚ :=
  if s.boosting w then boostedQ
  else if s.sBoostCount = 1 then normalQ
  else s.sKf.q

/-- `s_boost_count` after stage 3: re-armed by the guard, then counted down. -/
def boostCountdown (s : Driver) (w : ℚ) : Int :=
  let count : Int := if s.boosting w then boostSamples else s.sBoostCount
  if 0 < count then count - 1 else count

/-- Stage 3, "step-aware Kalman". -/
def stepAwareKalman (s : Driver) (w : ℚ) : KalmanFilter × Int × ℚ :=
  if s.sUseKf then
    let update := kalmanUpdateAdaptive { s.sKf with q := boostQ s w } w
    (update.1, boostCountdown s w, update.2)
  else (s.sKf, s.sBoostCount, w)

/-- `hx711_read_filtered`, given the value `raw` of its raw reading. -/
def hx711ReadFiltered (s : Driver) (raw : Int) : Driver × ℚ :=
  let averaged := stepAwareMovingAverage s raw
  let estimated := stepAwareKalman s averaged.2
  ({ s with
      sMa := averaged.1
      sKf := estimated.1
      sBoostCount := estimated.2.1
      sLastOutput := estimated.2.2 },
    estimated.2.2)

/-! ### The median read -/

/-- The cascaded median loop: for `i` from 2 on, `samples[i]` becomes the median
of itself and its two predecessors, which the loop has already replaced. The
24-bit samples pass through `float` unchanged. -/
def medianCascade (samples : List Int) : List Int :=
  (List.range' 2 (samples.length - 2)).foldl
    (fun xs i => xs.set i (median3 (xs.getD (i - 2) 0) (xs.getD (i - 1) 0) (xs.getD i 0)))
    samples

/-- What `hx711_read_median_rtos` hands back: its value, and
`*current_sample_size` where it writes one. -/
structure MedianRead where
  value : Int
  currentSampleSize : Option Nat
deriving DecidableEq

/-- The next `adaptive_window`. -/
def nextAdaptiveWindow (s : Driver) : Nat :=
  if 0 < s.sBoostCount then min medianMaxSamples (s.adaptiveWindow + medianStepIncrease)
  else max medianMinSamples (s.adaptiveWindow - 1)

/-- The step-aware moving average of `hx711_read_median_rtos`: its reset guard
does not look at `s_boost_count`. -/
def medianMovingAverage (s : Driver) (w : ℚ) : MovingAvg × ℚ :=
  windowStage s (s.stepDetected w) w

/-- The samples one locked median read takes. -/
def medianSamples (s : Driver) (samples : Nat → Int) : List Int :=
  (List.range (nextAdaptiveWindow s)).map samples

/-- `hx711_read_median_rtos`: `lock` tells whether `xSemaphoreTake` succeeded,
and `samples i` is the raw value read in iteration `i` of the sampling loop. -/
def hx711ReadMedianRtos (s : Driver) (lock : Bool) (samples : Nat → Int) : Driver × MedianRead :=
  if lock then
    let window := nextAdaptiveWindow s
    let cascaded := medianCascade (medianSamples s samples)
    let averaged := medianMovingAverage s (cascaded.getD (window - 1) 0 : Int)
    ({ s with
        adaptiveWindow := window
        sMa := averaged.1
        sLastOutput := averaged.2 },
      { value := truncate averaged.2, currentSampleSize := some window })
  else (s, { value := 0, currentSampleSize := none })

/-! ### Runs of calls -/

/-- One call of a read function, with what its environment answers. -/
inductive Call where
  | filtered (raw : Int)
  | median (lock : Bool) (samples : Nat → Int)

/-- The value a call returns and the raw readings it consumed. -/
structure CallResult where
  returned : ℚ
  raws : List Int

/-- Execute one call. -/
def callStep (s : Driver) : Call → Driver × CallResult
  | .filtered raw => ((hx711ReadFiltered s raw).1, ⟨(hx711ReadFiltered s raw).2, [raw]⟩)
  | .median lock samples =>
      ((hx711ReadMedianRtos s lock samples).1,
        ⟨(hx711ReadMedianRtos s lock samples).2.value,
          if lock then medianSamples s samples else []⟩)

/-! ### Fields -/

section Fields

variable (s : Driver) (raw : Int) (lock : Bool) (samples : Nat → Int)

/-- `hx711_init` primes a fresh filter with its one raw read. -/
theorem hx711Init_sKf (sMaBuf : Option (List ℚ)) {cfg : Config} (raw0 : Int)
    (kf : cfg.useKf = true) :
    (hx711Init s sMaBuf cfg raw0).sKf =
      (kalmanUpdateAdaptive (kalmanInitAdaptive s.sKf cfg.qInit cfg.rInit) raw0).1 := by
  simp [hx711Init, kf]

/-- Only `hx711_init` sets the configuration. -/
@[simp] theorem hx711ReadFiltered_config :
    (hx711ReadFiltered s raw).1.sMaWindow = s.sMaWindow ∧
      (hx711ReadFiltered s raw).1.sUseKf = s.sUseKf :=
  ⟨rfl, rfl⟩

@[simp] theorem hx711ReadMedianRtos_timeout :
    hx711ReadMedianRtos s false samples = (s, { value := 0, currentSampleSize := none }) := rfl

end Fields

end SmartScale.Hx711
