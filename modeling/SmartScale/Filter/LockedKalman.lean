import SmartScale.Base.Statements
import SmartScale.Filter.StandardKalman

/-!
The `_rtos` functions of `kalman_filter/kalman_filter.c`, called by any number of tasks on one
filter: each takes the mutex or times out, and executes the plain function statement by statement.
Where `kf->mutex` is NULL, as `kalman_init_adaptive` leaves it and `xSemaphoreCreateMutex` may, it
executes the plain function at once.

* `locked_kalman_batch`: without process noise, the tasks' estimate is the least-squares estimate
  of all they measured, in whatever order they came, because of the mutex.
* `locked_kalman_within_hull`: standard and adaptive updates mixed never overshoot, because of the
  mutex.
-/

namespace SmartScale.Kalman

open SmartScale.Gain SmartScale.LeastSquares SmartScale.Statements SmartScale.CriticalSection
open SmartScale.Schedule SmartScale.Transducer

/-! ### The statements -/

/-- `kalman_update` -/
def updateCode (measurement : ℚ) : Code KalmanFilter ℚ := do
  let pPred ← Code.read fun kf => kf.pEst + kf.q
  Code.change fun kf => { kf with k := pPred / (pPred + kf.r) }
  Code.change fun kf => { kf with xEst := kf.xEst + kf.k * (measurement - kf.xEst) }
  Code.change fun kf => { kf with pEst := (1 - kf.k) * pPred }
  Code.read fun kf => kf.xEst

/-- `kalman_update_adaptive` -/
def updateAdaptiveCode (measurement : ℚ) : Code KalmanFilter ℚ := do
  let innovation ← Code.read fun kf => measurement - kf.xEst
  Code.change fun kf => { kf with pEst := kf.pEst + kf.q }
  Code.change fun kf => { kf with k := kf.pEst / (kf.pEst + kf.r) }
  Code.change fun kf => { kf with xEst := kf.xEst + kf.k * innovation }
  Code.change fun kf => { kf with pEst := kf.pEst * (1 - kf.k) }
  if ← Code.test fun kf => kf.threshold < |innovation| then
    Code.change fun kf => { kf with q := min (kf.q * (6 / 5)) kf.qMax }
    Code.change fun kf => { kf with r := max (kf.r * (4 / 5)) kf.rMin }
  else
    Code.change fun kf => { kf with q := max (kf.q * (4 / 5)) kf.qMin }
    Code.change fun kf => { kf with r := min (kf.r * (6 / 5)) kf.rMax }
  Code.read fun kf => kf.xEst

/-- `kalman_init_rtos`, where `mutex` is whether `xSemaphoreCreateMutex` returns one; without it,
the filter is what `kalman_init` or `kalman_init_adaptive` leaves. -/
def kalmanInitRtos {τ α : Type} (kf : KalmanFilter) (processNoise measurementNoise : ℚ)
    (isAdaptive mutex : Bool) : CriticalSection.State τ KalmanFilter α (Code KalmanFilter ℚ) ℚ :=
  .startWith mutex
    (if isAdaptive then kalmanInitAdaptive kf processNoise measurementNoise
      else kalmanInit kf processNoise measurementNoise)

theorem updateCode_run (kf : KalmanFilter) (z : ℚ) : (updateCode z).run kf = kalmanUpdate kf z :=
  rfl

theorem updateAdaptiveCode_run (kf : KalmanFilter) (z : ℚ) :
    (updateAdaptiveCode z).run kf = kalmanUpdateAdaptive kf z := by
  by_cases surprised : kf.threshold < |z - kf.xEst| <;>
    simp [updateAdaptiveCode, kalmanUpdateAdaptive, surprised]

/-! ### Standard updates without process noise -/

section Batch

variable {τ : Type} {kf : KalmanFilter} {r : ℚ}

/-- The filter whenever the mutex is free, and what each call returned, are the least-squares
estimates of a constant from the measurements served until then. -/
structure Batch (r : ℚ) (s : CriticalSection.State τ KalmanFilter ℚ (Code KalmanFilter ℚ) ℚ) :
    Prop where
  returned : s.finished.map Prod.snd = (List.range s.finished.length).map fun i =>
    ((s.finished.take (i + 1)).map Prod.fst).sum / (i + 1 + r)
  estimate : s.free = true →
    s.shared.xEst = (s.finished.map Prod.fst).sum / (s.finished.length + r)
  covariance : s.free = true → s.shared.pEst = r / (s.finished.length + r)
  least : s.free = true → ∀ a, a ≠ s.shared.xEst →
    cost 0 1 r (s.finished.map Prod.fst) s.shared.xEst < cost 0 1 r (s.finished.map Prod.fst) a

theorem outputs_kalmanUpdate (hr : 0 < r) (zs : List ℚ) :
    outputs kalmanUpdate (kalmanInit kf 0 r) zs =
      (List.range zs.length).map fun i => (zs.take (i + 1)).sum / (i + 1 + r) := by
  refine List.ext_getElem? fun i => ?_
  rw [getElem?_outputs, List.getElem?_map]
  by_cases inside : i < zs.length
  · have next : after kalmanUpdate (kalmanInit kf 0 r) (zs.take i ++ [zs[i]]) =
        kalmanRun (kalmanInit kf 0 r) (zs.take (i + 1)) := by
      rw [List.take_append_getElem inside]
      rfl
    have estimate := xEst_batch kf hr (zs.take (i + 1))
    rw [← next, List.length_take, Nat.min_eq_left inside] at estimate
    rw [List.getElem?_eq_getElem inside, List.getElem?_range inside, Option.map_some,
      Option.map_some, ← Nat.cast_succ, ← estimate]
    rw [after_append]
    rfl
  · rw [List.getElem?_eq_none (by omega), List.getElem?_eq_none (by simp; omega)]
    rfl

/-- The updates do not see the limits that `kalman_init_adaptive` sets. -/
theorem kalmanInitRtos_eq {α : Type} (kf : KalmanFilter) (q r : ℚ) (isAdaptive mutex : Bool) :
    ∃ kf', (kalmanInitRtos kf q r isAdaptive mutex :
      CriticalSection.State τ KalmanFilter α (Code KalmanFilter ℚ) ℚ) =
        .startWith mutex (kalmanInit kf' q r) := by
  cases isAdaptive with
  | false => exact ⟨kf, rfl⟩
  | true =>
      exact ⟨{ kf with
        qMin := 1 / 1000, qMax := 1 / 10, rMin := 1 / 2, rMax := 5, threshold := 10 }, rfl⟩

/-- An update that has predicted when another one runs forgets what that one learned. -/
theorem interrupted_pEst (hr : 0 < r) :
    let paused := (updateCode 1).advance 1 (kalmanInit kf 0 r)
    let amid := (updateCode 2).run paused.1
    (paused.2.run amid.1).1.pEst ≠ r / (2 + r) := by
  intro paused amid
  have stale : (paused.2.run amid.1).1.pEst = r / (1 + r) := by
    have pos : 1 + r ≠ 0 := by positivity
    simp only [paused, amid, updateCode, Code.advance_read, Code.advance_zero, Code.run_bind,
      Code.run_read, Code.run_change, kalmanInit, add_zero, mul_one]
    field_simp
    ring
  rw [stale]
  intro same
  rw [div_eq_div_iff (by positivity) (by positivity)] at same
  nlinarith

end Batch

/-! ### Standard and adaptive updates -/

/-- A call of `kalman_update_rtos` or `kalman_update_adaptive_rtos`. -/
inductive Update where
  | standard (measurement : ℚ)
  | adaptive (measurement : ℚ)

def Update.measurement : Update → ℚ
  | .standard z | .adaptive z => z

/-- What it executes under the mutex. -/
def Update.code : Update → Code KalmanFilter ℚ
  | .standard z => updateCode z
  | .adaptive z => updateAdaptiveCode z

def updateStep (kf : KalmanFilter) : Update → KalmanFilter × ℚ
  | .standard z => kalmanUpdate kf z
  | .adaptive z => kalmanUpdateAdaptive kf z

theorem Update.code_run (kf : KalmanFilter) (u : Update) : u.code.run kf = updateStep kf u := by
  cases u with
  | standard z => exact updateCode_run kf z
  | adaptive z => exact updateAdaptiveCode_run kf z

section Hull

variable {kf : KalmanFilter} {lo hi z : ℚ}

theorem kalmanUpdate_tuned (tuned : Tuned kf) (z : ℚ) : Tuned (kalmanUpdate kf z).1 where
  toLimits := ⟨tuned.qMin_pos, tuned.qMin_le_qMax, tuned.rMin_pos, tuned.rMin_le_rMax⟩
  pEst_nonneg := Covariance.riccati_nonneg tuned.pEst_nonneg tuned.q_pos.le tuned.r_pos
  q_pos := tuned.q_pos
  r_pos := tuned.r_pos

theorem kalmanUpdate_mem_Icc (tuned : Tuned kf) (hx : kf.xEst ∈ Set.Icc lo hi)
    (hz : z ∈ Set.Icc lo hi) : (kalmanUpdate kf z).1.xEst ∈ Set.Icc lo hi := by
  rw [kalmanUpdate_xEst]
  exact correct_mem_Icc tuned.gain_mem_Icc hx hz

/-- **Step lemma.** -/
theorem updateStep_within (tuned : Tuned kf) (hx : kf.xEst ∈ Set.Icc lo hi) {u : Update}
    (hu : u.measurement ∈ Set.Icc lo hi) :
    (Tuned (updateStep kf u).1 ∧ (updateStep kf u).1.xEst ∈ Set.Icc lo hi) ∧
      (updateStep kf u).2 ∈ Set.Icc lo hi := by
  cases u with
  | standard z =>
      have next := kalmanUpdate_mem_Icc tuned hx hu
      exact ⟨⟨kalmanUpdate_tuned tuned z, next⟩, next⟩
  | adaptive z =>
      have next := kalmanUpdateAdaptive_mem_Icc tuned hx hu
      exact ⟨⟨kalmanUpdateAdaptive_tuned tuned z, next⟩, next⟩

/-- All that was handed back, 0 at a time-out, lies between any bounds on 0 and the measurements
served. -/
def HandsBackWithin {τ : Type}
    (s : CriticalSection.State τ KalmanFilter Update (Code KalmanFilter ℚ) ℚ) : Prop :=
  ∀ lo ≤ 0, ∀ hi ≥ 0, (∀ a ∈ s.finished.map Prod.fst, a.measurement ∈ Set.Icc lo hi) →
    ∀ c ∈ s.returns, c.result.getD 0 ∈ Set.Icc lo hi

/-- Two adaptive updates with the same stale estimate. -/
theorem interrupted_overshoots (kf : KalmanFilter) :
    let paused := (Update.code (.adaptive 1)).advance 1 (kalmanInitAdaptive kf 9 1)
    let amid := (Update.code (.adaptive 1)).run paused.1
    1 < (paused.2.run amid.1).2 := by
  intro paused amid
  have second : (paused.2.run amid.1).2 = 10 / 11 + 223 / 256 := by
    simp [paused, amid, Update.code, updateAdaptiveCode, kalmanInitAdaptive, kalmanInit]
    norm_num
  rw [second]
  norm_num

/-- **No task ever sees an overshoot, because of the mutex**: on every adaptive filter shared by
tasks that mix standard and adaptive updates, however their statements interleave, where the mutex
was created; where it was not, some do. -/
theorem locked_kalman_within_hull {τ : Type} [DecidableEq τ] [Nontrivial τ] (kf : KalmanFilter)
    (mutex : Bool) :
    (∀ q > 0, ∀ r > 0, ∀ actions : List (Action τ Update Unit),
      AllStates (step (Code.sections Update.code)) HandsBackWithin
        (kalmanInitRtos kf q r true mutex) actions) ↔ mutex = true := by
  constructor
  · intro within
    by_contra none
    rw [Bool.not_eq_true] at none
    rw [none] at within
    obtain ⟨w, leads, -, -, finished⟩ := Code.interrupted (τ := τ) Update.code 1
      (kalmanInitAdaptive kf 9 1) (.adaptive 1) (.adaptive 1)
    have handed := leads.of_allStates (within 9 (by norm_num) 1 one_pos)
    obtain ⟨c, returned, result⟩ := State.exists_return
      (r := _) (finished ▸ List.mem_cons_of_mem _ List.mem_cons_self)
    have inside := handed 0 le_rfl 1 zero_le_one (by simp [finished, Update.measurement]) c returned
    rw [result, Option.getD_some] at inside
    exact (interrupted_overshoots kf).not_ge inside.2
  · rintro rfl q hq r hr actions
    refine (Code.sequential_states Update.code_run _ actions).mono ?_
    rintro s ⟨results, _⟩ lo below hi above within
    have start : Tuned (kalmanInitAdaptive kf q r) ∧
        (kalmanInitAdaptive kf q r).xEst ∈ Set.Icc lo hi :=
      ⟨kalmanInitAdaptive_tuned kf hq hr, below, above⟩
    refine State.forall_returns ⟨below, above⟩ ?_
    rw [results]
    have each (kf : KalmanFilter) (u : Update) (mem : u ∈ s.finished.map Prod.fst)
        (inv : Tuned kf ∧ kf.xEst ∈ Set.Icc lo hi) := updateStep_within inv.1 inv.2 (within u mem)
    exact outputs_forall (I := fun kf => Tuned kf ∧ kf.xEst ∈ Set.Icc lo hi) start
      (fun kf u mem inv => (each kf u mem inv).1) fun kf u mem inv => (each kf u mem inv).2

/-- Two tasks, with the mutex and without. -/
theorem locked_kalman_within_hull_mixed :
    (∀ q > 0, ∀ r > 0, ∀ actions : List (Action Bool Update Unit),
      AllStates (step (Code.sections Update.code)) HandsBackWithin
        (kalmanInitRtos .zero q r true true) actions) ∧
      ¬ ∀ q > 0, ∀ r > 0, ∀ actions : List (Action Bool Update Unit),
        AllStates (step (Code.sections Update.code)) HandsBackWithin
          (kalmanInitRtos .zero q r true false) actions := by
  constructor
  · exact (locked_kalman_within_hull .zero true).mpr rfl
  · intro within
    exact Bool.noConfusion ((locked_kalman_within_hull .zero false).mp within)

end Hull

end SmartScale.Kalman
