import SmartScale.Hx711.Convergence

/-!
`kalman_update_adaptive` under a caller that overwrites `Q` between updates, as
`hx711_read_filtered` does: the filter never divides by zero.

An `Override` is what the caller does to `Q` before an update. A filter that starts with
any `Q` and `R`, zero included, is `Divisible` before every update
(`adaptive_never_divides_by_zero`), and the driver's calls are such updates
(`hx711ReadFiltered_overridden`).
-/

namespace SmartScale.Hx711

open SmartScale.Transducer SmartScale.Kalman SmartScale.Gain

/-- What the caller does to `Q` before an update. -/
inductive Override where
  | keep
  | normal
  | boosted
deriving DecidableEq

/-- `kf->Q` after the override. -/
def Override.q (kf : KalmanFilter) : Override → ℚ
  | .keep => kf.q
  | .normal => normalQ
  | .boosted => boostedQ

/-- The filter an update gets. -/
def Override.apply (kf : KalmanFilter) (o : Override) : KalmanFilter := { kf with q := o.q kf }

/-- One update of a run: the override before it, and the measurement. -/
structure Update where
  override : Override
  measurement : ℚ

/-- What one update computes on its way. -/
structure Division where
  /-- `kf->P_est + kf->R`, once `Q` is added to `P_est` -/
  denominator : ℚ
  k : ℚ
  pEst : ℚ

/-- An update under an override, observed. -/
def overriddenUpdate (kf : KalmanFilter) (u : Update) : KalmanFilter × Division :=
  let start := u.override.apply kf
  let next := (kalmanUpdateAdaptive start u.measurement).1
  (next, { denominator := start.pEst + start.q + start.r, k := next.k, pEst := next.pEst })

/-- The divisions of a run. -/
def divisions (kf : KalmanFilter) (us : List Update) : List Division :=
  outputs overriddenUpdate kf us

theorem boostedQ_pos : 0 < boostedQ := by norm_num [boostedQ]

theorem normalQ_pos : 0 < normalQ := by norm_num [normalQ]

theorem divisible_apply {kf : KalmanFilter} (h : Divisible kf) (o : Override) :
    Divisible (o.apply kf) := by
  cases o with
  | keep => exact h
  | normal => exact h.override normalQ_pos
  | boosted => exact h.override boostedQ_pos

/-- **Step lemma.** -/
theorem overriddenUpdate_divisible {kf : KalmanFilter} (h : Divisible kf) (u : Update) :
    Divisible (overriddenUpdate kf u).1 :=
  kalmanUpdateAdaptive_divisible (divisible_apply h u.override) u.measurement

/-- **The adaptive filter never divides by zero**, even if it is started without any noise:
at every update the denominator is positive, the gain lies in `[0, 1]` and the covariance is
not negative. -/
theorem adaptive_never_divides_by_zero (kf : KalmanFilter) {q r : ℚ} (hq : 0 ≤ q) (hr : 0 ≤ r)
    (us : List Update) :
    ∀ d ∈ divisions (kalmanInitAdaptive kf q r) us,
      0 < d.denominator ∧ d.k ∈ Set.Icc (0 : ℚ) 1 ∧ 0 ≤ d.pEst := by
  refine outputs_forall (kalmanInitAdaptive_divisible kf hq hr)
    (fun _ u _ h => overriddenUpdate_divisible h u) ?_
  intro kf u _ h
  have start := divisible_apply h u.override
  exact ⟨start.total_pos, start.gain_mem_Icc, (overriddenUpdate_divisible h u).pEst_nonneg⟩

/-- A filter without noise that reads 100, then -3 with `Q` boosted, then 5. -/
theorem adaptive_never_divides_by_zero_noiseless :
    (divisions (kalmanInitAdaptive .zero 0 0) [⟨.keep, 100⟩, ⟨.boosted, -3⟩, ⟨.keep, 5⟩]).Forall
      fun d => 0 < d.denominator ∧ d.k ∈ Set.Icc (0 : ℚ) 1 ∧ 0 ≤ d.pEst :=
  List.forall_iff_forall_mem.mpr (adaptive_never_divides_by_zero .zero le_rfl le_rfl _)

/-- Without noise, the first update takes the measurement over and forgets the covariance. -/
example : ((divisions (kalmanInitAdaptive .zero 0 0) [⟨.keep, 100⟩, ⟨.keep, -3⟩]).map
    fun d => (d.denominator, d.k, d.pEst)) = [(1, 1, 0), (1 / 2, 0, 0)] := by
  decide +kernel

/-! ### The driver -/

/-- The driver's calls are updates under an override. -/
theorem hx711ReadFiltered_overridden {s : Driver} (kf : s.sUseKf = true) (raw : Int) :
    ∃ o, (hx711ReadFiltered s raw).1.sKf =
      (overriddenUpdate s.sKf ⟨o, (stepAwareMovingAverage s raw).2⟩).1 := by
  rw [hx711ReadFiltered_sKf kf]
  rcases boostQ_cases s (stepAwareMovingAverage s raw).2 with eq | eq | eq
  · exact ⟨.boosted, by rw [eq]; rfl⟩
  · exact ⟨.normal, by rw [eq]; rfl⟩
  · exact ⟨.keep, by rw [eq]; rfl⟩

/-- So the driver's filter stays divisible over every run of filtered reads. -/
theorem filteredRun_divisible (s : Driver) (sMaBuf : Option (List ℚ)) {cfg : Config} (raw0 : Int)
    (raws : List Int) (kf : cfg.useKf = true) (hq : 0 ≤ cfg.qInit) (hr : 0 ≤ cfg.rInit) :
    Divisible (filteredRun s sMaBuf cfg raw0 raws).sKf := by
  have start : Divisible (hx711Init s sMaBuf cfg raw0).sKf := by
    rw [hx711Init_sKf s sMaBuf raw0 kf]
    exact kalmanUpdateAdaptive_divisible (kalmanInitAdaptive_divisible s.sKf hq hr) raw0
  refine (after_invariant (I := fun t : Driver => t.sUseKf = true ∧ Divisible t.sKf)
    ⟨kf, start⟩ ?_).2
  rintro t raw _ ⟨on, h⟩
  obtain ⟨o, eq⟩ := hx711ReadFiltered_overridden on raw
  refine ⟨on, ?_⟩
  rw [eq]
  exact overriddenUpdate_divisible h _

end SmartScale.Hx711
