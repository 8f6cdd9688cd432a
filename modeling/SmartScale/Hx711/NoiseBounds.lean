import SmartScale.Hx711.Boost
import SmartScale.Hx711.Convergence

/-!
The adaptive noise parameters of `hx711_read_filtered` against their bounds.

Each branch of `kalman_update_adaptive` clamps one side of each parameter, so a `Q` or an
`R` that starts on the other side of a bound, or a `Q` that the driver puts there, stays
outside for a while. Two things put one there:

* the values given to `hx711_init` (`PrimingFits` says which do not), and
* the boost: `BOOSTED_Q` is above `Q_max`, and only an update with a surprising reading
  brings it back (`AwayWhileBoosting`).

`noise_inBounds_iff` says that there is nothing else.
-/

namespace SmartScale.Hx711

open SmartScale.Transducer SmartScale.MovingAverage SmartScale.Kalman

/-- The limits `kalman_init_adaptive` sets. -/
structure DefaultLimits (kf : KalmanFilter) : Prop where
  qMin_eq : kf.qMin = 1 / 1000
  qMax_eq : kf.qMax = 1 / 10
  rMin_eq : kf.rMin = 1 / 2
  rMax_eq : kf.rMax = 5
  threshold_eq : kf.threshold = 10

section DefaultLimits

variable {kf : KalmanFilter}

theorem kalmanInitAdaptive_defaultLimits (kf : KalmanFilter) (q r : ℚ) :
    DefaultLimits (kalmanInitAdaptive kf q r) := ⟨rfl, rfl, rfl, rfl, rfl⟩

theorem kalmanUpdateAdaptive_defaultLimits (h : DefaultLimits kf) (z : ℚ) :
    DefaultLimits (kalmanUpdateAdaptive kf z).1 :=
  ⟨h.qMin_eq, h.qMax_eq, h.rMin_eq, h.rMax_eq, h.threshold_eq⟩

theorem DefaultLimits.override (h : DefaultLimits kf) (q : ℚ) : DefaultLimits { kf with q := q } :=
  ⟨h.qMin_eq, h.qMax_eq, h.rMin_eq, h.rMax_eq, h.threshold_eq⟩

theorem DefaultLimits.limits (h : DefaultLimits kf) : Limits kf where
  qMin_pos := by norm_num [h.qMin_eq]
  qMin_le_qMax := by norm_num [h.qMin_eq, h.qMax_eq]
  rMin_pos := by norm_num [h.rMin_eq]
  rMin_le_rMax := by norm_num [h.rMin_eq, h.rMax_eq]

end DefaultLimits

/-! ### Priming -/

/-- The noise parameters given to `hx711_init` end the priming update in bounds: it raises
`Q` and lowers `R` where the priming read is surprising, and the other way round elsewhere. -/
def PrimingFits (cfg : Config) (raw0 : Int) : Prop :=
  if (10 : ℚ) < |(raw0 : ℚ)| then 1 / 1200 ≤ cfg.qInit ∧ cfg.rInit ≤ 25 / 4
  else cfg.qInit ≤ 1 / 8 ∧ 5 / 12 ≤ cfg.rInit

instance (cfg : Config) (raw0 : Int) : Decidable (PrimingFits cfg raw0) := by
  unfold PrimingFits
  infer_instance

theorem priming_inBounds_iff (s : Driver) (sMaBuf : Option (List ℚ)) {cfg : Config} (raw0 : Int)
    (kf : cfg.useKf = true) :
    InBounds (hx711Init s sMaBuf cfg raw0).sKf ↔ PrimingFits cfg raw0 := by
  have limits := kalmanInitAdaptive_defaultLimits s.sKf cfg.qInit cfg.rInit
  rw [hx711Init_sKf s sMaBuf raw0 kf, kalmanUpdateAdaptive_inBounds_iff limits.limits,
    UncheckedHold, limits.qMin_eq, limits.qMax_eq, limits.rMin_eq, limits.rMax_eq,
    limits.threshold_eq]
  have innovation : (raw0 : ℚ) - (kalmanInitAdaptive s.sKf cfg.qInit cfg.rInit).xEst = raw0 :=
    sub_zero _
  rw [innovation, PrimingFits]
  show (if _ then 1 / 1000 ≤ cfg.qInit * (6 / 5) ∧ cfg.rInit * (4 / 5) ≤ 5
    else cfg.qInit * (4 / 5) ≤ 1 / 10 ∧ 1 / 2 ≤ cfg.rInit * (6 / 5)) ↔ _
  split_ifs
  · constructor
    · rintro ⟨lower, upper⟩
      constructor <;> linarith
    · rintro ⟨lower, upper⟩
      constructor <;> linarith
  · constructor
    · rintro ⟨upper, lower⟩
      constructor <;> linarith
    · rintro ⟨upper, lower⟩
      constructor <;> linarith

/-! ### Calls -/

/-- While the boost counter runs, the reading is away from the estimate by more than the
threshold of the adaptation. -/
def AwayWhileBoosting (s : Driver) (raw : Int) : Prop :=
  0 < s.sBoostCount → s.sKf.threshold < |raw - s.sKf.xEst|

instance (s : Driver) (raw : Int) : Decidable (AwayWhileBoosting s raw) := by
  unfold AwayWhileBoosting
  infer_instance

/-- What calls keep, whatever `Q` and `R` are: the step detection looks at the estimate. -/
structure Tracking (s : Driver) : Prop where
  kf : s.sUseKf = true
  window : WindowOf (fun _ => True) s
  limits : DefaultLimits s.sKf
  last : s.sLastOutput = s.sKf.xEst

section Calls

variable {s : Driver}

theorem hx711Init_tracking (s : Driver) (sMaBuf : Option (List ℚ)) {cfg : Config} (raw0 : Int)
    (kf : cfg.useKf = true) : Tracking (hx711Init s sMaBuf cfg raw0) where
  kf := kf
  window := hx711Init_windowOf s sMaBuf cfg raw0 trivial
  limits := by
    rw [hx711Init_sKf s sMaBuf raw0 kf]
    exact kalmanUpdateAdaptive_defaultLimits (kalmanInitAdaptive_defaultLimits _ _ _) _
  last := by simp [hx711Init, kf]

theorem hx711ReadFiltered_tracking (h : Tracking s) (raw : Int) :
    Tracking (hx711ReadFiltered s raw).1 where
  kf := h.kf
  window := hx711ReadFiltered_windowOf h.window trivial
  limits := by
    rw [hx711ReadFiltered_sKf h.kf]
    exact kalmanUpdateAdaptive_defaultLimits (h.limits.override _) _
  last := hx711ReadFiltered_output h.kf raw

/-- The window hands a reading through while the counter runs. -/
theorem Tracking.average_eq (h : Tracking s) (armed : 0 < s.sBoostCount) (raw : Int) :
    (stepAwareMovingAverage s raw).2 = raw := by
  rw [stepAwareMovingAverage, boosting_of_count armed]
  exact windowStage_reset h.window raw

/-- A detected step is a surprise. -/
theorem Tracking.surprised (h : Tracking s) {w : ℚ} (detected : s.stepDetected w = true) :
    s.sKf.threshold < |w - s.sKf.xEst| := by
  have step : stepThreshold < |w - s.sLastOutput| := of_decide_eq_true detected
  rw [← h.last, h.limits.threshold_eq]
  exact lt_trans (by norm_num [stepThreshold]) step

/-- Without the counter and without a step, `Q` is left as it is. -/
theorem boostQ_quiet {w : ℚ} (idle : ¬ 0 < s.sBoostCount) (calm : s.stepDetected w = false) :
    boostQ s w = s.sKf.q := by
  have quiet : ¬ s.boosting w = true := by
    simp [Driver.boosting, idle, calm]
  have last : ¬ s.sBoostCount = 1 := by omega
  rw [boostQ, if_neg quiet, if_neg last]

/-- What a call must find: after a surprise `Q` not too low and `R` not too high, otherwise the
converse. -/
theorem hx711ReadFiltered_inBounds_iff_held (h : Tracking s) {raw : Int} {w : ℚ}
    (averaged : (stepAwareMovingAverage s raw).2 = w) :
    InBounds (hx711ReadFiltered s raw).1.sKf ↔
      if s.sKf.threshold < |w - s.sKf.xEst| then
        1 / 1000 ≤ boostQ s w * (6 / 5) ∧ s.sKf.r * (4 / 5) ≤ 5
      else boostQ s w * (4 / 5) ≤ 1 / 10 ∧ 1 / 2 ≤ s.sKf.r * (6 / 5) := by
  subst averaged
  have forced := h.limits.override (boostQ s (stepAwareMovingAverage s raw).2)
  rw [hx711ReadFiltered_sKf h.kf, kalmanUpdateAdaptive_inBounds_iff forced.limits, UncheckedHold]
  dsimp only
  rw [h.limits.qMin_eq, h.limits.qMax_eq, h.limits.rMin_eq, h.limits.rMax_eq]

/-- **Step lemma.** From parameters in bounds, a call ends in bounds exactly if the boost does
not meet a reading near the estimate. -/
theorem hx711ReadFiltered_inBounds_iff (h : Tracking s) (inside : InBounds s.sKf) (raw : Int) :
    AwayWhileBoosting s raw ↔ InBounds (hx711ReadFiltered s raw).1.sKf := by
  obtain ⟨⟨q_min, q_max⟩, ⟨r_min, r_max⟩⟩ := inside
  rw [hx711ReadFiltered_inBounds_iff_held h rfl]
  rw [h.limits.qMin_eq] at q_min
  rw [h.limits.qMax_eq] at q_max
  rw [h.limits.rMin_eq] at r_min
  rw [h.limits.rMax_eq] at r_max
  have r_up : 1 / 2 ≤ s.sKf.r * (6 / 5) := by linarith
  have r_down : s.sKf.r * (4 / 5) ≤ 5 := by linarith
  by_cases armed : 0 < s.sBoostCount
  · -- the boost forces `Q` above its bound, and only a surprise clamps it there
    have high : boostQ s raw = 10 := if_pos (boosting_of_count armed _)
    rw [h.average_eq armed, high]
    constructor
    · intro away
      rw [if_pos (away armed)]
      exact ⟨by norm_num, r_down⟩
    · intro unchecked _
      by_contra near
      rw [if_neg near] at unchecked
      exact absurd unchecked.1 (by norm_num)
  · refine iff_of_true (fun armed' => absurd armed' armed) ?_
    cases detected : s.stepDetected (stepAwareMovingAverage s raw).2 with
    | true =>
        have high : boostQ s (stepAwareMovingAverage s raw).2 = 10 :=
          if_pos (boosting_of_detected detected)
        rw [if_pos (h.surprised detected), high]
        exact ⟨by norm_num, r_down⟩
    | false =>
        rw [boostQ_quiet armed detected]
        split_ifs
        · exact ⟨by linarith, r_down⟩
        · exact ⟨by linarith, r_up⟩

end Calls

/-- **When the noise parameters stay in their bounds.** After the priming update and after
every call of a run, `Q` and `R` are in bounds exactly if the initial values fit the priming
read and every reading taken while the boost counter runs is away from the estimate. -/
theorem noise_inBounds_iff (s : Driver) (sMaBuf : Option (List ℚ)) {cfg : Config} (raw0 : Int)
    (raws : List Int) (kf : cfg.useKf = true) :
    (∀ i, InBounds (filteredRun s sMaBuf cfg raw0 (raws.take i)).sKf) ↔
      PrimingFits cfg raw0 ∧ ∀ i raw, raws[i]? = some raw →
        AwayWhileBoosting (filteredRun s sMaBuf cfg raw0 (raws.take i)) raw := by
  rw [← priming_inBounds_iff s sMaBuf raw0 kf]
  exact forall_states_iff (I := Tracking) (P := fun t => InBounds t.sKf)
    (hx711Init_tracking s sMaBuf raw0 kf) (fun _ raw h => hx711ReadFiltered_tracking h raw)
    fun _ raw h inside => hx711ReadFiltered_inBounds_iff h inside raw

/-- Readings after a start with `Q` at 1/20 and `R` at 1. -/
def steppingRun (raws : List Int) : Driver :=
  filteredRun .boot (some (List.replicate 8 0)) ⟨8, true, 1 / 20, 1⟩ 3 raws

/-- A step to 2000, then one back to 0: the boost only meets steps. -/
theorem noise_inBounds_iff_steps :
    InBounds (steppingRun []).sKf ∧ InBounds (steppingRun [2000]).sKf ∧
      InBounds (steppingRun [2000, 0]).sKf := by
  have each : ∀ i, InBounds (steppingRun ([2000, 0].take i)).sKf := by
    refine (noise_inBounds_iff .boot (some (List.replicate 8 0)) 3 [2000, 0] rfl).mpr
      ⟨by norm_num [PrimingFits], ?_⟩
    intro i raw hi
    match i with
    | 0 => exact fun armed => absurd armed (lt_irrefl 0)
    | 1 =>
        cases hi
        decide +kernel
    | i + 2 => exact absurd hi (by simp)
  exact ⟨each 0, each 1, each 2⟩

/-- The parameters of the application leave the bounds in the priming update: `Q` starts at
0.5, five times its maximum, and an unsurprising read only scales it down. -/
theorem noise_out_of_bounds :
    ¬ ∀ (s : Driver) (sMaBuf : Option (List ℚ)) (cfg : Config) (raw0 : Int) (raws : List Int),
      cfg.useKf = true → 0 < cfg.qInit → 0 < cfg.rInit →
      ∀ i, InBounds (filteredRun s sMaBuf cfg raw0 (raws.take i)).sKf := by
  intro claimed
  have inside := (claimed .boot (some (List.replicate 8 0)) ⟨8, true, 1 / 2, 1⟩ 0 [] rfl
    (by norm_num) one_pos 0).q_mem.2
  exact absurd inside (by decide +kernel)

end SmartScale.Hx711
