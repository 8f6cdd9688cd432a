import SmartScale.Base.Gain
import Mathlib.Algebra.Order.Ring.Rat
import Mathlib.Tactic.NormNum

/-!
The adaptive Kalman filter (`kalman_filter/kalman_filter.c`), in exact rational
arithmetic.

`Tuned` is the invariant of the self-adjusting parameters: the covariance and
the noise parameters never turn negative, so every gain lies in `[0, 1]` and the
update is a convex combination (`kalmanUpdateAdaptive_mem_Icc`). `Bounded` adds
the floor under `Q` and the ceiling on `R`, from which the update contracts the
distance to a constant measurement (`kalmanUpdateAdaptive_contracts`). `Divisible` is
what is left of them where `Q` and `R` may start at zero, and `InBounds` what the limits
are meant to give; an update checks half of it (`kalmanUpdateAdaptive_inBounds_iff`).

The semaphore of `KalmanFilter` is left out: only the `_rtos` wrappers read it.
-/

namespace SmartScale.Kalman

open SmartScale.Gain

/-- `KalmanFilter`: the filter variables, then the adaptive parameters. -/
structure KalmanFilter where
  xEst : ℚ
  pEst : ℚ
  q : ℚ
  r : ℚ
  k : ℚ
  qMin : ℚ
  qMax : ℚ
  rMin : ℚ
  rMax : ℚ
  threshold : ℚ
deriving DecidableEq

/-- The zero-initialised static `KalmanFilter`. -/
def KalmanFilter.zero : KalmanFilter where
  xEst := 0
  pEst := 0
  q := 0
  r := 0
  k := 0
  qMin := 0
  qMax := 0
  rMin := 0
  rMax := 0
  threshold := 0

/-- `kalman_init`. The adaptive parameters are not touched. -/
def kalmanInit (kf : KalmanFilter) (processNoise measurementNoise : ℚ) : KalmanFilter :=
  { kf with xEst := 0, pEst := 1, q := processNoise, r := measurementNoise, k := 0 }

/-- `kalman_init_adaptive`. -/
def kalmanInitAdaptive (kf : KalmanFilter) (processNoise measurementNoise : ℚ) : KalmanFilter :=
  { kalmanInit kf processNoise measurementNoise with
    qMin := 1 / 1000
    qMax := 1 / 10
    rMin := 1 / 2
    rMax := 5
    threshold := 10 }

/-- `kalman_update_adaptive`, returning `x_est` next to the filter. -/
def kalmanUpdateAdaptive (kf : KalmanFilter) (measurement : ℚ) : KalmanFilter × ℚ :=
  let innovation := measurement - kf.xEst
  let pPred := kf.pEst + kf.q
  let k := pPred / (pPred + kf.r)
  let xEst := kf.xEst + k * innovation
  let pEst := pPred * (1 - k)
  let surprised := kf.threshold < |innovation|
  let q := if surprised then min (kf.q * (6 / 5)) kf.qMax else max (kf.q * (4 / 5)) kf.qMin
  let r := if surprised then max (kf.r * (4 / 5)) kf.rMin else min (kf.r * (6 / 5)) kf.rMax
  ({ kf with xEst := xEst, pEst := pEst, q := q, r := r, k := k }, xEst)

/-! ### One update, field by field -/

section Fields

variable (kf : KalmanFilter) (z : ℚ)

@[simp] theorem kalmanUpdateAdaptive_snd :
    (kalmanUpdateAdaptive kf z).2 = (kalmanUpdateAdaptive kf z).1.xEst := rfl

/-- The update corrects the estimate by the gain of the predicted covariance. -/
theorem kalmanUpdateAdaptive_xEst :
    (kalmanUpdateAdaptive kf z).1.xEst = correct (gain (kf.pEst + kf.q) kf.r) kf.xEst z := rfl

theorem kalmanUpdateAdaptive_pEst :
    (kalmanUpdateAdaptive kf z).1.pEst =
      (kf.pEst + kf.q) * (1 - gain (kf.pEst + kf.q) kf.r) := rfl

/-- `Q` and `R` move in opposite directions, each clamped on one side. -/
theorem kalmanUpdateAdaptive_noise :
    ((kalmanUpdateAdaptive kf z).1.q = min (kf.q * (6 / 5)) kf.qMax ∧
        (kalmanUpdateAdaptive kf z).1.r = max (kf.r * (4 / 5)) kf.rMin) ∨
      ((kalmanUpdateAdaptive kf z).1.q = max (kf.q * (4 / 5)) kf.qMin ∧
        (kalmanUpdateAdaptive kf z).1.r = min (kf.r * (6 / 5)) kf.rMax) := by
  by_cases surprised : kf.threshold < |z - kf.xEst|
  · exact .inl ⟨if_pos surprised, if_pos surprised⟩
  · exact .inr ⟨if_neg surprised, if_neg surprised⟩

end Fields

/-! ### The parameter invariants -/

/-- The limits leave room between a positive floor and a ceiling. -/
structure Limits (kf : KalmanFilter) : Prop where
  qMin_pos : 0 < kf.qMin
  qMin_le_qMax : kf.qMin ≤ kf.qMax
  rMin_pos : 0 < kf.rMin
  rMin_le_rMax : kf.rMin ≤ kf.rMax

/-- No variance is negative, and neither noise parameter is zero. -/
structure Tuned (kf : KalmanFilter) : Prop extends Limits kf where
  pEst_nonneg : 0 ≤ kf.pEst
  q_pos : 0 < kf.q
  r_pos : 0 < kf.r

/-- `Tuned`, with `Q` at least `Q_min` and `R` at most `R_max`. -/
structure Bounded (kf : KalmanFilter) : Prop extends Tuned kf where
  q_floor : kf.qMin ≤ kf.q
  r_ceil : kf.r ≤ kf.rMax

variable {kf : KalmanFilter} {z q r : ℚ}

theorem kalmanInitAdaptive_limits (kf : KalmanFilter) (q r : ℚ) :
    Limits (kalmanInitAdaptive kf q r) where
  qMin_pos := by norm_num [kalmanInitAdaptive]
  qMin_le_qMax := by norm_num [kalmanInitAdaptive]
  rMin_pos := by norm_num [kalmanInitAdaptive]
  rMin_le_rMax := by norm_num [kalmanInitAdaptive]

theorem Limits.update (h : Limits kf) (z : ℚ) : Limits (kalmanUpdateAdaptive kf z).1 :=
  ⟨h.qMin_pos, h.qMin_le_qMax, h.rMin_pos, h.rMin_le_rMax⟩

theorem Limits.override (h : Limits kf) (q : ℚ) : Limits { kf with q := q } :=
  ⟨h.qMin_pos, h.qMin_le_qMax, h.rMin_pos, h.rMin_le_rMax⟩

theorem Limits.qMax_pos (h : Limits kf) : 0 < kf.qMax := h.qMin_pos.trans_le h.qMin_le_qMax

theorem Limits.rMax_pos (h : Limits kf) : 0 < kf.rMax := h.rMin_pos.trans_le h.rMin_le_rMax

/-- A gain of at most 1 leaves a covariance that is not negative. -/
theorem kalmanUpdateAdaptive_pEst_nonneg (predicted : 0 ≤ kf.pEst + kf.q)
    (bounded : gain (kf.pEst + kf.q) kf.r ≤ 1) (z : ℚ) :
    0 ≤ (kalmanUpdateAdaptive kf z).1.pEst := by
  rw [kalmanUpdateAdaptive_pEst]
  exact mul_nonneg predicted (sub_nonneg.mpr bounded)

theorem kalmanInitAdaptive_tuned (kf : KalmanFilter) (hq : 0 < q) (hr : 0 < r) :
    Tuned (kalmanInitAdaptive kf q r) where
  toLimits := kalmanInitAdaptive_limits kf q r
  pEst_nonneg := zero_le_one
  q_pos := hq
  r_pos := hr

theorem kalmanInitAdaptive_bounded (kf : KalmanFilter)
    (hq : (kalmanInitAdaptive kf q r).qMin ≤ q) (hr : 0 < r)
    (hr' : r ≤ (kalmanInitAdaptive kf q r).rMax) : Bounded (kalmanInitAdaptive kf q r) where
  toTuned := kalmanInitAdaptive_tuned kf (lt_of_lt_of_le (by norm_num [kalmanInitAdaptive]) hq) hr
  q_floor := hq
  r_ceil := hr'

theorem Tuned.pPred_pos (h : Tuned kf) : 0 < kf.pEst + kf.q :=
  add_pos_of_nonneg_of_pos h.pEst_nonneg h.q_pos

/-- The gain of an update lies in `[0, 1]`. -/
theorem Tuned.gain_mem_Icc (h : Tuned kf) : gain (kf.pEst + kf.q) kf.r ∈ Set.Icc (0 : ℚ) 1 :=
  Gain.gain_mem_Icc h.pPred_pos.le h.r_pos.le

theorem kalmanUpdateAdaptive_tuned (h : Tuned kf) (z : ℚ) :
    Tuned (kalmanUpdateAdaptive kf z).1 where
  toLimits := h.toLimits.update z
  pEst_nonneg := kalmanUpdateAdaptive_pEst_nonneg h.pPred_pos.le h.gain_mem_Icc.2 z
  q_pos := by
    have hq := h.q_pos
    rcases kalmanUpdateAdaptive_noise kf z with ⟨eq, _⟩ | ⟨eq, _⟩
    · rw [eq]
      exact lt_min (by linarith) h.qMax_pos
    · rw [eq]
      exact lt_max_of_lt_right h.qMin_pos
  r_pos := by
    have hr := h.r_pos
    rcases kalmanUpdateAdaptive_noise kf z with ⟨_, eq⟩ | ⟨_, eq⟩
    · rw [eq]
      exact lt_max_of_lt_right h.rMin_pos
    · rw [eq]
      exact lt_min (by linarith) h.rMax_pos

/-- Each branch clamps one side only; together they keep both bounds. -/
theorem kalmanUpdateAdaptive_bounded (h : Bounded kf) (z : ℚ) :
    Bounded (kalmanUpdateAdaptive kf z).1 where
  toTuned := kalmanUpdateAdaptive_tuned h.toTuned z
  q_floor := by
    have floor := h.q_floor
    have hq := h.q_pos
    rcases kalmanUpdateAdaptive_noise kf z with ⟨eq, _⟩ | ⟨eq, _⟩
    · rw [eq]
      exact le_min (floor.trans (by linarith)) h.qMin_le_qMax
    · rw [eq]
      exact le_max_right _ _
  r_ceil := by
    have ceil := h.r_ceil
    have hr := h.r_pos
    rcases kalmanUpdateAdaptive_noise kf z with ⟨_, eq⟩ | ⟨_, eq⟩
    · rw [eq]
      exact max_le (le_trans (by linarith) ceil) h.rMin_le_rMax
    · rw [eq]
      exact min_le_right _ _

/-- A caller may overwrite `Q` by a positive value between updates. -/
theorem Tuned.override (h : Tuned kf) (hq : 0 < q) : Tuned { kf with q := q } where
  toLimits := h.toLimits.override q
  pEst_nonneg := h.pEst_nonneg
  q_pos := hq
  r_pos := h.r_pos

theorem Bounded.override (h : Bounded kf) (hq : kf.qMin ≤ q) : Bounded { kf with q := q } where
  toTuned := h.toTuned.override (h.qMin_pos.trans_le hq)
  q_floor := hq
  r_ceil := h.r_ceil

/-! ### Noise parameters that may be zero -/

/-- What keeps the gain defined where `Q` and `R` may be zero: no variance is negative, and
they are not all zero at once. -/
structure Divisible (kf : KalmanFilter) : Prop extends Limits kf where
  pEst_nonneg : 0 ≤ kf.pEst
  q_nonneg : 0 ≤ kf.q
  r_nonneg : 0 ≤ kf.r
  total_pos : 0 < kf.pEst + kf.q + kf.r

/-- `P_est` starts at 1, whatever the noise parameters. -/
theorem kalmanInitAdaptive_divisible (kf : KalmanFilter) (hq : 0 ≤ q) (hr : 0 ≤ r) :
    Divisible (kalmanInitAdaptive kf q r) where
  toLimits := kalmanInitAdaptive_limits kf q r
  pEst_nonneg := zero_le_one
  q_nonneg := hq
  r_nonneg := hr
  total_pos := by
    show 0 < 1 + q + r
    linarith

theorem Divisible.gain_mem_Icc (h : Divisible kf) :
    gain (kf.pEst + kf.q) kf.r ∈ Set.Icc (0 : ℚ) 1 :=
  Gain.gain_mem_Icc (add_nonneg h.pEst_nonneg h.q_nonneg) h.r_nonneg

/-- `P_est` may drop to 0, but the branch taken then leaves `Q` or `R` at its floor. -/
theorem kalmanUpdateAdaptive_divisible (h : Divisible kf) (z : ℚ) :
    Divisible (kalmanUpdateAdaptive kf z).1 := by
  have hq := h.q_nonneg
  have hr := h.r_nonneg
  have covariance : 0 ≤ (kalmanUpdateAdaptive kf z).1.pEst :=
    kalmanUpdateAdaptive_pEst_nonneg (add_nonneg h.pEst_nonneg hq) h.gain_mem_Icc.2 z
  have limits := h.toLimits.update z
  rcases kalmanUpdateAdaptive_noise kf z with ⟨q_eq, r_eq⟩ | ⟨q_eq, r_eq⟩
  · have q_nonneg : 0 ≤ (kalmanUpdateAdaptive kf z).1.q := by
      rw [q_eq]
      exact le_min (by linarith) h.qMax_pos.le
    have r_pos : 0 < (kalmanUpdateAdaptive kf z).1.r := by
      rw [r_eq]
      exact lt_max_of_lt_right h.rMin_pos
    exact ⟨limits, covariance, q_nonneg, r_pos.le,
      add_pos_of_nonneg_of_pos (add_nonneg covariance q_nonneg) r_pos⟩
  · have q_pos : 0 < (kalmanUpdateAdaptive kf z).1.q := by
      rw [q_eq]
      exact lt_max_of_lt_right h.qMin_pos
    have r_nonneg : 0 ≤ (kalmanUpdateAdaptive kf z).1.r := by
      rw [r_eq]
      exact le_min (by linarith) h.rMax_pos.le
    exact ⟨limits, covariance, q_pos.le, r_nonneg,
      add_pos_of_pos_of_nonneg (add_pos_of_nonneg_of_pos covariance q_pos) r_nonneg⟩

theorem Divisible.override (h : Divisible kf) (hq : 0 < q) : Divisible { kf with q := q } where
  toLimits := h.toLimits.override q
  pEst_nonneg := h.pEst_nonneg
  q_nonneg := hq.le
  r_nonneg := h.r_nonneg
  total_pos := add_pos_of_pos_of_nonneg (add_pos_of_nonneg_of_pos h.pEst_nonneg hq) h.r_nonneg

/-! ### Both bounds of a parameter -/

/-- `Q_min ≤ Q ≤ Q_max` and `R_min ≤ R ≤ R_max`. -/
structure InBounds (kf : KalmanFilter) : Prop where
  q_mem : kf.q ∈ Set.Icc kf.qMin kf.qMax
  r_mem : kf.r ∈ Set.Icc kf.rMin kf.rMax

/-- The bounds that an update does not check hold by themselves: the lower one of `Q` and the
upper one of `R` after a surprise, the other two otherwise. -/
def UncheckedHold (kf : KalmanFilter) (z : ℚ) : Prop :=
  if kf.threshold < |z - kf.xEst| then kf.qMin ≤ kf.q * (6 / 5) ∧ kf.r * (4 / 5) ≤ kf.rMax
  else kf.q * (4 / 5) ≤ kf.qMax ∧ kf.rMin ≤ kf.r * (6 / 5)

instance (kf : KalmanFilter) (z : ℚ) : Decidable (UncheckedHold kf z) := by
  unfold UncheckedHold
  infer_instance

theorem min_mem_Icc_iff {x lo hi : ℚ} (h : lo ≤ hi) : min x hi ∈ Set.Icc lo hi ↔ lo ≤ x := by
  rw [Set.mem_Icc, le_min_iff, and_iff_left (min_le_right _ _), and_iff_left h]

theorem max_mem_Icc_iff {x lo hi : ℚ} (h : lo ≤ hi) : max x lo ∈ Set.Icc lo hi ↔ x ≤ hi := by
  rw [Set.mem_Icc, max_le_iff, and_iff_right (le_max_right _ _), and_iff_left h]

/-- **Each branch clamps one side of each parameter**, so an update ends in bounds exactly if
the other side takes care of itself. -/
theorem kalmanUpdateAdaptive_inBounds_iff (h : Limits kf) (z : ℚ) :
    InBounds (kalmanUpdateAdaptive kf z).1 ↔ UncheckedHold kf z := by
  have both : InBounds (kalmanUpdateAdaptive kf z).1 ↔
      (kalmanUpdateAdaptive kf z).1.q ∈ Set.Icc kf.qMin kf.qMax ∧
        (kalmanUpdateAdaptive kf z).1.r ∈ Set.Icc kf.rMin kf.rMax :=
    ⟨fun inside => ⟨inside.q_mem, inside.r_mem⟩, fun inside => ⟨inside.1, inside.2⟩⟩
  by_cases surprised : kf.threshold < |z - kf.xEst|
  · have q_eq : (kalmanUpdateAdaptive kf z).1.q = min (kf.q * (6 / 5)) kf.qMax := if_pos surprised
    have r_eq : (kalmanUpdateAdaptive kf z).1.r = max (kf.r * (4 / 5)) kf.rMin := if_pos surprised
    rw [both, q_eq, r_eq, min_mem_Icc_iff h.qMin_le_qMax, max_mem_Icc_iff h.rMin_le_rMax,
      UncheckedHold, if_pos surprised]
  · have q_eq : (kalmanUpdateAdaptive kf z).1.q = max (kf.q * (4 / 5)) kf.qMin :=
      if_neg surprised
    have r_eq : (kalmanUpdateAdaptive kf z).1.r = min (kf.r * (6 / 5)) kf.rMax :=
      if_neg surprised
    rw [both, q_eq, r_eq, max_mem_Icc_iff h.qMin_le_qMax, min_mem_Icc_iff h.rMin_le_rMax,
      UncheckedHold, if_neg surprised]

/-! ### What an update does to the estimate -/

/-- **No overshoot**: the new estimate stays between bounds on the old one and
the measurement. -/
theorem kalmanUpdateAdaptive_mem_Icc {lo hi : ℚ} (h : Tuned kf) (hx : kf.xEst ∈ Set.Icc lo hi)
    (hz : z ∈ Set.Icc lo hi) : (kalmanUpdateAdaptive kf z).1.xEst ∈ Set.Icc lo hi := by
  rw [kalmanUpdateAdaptive_xEst]
  exact correct_mem_Icc h.gain_mem_Icc hx hz

/-- **Contraction**: an update shrinks the distance to the measurement by a
factor of at most `R_max / (Q_min + R_max)`. -/
theorem kalmanUpdateAdaptive_contracts (h : Bounded kf) (c : ℚ) :
    |(kalmanUpdateAdaptive kf c).1.xEst - c| ≤
      kf.rMax / (kf.qMin + kf.rMax) * |kf.xEst - c| := by
  have predicted : kf.qMin ≤ kf.pEst + kf.q := by
    have := h.pEst_nonneg
    have := h.q_floor
    linarith
  rw [kalmanUpdateAdaptive_xEst, abs_correct_sub h.gain_mem_Icc.2]
  exact mul_le_mul_of_nonneg_right
    (one_sub_gain_le h.qMin_pos h.r_pos predicted h.r_ceil) (abs_nonneg _)

end SmartScale.Kalman
