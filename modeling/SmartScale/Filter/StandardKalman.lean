import SmartScale.Base.ConvexWeights
import SmartScale.Base.Covariance
import SmartScale.Base.LeastSquares
import SmartScale.Base.Transducer
import SmartScale.Filter.Kalman

/-!
The standard Kalman filter (`kalman_filter/kalman_filter.c`), in exact rational
arithmetic: runs of `kalman_update`.

`Q` and `R` stay what `kalman_init` makes them, so the covariance and the gain of the
`n`-th update are a sequence of their own (`covariance`, `gainAt`), and the estimate is a
run of corrections by these gains (`kalmanRun_append`).

* `recursive_eq_batch`: without process noise, the least-squares estimate of a constant.
* `estimate_convex`: a combination of the start estimate and the measurements.
* `covariance_monotone`: the covariance goes one way, and stays on its side of the fixed
  point.
-/

namespace SmartScale.Kalman

open SmartScale.Gain SmartScale.Covariance SmartScale.LeastSquares SmartScale.Transducer

/-- `kalman_update`, returning `x_est` next to the filter. -/
def kalmanUpdate (kf : KalmanFilter) (measurement : ℚ) : KalmanFilter × ℚ :=
  let pPred := kf.pEst + kf.q
  let k := pPred / (pPred + kf.r)
  let xEst := kf.xEst + k * (measurement - kf.xEst)
  let pEst := (1 - k) * pPred
  ({ kf with xEst := xEst, pEst := pEst, k := k }, xEst)

/-- The filter after a list of measurements. -/
def kalmanRun (kf : KalmanFilter) (zs : List ℚ) : KalmanFilter := after kalmanUpdate kf zs

/-! ### One update, field by field -/

section Fields

variable (kf : KalmanFilter) (z : ℚ)

theorem kalmanUpdate_xEst :
    (kalmanUpdate kf z).1.xEst = correct (gain (kf.pEst + kf.q) kf.r) kf.xEst z := rfl

theorem kalmanUpdate_pEst : (kalmanUpdate kf z).1.pEst = riccati kf.q kf.r kf.pEst := rfl

theorem kalmanUpdate_k : (kalmanUpdate kf z).1.k = gain (kf.pEst + kf.q) kf.r := rfl

/-- The noise parameters are not adapted. -/
theorem kalmanUpdate_noise :
    (kalmanUpdate kf z).1.q = kf.q ∧ (kalmanUpdate kf z).1.r = kf.r := ⟨rfl, rfl⟩

end Fields

/-! ### Runs -/

/-- `P_est` after `n` updates from `p`. -/
def covariance (q r p : ℚ) (n : Nat) : ℚ := (riccati q r)^[n] p

/-- The gain of the update after `n` others. -/
def gainAt (q r p : ℚ) (n : Nat) : ℚ := gain (covariance q r p n + q) r

theorem covariance_succ (q r p : ℚ) (n : Nat) :
    covariance q r p (n + 1) = riccati q r (covariance q r p n) :=
  Function.iterate_succ_apply' _ _ _

section Runs

variable {kf : KalmanFilter} {zs : List ℚ} {z q r p : ℚ}

theorem kalmanRun_concat (kf : KalmanFilter) (zs : List ℚ) (z : ℚ) :
    kalmanRun kf (zs ++ [z]) = (kalmanUpdate (kalmanRun kf zs) z).1 := after_append

/-- What a run leaves apart from the estimate does not depend on the measurements. -/
theorem kalmanRun_spec (kf : KalmanFilter) (zs : List ℚ) :
    (kalmanRun kf zs).q = kf.q ∧ (kalmanRun kf zs).r = kf.r ∧
      (kalmanRun kf zs).pEst = covariance kf.q kf.r kf.pEst zs.length := by
  induction zs using List.reverseRecOn with
  | nil => exact ⟨rfl, rfl, rfl⟩
  | append_singleton zs z ih =>
      obtain ⟨hq, hr, hp⟩ := ih
      rw [kalmanRun_concat]
      refine ⟨(kalmanUpdate_noise _ _).1.trans hq, (kalmanUpdate_noise _ _).2.trans hr, ?_⟩
      rw [kalmanUpdate_pEst, hq, hr, hp, List.length_append, List.length_singleton,
        covariance_succ]

/-- An update corrects by the gain of its place in the run. -/
theorem kalmanRun_append (kf : KalmanFilter) (zs : List ℚ) (z : ℚ) :
    (kalmanRun kf (zs ++ [z])).xEst =
      correct (gainAt kf.q kf.r kf.pEst zs.length) (kalmanRun kf zs).xEst z := by
  obtain ⟨hq, hr, hp⟩ := kalmanRun_spec kf zs
  rw [kalmanRun_concat, kalmanUpdate_xEst, hq, hr, hp, gainAt]

theorem covariance_nonneg (hp : 0 ≤ p) (hq : 0 ≤ q) (hr : 0 < r) (n : Nat) :
    0 ≤ covariance q r p n :=
  sequence_nonneg (covariance_succ q r p) hp hq hr n

theorem gainAt_mem_Icc (hp : 0 ≤ p) (hq : 0 ≤ q) (hr : 0 < r) (n : Nat) :
    gainAt q r p n ∈ Set.Icc (0 : ℚ) 1 :=
  gain_mem_Icc (add_nonneg (covariance_nonneg hp hq hr n) hq) hr.le

end Runs

/-! ### Without process noise -/

section Batch

variable {r : ℚ}

theorem covariance_batch (hr : 0 < r) (n : Nat) : covariance 0 r 1 n = r / (n + r) := by
  induction n with
  | zero =>
      rw [covariance, Function.iterate_zero_apply, Nat.cast_zero, zero_add, div_self hr.ne']
  | succ n ih =>
      have pos : (0 : ℚ) < n + r := by positivity
      have pos' : (0 : ℚ) < n + 1 + r := by positivity
      have total : r / (n + r) + 0 + r ≠ 0 := by positivity
      rw [covariance_succ, ih, riccati_eq total]
      push_cast
      field_simp
      ring

theorem gainAt_batch (hr : 0 < r) (n : Nat) : gainAt 0 r 1 n = 1 / (n + 1 + r) := by
  have pos : (0 : ℚ) < n + r := by positivity
  have pos' : (0 : ℚ) < n + 1 + r := by positivity
  rw [gainAt, covariance_batch hr, gain]
  field_simp
  ring

theorem xEst_batch (kf : KalmanFilter) (hr : 0 < r) (zs : List ℚ) :
    (kalmanRun (kalmanInit kf 0 r) zs).xEst = zs.sum / (zs.length + r) := by
  induction zs using List.reverseRecOn with
  | nil => simp [kalmanRun, kalmanInit]
  | append_singleton zs z ih =>
      have pos : (0 : ℚ) < zs.length + r := by positivity
      have pos' : (0 : ℚ) < zs.length + 1 + r := by positivity
      have gained : gainAt (kalmanInit kf 0 r).q (kalmanInit kf 0 r).r (kalmanInit kf 0 r).pEst
          zs.length = 1 / (zs.length + 1 + r) := gainAt_batch hr zs.length
      rw [kalmanRun_append, gained, ih, correct, List.sum_append, List.sum_singleton,
        List.length_append, List.length_singleton]
      push_cast
      field_simp
      ring

/-- **Recursive equals batch**: the estimate of `n` measurements is their sum over `n + R`,
which minimises the squared error of a constant with a prior of mean 0 and variance 1. -/
theorem recursive_eq_batch (kf : KalmanFilter) {r : ℚ} (hr : 0 < r) (zs : List ℚ) :
    (kalmanRun (kalmanInit kf 0 r) zs).xEst = zs.sum / (zs.length + r) ∧
      (kalmanRun (kalmanInit kf 0 r) zs).pEst = r / (zs.length + r) ∧
      ∀ a, a ≠ (kalmanRun (kalmanInit kf 0 r) zs).xEst →
        cost 0 1 r zs (kalmanRun (kalmanInit kf 0 r) zs).xEst < cost 0 1 r zs a := by
  have estimate := xEst_batch kf hr zs
  have pos : (0 : ℚ) < zs.length + r := by positivity
  refine ⟨estimate, ?_, ?_⟩
  · exact (kalmanRun_spec (kalmanInit kf 0 r) zs).2.2.trans (covariance_batch hr zs.length)
  · intro a other
    refine cost_lt one_pos hr ?_ other
    rw [Stationary, information, estimate]
    field_simp
    ring

/-- Measurements of 3 and 5 with a noise of 2 are estimated as 2. -/
theorem recursive_eq_batch_two :
    (kalmanRun (kalmanInit .zero 0 2) [3, 5]).xEst = 2 ∧
      (kalmanRun (kalmanInit .zero 0 2) [3, 5]).pEst = 1 / 2 := by
  obtain ⟨estimate, covariance, _⟩ := recursive_eq_batch .zero two_pos [3, 5]
  rw [estimate, covariance]
  norm_num

end Batch

/-! ### Any start estimate -/

/-- An update, observed: the gain and the covariance it leaves. -/
def observedUpdate (kf : KalmanFilter) (z : ℚ) : KalmanFilter × (ℚ × ℚ) :=
  ((kalmanUpdate kf z).1, (kalmanUpdate kf z).1.k, (kalmanUpdate kf z).1.pEst)

/-- The gains and the covariances of a run. -/
def gainTrace (kf : KalmanFilter) (zs : List ℚ) : List (ℚ × ℚ) := outputs observedUpdate kf zs

theorem gainTrace_eq (kf : KalmanFilter) (zs : List ℚ) :
    gainTrace kf zs = (List.range zs.length).map fun i =>
      (gainAt kf.q kf.r kf.pEst i, covariance kf.q kf.r kf.pEst (i + 1)) := by
  induction zs using List.reverseRecOn with
  | nil => rfl
  | append_singleton zs z ih =>
      obtain ⟨hq, hr, hp⟩ := kalmanRun_spec kf zs
      have reached : after observedUpdate kf zs = kalmanRun kf zs := after_congr fun _ _ => rfl
      have last : (observedUpdate (kalmanRun kf zs) z).2 =
          (gainAt kf.q kf.r kf.pEst zs.length, covariance kf.q kf.r kf.pEst (zs.length + 1)) := by
        rw [observedUpdate, kalmanUpdate_k, kalmanUpdate_pEst, hq, hr, hp, gainAt, covariance_succ]
      rw [gainTrace, outputs_append, ← gainTrace, ih, reached, outputs_cons, last, outputs_nil,
        List.length_append, List.length_singleton, List.range_succ, List.map_append,
        List.map_singleton]

/-- `kalman_init`, with the estimate set to `x₀`. -/
def startAt (kf : KalmanFilter) (q r x₀ : ℚ) : KalmanFilter := { kalmanInit kf q r with xEst := x₀ }

/-- **A fixed convex combination**: the weights depend on `Q`, `R` and the number of
measurements alone, and so do the gains and the covariances. -/
theorem estimate_convex {q r : ℚ} (hq : 0 ≤ q) (hr : 0 < r) (n : Nat) :
    ∃ w : ConvexWeights ℚ n,
      (∀ kf x₀ zs, zs.length = n → (kalmanRun (startAt kf q r x₀) zs).xEst = w.combine (x₀ :: zs)) ∧
      (∀ kf x₀ x₁ zs, zs.length = n →
        (kalmanRun (startAt kf q r x₀) zs).xEst - (kalmanRun (startAt kf q r x₁) zs).xEst =
          w.first * (x₀ - x₁)) ∧
      ∀ kf kf' x₀ x₁ zs zs', zs.length = n → zs'.length = n →
        gainTrace (startAt kf q r x₀) zs = gainTrace (startAt kf' q r x₁) zs' := by
  have combined (kf : KalmanFilter) (x₀ : ℚ) (zs : List ℚ) (length : zs.length = n) :
      (kalmanRun (startAt kf q r x₀) zs).xEst =
        (ConvexWeights.ofGains (gainAt q r 1) (gainAt_mem_Icc zero_le_one hq hr) n).combine
          (x₀ :: zs) :=
    ConvexWeights.combine_ofGains (fun zs => (kalmanRun (startAt kf q r x₀) zs).xEst) rfl
      (fun zs z => kalmanRun_append (startAt kf q r x₀) zs z) length
  refine ⟨_, combined, ?_, ?_⟩
  · intro kf x₀ x₁ zs length
    rw [combined kf x₀ zs length, combined kf x₁ zs length]
    exact ConvexWeights.combine_sub _ x₀ x₁ zs
  · intro kf kf' x₀ x₁ zs zs' length length'
    rw [gainTrace_eq, gainTrace_eq, length, length']
    rfl

theorem estimate_convex_two :
    ∃ w : ConvexWeights ℚ 2, ∀ x₀,
      (kalmanRun (startAt .zero (1 / 2) 1 x₀) [3, 5]).xEst = w.combine [x₀, 3, 5] := by
  have hq : (0 : ℚ) ≤ 1 / 2 := by norm_num
  obtain ⟨w, combined, _⟩ := estimate_convex hq one_pos 2
  exact ⟨w, fun x₀ => combined .zero x₀ [3, 5] rfl⟩

/-! ### The covariance -/

/-- `P_est` after `n` updates with the measurements `z`. -/
def pEstAfter (kf : KalmanFilter) (z : Nat → ℚ) (n : Nat) : ℚ :=
  (kalmanRun kf ((List.range n).map z)).pEst

theorem pEstAfter_eq (kf : KalmanFilter) (z : Nat → ℚ) (n : Nat) :
    pEstAfter kf z n = covariance kf.q kf.r kf.pEst n := by
  rw [pEstAfter, (kalmanRun_spec _ _).2.2, List.length_map, List.length_range]

/-- **The covariance is monotone and bounded**, on its side of the fixed point. -/
theorem covariance_monotone (kf : KalmanFilter) (z : Nat → ℚ) (hp : 0 ≤ kf.pEst)
    (hq : 0 ≤ kf.q) (hr : 0 < kf.r) :
    (∀ n, 1 ≤ n → pEstAfter kf z n < kf.r) ∧ (∀ n, 0 ≤ pEstAfter kf z n) ∧
      (∀ n, SignType.sign (defect kf.q kf.r (pEstAfter kf z n)) =
        SignType.sign (defect kf.q kf.r (pEstAfter kf z 0))) ∧
      (0 ≤ SignType.sign (defect kf.q kf.r (pEstAfter kf z 0)) → Antitone (pEstAfter kf z)) ∧
      (SignType.sign (defect kf.q kf.r (pEstAfter kf z 0)) ≤ 0 → Monotone (pEstAfter kf z)) := by
  have step (n : Nat) : pEstAfter kf z (n + 1) = riccati kf.q kf.r (pEstAfter kf z n) := by
    rw [pEstAfter_eq, pEstAfter_eq, covariance_succ]
  have start : 0 ≤ pEstAfter kf z 0 := hp
  refine ⟨fun n => sequence_lt step start hq hr, sequence_nonneg step start hq hr,
    sequence_sign step start hq hr, ?_, ?_⟩
  · intro above
    exact riccati_antitone step start hq hr (sign_nonneg_iff.mp above)
  · intro below
    exact riccati_monotone step start hq hr (sign_nonpos_iff.mp below)

/-- From `kalman_init`, the covariance falls. -/
theorem covariance_monotone_init :
    Antitone (pEstAfter (kalmanInit .zero (1 / 2) 1) fun _ => 7) := by
  have hq : 0 ≤ (kalmanInit .zero (1 / 2) 1).q := by norm_num [kalmanInit]
  refine (covariance_monotone (kalmanInit .zero (1 / 2) 1) (fun _ => 7) zero_le_one hq
    one_pos).2.2.2.1 (sign_nonneg_iff.mpr ?_)
  norm_num [defect, pEstAfter, kalmanRun, kalmanInit]

end SmartScale.Kalman
