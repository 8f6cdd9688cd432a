import Mathlib.Algebra.BigOperators.Fin
import Mathlib.Algebra.Order.Ring.Rat
import Mathlib.Data.List.FinRange
import SmartScale.Base.LineFit
import SmartScale.Calibration

/-!
`calibration_compute` of `calibration/calibration.c` under `MULTI_POINT_CALIBRATION`, in exact
rational arithmetic: `sums_eq` ties its loop to the sums of the line of least squares, and
`multiPoint_leastSquares` says which of its three codes it returns, and with which line.
-/

namespace SmartScale.Calibration.MultiPoint

open SmartScale.LineFit

/-- The running sums. -/
structure Sums where
  sumX : ℚ
  sumY : ℚ
  sumXy : ℚ
  sumX2 : ℚ

/-- One iteration of the loop. -/
def Sums.add (s : Sums) (x y : ℚ) : Sums :=
  { sumX := s.sumX + x, sumY := s.sumY + y, sumXy := s.sumXy + x * y, sumX2 := s.sumX2 + x * x }

variable {length : Nat}

/-- The loop over the points. -/
def sums (raw : Vector Int32 length) (weight : Vector ℚ length) : Sums :=
  Fin.foldl length (fun s i => s.add raw[i].toInt weight[i]) ⟨0, 0, 0, 0⟩

/-- `calibration_compute`: the object of `cal` after the call, and the code it returns. A
NULL pointer is `none`. -/
def calibrationCompute (cal : Option CalibrationT) (raw : Option (Vector Int32 length))
    (weight : Option (Vector ℚ length)) : Option CalibrationT × Int :=
  match cal, raw, weight with
  | some _, some raw, some weight =>
      if length < 2 then (cal, -1)
      else
        let s := sums raw weight
        let denom := length * s.sumX2 - s.sumX * s.sumX
        if denom = 0 then (cal, -2)
        else
          let slope := (length * s.sumXy - s.sumX * s.sumY) / denom
          let intercept := (s.sumY - slope * s.sumX) / length
          (some ⟨slope, intercept⟩, 0)
  | _, _, _ => (cal, -1)

/-- The points of the two arrays. -/
def points (raw : Vector Int32 length) (weight : Vector ℚ length) : List (ℚ × ℚ) :=
  List.ofFn fun i : Fin length => ((raw[i].toInt : ℚ), weight[i])

theorem length_points (raw : Vector Int32 length) (weight : Vector ℚ length) :
    (points raw weight).length = length := by
  simp [points]

theorem foldl_add (ps : List (ℚ × ℚ)) (s : Sums) :
    ps.foldl (fun s p => s.add p.1 p.2) s =
      ⟨s.sumX + sumX ps, s.sumY + sumY ps, s.sumXy + sumXY ps, s.sumX2 + sumXX ps⟩ := by
  induction ps generalizing s with
  | nil => simp [sumX, sumY, sumXY, sumXX]
  | cons p ps ih =>
      rw [List.foldl_cons, ih]
      simp only [Sums.add, sumX, sumY, sumXY, sumXX, List.map_cons, List.sum_cons, add_assoc]

/-- The loop computes the sums of the fit. -/
theorem sums_eq (raw : Vector Int32 length) (weight : Vector ℚ length) :
    let ps := points raw weight
    sums raw weight = ⟨sumX ps, sumY ps, sumXY ps, sumXX ps⟩ := by
  have loop : sums raw weight =
      (points raw weight).foldl (fun s p => s.add p.1 p.2) ⟨0, 0, 0, 0⟩ := by
    rw [sums, points, Fin.foldl_eq_finRange_foldl, List.ofFn_eq_map, List.foldl_map]
  rw [loop, foldl_add]
  simp only [zero_add]

/-- The residual of a line, with the arrays' own indices. -/
theorem residual_points (raw : Vector Int32 length) (weight : Vector ℚ length) (a b : ℚ) :
    squaredResidual (points raw weight) a b =
      ∑ i : Fin length, (weight[i] - a * raw[i].toInt - b) ^ 2 := by
  rw [squaredResidual, points, List.map_ofFn, List.sum_ofFn]
  rfl

theorem spread_points_eq_zero_iff (raw : Vector Int32 length) (weight : Vector ℚ length) :
    spread (points raw weight) = 0 ↔ ∀ i j : Fin length, raw[i] = raw[j] := by
  rw [spread_eq_zero_iff]
  simp only [points, List.forall_mem_ofFn_iff, Int.cast_inj, Int32.toInt_inj]

/-! ### The three outcomes -/

theorem calibrationCompute_few (cal : CalibrationT) (raw : Vector Int32 length)
    (weight : Vector ℚ length) (few : length < 2) :
    calibrationCompute (some cal) (some raw) (some weight) = (some cal, -1) := by
  simp only [calibrationCompute, if_pos few]

/-- With two points or more, the determinant decides. -/
theorem calibrationCompute_eq (cal : CalibrationT) (raw : Vector Int32 length)
    (weight : Vector ℚ length) (two : 2 ≤ length) :
    let ps := points raw weight
    let slope := (ps.length * sumXY ps - sumX ps * sumY ps) / spread ps
    calibrationCompute (some cal) (some raw) (some weight) =
      if spread ps = 0 then (some cal, -2)
      else (some ⟨slope, (sumY ps - slope * sumX ps) / ps.length⟩, 0) := by
  simp only [calibrationCompute, if_neg two.not_gt, sums_eq, spread, length_points]

theorem calibrationCompute_equal (cal : CalibrationT) (raw : Vector Int32 length)
    (weight : Vector ℚ length) (two : 2 ≤ length)
    (equal : ∀ i j : Fin length, raw[i] = raw[j]) :
    calibrationCompute (some cal) (some raw) (some weight) = (some cal, -2) := by
  rw [calibrationCompute_eq cal raw weight two]
  exact if_pos ((spread_points_eq_zero_iff raw weight).mpr equal)

/-- Otherwise it stores the line that no other line matches. -/
theorem calibrationCompute_apart (cal : CalibrationT) (raw : Vector Int32 length)
    (weight : Vector ℚ length) (two : 2 ≤ length)
    (apart : ¬ ∀ i j : Fin length, raw[i] = raw[j]) :
    ∃ fit : CalibrationT,
      calibrationCompute (some cal) (some raw) (some weight) = (some fit, 0) ∧
      ∀ a b : ℚ, (a, b) ≠ (fit.slope, fit.intercept) →
        ∑ i : Fin length, (weight[i] - fit.slope * raw[i].toInt - fit.intercept) ^ 2 <
          ∑ i : Fin length, (weight[i] - a * raw[i].toInt - b) ^ 2 := by
  have det : spread (points raw weight) ≠ 0 := mt (spread_points_eq_zero_iff raw weight).mp apart
  have count : ((points raw weight).length : ℚ) ≠ 0 := by
    rw [length_points]
    exact_mod_cast (by omega : length ≠ 0)
  refine ⟨_, (calibrationCompute_eq cal raw weight two).trans (if_neg det), fun a b other => ?_⟩
  simp only [← residual_points]
  exact residual_lt det (normal_cramer det count) other

/-- The order of the points does not matter. -/
theorem calibrationCompute_perm (cal : CalibrationT) (raw : Vector Int32 length)
    (weight : Vector ℚ length) (σ : Equiv.Perm (Fin length)) :
    calibrationCompute (some cal) (some (.ofFn fun i => raw[σ i]))
        (some (.ofFn fun i => weight[σ i])) =
      calibrationCompute (some cal) (some raw) (some weight) := by
  have perm : (points (.ofFn fun i => raw[σ i]) (.ofFn fun i => weight[σ i])).Perm
      (points raw weight) := by
    have shuffled := σ.ofFn_comp_perm fun i => ((raw[i].toInt : ℚ), weight[i])
    simpa [points, Function.comp_def] using shuffled
  obtain ⟨x, y, xy, xx⟩ := sums_perm perm
  simp only [calibrationCompute, sums_eq, x, y, xy, xx]

/-- **Multi-point calibration is the least-squares fit.** -/
theorem multiPoint_leastSquares (cal : CalibrationT) (raw : Vector Int32 length)
    (weight : Vector ℚ length) :
    let result := calibrationCompute (some cal) (some raw) (some weight)
    (result.2 = -1 ↔ length < 2) ∧
    (result.2 = -2 ↔ 2 ≤ length ∧ ∀ i j : Fin length, raw[i] = raw[j]) ∧
    (result.2 ≠ 0 → result.1 = some cal) ∧
    (2 ≤ length ∧ (∃ i j : Fin length, raw[i] ≠ raw[j]) → ∃ fit : CalibrationT,
      result = (some fit, 0) ∧
      ∀ a b : ℚ, (a, b) ≠ (fit.slope, fit.intercept) →
        ∑ i : Fin length, (weight[i] - fit.slope * raw[i].toInt - fit.intercept) ^ 2 <
          ∑ i : Fin length, (weight[i] - a * raw[i].toInt - b) ^ 2) ∧
    ∀ σ : Equiv.Perm (Fin length),
      calibrationCompute (some cal) (some (.ofFn fun i => raw[σ i]))
        (some (.ofFn fun i => weight[σ i])) = result := by
  intro result
  have perm := calibrationCompute_perm cal raw weight
  rcases Nat.lt_or_ge length 2 with few | two
  · have value : result = (some cal, -1) := calibrationCompute_few cal raw weight few
    rw [value]
    exact ⟨iff_of_true rfl few, iff_of_false (by simp) fun both => both.1.not_gt few,
      fun _ => rfl, fun both => absurd few both.1.not_gt, fun σ => (perm σ).trans value⟩
  · by_cases equal : ∀ i j : Fin length, raw[i] = raw[j]
    · have value : result = (some cal, -2) := calibrationCompute_equal cal raw weight two equal
      rw [value]
      exact ⟨iff_of_false (by simp) two.not_gt, iff_of_true rfl ⟨two, equal⟩, fun _ => rfl,
        fun ⟨_, i, j, apart⟩ => absurd (equal i j) apart, fun σ => (perm σ).trans value⟩
    · obtain ⟨fit, value, least⟩ := calibrationCompute_apart cal raw weight two equal
      have stored : result = (some fit, 0) := value
      rw [stored]
      exact ⟨iff_of_false (by simp) two.not_gt, iff_of_false (by simp) fun both => equal both.2,
        fun fails => absurd rfl fails, fun _ => ⟨fit, rfl, least⟩,
        fun σ => (perm σ).trans stored⟩

end SmartScale.Calibration.MultiPoint
