import SmartScale.Base.Gain
import Mathlib.Data.Sign.Basic
import Mathlib.Order.Monotone.Basic

/-!
The covariance recursion of a scalar recursive estimator: a prediction adds the process
noise `q`, an update with the measurement noise `r` leaves `1 - gain` of the sum.

* `riccati_eq`: it is `(p + q) * r / (p + q + r)`.
* `defect` vanishes where the recursion stands still, and keeps its sign along it
  (`sign_defect_riccati`), so that the fixed point is never computed.
* `riccati_antitone`, `riccati_monotone`: a sequence of updates goes one way throughout.
-/

namespace SmartScale.Covariance

open SmartScale.Gain

section Algebra

variable {𝕜 : Type*} [Field 𝕜] {p q r : 𝕜}

/-- The covariance after a prediction and an update. -/
def riccati (q r p : 𝕜) : 𝕜 := (1 - gain (p + q) r) * (p + q)

/-- Zero at the fixed points of `riccati q r`, positive above the nonnegative one. -/
def defect (q r p : 𝕜) : 𝕜 := p ^ 2 + q * p - q * r

theorem riccati_eq (h : p + q + r ≠ 0) : riccati q r p = (p + q) * r / (p + q + r) := by
  rw [riccati, one_sub_gain h]
  ring

/-- An update moves the covariance against its defect. -/
theorem riccati_sub (h : p + q + r ≠ 0) : riccati q r p - p = -(defect q r p / (p + q + r)) := by
  rw [riccati_eq h, defect]
  field_simp
  ring

/-- An update scales the defect by a square. -/
theorem defect_riccati (h : p + q + r ≠ 0) :
    defect q r (riccati q r p) = (r / (p + q + r)) ^ 2 * defect q r p := by
  rw [riccati_eq h, defect, defect]
  field_simp
  ring

end Algebra

section Order

variable {𝕜 : Type*} [Field 𝕜] [LinearOrder 𝕜] [IsStrictOrderedRing 𝕜] {p q r : 𝕜}

theorem innovation_pos (hp : 0 ≤ p) (hq : 0 ≤ q) (hr : 0 < r) : 0 < p + q + r :=
  add_pos_of_nonneg_of_pos (add_nonneg hp hq) hr

theorem riccati_nonneg (hp : 0 ≤ p) (hq : 0 ≤ q) (hr : 0 < r) : 0 ≤ riccati q r p := by
  have pos := innovation_pos hp hq hr
  rw [riccati_eq pos.ne']
  exact div_nonneg (mul_nonneg (add_nonneg hp hq) hr.le) pos.le

/-- Whatever the prediction, an update brings the covariance below the measurement noise. -/
theorem riccati_lt (hp : 0 ≤ p) (hq : 0 ≤ q) (hr : 0 < r) : riccati q r p < r := by
  have pos := innovation_pos hp hq hr
  have square : 0 < r * r := mul_pos hr hr
  rw [riccati_eq pos.ne', div_lt_iff₀ pos]
  linarith

/-- **The fixed point is not crossed.** -/
theorem sign_defect_riccati (hp : 0 ≤ p) (hq : 0 ≤ q) (hr : 0 < r) :
    SignType.sign (defect q r (riccati q r p)) = SignType.sign (defect q r p) := by
  have pos := innovation_pos hp hq hr
  have factor : 0 < (r / (p + q + r)) ^ 2 := pow_pos (div_pos hr pos) 2
  rw [defect_riccati pos.ne', sign_mul, sign_pos factor, one_mul]

theorem riccati_le_iff (hp : 0 ≤ p) (hq : 0 ≤ q) (hr : 0 < r) :
    riccati q r p ≤ p ↔ 0 ≤ defect q r p := by
  have pos := innovation_pos hp hq hr
  rw [← sub_nonpos, riccati_sub pos.ne', neg_nonpos, le_div_iff₀ pos, zero_mul]

theorem le_riccati_iff (hp : 0 ≤ p) (hq : 0 ≤ q) (hr : 0 < r) :
    p ≤ riccati q r p ↔ defect q r p ≤ 0 := by
  have pos := innovation_pos hp hq hr
  rw [← sub_nonneg, riccati_sub pos.ne', neg_nonneg, div_le_iff₀ pos, zero_mul]

/-! ### Sequences of updates -/

variable {P : Nat → 𝕜} (step : ∀ n, P (n + 1) = riccati q r (P n)) (hp : 0 ≤ P 0) (hq : 0 ≤ q)
  (hr : 0 < r)
include step hp hq hr

theorem sequence_nonneg (n : Nat) : 0 ≤ P n := by
  induction n with
  | zero => exact hp
  | succ n ih =>
      rw [step]
      exact riccati_nonneg ih hq hr

theorem sequence_lt {n : Nat} (hn : 1 ≤ n) : P n < r := by
  obtain ⟨m, rfl⟩ := Nat.exists_eq_add_of_le' hn
  rw [step]
  exact riccati_lt (sequence_nonneg step hp hq hr m) hq hr

theorem sequence_sign (n : Nat) :
    SignType.sign (defect q r (P n)) = SignType.sign (defect q r (P 0)) := by
  induction n with
  | zero => rfl
  | succ n ih =>
      rw [step, sign_defect_riccati (sequence_nonneg step hp hq hr n) hq hr]
      exact ih

/-- **From above, the covariance falls throughout.** -/
theorem riccati_antitone (above : 0 ≤ defect q r (P 0)) : Antitone P := by
  refine antitone_nat_of_succ_le fun n => ?_
  have stays : 0 ≤ defect q r (P n) := by
    rw [← sign_nonneg_iff, sequence_sign step hp hq hr]
    exact sign_nonneg_iff.mpr above
  rw [step]
  exact (riccati_le_iff (sequence_nonneg step hp hq hr n) hq hr).mpr stays

/-- **From below, it rises throughout.** -/
theorem riccati_monotone (below : defect q r (P 0) ≤ 0) : Monotone P := by
  refine monotone_nat_of_le_succ fun n => ?_
  have stays : defect q r (P n) ≤ 0 := by
    rw [← sign_nonpos_iff, sequence_sign step hp hq hr]
    exact sign_nonpos_iff.mpr below
  rw [step]
  exact (le_riccati_iff (sequence_nonneg step hp hq hr n) hq hr).mpr stays

end Order

end SmartScale.Covariance
