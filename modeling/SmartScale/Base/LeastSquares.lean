import Mathlib.Algebra.BigOperators.Group.List.Basic
import Mathlib.Algebra.Order.Field.Basic
import Mathlib.Tactic.Linarith
import Mathlib.Tactic.LinearCombination
import Mathlib.Tactic.Positivity
import Mathlib.Tactic.Ring

/-!
The regularised least-squares estimate of a constant: measurements of variance `r`, and a
prior of mean `m` and variance `v`.

* `cost_eq`: from its stationary point, the cost grows with the square of the distance.
* `cost_lt`: the stationary point is the only minimum.
-/

namespace SmartScale.LeastSquares

variable {𝕜 : Type*} [Field 𝕜] {m v r a x : 𝕜} {zs : List 𝕜}

/-- The squared distances of `a` to the prior mean and to the measurements, each over its
variance. -/
def cost (m v r : 𝕜) (zs : List 𝕜) (a : 𝕜) : 𝕜 :=
  (a - m) ^ 2 / v + (zs.map fun z => (z - a) ^ 2 / r).sum

/-- The weight of all information on the constant. -/
def information (v r : 𝕜) (n : Nat) : 𝕜 := 1 / v + n / r

/-- The derivative of the cost vanishes at `x`. -/
def Stationary (m v r : 𝕜) (zs : List 𝕜) (x : 𝕜) : Prop :=
  information v r zs.length * x = m / v + zs.sum / r

theorem sum_squares (r : 𝕜) (zs : List 𝕜) (a : 𝕜) :
    (zs.map fun z => (z - a) ^ 2 / r).sum =
      (zs.map fun z => z ^ 2 / r).sum - 2 * a * (zs.sum / r) + zs.length / r * a ^ 2 := by
  induction zs with
  | nil => simp
  | cons z zs ih =>
      simp only [List.map_cons, List.sum_cons, List.length_cons, Nat.cast_add, Nat.cast_one, ih]
      ring

theorem cost_eq (stationary : Stationary m v r zs x) (a : 𝕜) :
    cost m v r zs a = cost m v r zs x + information v r zs.length * (a - x) ^ 2 := by
  rw [Stationary] at stationary
  rw [cost, cost, sum_squares, sum_squares, information] at *
  linear_combination 2 * (a - x) * stationary

variable [LinearOrder 𝕜] [IsStrictOrderedRing 𝕜]

theorem information_pos (hv : 0 < v) (hr : 0 < r) (n : Nat) : 0 < information v r n := by
  rw [information]
  positivity

/-- **The estimate is the only minimum.** -/
theorem cost_lt (hv : 0 < v) (hr : 0 < r) (stationary : Stationary m v r zs x) (other : a ≠ x) :
    cost m v r zs x < cost m v r zs a := by
  rw [cost_eq stationary a]
  have apart : a - x ≠ 0 := sub_ne_zero.mpr other
  have grows : 0 < information v r zs.length * (a - x) ^ 2 :=
    mul_pos (information_pos hv hr _) (by positivity)
  linarith

end SmartScale.LeastSquares
