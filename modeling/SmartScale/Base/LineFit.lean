import Mathlib.Algebra.BigOperators.Group.List.Basic
import Mathlib.Algebra.Order.BigOperators.Group.List
import Mathlib.Algebra.Order.Field.Basic
import Mathlib.Tactic.FieldSimp
import Mathlib.Tactic.Linarith
import Mathlib.Tactic.LinearCombination
import Mathlib.Tactic.Positivity
import Mathlib.Tactic.Ring

/-!
The line of least squares through points of an ordered field.

* `spread_eq_zero_iff`: the determinant of the fit vanishes exactly when all abscissas agree.
* `residual_eq`: at a solution of the normal equations, the residual of any other line is larger
  by the squared distances of the two lines.
* `residual_lt`: with a spread of the abscissas, that solution is the only minimum.
-/

namespace SmartScale.LineFit

section Field

variable {𝕜 : Type*} [Field 𝕜] {a b : 𝕜} {points : List (𝕜 × 𝕜)}

/-- The squared distances of the points to the line `a * x + b`. -/
def squaredResidual (points : List (𝕜 × 𝕜)) (a b : 𝕜) : 𝕜 :=
  (points.map fun p => (p.2 - a * p.1 - b) ^ 2).sum

def sumX (points : List (𝕜 × 𝕜)) : 𝕜 := (points.map fun p => p.1).sum

def sumY (points : List (𝕜 × 𝕜)) : 𝕜 := (points.map fun p => p.2).sum

def sumXY (points : List (𝕜 × 𝕜)) : 𝕜 := (points.map fun p => p.1 * p.2).sum

def sumXX (points : List (𝕜 × 𝕜)) : 𝕜 := (points.map fun p => p.1 * p.1).sum

/-- The determinant of the normal equations. -/
def spread (points : List (𝕜 × 𝕜)) : 𝕜 :=
  points.length * sumXX points - sumX points * sumX points

/-- The sums do not see the order of the points. -/
theorem sums_perm {others : List (𝕜 × 𝕜)} (perm : others.Perm points) :
    sumX others = sumX points ∧ sumY others = sumY points ∧
      sumXY others = sumXY points ∧ sumXX others = sumXX points :=
  ⟨(perm.map _).sum_eq, (perm.map _).sum_eq, (perm.map _).sum_eq, (perm.map _).sum_eq⟩

/-- Both derivatives of the residual vanish. -/
structure Normal (points : List (𝕜 × 𝕜)) (a b : 𝕜) : Prop where
  slope : a * sumXX points + b * sumX points = sumXY points
  intercept : a * sumX points + b * points.length = sumY points

/-- The squared distances, at the abscissas, of two lines that differ by `a * x + b`. -/
def distance (points : List (𝕜 × 𝕜)) (a b : 𝕜) : 𝕜 :=
  (points.map fun p => (a * p.1 + b) ^ 2).sum

theorem distance_eq (points : List (𝕜 × 𝕜)) (a b : 𝕜) :
    distance points a b =
      a ^ 2 * sumXX points + 2 * a * b * sumX points + points.length * b ^ 2 := by
  induction points with
  | nil => simp [distance, sumXX, sumX]
  | cons p rest ih =>
      simp only [distance, sumXX, sumX, List.map_cons, List.sum_cons, List.length_cons,
        Nat.cast_add, Nat.cast_one] at *
      rw [ih]
      ring

theorem residual_expand (points : List (𝕜 × 𝕜)) (a b a' b' : 𝕜) :
    squaredResidual points a' b' = squaredResidual points a b + distance points (a' - a) (b' - b) +
      2 * ((a' - a) * (a * sumXX points + b * sumX points - sumXY points) +
        (b' - b) * (a * sumX points + b * points.length - sumY points)) := by
  induction points with
  | nil => simp [squaredResidual, distance, sumXX, sumX, sumXY, sumY]
  | cons p rest ih =>
      simp only [squaredResidual, distance, sumXX, sumX, sumXY, sumY, List.map_cons, List.sum_cons,
        List.length_cons, Nat.cast_add, Nat.cast_one] at *
      rw [ih]
      ring

theorem residual_eq (normal : Normal points a b) (a' b' : 𝕜) :
    squaredResidual points a' b' =
      squaredResidual points a b + distance points (a' - a) (b' - b) := by
  rw [residual_expand points a b a' b', normal.slope, normal.intercept]
  ring

/-- Cramer's rule: the closed form solves the normal equations. -/
theorem normal_cramer (det : spread points ≠ 0) (count : (points.length : 𝕜) ≠ 0) :
    let slope := (points.length * sumXY points - sumX points * sumY points) / spread points
    Normal points slope ((sumY points - slope * sumX points) / points.length) := by
  intro slope
  have solved : slope * spread points =
      points.length * sumXY points - sumX points * sumY points := div_mul_cancel₀ _ det
  rw [spread] at solved
  constructor
  · field_simp
    linear_combination solved
  · field_simp
    ring

/-- The determinant is a sum of squares: each abscissa against the mean of all. -/
theorem length_mul_spread (points : List (𝕜 × 𝕜)) :
    points.length * spread points = distance points points.length (-sumX points) := by
  rw [distance_eq, spread]
  ring

theorem sumX_of_equal {c : 𝕜} (equal : ∀ p ∈ points, p.1 = c) :
    sumX points = points.length * c := by
  rw [sumX, List.map_congr_left equal]
  simp

theorem sumXX_of_equal {c : 𝕜} (equal : ∀ p ∈ points, p.1 = c) :
    sumXX points = points.length * (c * c) := by
  have squares : ∀ p ∈ points, p.1 * p.1 = c * c := fun p mem => by rw [equal p mem]
  rw [sumXX, List.map_congr_left squares]
  simp

end Field

section Order

variable {𝕜 : Type*} [Field 𝕜] [LinearOrder 𝕜] [IsStrictOrderedRing 𝕜] {a b : 𝕜}
  {points : List (𝕜 × 𝕜)}

theorem distance_nonneg (points : List (𝕜 × 𝕜)) (a b : 𝕜) : 0 ≤ distance points a b := by
  apply List.sum_nonneg
  intro square mem
  obtain ⟨p, _, rfl⟩ := List.mem_map.mp mem
  positivity

/-- Only lines that agree at every abscissa have no distance. -/
theorem distance_eq_zero_iff :
    distance points a b = 0 ↔ ∀ p ∈ points, a * p.1 + b = 0 := by
  induction points with
  | nil => simp [distance]
  | cons p rest ih =>
      have split : distance (p :: rest) a b = (a * p.1 + b) ^ 2 + distance rest a b := rfl
      rw [split, add_eq_zero_iff_of_nonneg (sq_nonneg _) (distance_nonneg rest a b), ih,
        List.forall_mem_cons, sq_eq_zero_iff]

/-- **The equality case of Cauchy–Schwarz.** -/
theorem spread_eq_zero_iff :
    spread points = 0 ↔ ∀ p ∈ points, ∀ q ∈ points, p.1 = q.1 := by
  constructor
  · intro det p hp q hq
    have count : (points.length : 𝕜) ≠ 0 :=
      Nat.cast_ne_zero.mpr (List.length_pos_of_mem hp).ne'
    have none : distance points points.length (-sumX points) = 0 := by
      rw [← length_mul_spread, det, mul_zero]
    have same := distance_eq_zero_iff.mp none
    apply mul_left_cancel₀ count
    linear_combination same p hp - same q hq
  · intro equal
    cases points with
    | nil => simp [spread, sumX, sumXX]
    | cons p rest =>
        have all : ∀ q ∈ p :: rest, q.1 = p.1 := fun q mem => equal q mem p List.mem_cons_self
        rw [spread, sumX_of_equal all, sumXX_of_equal all]
        ring

/-- **A spread of the abscissas leaves one minimum.** -/
theorem residual_lt (det : spread points ≠ 0) (normal : Normal points a b) {a' b' : 𝕜}
    (other : (a', b') ≠ (a, b)) : squaredResidual points a b < squaredResidual points a' b' := by
  rw [residual_eq normal a' b']
  have grows : distance points (a' - a) (b' - b) ≠ 0 := by
    intro none
    have same := distance_eq_zero_iff.mp none
    have slope : a' - a = 0 := by
      by_contra tilted
      apply det
      rw [spread_eq_zero_iff]
      intro p hp q hq
      apply mul_left_cancel₀ tilted
      linear_combination same p hp - same q hq
    obtain ⟨p, mem⟩ : ∃ p, p ∈ points := by
      by_contra empty
      push Not at empty
      exact det (spread_eq_zero_iff.mpr fun p hp => absurd hp (empty p))
    have intercept := same p mem
    rw [slope, zero_mul, zero_add] at intercept
    exact other (by rw [sub_eq_zero.mp slope, sub_eq_zero.mp intercept])
  have positive := lt_of_le_of_ne (distance_nonneg points (a' - a) (b' - b)) grows.symm
  linarith

end Order

end SmartScale.LineFit
