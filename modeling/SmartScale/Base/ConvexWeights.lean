import SmartScale.Base.Gain
import Mathlib.Algebra.BigOperators.Ring.List
import Mathlib.Algebra.Order.BigOperators.Group.List

/-!
Convex combinations of a start value and a list of corrections.

`ConvexWeights 𝕜 n` are `n + 1` nonnegative weights with sum 1. A correction by a gain in
`[0, 1]` fades the weights and adds one for the new value (`ConvexWeights.correct`), so
that a run of corrections is a combination by weights that depend on the gains alone
(`combine_ofGains`).
-/

namespace SmartScale

open Gain

/-- The weights of a start value and of `n` values after it. -/
structure ConvexWeights (𝕜 : Type*) [Field 𝕜] [LinearOrder 𝕜] (n : Nat) where
  weights : List 𝕜
  length_eq : weights.length = n + 1
  nonneg : ∀ w ∈ weights, 0 ≤ w
  sum_eq : weights.sum = 1

namespace ConvexWeights

variable {𝕜 : Type*} [Field 𝕜] [LinearOrder 𝕜] {n : Nat} {k x y : 𝕜}

/-- The weighted sum of the values. -/
def combine (w : ConvexWeights 𝕜 n) (xs : List 𝕜) : 𝕜 := (w.weights.zipWith (· * ·) xs).sum

/-- The weight of the start value. -/
def first (w : ConvexWeights 𝕜 n) : 𝕜 := w.weights.headD 0

/-- Two combinations that differ in the start value. -/
theorem combine_sub (w : ConvexWeights 𝕜 n) (x y : 𝕜) (zs : List 𝕜) :
    w.combine (x :: zs) - w.combine (y :: zs) = w.first * (x - y) := by
  obtain ⟨weights, length_eq, _, _⟩ := w
  cases weights with
  | nil => cases length_eq
  | cons v vs =>
      simp only [combine, first, List.zipWith_cons_cons, List.sum_cons, List.headD_cons]
      ring

variable [IsStrictOrderedRing 𝕜]

/-- All weight on the start value. -/
def start : ConvexWeights 𝕜 0 where
  weights := [1]
  length_eq := rfl
  nonneg := by simp
  sum_eq := by simp

/-- A correction by the gain `k` leaves `1 - k` of each weight. -/
def correct (w : ConvexWeights 𝕜 n) (k : 𝕜) (hk : k ∈ Set.Icc (0 : 𝕜) 1) :
    ConvexWeights 𝕜 (n + 1) where
  weights := w.weights.map ((1 - k) * ·) ++ [k]
  length_eq := by simp [w.length_eq]
  nonneg := by
    intro v hv
    rcases List.mem_append.mp hv with old | new
    · obtain ⟨u, hu, rfl⟩ := List.mem_map.mp old
      exact mul_nonneg (sub_nonneg.mpr hk.2) (w.nonneg u hu)
    · exact (List.mem_singleton.mp new) ▸ hk.1
  sum_eq := by
    rw [List.sum_append, List.sum_map_mul_left, List.map_id', w.sum_eq, List.sum_singleton]
    ring

theorem combine_start : start.combine [x] = x := by simp [combine, start]

omit [LinearOrder 𝕜] [IsStrictOrderedRing 𝕜] in
theorem sum_zipWith_map_mul (c : 𝕜) (ws xs : List 𝕜) :
    ((ws.map (c * ·)).zipWith (· * ·) xs).sum = c * (ws.zipWith (· * ·) xs).sum := by
  induction ws generalizing xs with
  | nil => simp
  | cons w ws ih =>
      cases xs with
      | nil => simp
      | cons x xs =>
          rw [List.map_cons, List.zipWith_cons_cons, List.sum_cons, ih, List.zipWith_cons_cons,
            List.sum_cons]
          ring

/-- It combines what a correction of the combination gives. -/
theorem combine_correct (w : ConvexWeights 𝕜 n) (hk : k ∈ Set.Icc (0 : 𝕜) 1) {xs : List 𝕜}
    (enough : xs.length = n + 1) (z : 𝕜) :
    (w.correct k hk).combine (xs ++ [z]) = Gain.correct k (w.combine xs) z := by
  have same : (w.weights.map ((1 - k) * ·)).length = xs.length := by
    rw [List.length_map, w.length_eq, enough]
  rw [combine, correct, List.zipWith_append same, List.sum_append, sum_zipWith_map_mul,
    Gain.correct, combine]
  simp only [List.zipWith_cons_cons, List.zipWith_nil_left, List.sum_singleton]
  ring

/-- Corrections by gains in `[0, 1]`, in their order. -/
def ofGains (gain : Nat → 𝕜) (h : ∀ i, gain i ∈ Set.Icc (0 : 𝕜) 1) :
    ∀ n, ConvexWeights 𝕜 n
  | 0 => start
  | n + 1 => (ofGains gain h n).correct (gain n) (h n)

/-- **A run of corrections** is a convex combination of the start value and the values
corrected by. -/
theorem combine_ofGains {gain : Nat → 𝕜} {h : ∀ i, gain i ∈ Set.Icc (0 : 𝕜) 1}
    (estimate : List 𝕜 → 𝕜) (init : estimate [] = x)
    (step : ∀ zs z, estimate (zs ++ [z]) = Gain.correct (gain zs.length) (estimate zs) z)
    {zs : List 𝕜} (length : zs.length = n) :
    estimate zs = (ofGains gain h n).combine (x :: zs) := by
  induction n generalizing zs with
  | zero =>
      rw [List.eq_nil_of_length_eq_zero length, init, ofGains, combine_start]
  | succ n ih =>
      obtain rfl | ⟨zs, z, rfl⟩ := List.eq_nil_or_concat' zs
      · cases length
      · have shorter : zs.length = n := by simpa using length
        have enough : (x :: zs).length = n + 1 := by rw [List.length_cons, shorter]
        rw [step, shorter, ih shorter, ← List.cons_append, ofGains, combine_correct _ _ enough]

end ConvexWeights

end SmartScale
