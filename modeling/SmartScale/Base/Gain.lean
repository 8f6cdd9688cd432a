import Mathlib.Algebra.Order.Ring.Pow
import Mathlib.Algebra.Order.Field.Basic
import Mathlib.Tactic.FieldSimp
import Mathlib.Tactic.Linarith
import Mathlib.Tactic.Positivity
import Mathlib.Tactic.Ring
import SmartScale.Base.Transducer

/-!
The scalar algebra of a recursive estimator: a gain `p / (p + r)` weighing a
predicted variance `p` against a measurement variance `r`, and the correction
`x + k * (z - x)` that moves an estimate towards a measurement.

* A gain of nonnegative variances lies in `[0, 1]`, and `1 - gain` is `r / (p + r)`.
* A correction by such a gain is a convex combination: it stays in every interval
  that holds both ends (`correct_mem_Icc`).
* Correcting towards a constant contracts the distance to it
  (`abs_correct_sub`, `one_sub_gain_le`), and towards measurements in a band the distance to the
  band (`excess_correct_le`). `pow_ratio_le` turns a contraction by `b / (a + b)` into an
  explicit number of steps, `pow_ratio_mul_le_of_halves` into a number of halvings.
-/

namespace SmartScale.Gain

variable {𝕜 : Type*} [Field 𝕜]

/-- Weight of the prediction variance `p` against the measurement variance `r`. -/
def gain (p r : 𝕜) : 𝕜 := p / (p + r)

/-- Move the estimate `x` towards the measurement `z` by the fraction `k`. -/
def correct (k x z : 𝕜) : 𝕜 := x + k * (z - x)

theorem one_sub_gain {p r : 𝕜} (h : p + r ≠ 0) : 1 - gain p r = r / (p + r) := by
  rw [gain, eq_div_iff h, sub_mul, div_mul_cancel₀ _ h]
  ring

variable [LinearOrder 𝕜] [IsStrictOrderedRing 𝕜] {p q r a b k x z c lo hi : 𝕜}

theorem gain_nonneg (hp : 0 ≤ p) (hr : 0 ≤ r) : 0 ≤ gain p r :=
  div_nonneg hp (add_nonneg hp hr)

theorem gain_le_one (hp : 0 ≤ p) (hr : 0 ≤ r) : gain p r ≤ 1 :=
  div_le_one_of_le₀ (le_add_of_nonneg_right hr) (add_nonneg hp hr)

theorem gain_mem_Icc (hp : 0 ≤ p) (hr : 0 ≤ r) : gain p r ∈ Set.Icc (0 : 𝕜) 1 :=
  ⟨gain_nonneg hp hr, gain_le_one hp hr⟩

/-- Less measurement noise and more predicted variance leave less of the old
estimate. -/
theorem one_sub_gain_le (hq : 0 < q) (hr : 0 < r) (hqp : q ≤ p) (hrb : r ≤ b) :
    1 - gain p r ≤ b / (q + b) := by
  have hp : 0 < p := hq.trans_le hqp
  rw [one_sub_gain (add_pos hp hr).ne',
    div_le_div_iff₀ (add_pos hp hr) (add_pos hq (hr.trans_le hrb))]
  have cross : r * q ≤ b * p := mul_le_mul hrb hqp hq.le (hr.le.trans hrb)
  linarith

/-- A corrected estimate stays between bounds on the estimate and the measurement. -/
theorem correct_mem_Icc (hk : k ∈ Set.Icc (0 : 𝕜) 1) (hx : x ∈ Set.Icc lo hi)
    (hz : z ∈ Set.Icc lo hi) : correct k x z ∈ Set.Icc lo hi := by
  have expand : correct k x z = (1 - k) * x + k * z := by
    rw [correct]
    ring
  have hk' : 0 ≤ 1 - k := sub_nonneg.mpr hk.2
  have lowerOld := mul_le_mul_of_nonneg_left hx.1 hk'
  have lowerNew := mul_le_mul_of_nonneg_left hz.1 hk.1
  have upperOld := mul_le_mul_of_nonneg_left hx.2 hk'
  have upperNew := mul_le_mul_of_nonneg_left hz.2 hk.1
  rw [expand]
  constructor <;> linarith

/-- Correcting towards `c` leaves the fraction `1 - k` of the distance. -/
theorem abs_correct_sub (hk : k ≤ 1) : |correct k x c - c| = (1 - k) * |x - c| := by
  have factor : correct k x c - c = (1 - k) * (x - c) := by
    rw [correct]
    ring
  rw [factor, abs_mul, abs_of_nonneg (sub_nonneg.mpr hk)]

/-! ### Counting contractions -/

/-- How far an estimate is outside the band of width `δ` on both sides of `c`. -/
def excess (δ c x : 𝕜) : 𝕜 := max (|x - c| - δ) 0

omit [IsStrictOrderedRing 𝕜] in
theorem excess_nonneg {δ : 𝕜} : 0 ≤ excess δ c x := le_max_right _ _

theorem abs_sub_le_of_excess {δ e : 𝕜} (h : excess δ c x ≤ e) : |x - c| ≤ δ + e := by
  have outside := (le_max_left (|x - c| - δ) 0).trans h
  linarith

/-- Correcting towards a measurement in the band leaves at most the fraction `1 - k` of the
excess. -/
theorem excess_correct_le {δ : 𝕜} (hk : k ∈ Set.Icc (0 : 𝕜) 1) (hz : |z - c| ≤ δ) :
    excess δ c (correct k x z) ≤ (1 - k) * excess δ c x := by
  have hk' : 0 ≤ 1 - k := sub_nonneg.mpr hk.2
  refine max_le ?_ (mul_nonneg hk' excess_nonneg)
  have split : correct k x z - c = (1 - k) * (x - c) + k * (z - c) := by
    rw [correct]
    ring
  have weighed : |correct k x z - c| ≤ (1 - k) * |x - c| + k * δ := by
    calc |correct k x z - c| = |(1 - k) * (x - c) + k * (z - c)| := by rw [split]
      _ ≤ |(1 - k) * (x - c)| + |k * (z - c)| := abs_add_le _ _
      _ = (1 - k) * |x - c| + k * |z - c| := by
          rw [abs_mul, abs_mul, abs_of_nonneg hk', abs_of_nonneg hk.1]
      _ ≤ (1 - k) * |x - c| + k * δ := by
          have := mul_le_mul_of_nonneg_left hz hk.1
          linarith
  have outside := mul_le_mul_of_nonneg_left (le_max_left (|x - c| - δ) 0) hk'
  have expand : (1 - k) * (|x - c| - δ) = (1 - k) * |x - c| + k * δ - δ := by ring
  rw [excess]
  linarith

/-- A sequence that contracts at every step is bounded by the power of the ratio. -/
theorem le_pow_mul_of_contracts {d : Nat → 𝕜} (ha : 0 ≤ a)
    (h : ∀ n, d (n + 1) ≤ a * d n) (n : Nat) : d n ≤ a ^ n * d 0 := by
  induction n with
  | zero => simp
  | succ n ih =>
      calc d (n + 1) ≤ a * d n := h n
        _ ≤ a * (a ^ n * d 0) := mul_le_mul_of_nonneg_left ih ha
        _ = a ^ (n + 1) * d 0 := by ring

/-- The same of a machine whose outputs contract, as long as it keeps an invariant. -/
theorem outputs_le_pow {σ ι ο : Type*} {step : σ → ι → σ × ο} {I : σ → Prop} {e : σ → 𝕜}
    {d : ο → 𝕜} {s : σ} {xs : List ι} (ha : 0 ≤ a) (init : I s)
    (kept : ∀ s, ∀ x ∈ xs, I s → I (step s x).1)
    (contracts : ∀ s, ∀ x ∈ xs, I s →
      d (step s x).2 ≤ a * e s ∧ e (step s x).1 ≤ d (step s x).2) :
    ∀ i, ∀ o ∈ (Transducer.outputs step s xs)[i]?, d o ≤ a ^ (i + 1) * e s := by
  induction xs generalizing s with
  | nil => simp
  | cons x xs ih =>
      obtain ⟨first, left⟩ := contracts s x List.mem_cons_self init
      intro i o emitted
      cases i with
      | zero =>
          obtain rfl : (step s x).2 = o := by simpa using emitted
          rwa [zero_add, pow_one]
      | succ i =>
          have rest := ih (kept s x List.mem_cons_self init)
            (fun s y hy => kept s y (List.mem_cons_of_mem x hy))
            (fun s y hy => contracts s y (List.mem_cons_of_mem x hy)) i o (by simpa using emitted)
          calc d o ≤ a ^ (i + 1) * e (step s x).1 := rest
            _ ≤ a ^ (i + 1) * (a * e s) :=
                mul_le_mul_of_nonneg_left (left.trans first) (pow_nonneg ha _)
            _ = a ^ (i + 1 + 1) * e s := by ring

/-- Bernoulli's inequality for the ratio `b / (a + b)`. -/
theorem pow_ratio_le (ha : 0 < a) (hb : 0 < b) (n : Nat) :
    (b / (a + b)) ^ n ≤ b / (b + n * a) := by
  have bernoulli : 1 + (n : 𝕜) * (a / b) ≤ (1 + a / b) ^ n :=
    one_add_mul_le_pow (le_trans (by norm_num) (div_pos ha hb).le) n
  have inverse : b / (a + b) = (1 + a / b)⁻¹ := by
    field_simp
    ring
  have bound : b / (b + n * a) = (1 + (n : 𝕜) * (a / b))⁻¹ := by
    field_simp
  rw [inverse, bound, inv_pow]
  exact inv_anti₀ (by positivity) bernoulli

/-- After `n` contractions by `b / (a + b)`, with `n * a` at least `b * d / ε`,
a distance `d` has shrunk to at most `ε`. -/
theorem pow_ratio_mul_le {d ε : 𝕜} (ha : 0 < a) (hb : 0 < b) (hd : 0 ≤ d) (hε : 0 < ε)
    {n : Nat} (hn : b * d / (a * ε) ≤ n) : (b / (a + b)) ^ n * d ≤ ε := by
  have enough : b * d ≤ n * (a * ε) := (div_le_iff₀ (mul_pos ha hε)).mp hn
  have pos : 0 < b + n * a := by positivity
  calc (b / (a + b)) ^ n * d ≤ b / (b + n * a) * d :=
        mul_le_mul_of_nonneg_right (pow_ratio_le ha hb n) hd
    _ = b * d / (b + n * a) := by ring
    _ ≤ ε := by
        rw [div_le_iff₀ pos]
        have slack : 0 ≤ ε * b := (mul_pos hε hb).le
        linarith

/-- **Halving.** If `m * a` is at least `b`, then `m` contractions by `b / (a + b)` halve a
distance, and `m * k` of them bring it from `2 ^ k * ε` down to `ε`. -/
theorem pow_ratio_mul_le_of_halves {d ε : 𝕜} (ha : 0 < a) (hb : 0 < b) {m k n : Nat}
    (half : b ≤ m * a) (long : m * k ≤ n) (hd : 0 ≤ d) (near : d ≤ 2 ^ k * ε) :
    (b / (a + b)) ^ n * d ≤ ε := by
  have ratio : 0 ≤ b / (a + b) := by positivity
  have shrinks : b / (a + b) ≤ 1 := div_le_one_of_le₀ (by linarith) (by positivity)
  have halved : (b / (a + b)) ^ m ≤ 1 / 2 := by
    refine (pow_ratio_le ha hb m).trans ?_
    rw [div_le_div_iff₀ (by positivity) two_pos]
    linarith
  calc (b / (a + b)) ^ n * d ≤ (b / (a + b)) ^ (m * k) * d :=
        mul_le_mul_of_nonneg_right (pow_le_pow_of_le_one ratio shrinks long) hd
    _ = ((b / (a + b)) ^ m) ^ k * d := by rw [pow_mul]
    _ ≤ (1 / 2) ^ k * (2 ^ k * ε) :=
        mul_le_mul (pow_le_pow_left₀ (pow_nonneg ratio m) halved k) near hd (by positivity)
    _ = ε := by rw [← mul_assoc, ← mul_pow, one_div_mul_cancel two_ne_zero, one_pow, one_mul]

end SmartScale.Gain
