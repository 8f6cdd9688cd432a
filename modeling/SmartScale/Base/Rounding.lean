import Mathlib.Algebra.Order.Round
import Mathlib.Algebra.Order.Ring.Rat
import Mathlib.Data.Int.Log
import Mathlib.Data.Rat.Floor
import Mathlib.Tactic.NormNum
import Mathlib.Tactic.Linarith
import Mathlib.Tactic.Positivity

/-!
Rounding to the nearest multiple of a unit, ties to even.

* `roundHalfEven` rounds to an integer; `roundHalfEven_eq_iff` says which values
  round to it.
* `nearest` rounds to 24 significant binary digits, fewer below `2 ^ -126`: the arithmetic of
  binary32 up to its overflow. Integers of 24 digits are exact (`nearest_intCast`).
* `Representable` is an integer of 24 significant digits: every one up to `2^24`, and no odd
  one beyond.
-/

namespace SmartScale.Rounding

/-- The nearest integer; of two, the even one. -/
def roundHalfEven (v : ℚ) : ℤ :=
  if Int.fract v < 1 / 2 ∨ (Int.fract v = 1 / 2 ∧ Even ⌊v⌋) then ⌊v⌋ else ⌊v⌋ + 1

/-- The values that round to an integer. -/
def RoundsTo (n : ℤ) (v : ℚ) : Prop := |v - n| < 1 / 2 ∨ (|v - n| = 1 / 2 ∧ Even n)

section Integers

variable {v : ℚ} {n m : ℤ}

theorem roundsTo_roundHalfEven (v : ℚ) : RoundsTo (roundHalfEven v) v := by
  have parts : Int.fract v = v - ⌊v⌋ := rfl
  have nonneg := Int.fract_nonneg v
  have below := Int.fract_lt_one v
  rw [roundHalfEven]
  split
  · rename_i down
    have dist : |v - ⌊v⌋| = Int.fract v := by rw [← parts, abs_of_nonneg nonneg]
    rw [RoundsTo, dist]
    exact down
  · rename_i up
    push Not at up
    have dist : |v - (⌊v⌋ + 1 : ℤ)| = 1 - Int.fract v := by
      rw [abs_of_nonpos (by push_cast; linarith)]
      push_cast
      linarith
    rw [RoundsTo, dist]
    rcases up.1.lt_or_eq with more | tie
    · exact .inl (by linarith)
    · refine .inr ⟨by linarith, ?_⟩
      exact (Int.not_even_iff_odd.mp (up.2 tie.symm)).add_one

/-- A value rounds to one integer. -/
theorem RoundsTo.unique (hn : RoundsTo n v) (hm : RoundsTo m v) : n = m := by
  have near {k : ℤ} (h : RoundsTo k v) : |v - k| ≤ 1 / 2 := h.elim le_of_lt fun tie => tie.1.le
  have close : |(n : ℚ) - m| ≤ 1 := by
    have split := abs_sub_le (n : ℚ) v m
    rw [abs_sub_comm (n : ℚ) v] at split
    linarith [near hn, near hm]
  have step : |n - m| ≤ 1 := by exact_mod_cast close
  by_contra differ
  -- Two neighbours at distance at most a half: both at a half, and both even.
  have one : |n - m| = 1 := le_antisymm step (Int.one_le_abs (sub_ne_zero.mpr differ))
  have apart : |(n : ℚ) - m| = 1 := by exact_mod_cast one
  have split := abs_sub_le (n : ℚ) v m
  rw [abs_sub_comm (n : ℚ) v, apart] at split
  have evenN : Even n := by
    rcases hn with less | tie
    · linarith [near hm]
    · exact tie.2
  have evenM : Even m := by
    rcases hm with less | tie
    · linarith [near hn]
    · exact tie.2
  have even : Even (n - m) := evenN.sub evenM
  rcases abs_eq (by norm_num) |>.mp one with h | h
  · rw [h] at even
    exact absurd even (by decide)
  · rw [h] at even
    exact absurd even (by decide)

theorem roundHalfEven_eq_iff : roundHalfEven v = n ↔ RoundsTo n v := by
  constructor
  · rintro rfl
    exact roundsTo_roundHalfEven v
  · intro h
    exact (roundsTo_roundHalfEven v).unique h

@[simp] theorem roundHalfEven_intCast : roundHalfEven n = n := by
  rw [roundHalfEven_eq_iff, RoundsTo]
  norm_num

/-- Moving a value by an even integer moves what it rounds to. -/
theorem roundHalfEven_even_add (even : Even m) (v : ℚ) :
    roundHalfEven (m + v) = m + roundHalfEven v := by
  rw [roundHalfEven_eq_iff]
  have same : (m : ℚ) + v - (m + roundHalfEven v : ℤ) = v - roundHalfEven v := by
    push_cast
    ring
  rcases roundsTo_roundHalfEven v with near | ⟨half, evenRound⟩
  · exact .inl (same ▸ near)
  · exact .inr ⟨same ▸ half, even.add evenRound⟩

/-- Around an even integer the ties belong to it. -/
theorem roundsTo_even_iff (even : Even n) : RoundsTo n v ↔ |v - n| ≤ 1 / 2 := by
  rw [RoundsTo, le_iff_lt_or_eq]
  simp only [even, and_true]

end Integers

/-! ### Significant digits -/

/-- The nearest number of 24 significant binary digits, none of them below `2 ^ -149`. -/
def nearest (v : ℚ) : ℚ :=
  let unit : ℚ := 2 ^ max (Int.log 2 |v| - 23) (-149)
  roundHalfEven (v / unit) * unit

/-- Integers of 24 digits are exact. -/
theorem nearest_intCast {n : ℤ} (digits : |n| < 2 ^ 24) : nearest n = n := by
  rcases eq_or_ne n 0 with rfl | nonzero
  · have zero : roundHalfEven 0 = 0 := roundHalfEven_intCast (n := 0)
    simp [nearest, zero]
  have size : |(n : ℚ)| < (2 : ℕ) ^ (24 : ℤ) := by exact_mod_cast digits
  have positive : (0 : ℚ) < |(n : ℚ)| := abs_pos.mpr (Int.cast_ne_zero.mpr nonzero)
  have small : Int.log 2 |(n : ℚ)| < 24 :=
    (Int.lt_zpow_iff_log_lt (by norm_num) positive).mp size
  obtain ⟨k, hk⟩ := Int.le.dest (show max (Int.log 2 |(n : ℚ)| - 23) (-149) ≤ 0 by omega)
  have exponent : max (Int.log 2 |(n : ℚ)| - 23) (-149) = -(k : ℤ) := by omega
  have whole : (n : ℚ) / 2 ^ (-(k : ℤ)) = ((n * 2 ^ k : ℤ) : ℚ) := by
    rw [zpow_neg, div_inv_eq_mul]
    push_cast
    rfl
  simp only [nearest, exponent]
  rw [whole, roundHalfEven_intCast, zpow_neg]
  push_cast
  exact mul_inv_cancel_right₀ (by positivity) _

/-- An integer that 24 significant binary digits hold. -/
def Representable (v : ℚ) : Prop := ∃ (m : ℤ) (e : ℕ), |m| < 2 ^ 24 ∧ v = m * 2 ^ e

theorem representable_of_abs_le {n : ℤ} (small : |n| ≤ 2 ^ 24) : Representable n := by
  rcases small.lt_or_eq with digits | edge
  · exact ⟨n, 0, digits, by simp⟩
  · rcases eq_or_eq_neg_of_abs_eq edge with rfl | rfl
    · exact ⟨1, 24, by norm_num, by norm_num⟩
    · exact ⟨-1, 24, by norm_num, by norm_num⟩

/-- An odd integer needs all of its digits. -/
theorem not_representable_of_odd {n : ℤ} (odd : Odd n) (large : 2 ^ 24 ≤ |n|) :
    ¬ Representable n := by
  rintro ⟨m, e, digits, value⟩
  have same : n = m * 2 ^ e := by exact_mod_cast value
  cases e with
  | zero =>
      rw [pow_zero, mul_one] at same
      rw [same] at large
      omega
  | succ e =>
      have even : Even n := ⟨m * 2 ^ e, by rw [same]; ring⟩
      exact Int.not_even_iff_odd.mpr odd even

end SmartScale.Rounding
