import Mathlib.Algebra.Order.Ring.Int
import Mathlib.Data.Nat.Bitwise
import Mathlib.Tactic.Positivity

/-!
Words that arrive bit by bit, the most significant bit first, and their two's complement.

* `shiftIn_div`: with the next bit of a word shifted in, one more of its leading bits is there.
* `bmod_pattern`: the two's-complement pattern of an integer in range stands for that integer.
* `bmod_eq_of_testBit`: the sign of a pattern is its top bit.
-/

namespace SmartScale.BitSerial

/-- A word with one more bit at its end. -/
def shiftIn (word : Nat) (bit : Bool) : Nat := 2 * word + bit.toNat

/-- The leading bits of `v` before bit `k`, and then bit `k`. -/
theorem shiftIn_div (v k : Nat) : shiftIn (v / 2 ^ (k + 1)) (v.testBit k) = v / 2 ^ k := by
  have halves : v / 2 ^ (k + 1) = v / 2 ^ k / 2 := by
    rw [pow_succ, Nat.div_div_eq_div_mul]
  rw [shiftIn, halves, Nat.testBit_eq_decide_div_mod_eq]
  rcases Nat.mod_two_eq_zero_or_one (v / 2 ^ k) with even | odd
  · rw [even]
    simp only [Nat.zero_ne_one, decide_false, Bool.toNat_false]
    omega
  · rw [odd]
    simp only [decide_true, Bool.toNat_true]
    omega

theorem shiftIn_lt {word n : Nat} (small : word < 2 ^ n) (bit : Bool) :
    shiftIn word bit < 2 ^ (n + 1) := by
  have last := bit.toNat_lt
  rw [shiftIn, pow_succ]
  omega

/-! ### Two's complement -/

/-- The two's-complement pattern of `n` bits. -/
def pattern (n : Nat) (v : Int) : Nat := (v % 2 ^ n).toNat

theorem cast_pattern (n : Nat) (v : Int) : (pattern n v : Int) = v % 2 ^ n :=
  Int.toNat_of_nonneg (Int.emod_nonneg v (by positivity))

theorem pattern_lt (n : Nat) (v : Int) : pattern n v < 2 ^ n := by
  have below := Int.emod_lt_of_pos v (show (0 : Int) < 2 ^ n by positivity)
  rw [← cast_pattern] at below
  exact_mod_cast below

theorem bmod_pattern {n : Nat} {v : Int} (low : -2 ^ n ≤ v) (high : v < 2 ^ n) :
    (pattern (n + 1) v : Int).bmod (2 ^ (n + 1)) = v := by
  have modulus : (2 : Int) ^ (n + 1) = ((2 ^ (n + 1) : Nat) : Int) := by norm_cast
  rw [cast_pattern, modulus, Int.emod_bmod]
  have double : (2 ^ (n + 1) : Nat) = 2 ^ n * 2 := pow_succ 2 n
  have power : ((2 ^ n : Nat) : Int) = 2 ^ n := by norm_cast
  exact Int.bmod_eq_of_le (by omega) (by omega)

theorem bmod_eq_of_testBit {n p : Nat} (small : p < 2 ^ (n + 1)) :
    (p : Int).bmod (2 ^ (n + 1)) = if p.testBit n then (p : Int) - 2 ^ (n + 1) else p := by
  have double : (2 ^ (n + 1) : Nat) = 2 ^ n * 2 := pow_succ 2 n
  have modulus : (2 : Int) ^ (n + 1) = ((2 ^ (n + 1) : Nat) : Int) := by norm_cast
  rcases Nat.lt_or_ge p (2 ^ n) with positive | negative
  · rw [Nat.testBit_lt_two_pow positive, if_neg Bool.false_ne_true]
    exact Int.bmod_eq_of_le (by omega) (by omega)
  · rw [Nat.testBit_of_two_pow_le_and_two_pow_add_one_gt negative small, if_pos rfl, modulus,
      ← Int.sub_bmod_right p (2 ^ (n + 1))]
    exact Int.bmod_eq_of_le (by omega) (by omega)

end SmartScale.BitSerial
