import Mathlib.Algebra.Order.Ring.Rat
import Mathlib.Data.Rat.Cast.Order
import Mathlib.Data.Rat.Floor
import Mathlib.Order.Interval.Set.Defs
import Mathlib.Tactic.FieldSimp
import Mathlib.Tactic.NormNum
import SmartScale.Base.Rounding

/-!
IEEE 754 binary32 values, their 32-bit patterns, and 32-bit words as four bytes.

* `Value` is what a binary32 denotes: a rational, an infinity, or not a number.
  Comparisons with a rational are false on NaN (`atLeast`, `atMost`, `within`). Sums and
  products take the rounding of finite results as an argument: `ofRat` is that of binary32,
  `finite` is exact arithmetic.
* `decode` reads a bit pattern: sign, 8 exponent bits, 23 fraction bits.
* `truncate` is the cast to an integer type.
* `toBytes` and `ofBytes` are the little-endian memory image of a word;
  `ofBytes_toBytes` is the round trip.
* `decode_ofInt_eq_iff`: of the two's-complement patterns of 24-bit integers, only
  that of 0 decodes to the integer.
-/

namespace SmartScale.Binary32

/-- The value of a binary32. The sign of zero is not kept. -/
inductive Value where
  | finite (v : ℚ)
  | infinite (negative : Bool)
  | nan
deriving DecidableEq

namespace Value

/-- `v >= bound` -/
def atLeast (bound : ℚ) : Value → Bool
  | finite v => decide (bound ≤ v)
  | infinite negative => !negative
  | nan => false

/-- `v <= bound` -/
def atMost (bound : ℚ) : Value → Bool
  | finite v => decide (v ≤ bound)
  | infinite negative => negative
  | nan => false

/-- `fabs(v) < bound` -/
def within (bound : ℚ) : Value → Bool
  | finite v => decide (|v| < bound)
  | infinite _ => false
  | nan => false

/-- `v * w`, a finite product rounded by `round`. -/
def mul (round : ℚ → Value) : Value → Value → Value
  | finite v, finite w => round (v * w)
  | finite v, infinite negative | infinite negative, finite v =>
      if v = 0 then nan else infinite (negative != decide (v < 0))
  | infinite negative, infinite negative' => infinite (negative != negative')
  | nan, _ | _, nan => nan

/-- `v + w`, a finite sum rounded by `round`. -/
def add (round : ℚ → Value) : Value → Value → Value
  | finite v, finite w => round (v + w)
  | infinite negative, infinite negative' =>
      if negative = negative' then infinite negative else nan
  | infinite negative, finite _ | finite _, infinite negative => infinite negative
  | nan, _ | _, nan => nan

/-- Only finite factors have a finite product. -/
theorem finite_of_mul {round : ℚ → Value} {v w : Value} {x : ℚ}
    (product : v.mul round w = finite x) : (∃ a, v = finite a) ∧ ∃ b, w = finite b := by
  cases v with
  | finite a =>
      cases w with
      | finite b => exact ⟨⟨a, rfl⟩, b, rfl⟩
      | infinite _ =>
          rw [mul] at product
          split at product <;> cases product
      | nan => cases product
  | infinite _ =>
      cases w with
      | finite b =>
          rw [mul] at product
          split at product <;> cases product
      | infinite _ => cases product
      | nan => cases product
  | nan => cases w <;> cases product

/-- Only finite terms have a finite sum. -/
theorem finite_of_add {round : ℚ → Value} {v w : Value} {x : ℚ}
    (sum : v.add round w = finite x) : (∃ a, v = finite a) ∧ ∃ b, w = finite b := by
  cases v with
  | finite a =>
      cases w with
      | finite b => exact ⟨⟨a, rfl⟩, b, rfl⟩
      | infinite _ => cases sum
      | nan => cases sum
  | infinite _ =>
      cases w with
      | finite b => cases sum
      | infinite _ =>
          rw [add] at sum
          split at sum <;> cases sum
      | nan => cases sum
  | nan => cases w <;> cases sum

/-- The binary32 nearest to a rational: beyond the largest one, an infinity. -/
def ofRat (v : ℚ) : Value :=
  if |Rounding.nearest v| < 2 ^ 128 then finite (Rounding.nearest v) else infinite (decide (v < 0))

/-- Integers of 24 digits are exact. -/
theorem ofRat_intCast {n : ℤ} (digits : |n| < 2 ^ 24) : ofRat n = finite n := by
  have small : |(n : ℚ)| < 2 ^ 128 := by
    have cast : |(n : ℚ)| < 2 ^ 24 := by exact_mod_cast digits
    exact cast.trans (by norm_num)
  rw [ofRat, Rounding.nearest_intCast digits, if_pos small]

end Value

/-! ### Bit patterns -/

/-- The biased exponent field. -/
def exponent (bits : BitVec 32) : Nat := (bits.extractLsb' 23 8).toNat

/-- The fraction field. -/
def fraction (bits : BitVec 32) : Nat := (bits.extractLsb' 0 23).toNat

/-- `±1` from the sign bit. -/
def sign (bits : BitVec 32) : ℚ := if bits.msb then -1 else 1

/-- The value of a bit pattern. -/
def decode (bits : BitVec 32) : Value :=
  if exponent bits = 255 then
    if fraction bits = 0 then .infinite bits.msb else .nan
  else if exponent bits = 0 then .finite (sign bits * (fraction bits / 2 ^ 149))
  else .finite (sign bits * ((2 ^ 23 + fraction bits) * 2 ^ exponent bits / 2 ^ 150))

theorem exponent_eq (bits : BitVec 32) : exponent bits = bits.toNat / 2 ^ 23 % 2 ^ 8 := by
  rw [exponent, BitVec.extractLsb'_toNat, Nat.shiftRight_eq_div_pow]

theorem fraction_eq (bits : BitVec 32) : fraction bits = bits.toNat % 2 ^ 23 := by
  rw [fraction, BitVec.extractLsb'_toNat, Nat.shiftRight_eq_div_pow, pow_zero, Nat.div_one]

/-- A pattern below `2^23` is a subnormal: its integer value counts units of
`2^-149`. -/
theorem decode_of_lt {bits : BitVec 32} (h : bits.toNat < 2 ^ 23) :
    decode bits = .finite (bits.toNat / 2 ^ 149) := by
  have zero : exponent bits = 0 := by
    rw [exponent_eq]
    omega
  have whole : fraction bits = bits.toNat := by
    rw [fraction_eq]
    exact Nat.mod_eq_of_lt h
  have positive : bits.msb = false := by
    rw [BitVec.msb_eq_decide]
    exact decide_eq_false (by omega)
  simp [decode, zero, whole, sign, positive]

/-- A pattern from `2^32 - 2^23` on has all exponent bits set: it is no number. -/
theorem decode_of_ge {bits : BitVec 32} (h : 2 ^ 32 - 2 ^ 23 ≤ bits.toNat) (v : ℚ) :
    decode bits ≠ .finite v := by
  have full : exponent bits = 255 := by
    have bound := bits.isLt
    rw [exponent_eq]
    omega
  unfold decode
  rw [if_pos full]
  split
  · intro eq
    cases eq
  · intro eq
    cases eq

/-- **Reinterpreting integers as floats**: among the 24-bit two's-complement
integers, 0 alone has a pattern whose binary32 value is the integer. -/
theorem decode_ofInt_eq_iff {i : Int} (lower : -2 ^ 23 ≤ i) (upper : i ≤ 2 ^ 23 - 1) :
    decode (BitVec.ofInt 32 i) = .finite i ↔ i = 0 := by
  have pattern : (BitVec.ofInt 32 i).toNat = (i % 2 ^ 32).toNat := by
    simp [BitVec.toNat_ofInt]
  rcases le_or_gt 0 i with nonneg | negative
  · obtain ⟨n, rfl⟩ := Int.eq_ofNat_of_zero_le nonneg
    have small : (BitVec.ofInt 32 n).toNat = n := by
      rw [pattern]
      omega
    rw [decode_of_lt (by omega), small, Value.finite.injEq]
    constructor
    · intro eq
      have scaled : (n : ℚ) = n * 2 ^ 149 := by
        rw [div_eq_iff (by positivity)] at eq
        exact_mod_cast eq
      have exact : n = n * 2 ^ 149 := by exact_mod_cast scaled
      have zero : n = 0 := by omega
      exact_mod_cast zero
    · intro eq
      have zero : n = 0 := by exact_mod_cast eq
      simp [zero]
  · have large : 2 ^ 32 - 2 ^ 23 ≤ (BitVec.ofInt 32 i).toNat := by
      rw [pattern]
      omega
    exact iff_of_false (decode_of_ge large i) negative.ne

/-! ### Conversion to integers -/

/-- A cast of a float to an integer type: truncation toward zero. -/
def truncate (v : ℚ) : Int :=
  if 0 ≤ v then ⌊v⌋ else ⌈v⌉

/-- Truncation moves towards zero, so it stays in an interval around it. -/
theorem truncate_mem_Icc {lo hi v : ℚ} (zero : (0 : ℚ) ∈ Set.Icc lo hi) (hv : v ∈ Set.Icc lo hi) :
    (truncate v : ℚ) ∈ Set.Icc lo hi := by
  unfold truncate
  split
  · rename_i nonneg
    have below : (⌊v⌋ : ℚ) ≤ v := Int.floor_le v
    have above : (0 : ℚ) ≤ (⌊v⌋ : ℚ) := by exact_mod_cast Int.floor_nonneg.mpr nonneg
    exact ⟨zero.1.trans above, below.trans hv.2⟩
  · rename_i negative
    have above : v ≤ (⌈v⌉ : ℚ) := Int.le_ceil v
    have below : (⌈v⌉ : ℚ) ≤ 0 := by
      exact_mod_cast Int.ceil_le.mpr (by exact_mod_cast (not_le.mp negative).le)
    exact ⟨hv.1.trans above, below.trans zero.2⟩

theorem abs_truncate_sub_lt (v : ℚ) : |(truncate v : ℚ) - v| < 1 := by
  unfold truncate
  split
  · have below := Int.floor_le v
    have above := Int.lt_floor_add_one v
    rw [abs_sub_lt_iff]
    constructor <;> linarith
  · have above := Int.le_ceil v
    have below := Int.ceil_lt_add_one v
    rw [abs_sub_lt_iff]
    constructor <;> linarith

/-! ### Memory images -/

/-- The four bytes of a word, lowest address first. -/
abbrev Bytes := Vector (BitVec 8) 4

/-- The little-endian memory image of a word. -/
def toBytes (word : BitVec 32) : Bytes :=
  #v[word.extractLsb' 0 8, word.extractLsb' 8 8, word.extractLsb' 16 8, word.extractLsb' 24 8]

/-- The word with a given memory image. -/
def ofBytes (bytes : Bytes) : BitVec 32 :=
  bytes[3] ++ bytes[2] ++ bytes[1] ++ bytes[0]

/-- Storing and loading a word changes nothing. -/
@[simp] theorem ofBytes_toBytes (word : BitVec 32) : ofBytes (toBytes word) = word := by
  show word.extractLsb' 24 8 ++ word.extractLsb' 16 8 ++ word.extractLsb' 8 8 ++
    word.extractLsb' 0 8 = word
  rw [BitVec.extractLsb'_append_extractLsb'_eq_extractLsb' (show 24 = 16 + 8 from rfl),
    BitVec.extractLsb'_append_extractLsb'_eq_extractLsb' (show 16 = 8 + 8 from rfl),
    BitVec.extractLsb'_append_extractLsb'_eq_extractLsb' (show 8 = 0 + 8 from rfl)]
  exact BitVec.extractLsb'_eq_self

end SmartScale.Binary32
