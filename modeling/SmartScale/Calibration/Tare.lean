import Mathlib.Algebra.Order.BigOperators.Group.List
import Mathlib.Algebra.Order.Group.Int
import Mathlib.Data.List.Induction
import SmartScale.Base.Binary32
import SmartScale.Calibration

/-!
The zero offset (`calibration_tare`, `calibration/calibration.c`), in the source's own integer
types. `tareSum_toInt` says that the accumulator never wraps, `calibrationTare_eq` what the
function returns.
-/

namespace SmartScale.Calibration

open SmartScale.Binary32

/-- The loop of `calibration_tare`. -/
def tareSum (raw : List Int32) : Int64 :=
  raw.foldl (fun sum sample => sum + sample.toInt64) 0

/-- `calibration_tare`: the object of `zero_raw` after the call, and the code it returns. A
NULL pointer is `none`. -/
def calibrationTare (zeroRaw : Option Int32) (raw : Option (List Int32)) : Option Int32 × Int :=
  match zeroRaw, raw with
  | some _, some (x :: xs) =>
      (some (tareSum (x :: xs) / Int64.ofNat (x :: xs).length).toInt32, 0)
  | _, _ => (zeroRaw, -1)

/-- The samples added up without a width. -/
def exactSum (raw : List Int32) : Int := (raw.map Int32.toInt).sum

theorem exactSum_concat (raw : List Int32) (x : Int32) :
    exactSum (raw ++ [x]) = exactSum raw + x.toInt := by
  simp [exactSum]

theorem le_exactSum {lo : Int} {raw : List Int32} (above : ∀ x ∈ raw, lo ≤ x.toInt) :
    raw.length * lo ≤ exactSum raw := by
  have bound := List.card_nsmul_le_sum (raw.map Int32.toInt) lo
    (List.forall_mem_map.mpr above)
  rw [exactSum]
  simpa using bound

theorem exactSum_le {hi : Int} {raw : List Int32} (below : ∀ x ∈ raw, x.toInt ≤ hi) :
    exactSum raw ≤ raw.length * hi := by
  have bound := List.sum_le_card_nsmul (raw.map Int32.toInt) hi
    (List.forall_mem_map.mpr below)
  rw [exactSum]
  simpa using bound

/-- Fewer than `2^32` samples stay within the accumulator, with `2^31` to spare. -/
theorem exactSum_range {raw : List Int32} (fits : raw.length < 2 ^ 32) :
    -2 ^ 63 < exactSum raw ∧ exactSum raw < 2 ^ 63 := by
  have lower := le_exactSum fun x (_ : x ∈ raw) => x.le_toInt
  have upper := exactSum_le fun x (_ : x ∈ raw) => x.toInt_lt.le
  constructor <;> omega

/-- The accumulator is exact, so none of its additions wraps. -/
theorem tareSum_toInt {raw : List Int32} (fits : raw.length < 2 ^ 32) :
    (tareSum raw).toInt = exactSum raw := by
  induction raw using List.reverseRec with
  | nil => rfl
  | append_singleton raw x ih =>
      have range := exactSum_range fits
      have shorter : raw.length < 2 ^ 32 := by
        rw [List.length_append] at fits
        omega
      have added : tareSum (raw ++ [x]) = tareSum raw + x.toInt64 := by
        simp [tareSum]
      rw [added, Int64.toInt_add, ih shorter, Int32.toInt_toInt64, ← exactSum_concat]
      exact Int.bmod_eq_of_le (by omega) (by omega)

/-! ### The quotient -/

theorem le_tdiv {lo sum : Int} {n : Nat} (pos : 0 < n) (h : n * lo ≤ sum) : lo ≤ sum.tdiv n := by
  rcases Int.le_total 0 sum with nonneg | nonpos
  · rw [Int.tdiv_eq_ediv_of_nonneg nonneg]
    exact Int.le_ediv_of_mul_le (by omega) (by rwa [Int.mul_comm])
  · have negated : -(sum.tdiv n) ≤ -lo := by
      rw [← Int.neg_tdiv, Int.tdiv_eq_ediv_of_nonneg (by omega)]
      exact Int.ediv_le_of_le_mul (by omega) (by linarith)
    omega

theorem tdiv_le {hi sum : Int} {n : Nat} (pos : 0 < n) (h : sum ≤ n * hi) : sum.tdiv n ≤ hi := by
  have negated : -hi ≤ (-sum).tdiv n := le_tdiv pos (by linarith)
  rw [Int.neg_tdiv] at negated
  omega

/-- The cast of an exact quotient is the quotient of the integers. -/
theorem truncate_div (sum : Int) {n : Nat} (pos : 0 < n) :
    truncate ((sum : ℚ) / n) = sum.tdiv n := by
  have count : (0 : ℚ) < n := by exact_mod_cast pos
  rcases le_or_gt 0 sum with nonneg | negative
  · have positive : (0 : ℚ) ≤ sum / n := div_nonneg (by exact_mod_cast nonneg) count.le
    rw [truncate, if_pos positive, Rat.floor_intCast_div_natCast,
      Int.tdiv_eq_ediv_of_nonneg nonneg]
  · have below : (sum : ℚ) / n < 0 := div_neg_of_neg_of_pos (by exact_mod_cast negative) count
    rw [truncate, if_neg below.not_ge, Rat.ceil_intCast_div_natCast,
      ← Int.tdiv_eq_ediv_of_nonneg (by omega), Int.neg_tdiv, neg_neg]

/-! ### The result -/

/-- What `calibration_tare` stores: nothing is lost on the way. -/
theorem calibrationTare_eq (zeroRaw : Int32) {raw : List Int32} (nonempty : raw ≠ [])
    (fits : raw.length < 2 ^ 32) : ∃ result : Int32,
      calibrationTare (some zeroRaw) (some raw) = (some result, 0) ∧
      result.toInt = (tareSum raw / Int64.ofNat raw.length).toInt ∧
      result.toInt = (exactSum raw).tdiv raw.length := by
  have pos : 0 < raw.length := List.length_pos_iff.mpr nonempty
  have divisor : (Int64.ofNat raw.length).toInt = raw.length :=
    Int64.toInt_ofNat_of_lt (by omega)
  have quotient : (tareSum raw / Int64.ofNat raw.length).toInt =
      (exactSum raw).tdiv raw.length := by
    rw [Int64.toInt_div_of_ne_right, tareSum_toInt fits, divisor]
    intro negative
    rw [negative] at divisor
    simp at divisor
  have lower := le_tdiv pos (le_exactSum fun x (_ : x ∈ raw) => x.le_toInt)
  have upper := tdiv_le pos (exactSum_le fun x (_ : x ∈ raw) => Int.le_sub_one_of_lt x.toInt_lt)
  have narrowed : (tareSum raw / Int64.ofNat raw.length).toInt32.toInt =
      (exactSum raw).tdiv raw.length := by
    rw [Int64.toInt_toInt32, quotient]
    exact Int.bmod_eq_of_le (by omega) (by omega)
  refine ⟨(tareSum raw / Int64.ofNat raw.length).toInt32, ?_, ?_, narrowed⟩
  · cases raw with
    | nil => exact absurd rfl nonempty
    | cons x xs => rfl
  · rw [narrowed, quotient]

/-- The code depends on the samples, not on their order. -/
theorem calibrationTare_perm {zeroRaw : Int32} {raw others : List Int32}
    (fits : raw.length < 2 ^ 32) (perm : others.Perm raw) :
    calibrationTare (some zeroRaw) (some others) = calibrationTare (some zeroRaw) (some raw) := by
  rcases List.eq_nil_or_concat raw with rfl | nonempty
  · rw [List.perm_nil.mp perm]
  · have filled : raw ≠ [] := by
      obtain ⟨front, x, rfl⟩ := nonempty
      simp
    have filled' : others ≠ [] := fun empty => filled (by simpa [empty] using perm)
    have same : exactSum others = exactSum raw := (perm.map Int32.toInt).sum_eq
    obtain ⟨result, returned, -, value⟩ := calibrationTare_eq zeroRaw filled fits
    obtain ⟨result', returned', -, value'⟩ :=
      calibrationTare_eq zeroRaw filled' (by rwa [perm.length_eq])
    rw [same, perm.length_eq, ← value] at value'
    rw [returned, returned', Int32.toInt_inj.mp value']

/-- **Tare arithmetic is exact and in range.** -/
theorem tare_exact (zeroRaw : Int32) (raw : List Int32) (nonempty : raw ≠ [])
    (fits : raw.length < 2 ^ 32) :
    (∀ front x rest, raw = front ++ x :: rest →
      (tareSum front + x.toInt64).toInt = (tareSum front).toInt + x.toInt ∧
      (tareSum front).toInt = exactSum front) ∧
    (∃ result : Int32,
      calibrationTare (some zeroRaw) (some raw) = (some result, 0) ∧
      result.toInt = (tareSum raw / Int64.ofNat raw.length).toInt ∧
      (∃ x ∈ raw, x.toInt ≤ result.toInt) ∧ (∃ x ∈ raw, result.toInt ≤ x.toInt) ∧
      result.toInt = truncate ((exactSum raw : ℚ) / raw.length)) ∧
    ∀ others : List Int32, others.Perm raw →
      calibrationTare (some zeroRaw) (some others) =
        calibrationTare (some zeroRaw) (some raw) := by
  refine ⟨?_, ?_, fun others perm => calibrationTare_perm fits perm⟩
  · intro front x rest parts
    have length : raw.length = front.length + (rest.length + 1) := by
      rw [parts, List.length_append, List.length_cons]
    have added : tareSum (front ++ [x]) = tareSum front + x.toInt64 := by
      simp [tareSum]
    have sum : (tareSum front).toInt = exactSum front := tareSum_toInt (by omega)
    refine ⟨?_, sum⟩
    rw [← added, tareSum_toInt (by rw [List.length_append, List.length_singleton]; omega),
      exactSum_concat, sum]
  · have pos : 0 < raw.length := List.length_pos_iff.mpr nonempty
    obtain ⟨result, returned, narrowed, value⟩ := calibrationTare_eq zeroRaw nonempty fits
    refine ⟨result, returned, narrowed, ?_, ?_, by rw [value, truncate_div _ pos]⟩
    · by_contra above
      push Not at above
      have larger := le_tdiv pos (le_exactSum fun x mem => Int.add_one_le_of_lt (above x mem))
      omega
    · by_contra below
      push Not at below
      have smaller := tdiv_le pos (exactSum_le fun x mem => Int.le_sub_one_of_lt (below x mem))
      omega

/-- Samples of both signs: the mean of -2.5 is stored as -2. -/
theorem tare_exact_mixed : calibrationTare (some 0) (some [-7, 2]) = (some (-2), 0) ∧
    ∃ result : Int32, calibrationTare (some 0) (some [-7, 2]) = (some result, 0) ∧
      result.toInt = truncate ((exactSum [-7, 2] : ℚ) / 2) := by
  obtain ⟨result, returned, -, -, -, mean⟩ := (tare_exact 0 [-7, 2] (by simp) (by simp)).2.1
  exact ⟨rfl, result, returned, mean⟩

end SmartScale.Calibration
