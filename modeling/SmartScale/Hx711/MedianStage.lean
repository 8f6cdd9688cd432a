import SmartScale.Hx711.Driver
import Mathlib.Data.Bool.Count

/-!
The median stage of `hx711_read_median_rtos` and outliers.

The loop is a cascade over the samples (`medianValue_eq_cascade`): it reads what it has
written. The first two neighbouring samples on the same side of a bound therefore decide on
which side of the bound the result lies. A minority of outliers that starts with two
neighbours gets through (`median_rejects_iff`), and from windows of 5 on there is room for one
(`median_rejects_all_iff`).
-/

namespace SmartScale.Hx711

open SmartScale.MovingAverage SmartScale.Median

/-! ### The loop is a cascade -/

/-- One iteration of the median loop. -/
def medianIteration (xs : List Int) (i : Nat) : List Int :=
  xs.set i (median3 (xs.getD (i - 2) 0) (xs.getD (i - 1) 0) (xs.getD i 0))

theorem medianCascade_eq (samples : List Int) :
    medianCascade samples =
      (List.range' 2 (samples.length - 2)).foldl medianIteration samples := rfl

/-- `samples[n - 1]` after the loop. -/
def medianValue (samples : List Int) : Int :=
  (medianCascade samples).getD (samples.length - 1) 0

theorem medianIteration_append (pre : List Int) (a b x : Int) (rest : List Int) :
    medianIteration (pre ++ a :: b :: x :: rest) (pre.length + 2) =
      (pre ++ [a]) ++ b :: middle a b x :: rest := by
  simp [medianIteration, median3_eq_middle]

/-- The loop from any place on: `a` and `b` are the two samples before it. -/
theorem foldl_medianIteration (pre : List Int) (a b : Int) (rest : List Int) :
    ((List.range' (pre.length + 2) rest.length).foldl medianIteration
      (pre ++ a :: b :: rest)).getD (pre.length + 1 + rest.length) 0 = cascade a b rest := by
  induction rest generalizing pre a b with
  | nil => simp
  | cons x rest ih =>
      have shifted := ih (pre ++ [a]) b (middle a b x)
      have length : (pre ++ [a]).length = pre.length + 1 := by simp
      have last : pre.length + 1 + (x :: rest).length = pre.length + 1 + 1 + rest.length := by
        rw [List.length_cons]
        omega
      rw [length] at shifted
      rw [last, List.length_cons, List.range'_succ, List.foldl_cons, medianIteration_append]
      exact shifted

theorem medianValue_eq_cascade (a b : Int) (rest : List Int) :
    medianValue (a :: b :: rest) = cascade a b rest := by
  have loop := foldl_medianIteration [] a b rest
  simp only [List.length_nil, List.nil_append, Nat.zero_add] at loop
  rw [medianValue, medianCascade_eq]
  have last : (a :: b :: rest).length - 1 = 1 + rest.length := by
    simp only [List.length_cons]
    omega
  rw [last]
  exact loop

/-- The median read averages this value. -/
theorem hx711ReadMedianRtos_medianValue (s : Driver) (samples : Nat → Int) :
    (hx711ReadMedianRtos s true samples).1.sLastOutput =
      (medianMovingAverage s (medianValue (medianSamples s samples))).2 := by
  have length : (medianSamples s samples).length = nextAdaptiveWindow s := by
    simp [medianSamples]
  rw [medianValue, length]
  rfl

/-! ### Outliers -/

/-- More than half of the samples lie in `[lo, hi]`. -/
def Majority (lo hi : ℚ) (samples : List Int) : Prop :=
  samples.length < 2 * samples.countP fun x : Int => decide ((x : ℚ) ∈ Set.Icc lo hi)

/-- No two neighbouring samples that miss the bound `p` come before the first two that meet
it. -/
def NoPairFirst (p : Int → Bool) (samples : List Int) : Prop :=
  firstAgreement (samples.map p) ≠ some false

instance (lo hi : ℚ) (samples : List Int) : Decidable (Majority lo hi samples) := by
  unfold Majority
  infer_instance

instance (p : Int → Bool) (samples : List Int) : Decidable (NoPairFirst p samples) := by
  unfold NoPairFirst
  infer_instance

/-- Whether a sample is not below the interval. -/
def atLeast (lo : ℚ) (x : Int) : Bool := decide (lo ≤ (x : ℚ))

/-- Whether a sample is not above the interval. -/
def atMost (hi : ℚ) (x : Int) : Bool := decide ((x : ℚ) ≤ hi)

theorem atLeast_mono {lo : ℚ} {x y : Int} (le : x ≤ y) (above : atLeast lo x = true) :
    atLeast lo y = true :=
  decide_eq_true ((of_decide_eq_true above).trans (Int.cast_le.mpr le))

theorem atMost_anti {hi : ℚ} {x y : Int} (le : x ≤ y) (below : atMost hi y = true) :
    atMost hi x = true :=
  decide_eq_true ((Int.cast_le.mpr le).trans (of_decide_eq_true below))

section Outliers

variable {lo hi : ℚ} {samples : List Int}

theorem Majority.bits (majority : Majority lo hi samples) {p : Int → Bool}
    (met : ∀ x : Int, (x : ℚ) ∈ Set.Icc lo hi → p x = true) :
    (samples.map p).length < 2 * (samples.map p).count true := by
  have more : samples.countP (fun x : Int => decide ((x : ℚ) ∈ Set.Icc lo hi)) ≤
      (samples.map p).count true := by
    rw [List.count, List.countP_map]
    refine List.countP_mono_left fun x _ inside => ?_
    simpa using met x (of_decide_eq_true inside)
  rw [List.length_map]
  exact lt_of_lt_of_le majority (Nat.mul_le_mul_left 2 more)

/-- A bound that most samples meet is met by the result unless two neighbours miss it first. -/
theorem meets_iff {p : Int → Bool} (passed : ∀ a b rest,
      p (cascade a b rest) = agreed (p a) ((b :: rest).map p))
    (two : 2 ≤ samples.length)
    (majority : (samples.map p).length < 2 * (samples.map p).count true) :
    p (medianValue samples) = true ↔ NoPairFirst p samples := by
  match samples, two with
  | a :: b :: rest, _ =>
      rw [medianValue_eq_cascade, passed, NoPairFirst]
      exact agreed_iff_of_majority majority

theorem atLeast_medianValue_iff (two : 2 ≤ samples.length) (majority : Majority lo hi samples) :
    atLeast lo (medianValue samples) = true ↔ NoPairFirst (atLeast lo) samples :=
  meets_iff (cascade_of_monotone fun _ _ => atLeast_mono) two
    (majority.bits fun _ inside => decide_eq_true inside.1)

theorem atMost_medianValue_iff (two : 2 ≤ samples.length) (majority : Majority lo hi samples) :
    atMost hi (medianValue samples) = true ↔ NoPairFirst (atMost hi) samples :=
  meets_iff (cascade_of_antitone fun _ _ => atMost_anti) two
    (majority.bits fun _ inside => decide_eq_true inside.2)

/-- **When the median stage rejects a minority of outliers**: the result lies in the interval
exactly if, for either end of it, no two neighbouring samples beyond that end come before the
first two that are not. -/
theorem median_rejects_iff (lo hi : ℚ) {samples : List Int} (hn : 3 ≤ samples.length)
    (majority : Majority lo hi samples) :
    (medianValue samples : ℚ) ∈ Set.Icc lo hi ↔
      NoPairFirst (atLeast lo) samples ∧ NoPairFirst (atMost hi) samples := by
  have two : 2 ≤ samples.length := by omega
  rw [← atLeast_medianValue_iff two majority, ← atMost_medianValue_iff two majority, atLeast,
    atMost, decide_eq_true_eq, decide_eq_true_eq, Set.mem_Icc]

/-- A single outlier among five samples is rejected. -/
theorem median_rejects_iff_single : (medianValue [0, 900, 0, 1, 2] : ℚ) ∈ Set.Icc (0 : ℚ) 2 :=
  (median_rejects_iff 0 2 (by simp) (by decide +kernel)).mpr (by decide +kernel)

/-- Two outliers among five samples get through if they come first: the loop overwrites the
third sample with them, and so on to the last one. -/
theorem median_passes_outliers :
    ¬ ∀ (lo hi : ℚ) (samples : List Int), 3 ≤ samples.length → Majority lo hi samples →
      (medianValue samples : ℚ) ∈ Set.Icc lo hi := by
  intro claimed
  have inside := claimed 0 0 [100, 100, 0, 0, 0] (by simp) (by decide +kernel)
  exact absurd inside (by decide +kernel)

/-! ### Window lengths -/

/-- Four samples have no room for a minority of two. -/
theorem noPairFirst_of_length_le {p : Int → Bool} (short : samples.length ≤ 4)
    (majority : (samples.map p).length < 2 * (samples.map p).count true) :
    NoPairFirst p samples := by
  intro missed
  have two := two_le_count_of_firstAgreement missed
  have total := List.count_true_add_count_false (samples.map p)
  rw [List.length_map] at total majority
  omega

/-- Two equal outliers before `n - 2` zeros. -/
theorem medianValue_outliers (n : Nat) : medianValue (1 :: 1 :: List.replicate n 0) = 1 := by
  rw [medianValue_eq_cascade, cascade_same]

/-- **Only windows of 3 and 4 samples reject every minority.** -/
theorem median_rejects_all_iff {n : Nat} (hn : 3 ≤ n) :
    (∀ (lo hi : ℚ) (samples : List Int), samples.length = n → Majority lo hi samples →
      (medianValue samples : ℚ) ∈ Set.Icc lo hi) ↔ n ≤ 4 := by
  constructor
  · intro rejects
    by_contra long
    have length : (1 :: 1 :: List.replicate (n - 2) (0 : Int)).length = n := by
      simp only [List.length_cons, List.length_replicate]
      omega
    have most : Majority 0 0 (1 :: 1 :: List.replicate (n - 2) 0) := by
      rw [Majority, length]
      simp only [List.countP_cons, List.countP_replicate]
      norm_num
      omega
    have inside := rejects 0 0 _ length most
    rw [medianValue_outliers] at inside
    exact absurd inside (by norm_num)
  · intro short lo hi samples length majority
    have two : 2 ≤ samples.length := by omega
    have four : samples.length ≤ 4 := by omega
    have lower := (atLeast_medianValue_iff two majority).mpr
      (noPairFirst_of_length_le four (majority.bits fun _ inside => decide_eq_true inside.1))
    have upper := (atMost_medianValue_iff two majority).mpr
      (noPairFirst_of_length_le four (majority.bits fun _ inside => decide_eq_true inside.2))
    exact ⟨of_decide_eq_true lower, of_decide_eq_true upper⟩

end Outliers

end SmartScale.Hx711
