import Mathlib.Data.Nat.Log
import SmartScale.Hx711.Hull

/-!
Settling under noise: `hx711_read_filtered` on readings that stay in a band `[c - δ, c + δ]`.

`EndsIn P j xs` is what the window keeps of `j` readings in the band: they are its last pushes, or
a reset has left nothing else. So from the `W`-th reading on the moving average is in the band
(`Settling.average`), and every call contracts what the estimate is outside of it
(`settling_contracts`). `noisy_settling` turns this into a number of calls.
-/

namespace SmartScale.Hx711

open SmartScale.Transducer SmartScale.MovingAverage SmartScale.Kalman SmartScale.SlidingWindow
open SmartScale.Gain

/-! ### The window -/

/-- The last `j` of `xs` satisfy `P`, or all of them do. -/
def EndsIn (P : ℚ → Prop) (j : Nat) (xs : List ℚ) : Prop :=
  (∀ x ∈ xs, P x) ∨ ∃ old new, xs = old ++ new ∧ j ≤ new.length ∧ ∀ x ∈ new, P x

section Window

variable {P : ℚ → Prop} {j n : Nat} {xs : List ℚ} {w : ℚ}

theorem endsIn_zero (P : ℚ → Prop) (xs : List ℚ) : EndsIn P 0 xs :=
  .inr ⟨xs, [], (List.append_nil xs).symm, Nat.zero_le _, by simp⟩

theorem EndsIn.push (h : EndsIn P j xs) (hw : P w) (reset : Bool) :
    EndsIn P (j + 1) (stagePushes reset xs w) := by
  cases reset with
  | true =>
      refine .inl fun x hx => ?_
      have same : x = w := by simpa [stagePushes] using hx
      exact same ▸ hw
  | false =>
      rcases h with all | ⟨old, new, rfl, long, all⟩
      · exact .inl (forall_stagePushes all hw)
      · refine .inr ⟨old, new ++ [w], by simp [stagePushes], by simpa using long, ?_⟩
        exact List.forall_mem_append.mpr ⟨all, List.forall_mem_singleton.mpr hw⟩

/-- A window of `n` cells holds nothing else once `n` of them have been pushed. -/
theorem EndsIn.recent (h : EndsIn P j xs) (hn : n ≤ j) : ∀ x ∈ recent n xs, P x := by
  intro x hx
  rcases h with all | ⟨old, new, rfl, long, all⟩
  · exact all x (recent_subset _ _ hx)
  · rw [recent_append old (hn.trans long)] at hx
    exact all x (recent_subset _ _ hx)

end Window

section Stage

variable {s : Driver} {j : Nat} {w : ℚ}

/-- The stage pushes one more, in any state that takes its window over. -/
theorem windowStage_endsIn {P : ℚ → Prop}
    (window : 0 < s.sMaWindow → ∃ xs, Represents s.sMa s.sMaWindow.toNat xs ∧ EndsIn P j xs)
    (hw : P w) {reset : Bool} {t : Driver} (ma : t.sMa = (windowStage s reset w).1)
    (size : t.sMaWindow = s.sMaWindow) :
    0 < t.sMaWindow → ∃ xs, Represents t.sMa t.sMaWindow.toNat xs ∧ EndsIn P (j + 1) xs := by
  intro hwin
  rw [size] at hwin
  obtain ⟨xs, held, ends⟩ := window hwin
  refine ⟨stagePushes reset xs w, ?_, ends.push hw reset⟩
  rw [ma, size]
  exact (windowStage_spec hwin held reset w).1

/-- From the `W`-th one on the average is in the band. -/
theorem windowStage_settled {lo hi : ℚ}
    (window : 0 < s.sMaWindow →
      ∃ xs, Represents s.sMa s.sMaWindow.toNat xs ∧ EndsIn (· ∈ Set.Icc lo hi) j xs)
    (hw : w ∈ Set.Icc lo hi) (hj : s.sMaWindow ≤ j + 1) (reset : Bool) :
    (windowStage s reset w).2 ∈ Set.Icc lo hi := by
  by_cases hwin : 0 < s.sMaWindow
  · obtain ⟨xs, held, ends⟩ := window hwin
    have enough : s.sMaWindow.toNat ≤ j + 1 := by omega
    rw [(windowStage_spec hwin held reset w).2]
    exact mean_mem_Icc (recent_ne_nil held.size_pos (stagePushes_ne_nil _ _ _))
      ((ends.push hw reset).recent enough)
  · rw [windowStage_off hwin]
    exact hw

end Stage

/-! ### Calls -/

/-- The driver after `j` readings in the band. -/
structure Settling (lo hi : ℚ) (j : Nat) (s : Driver) : Prop where
  adaptive : Adaptive s
  window : 0 < s.sMaWindow →
    ∃ xs, Represents s.sMa s.sMaWindow.toNat xs ∧ EndsIn (· ∈ Set.Icc lo hi) j xs

section Calls

variable {lo hi c δ : ℚ} {j : Nat} {s : Driver} {raw : Int}

theorem settling_zero (adaptive : Adaptive s) (window : WindowOf (fun _ => True) s) :
    Settling lo hi 0 s where
  adaptive := adaptive
  window hwin := by
    obtain ⟨xs, held, _⟩ := window hwin
    exact ⟨xs, held, endsIn_zero _ xs⟩

/-- **Step lemma.** -/
theorem Settling.read (h : Settling lo hi j s) (hraw : (raw : ℚ) ∈ Set.Icc lo hi) :
    Settling lo hi (j + 1) (hx711ReadFiltered s raw).1 where
  adaptive := hx711ReadFiltered_adaptive h.adaptive raw
  window := windowStage_endsIn h.window hraw rfl rfl

/-- From the `W`-th reading on the moving average is in the band. -/
theorem Settling.average (h : Settling lo hi j s) (hraw : (raw : ℚ) ∈ Set.Icc lo hi)
    (hj : s.sMaWindow ≤ j + 1) : (stepAwareMovingAverage s raw).2 ∈ Set.Icc lo hi :=
  windowStage_settled h.window hraw hj (s.boosting raw)

theorem mem_band_iff {x : ℚ} : x ∈ Set.Icc (c - δ) (c + δ) ↔ |x - c| ≤ δ := by
  rw [abs_le, Set.mem_Icc]
  constructor <;> rintro ⟨lower, upper⟩ <;> constructor <;> linarith

/-- **Contraction towards the band.** -/
theorem settling_contracts (h : Settling (c - δ) (c + δ) j s) (near : |(raw : ℚ) - c| ≤ δ)
    (hj : s.sMaWindow ≤ j + 1) :
    excess δ c (hx711ReadFiltered s raw).1.sKf.xEst ≤
      5 / (1 / 1000 + 5) * excess δ c s.sKf.xEst := by
  have averaged := mem_band_iff.mp (h.average (mem_band_iff.mpr near) hj)
  have forced := h.adaptive.bounded.override
    (h.adaptive.qMin_le_boostQ (stepAwareMovingAverage s raw).2)
  have predicted : (1 : ℚ) / 1000 ≤ s.sKf.pEst + boostQ s (stepAwareMovingAverage s raw).2 := by
    have floor := h.adaptive.qMin_le_boostQ (stepAwareMovingAverage s raw).2
    rw [h.adaptive.qMin_eq] at floor
    have := h.adaptive.bounded.pEst_nonneg
    linarith
  have noise : s.sKf.r ≤ 5 := h.adaptive.rMax_eq ▸ h.adaptive.bounded.r_ceil
  rw [hx711ReadFiltered_sKf h.adaptive.kf, kalmanUpdateAdaptive_xEst]
  refine (excess_correct_le forced.toTuned.gain_mem_Icc averaged).trans
    (mul_le_mul_of_nonneg_right ?_ excess_nonneg)
  exact one_sub_gain_le (by norm_num) h.adaptive.bounded.r_pos predicted noise

/-- **Run lemma.** -/
theorem settling_run_contracts (h : Settling (c - δ) (c + δ) j s) (hj : s.sMaWindow ≤ j + 1)
    {raws : List Int} (near : ∀ x ∈ raws, |(x : ℚ) - c| ≤ δ) :
    ∀ i, ∀ out ∈ (outputs hx711ReadFiltered s raws)[i]?,
      excess δ c out ≤ (5 / (1 / 1000 + 5)) ^ (i + 1) * excess δ c s.sKf.xEst := by
  refine outputs_le_pow
    (I := fun s => ∃ j : Nat, Settling (c - δ) (c + δ) j s ∧ s.sMaWindow ≤ j + 1)
    (e := fun s => excess δ c s.sKf.xEst) (by norm_num) ⟨j, h, hj⟩ ?_ ?_
  · rintro s raw mem ⟨j, h, hj⟩
    refine ⟨j + 1, h.read (mem_band_iff.mpr (near raw mem)), ?_⟩
    have same : (hx711ReadFiltered s raw).1.sMaWindow = s.sMaWindow := rfl
    omega
  · rintro s raw mem ⟨j, h, hj⟩
    rw [hx711ReadFiltered_output h.adaptive.kf]
    exact ⟨settling_contracts h (near raw mem) hj, le_rfl⟩

theorem settling_run (h : Settling (c - δ) (c + δ) j s) {raws : List Int}
    (near : ∀ x ∈ raws, |(x : ℚ) - c| ≤ δ) :
    Settling (c - δ) (c + δ) (j + raws.length) (after hx711ReadFiltered s raws) := by
  induction raws generalizing j s with
  | nil => exact h
  | cons raw raws ih =>
      have next := h.read (mem_band_iff.mpr (near raw List.mem_cons_self))
      have rest := ih next fun x hx => near x (List.mem_cons_of_mem raw hx)
      rwa [Nat.add_right_comm, Nat.add_assoc, ← List.length_cons (a := raw)] at rest

end Calls

/-! ### Any run -/

/-- Calls enough to halve what the estimate is outside of the band. -/
def halvingCalls : Nat := 5000

/-- Calls enough to settle within `ε` of the band, from anywhere in the range of the converter:
the window is filled, and the estimate comes from at most 2²⁴ away. -/
def noisySettleCalls (maWindow : Int) (ε : ℚ) : Nat :=
  (maWindow - 1).toNat + halvingCalls * Nat.clog 2 ⌈2 ^ 24 / ε⌉₊

section Runs

variable {s : Driver} {c δ ε : ℚ}

/-- In the range of the converter no estimate is further away than `2 ^ 24`. -/
theorem excess_le_of_withinHull (kf : s.sUseKf = true)
    (within : WithinHull (-2 ^ 23) (2 ^ 23 - 1) s) (hc : c ∈ Set.Icc (-2 ^ 23 : ℚ) (2 ^ 23))
    (hδ : 0 ≤ δ) : excess δ c s.sKf.xEst ≤ 2 ^ 24 := by
  obtain ⟨lower, upper⟩ := (within.kalman kf).2
  have distance : |s.sKf.xEst - c| ≤ 2 ^ 24 := by
    rw [abs_le]
    constructor <;> linarith [hc.1, hc.2]
  exact max_le (by linarith) (by norm_num)

theorem after_withinHull {lo hi : ℚ} (within : WithinHull lo hi s) {raws : List Int}
    (inside : ∀ x ∈ raws, (x : ℚ) ∈ Set.Icc lo hi) :
    WithinHull lo hi (after hx711ReadFiltered s raws) :=
  after_invariant within fun _ raw mem h => (hx711ReadFiltered_withinHull h (inside raw mem)).1

/-- **Outputs settle** from any state that is in the range of the converter. -/
theorem outputs_settle (adaptive : Adaptive s) (within : WithinHull (-2 ^ 23) (2 ^ 23 - 1) s)
    {raws : List Int} (near : ∀ x ∈ raws, |(x : ℚ) - c| ≤ δ)
    (bits : ∀ x ∈ raws, (x : ℚ) ∈ Set.Icc (-2 ^ 23 : ℚ) (2 ^ 23 - 1))
    (hc : c ∈ Set.Icc (-2 ^ 23 : ℚ) (2 ^ 23)) (hδ : 0 ≤ δ) (hε : 0 < ε) :
    ∀ i, noisySettleCalls s.sMaWindow ε ≤ i → ∀ out ∈ (outputs hx711ReadFiltered s raws)[i]?,
      |out - c| ≤ δ + ε := by
  intro i late out returned
  set m := (s.sMaWindow - 1).toNat with window_eq
  obtain ⟨n, rfl⟩ : ∃ n, i = m + n :=
    ⟨i - m, (Nat.add_sub_cancel' ((Nat.le_add_right _ _).trans late)).symm⟩
  have enough : halvingCalls * Nat.clog 2 ⌈2 ^ 24 / ε⌉₊ ≤ n := Nat.le_of_add_le_add_left late
  have filled : m ≤ raws.length := by
    by_contra short
    rw [List.getElem?_eq_none (by rw [length_outputs]; omega)] at returned
    cases returned
  -- the window is filled by the first `m` readings
  set t := after hx711ReadFiltered s (raws.take m) with reached
  have window : WindowOf (fun _ => True) s := fun hwin => by
    obtain ⟨xs, held, _⟩ := within.window hwin
    exact ⟨xs, held, fun _ _ => trivial⟩
  have settling : Settling (c - δ) (c + δ) m t := by
    have run := settling_run (settling_zero adaptive window)
      fun x hx => near x (List.take_subset m raws hx)
    rwa [Nat.zero_add, List.length_take, Nat.min_eq_left filled] at run
  have size : t.sMaWindow ≤ m + 1 := by
    have same : t.sMaWindow = s.sMaWindow :=
      after_invariant (I := fun t : Driver => t.sMaWindow = s.sMaWindow) rfl
        fun _ _ _ same => same
    omega
  have later : out ∈ (outputs hx711ReadFiltered t (raws.drop m))[n]? := by
    rw [← List.take_append_drop m raws, outputs_append, List.getElem?_append_right] at returned
    · simpa [Nat.min_eq_left filled] using returned
    · simp
  have contracted := settling_run_contracts settling size
    (fun x hx => near x (List.drop_subset m raws hx)) n out later
  have start := excess_le_of_withinHull settling.adaptive.kf
    (after_withinHull within fun x hx => bits x (List.take_subset m raws hx)) hc hδ
  have halvings : (2 : ℚ) ^ 24 ≤ 2 ^ Nat.clog 2 ⌈2 ^ 24 / ε⌉₊ * ε := by
    rw [← div_le_iff₀ hε]
    refine (Nat.le_ceil _).trans ?_
    exact_mod_cast Nat.le_pow_clog one_lt_two _
  refine abs_sub_le_of_excess (contracted.trans ?_)
  exact pow_ratio_mul_le_of_halves (by norm_num) (by norm_num) (by norm_num [halvingCalls])
    (enough.trans (Nat.le_succ n)) excess_nonneg (start.trans halvings)

end Runs

/-- **Settling under noise.** After any history of 24-bit readings, while the readings stay within
`δ` of `c`, all outputs but the first `noisySettleCalls` are within `δ + ε` of it. -/
theorem noisy_settling (s : Driver) (sMaBuf : Option (List ℚ)) (cfg : Config) (raw0 : Int)
    (history readings : List Int) (kf : cfg.useKf = true) (hq : 1 / 1000 ≤ cfg.qInit)
    (hr : 0 < cfg.rInit) (hr' : cfg.rInit ≤ 5) {c δ ε : ℚ} (hδ : 0 ≤ δ) (hε : 0 < ε)
    (hc : c ∈ Set.Icc (-2 ^ 23 : ℚ) (2 ^ 23))
    (bits : ∀ x ∈ raw0 :: history ++ readings, Is24Bit x)
    (near : ∀ x ∈ readings, |(x : ℚ) - c| ≤ δ) :
    let start := filteredRun s sMaBuf cfg raw0 history
    ∀ i, noisySettleCalls start.sMaWindow ε ≤ i →
      ∀ out ∈ (outputs hx711ReadFiltered start readings)[i]?, |out - c| ≤ δ + ε := by
  intro start
  have range : ∀ x ∈ raw0 :: history ++ readings, (x : ℚ) ∈ Set.Icc (-2 ^ 23 : ℚ) (2 ^ 23 - 1) :=
    fun x hx => (bits x hx).cast_mem
  have adaptive : Adaptive start :=
    after_invariant (hx711Init_adaptive s sMaBuf raw0 kf hq hr hr')
      fun _ raw _ ht => hx711ReadFiltered_adaptive ht raw
  have within : WithinHull (-2 ^ 23) (2 ^ 23 - 1) start :=
    after_withinHull
      (hx711Init_withinHull ⟨by norm_num, by norm_num⟩ s sMaBuf (by linarith) hr
        (range raw0 (by simp)))
      fun x hx => range x (by simp [hx])
  exact outputs_settle adaptive within near (fun x hx => range x (by simp [hx])) hc hδ hε

/-- Readings that jitter around 500. -/
theorem noisy_settling_jitter :
    let start := filteredRun .boot (some (List.replicate 8 0)) ⟨8, true, 1 / 2, 1⟩ 0 [3, -7]
    let readings := List.replicate (noisySettleCalls 8 1) 503 ++ [498]
    ∃ out, (outputs hx711ReadFiltered start readings)[noisySettleCalls 8 1]? = some out ∧
      |out - 500| ≤ 3 + 1 := by
  intro start readings
  have values : ∀ x ∈ readings, x = 503 ∨ x = 498 := by
    intro x hx
    rcases List.mem_append.mp hx with first | last
    · exact .inl (List.eq_of_mem_replicate first)
    · exact .inr (List.mem_singleton.mp last)
  have long : noisySettleCalls 8 1 < (outputs hx711ReadFiltered start readings).length := by
    rw [length_outputs, List.length_append, List.length_replicate]
    exact Nat.lt_succ_self _
  refine ⟨_, List.getElem?_eq_getElem long, ?_⟩
  refine noisy_settling .boot (some (List.replicate 8 0)) ⟨8, true, 1 / 2, 1⟩ 0 [3, -7] readings
    rfl (by norm_num) (by norm_num) (by norm_num) (by norm_num) one_pos (by norm_num) ?_ ?_
    (noisySettleCalls 8 1) le_rfl _ (List.getElem?_eq_getElem long)
  · refine List.forall_mem_append.mpr ⟨by unfold Is24Bit; decide, fun x hx => ?_⟩
    rcases values x hx with rfl | rfl <;> simp [Is24Bit]
  · intro x hx
    rcases values x hx with rfl | rfl <;> norm_num [abs_le]

end SmartScale.Hx711
