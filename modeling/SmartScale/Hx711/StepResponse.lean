import SmartScale.Hx711.Boost
import SmartScale.Hx711.Convergence

/-!
How `hx711_read_filtered` follows the load once it has detected a step.

The boost that never ends (`boost_forever`) bypasses the moving average and holds the gain of the
Kalman filter at 2/3 and more: `Boosted` is kept by every call (`hx711ReadFiltered_boosted`), and
each call leaves at most a third of the distance to what is read (`boosted_contracts`).
-/

namespace SmartScale.Hx711

open SmartScale.Transducer SmartScale.MovingAverage SmartScale.Kalman SmartScale.Gain

/-- The driver after a detected step. -/
structure Boosted (s : Driver) : Prop where
  adaptive : Adaptive s
  armed : 0 < s.sBoostCount
  window : WindowOf (fun _ => True) s
  tracked : s.sLastOutput = s.sKf.xEst

section Calls

variable {s : Driver}

/-- While the boost lasts, the window holds nothing but the last reading. -/
theorem boosted_average (h : Boosted s) (raw : Int) : (stepAwareMovingAverage s raw).2 = raw := by
  rw [stepAwareMovingAverage, boosting_of_count h.armed]
  exact windowStage_reset h.window raw

theorem hx711ReadFiltered_tracked (kf : s.sUseKf = true) (raw : Int) :
    (hx711ReadFiltered s raw).1.sLastOutput = (hx711ReadFiltered s raw).1.sKf.xEst :=
  hx711ReadFiltered_output kf raw

/-- **Step lemma.** -/
theorem hx711ReadFiltered_boosted (h : Boosted s) (raw : Int) :
    Boosted (hx711ReadFiltered s raw).1 where
  adaptive := hx711ReadFiltered_adaptive h.adaptive raw
  armed := by
    rw [sBoostCount_rearmed h.adaptive.kf h.armed raw]
    exact boostSamples_armed
  window := hx711ReadFiltered_windowOf h.window trivial
  tracked := hx711ReadFiltered_tracked h.adaptive.kf raw

/-- A call that detects a step starts the boost. -/
theorem boosted_of_detects (adaptive : Adaptive s) (window : WindowOf (fun _ => True) s) {raw : Int}
    (detects : (boostStep s raw).detects = true) : Boosted (hx711ReadFiltered s raw).1 where
  adaptive := hx711ReadFiltered_adaptive adaptive raw
  armed := by
    rw [sBoostCount_of_boosting adaptive.kf (boosting_of_detects window detects)]
    exact boostSamples_armed
  window := hx711ReadFiltered_windowOf window trivial
  tracked := hx711ReadFiltered_tracked adaptive.kf raw

/-- The forced `Q` leaves at most a third of the old estimate. -/
theorem boosted_gain (h : Boosted s) :
    1 - gain (s.sKf.pEst + boostedQ) s.sKf.r ≤ 1 / 3 := by
  have predicted : (10 : ℚ) ≤ s.sKf.pEst + boostedQ :=
    le_add_of_nonneg_left h.adaptive.bounded.pEst_nonneg
  have noise : s.sKf.r ≤ 5 := h.adaptive.rMax_eq ▸ h.adaptive.bounded.r_ceil
  calc 1 - gain (s.sKf.pEst + boostedQ) s.sKf.r ≤ 5 / (10 + 5) :=
        one_sub_gain_le (by norm_num) h.adaptive.bounded.r_pos predicted noise
    _ = 1 / 3 := by norm_num

/-- A call in the boost returns the correction of the last output towards the reading, by a gain of
at least 2/3. -/
theorem boosted_contracts (h : Boosted s) {raw : Int} {c δ : ℚ} (near : |(raw : ℚ) - c| ≤ δ) :
    excess δ c (hx711ReadFiltered s raw).2 ≤ 1 / 3 * excess δ c s.sLastOutput := by
  have forced : boostQ s raw = boostedQ := by
    rw [boostQ, boosting_of_count h.armed, if_pos rfl]
  have positive : 0 < boostedQ := by norm_num [boostedQ]
  have returned : (hx711ReadFiltered s raw).2 =
      correct (gain (s.sKf.pEst + boostedQ) s.sKf.r) s.sLastOutput raw := by
    rw [hx711ReadFiltered_output h.adaptive.kf, hx711ReadFiltered_sKf h.adaptive.kf,
      kalmanUpdateAdaptive_xEst, boosted_average h, forced, h.tracked]
  have weight : gain (s.sKf.pEst + boostedQ) s.sKf.r ∈ Set.Icc (0 : ℚ) 1 :=
    gain_mem_Icc (add_nonneg h.adaptive.bounded.pEst_nonneg positive.le)
      h.adaptive.bounded.r_pos.le
  rw [returned]
  exact (excess_correct_le weight near).trans
    (mul_le_mul_of_nonneg_right (boosted_gain h) excess_nonneg)

/-- **Run lemma.** -/
theorem boosted_run_contracts (h : Boosted s) {raws : List Int} {c δ : ℚ}
    (near : ∀ x ∈ raws, |(x : ℚ) - c| ≤ δ) :
    ∀ i, ∀ out ∈ (outputs hx711ReadFiltered s raws)[i]?,
      excess δ c out ≤ (1 / 3) ^ (i + 1) * excess δ c s.sLastOutput := by
  refine outputs_le_pow (I := Boosted) (e := fun s => excess δ c s.sLastOutput) (by norm_num) h
    (fun _ raw _ h => hx711ReadFiltered_boosted h raw) ?_
  intro s raw mem h
  exact ⟨boosted_contracts h (near raw mem), le_rfl⟩

end Calls

/-- After a detected step the boost is on, however many readings later. -/
theorem filteredRun_boosted (s : Driver) (sMaBuf : Option (List ℚ)) (cfg : Config) (raw0 : Int)
    (before : List Int) (step : Int) (between : List Int) (kf : cfg.useKf = true)
    (hq : 1 / 1000 ≤ cfg.qInit) (hr : 0 < cfg.rInit) (hr' : cfg.rInit ≤ 5)
    (detects : (boostStep (filteredRun s sMaBuf cfg raw0 before) step).detects = true) :
    Boosted (filteredRun s sMaBuf cfg raw0 (before ++ step :: between)) := by
  have adaptive : Adaptive (filteredRun s sMaBuf cfg raw0 before) :=
    after_invariant (hx711Init_adaptive s sMaBuf raw0 kf hq hr hr')
      fun _ raw _ ht => hx711ReadFiltered_adaptive ht raw
  have split : filteredRun s sMaBuf cfg raw0 (before ++ step :: between) =
      after hx711ReadFiltered
        (hx711ReadFiltered (filteredRun s sMaBuf cfg raw0 before) step).1 between := after_append
  rw [split]
  exact after_invariant
    (boosted_of_detects adaptive (filteredRun_windowOf s sMaBuf cfg raw0 before) detects)
    fun _ raw _ ht => hx711ReadFiltered_boosted ht raw

/-- **Step response.** From the first detected step on, the outputs follow every load, however
noisy: while the readings stay within `δ` of `c`, what an output is outside that band shrinks to a
third with every call. -/
theorem step_response (s : Driver) (sMaBuf : Option (List ℚ)) (cfg : Config) (raw0 : Int)
    (before : List Int) (step : Int) (between readings : List Int) (kf : cfg.useKf = true)
    (hq : 1 / 1000 ≤ cfg.qInit) (hr : 0 < cfg.rInit) (hr' : cfg.rInit ≤ 5)
    (detects : (boostStep (filteredRun s sMaBuf cfg raw0 before) step).detects = true)
    {c δ : ℚ} (near : ∀ x ∈ readings, |(x : ℚ) - c| ≤ δ) :
    let left := filteredRun s sMaBuf cfg raw0 (before ++ step :: between)
    ∀ i, ∀ out ∈ (outputs hx711ReadFiltered left readings)[i]?,
      |out - c| ≤ δ + (1 / 3) ^ (i + 1) * excess δ c left.sLastOutput := by
  intro left i out returned
  have boosted := filteredRun_boosted s sMaBuf cfg raw0 before step between kf hq hr hr' detects
  exact abs_sub_le_of_excess (boosted_run_contracts boosted near i out returned)

/-- A step to 2000, and then a load of about 500. -/
theorem step_response_two :
    let left := filteredRun .boot (some (List.replicate 8 0)) ⟨8, true, 1 / 2, 1⟩ 0 [2000, 1900]
    ∀ out ∈ (outputs hx711ReadFiltered left [503, 499])[1]?,
      |out - 500| ≤ 3 + (1 / 3) ^ 2 * excess 3 500 left.sLastOutput :=
  step_response .boot (some (List.replicate 8 0)) ⟨8, true, 1 / 2, 1⟩ 0 [] 2000 [1900] [503, 499]
    rfl (by norm_num) (by norm_num) (by norm_num) (by decide +kernel)
    (by simp only [List.forall_mem_cons]; norm_num [abs_le]) 1

end SmartScale.Hx711
