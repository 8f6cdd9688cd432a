import SmartScale.Hx711.StepResponse
import SmartScale.WeightManager.SteadyLoad

/-!
A load kept on the scale after a step was detected at any time before.

The boost never ends, so that the filter is in the band of a load after `boostedCalls` readings,
where it takes tens of thousands without a boost (`settleReadings`): `step_load_settles` is
`steady_load_settles` with these few.
-/

namespace SmartScale.WeightManager

open SmartScale.Calibration SmartScale.Transducer SmartScale.Hx711 SmartScale.Gain

/-- Calls in the boost that bring an estimate from anywhere in the range of the converter to
within 1 of a load. -/
def boostedCalls : Nat := 15

/-- Readings processed that are enough to settle in the boost. -/
def boostedReadings : Nat := 8 + boostedCalls + (wmDebounceCount + 1)

section Boost

variable {cal : CalibrationT} {s : Scale} {turns : List Turn} {c δ : ℚ}

/-- The filter in the boost, from anywhere in the range of the converter. -/
theorem boosted_outputs (boosted : Boosted s.1) (within : WithinHull (-2 ^ 23) (2 ^ 23 - 1) s.1)
    (hδ : 0 ≤ δ) (hc : c ∈ Set.Icc (-2 ^ 23 : ℚ) (2 ^ 23))
    (near : ∀ x ∈ readings turns, |(x : ℚ) - c| ≤ δ) :
    ∀ out ∈ (outputs hx711ReadFiltered s.1 (readings turns)).drop boostedCalls,
      |out - c| ≤ δ + 1 := by
  intro out mem
  obtain ⟨i, hi⟩ := List.mem_iff_getElem?.mp mem
  rw [List.getElem?_drop] at hi
  have contracted := boosted_run_contracts boosted near (boostedCalls + i) out hi
  have start : excess δ c s.1.sLastOutput ≤ 2 ^ 24 := by
    rw [boosted.tracked]
    exact excess_le_of_withinHull boosted.adaptive.kf within hc hδ
  refine abs_sub_le_of_excess (contracted.trans ?_)
  calc (1 / 3 : ℚ) ^ (boostedCalls + i + 1) * excess δ c s.1.sLastOutput
      ≤ (1 / 3) ^ (boostedCalls + 1) * 2 ^ 24 := by
        refine mul_le_mul ?_ start excess_nonneg (by positivity)
        exact pow_le_pow_of_le_one (by norm_num) (by norm_num) (by omega)
    _ ≤ 1 := by norm_num [boostedCalls]

end Boost

section Start

variable (s : Driver) (sMaBuf : Option (List ℚ)) (cfg : Config) (raw0 : Int) (cal : CalibrationT)
  (before between : List Turn)

theorem loaded_boosted {step : Int} (kf : cfg.useKf = true) (hq : 1 / 1000 ≤ cfg.qInit)
    (hr : 0 < cfg.rInit) (hr' : cfg.rInit ≤ 5)
    (detects : (boostStep (loaded s sMaBuf cfg raw0 cal before).1 step).detects = true) :
    Boosted (loaded s sMaBuf cfg raw0 cal (before ++ .hx711RtosTask true step :: between)).1 := by
  have split : readings (before ++ .hx711RtosTask true step :: between) =
      readings before ++ step :: readings between := List.filterMap_append
  rw [loaded_driver] at detects ⊢
  rw [split]
  exact filteredRun_boosted s sMaBuf cfg raw0 _ step _ kf hq hr hr' detects

/-- **A load after a step.** Once a step was detected, at any time before, a load is recognised as
soon as the weight manager has processed `boostedReadings`: while the readings stay within `δ` of
`c` and the weights up to 2 counts further all ask for an event, it has had that event by then and
awaits the next one. -/
theorem step_load_settles (step : Int) (turns : List Turn) (event : WeightEvent) {c δ : ℚ}
    (kf : cfg.useKf = true) (hq : 1 / 1000 ≤ cfg.qInit) (hr : 0 < cfg.rInit) (hr' : cfg.rInit ≤ 5)
    (bits : ∀ x ∈ raw0 :: readings (before ++ .hx711RtosTask true step :: between), Is24Bit x)
    (detects : (boostStep (loaded s sMaBuf cfg raw0 cal before).1 step).detects = true)
    (hδ : 0 ≤ δ) (hc : c ∈ Set.Icc (-2 ^ 23 : ℚ) (2 ^ 23))
    (near : ∀ x ∈ readings turns, |(x : ℚ) - c| ≤ δ)
    (asks : ∀ x : Int, |(x : ℚ) - c| ≤ δ + 2 →
      asksFor event (.finite (calibrationConvert cal x)) = true)
    (long : boostedReadings ≤ (processedIn cal
      (loaded s sMaBuf cfg raw0 cal (before ++ .hx711RtosTask true step :: between))
      turns).length) :
    (after (scaleTurn cal)
      (loaded s sMaBuf cfg raw0 cal (before ++ .hx711RtosTask true step :: between))
      turns).2.wm = ⟨awaits (nextEvent event), 0⟩ := by
  have running := loaded_running s sMaBuf cfg raw0 cal _ kf hq hr hr' bits
  have boosted := loaded_boosted s sMaBuf cfg raw0 cal before between kf hq hr hr' detects
  exact running.settles_of_filtered (boosted_outputs boosted running.within hδ hc near) asks long

/-- A step to 2000, which is served, and then a load of 500 g. -/
theorem step_load_settles_500 :
    let loaded := loaded .boot (some (List.replicate 8 0)) ⟨8, true, 1 / 2, 1⟩ 0 ⟨1, 0⟩
      [.hx711RtosTask true 2000, .weightGetHandler]
    (after (scaleTurn ⟨1, 0⟩) loaded (lockstep (List.replicate boostedReadings 500))).2.wm =
      ⟨.measuring, 0⟩ := by
  have constant : ∀ x ∈ readings (lockstep (List.replicate boostedReadings 500)), x = 500 := by
    rw [readings_lockstep]
    exact fun x hx => List.eq_of_mem_replicate hx
  have settles := step_load_settles .boot (some (List.replicate 8 0)) ⟨8, true, 1 / 2, 1⟩ 0
    ⟨1, 0⟩ [] [.weightGetHandler] 2000 (lockstep (List.replicate boostedReadings 500))
    .weightAdded rfl (by norm_num) (by norm_num) (by norm_num) (by unfold Is24Bit; decide)
    (by decide +kernel) (le_refl (0 : ℚ))
    (by norm_num : (500 : ℚ) ∈ Set.Icc (-2 ^ 23 : ℚ) (2 ^ 23))
  rw [List.nil_append] at settles
  refine settles ?_ ?_ ?_
  · intro x hx
    rw [constant x hx]
    norm_num
  · intro x near
    rw [weightAdded_asks, calibrationConvert]
    linarith [(abs_le.mp near).1]
  · rw [processedIn_lockstep _ (by rfl), length_outputs, List.length_replicate]

end Start

end SmartScale.WeightManager
