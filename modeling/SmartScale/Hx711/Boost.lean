import SmartScale.Hx711.Invariant

/-!
The boost phase of `hx711_read_filtered`.

A call that detects a step forces the Kalman `Q` to `BOOSTED_Q` and arms
`s_boost_count`; the counter is meant to run out after `BOOST_SAMPLES` calls, the
branch for `s_boost_count == 1` restoring `NORMAL_Q`. The guard of the step
branch also holds while the counter is positive, so every later call re-arms it
before it is counted down: `boost_forever`. The restoring branch is dead code.
-/

namespace SmartScale.Hx711

open SmartScale.Transducer SmartScale.MovingAverage

/-! ### What one call does -/

/-- The part one call plays in a boost phase. -/
structure BoostStep where
  /-- the raw or the averaged value is a step away from `s_last_output` -/
  detects : Bool
  /-- `s_kf.Q = BOOSTED_Q` is executed -/
  forces : Bool
  /-- `s_kf.Q = NORMAL_Q` is executed -/
  restores : Bool
  /-- `moving_average_reset` is executed -/
  resets : Bool
  /-- `s_boost_count` after the call -/
  count : Int
deriving DecidableEq

/-- The call of `hx711_read_filtered` on `raw`, observed. -/
def boostStep (s : Driver) (raw : Int) : BoostStep :=
  let w := (stepAwareMovingAverage s raw).2
  { detects := s.stepDetected raw || s.stepDetected w
    forces := s.sUseKf && s.boosting w
    restores := s.sUseKf && !s.boosting w && decide (s.sBoostCount = 1)
    resets := decide (0 < s.sMaWindow) && s.boosting raw
    count := (hx711ReadFiltered s raw).1.sBoostCount }

/-- The run of calls on `raws`, observed. -/
def boostTrace (s : Driver) (raws : List Int) : List BoostStep :=
  outputs (fun s raw => ((hx711ReadFiltered s raw).1, boostStep s raw)) s raws

/-- What `boostStep` calls forcing and restoring is what happens to `Q`. -/
theorem boostQ_eq (s : Driver) (raw : Int) (kf : s.sUseKf = true) :
    boostQ s (stepAwareMovingAverage s raw).2 =
      if (boostStep s raw).forces then boostedQ
      else if (boostStep s raw).restores then normalQ
      else s.sKf.q := by
  unfold boostQ boostStep
  cases hb : s.boosting (stepAwareMovingAverage s raw).2 with
  | false => simp [hb, kf]
  | true => simp [hb, kf]

/-! ### The phase as documented -/

/-- The first of `calls` detects a step and no later one does. -/
structure LastDetection (calls : List BoostStep) : Prop where
  first : ∀ c ∈ calls.head?, c.detects = true
  later : ∀ c ∈ calls.tail, c.detects = false

/-- A phase over the calls from a detecting one on: `Q` is forced in the first
`n` of them, and `m ≤ BOOST_SAMPLES` calls close the phase, with the counter at
0 and `Q` restored once; later calls neither force `Q` nor reset the window. -/
structure BoostPhase (calls : List BoostStep) (n m : Nat) : Prop where
  forced_le : n ≤ m
  closes : m ≤ boostSamples
  forced : ∀ i, ∀ c ∈ calls[i]?, c.forces = true ↔ i < n
  counted : m ≤ calls.length → (calls.take m).getLast?.map BoostStep.count = some 0
  restored : m ≤ calls.length → (calls.take m).countP BoostStep.restores = 1
  quiet : ∀ c ∈ calls.drop m, c.forces = false ∧ c.resets = false

/-- The boost phase that starts with the first of `calls` ends. -/
def BoostPhaseEnds (calls : List BoostStep) : Prop := ∃ n m, BoostPhase calls n m

/-! ### The phase as coded -/

section Coded

variable {s : Driver}

theorem boosting_of_count (h : 0 < s.sBoostCount) (w : ℚ) : s.boosting w = true := by
  simp [Driver.boosting, h]

theorem boosting_of_detected {w : ℚ} (h : s.stepDetected w = true) : s.boosting w = true := by
  simp [Driver.boosting, h]

/-- A detecting call takes the step branch of the Kalman stage: where the raw
value is the step, the reset makes the average equal to it. -/
theorem boosting_of_detects (window : WindowOf (fun _ => True) s) {raw : Int}
    (h : (boostStep s raw).detects = true) :
    s.boosting (stepAwareMovingAverage s raw).2 = true := by
  rcases Bool.or_eq_true_iff.mp h with rawStep | avgStep
  · have reset : s.boosting raw = true := boosting_of_detected rawStep
    have same : (stepAwareMovingAverage s raw).2 = raw := by
      rw [stepAwareMovingAverage, reset]
      exact windowStage_reset window raw
    rw [same]
    exact reset
  · exact boosting_of_detected avgStep

/-- The step branch arms the counter and the same call counts it down once. -/
theorem sBoostCount_of_boosting (kf : s.sUseKf = true) {raw : Int}
    (h : s.boosting (stepAwareMovingAverage s raw).2 = true) :
    (hx711ReadFiltered s raw).1.sBoostCount = boostSamples - 1 := by
  simp [hx711ReadFiltered, stepAwareKalman, kf, boostCountdown, h, boostSamples]

/-- A positive counter is re-armed, whatever is read. -/
theorem sBoostCount_rearmed (kf : s.sUseKf = true) (h : 0 < s.sBoostCount) (raw : Int) :
    (hx711ReadFiltered s raw).1.sBoostCount = boostSamples - 1 :=
  sBoostCount_of_boosting kf (boosting_of_count h _)

/-- The counter is left positive by every call that arms it. -/
theorem boostSamples_armed : (0 : Int) < boostSamples - 1 := by
  simp [boostSamples]

/-- **The boost never ends**: once the counter is positive, every call of every
run forces `Q`, restores nothing and leaves the counter positive. -/
theorem boost_forever (kf : s.sUseKf = true) (h : 0 < s.sBoostCount) (raws : List Int) :
    ∀ c ∈ boostTrace s raws,
      c.forces = true ∧ c.restores = false ∧ c.count = boostSamples - 1 := by
  refine outputs_forall (I := fun s => s.sUseKf = true ∧ 0 < s.sBoostCount) ⟨kf, h⟩ ?_ ?_
  · rintro s raw _ ⟨kf, h⟩
    refine ⟨kf, ?_⟩
    rw [sBoostCount_rearmed kf h raw]
    exact boostSamples_armed
  · rintro s raw _ ⟨kf, h⟩
    have taken := boosting_of_count h (stepAwareMovingAverage s raw).2
    exact ⟨by simp [boostStep, kf, taken], by simp [boostStep, taken],
      sBoostCount_rearmed kf h raw⟩

/-- The same from the detecting call on, that call included. -/
theorem boost_from_detection (kf : s.sUseKf = true) (window : WindowOf (fun _ => True) s)
    {raw : Int} (h : (boostStep s raw).detects = true) (raws : List Int) :
    ∀ c ∈ boostTrace s (raw :: raws),
      c.forces = true ∧ c.restores = false ∧ c.count = boostSamples - 1 := by
  have taken := boosting_of_detects window h
  have count := sBoostCount_of_boosting kf taken
  intro c hc
  rcases List.mem_cons.mp hc with rfl | later
  · exact ⟨by simp [boostStep, kf, taken], by simp [boostStep, taken], count⟩
  · have armed : 0 < (hx711ReadFiltered s raw).1.sBoostCount := by
      rw [count]
      exact boostSamples_armed
    exact boost_forever (s := (hx711ReadFiltered s raw).1) kf armed raws c later

end Coded

/-- A list of calls that all force `Q` and keep the counter positive contains no
finished phase: it must stop before the phase is due to close. -/
theorem boostPhaseEnds_iff_of_forever {calls : List BoostStep}
    (h : ∀ c ∈ calls, c.forces = true ∧ c.restores = false ∧ c.count = boostSamples - 1) :
    BoostPhaseEnds calls ↔ calls.length < boostSamples := by
  constructor
  · rintro ⟨n, m, phase⟩
    by_contra long
    have reached : m ≤ calls.length := phase.closes.trans (Nat.le_of_not_lt long)
    have zero := phase.counted reached
    obtain ⟨last, hlast, count⟩ := Option.map_eq_some_iff.mp zero
    have member : last ∈ calls := List.take_subset _ _ (List.mem_of_getLast? hlast)
    have positive := (h last member).2.2
    rw [count] at positive
    exact absurd boostSamples_armed (positive ▸ Int.lt_irrefl 0)
  · intro short
    refine ⟨boostSamples, boostSamples, Nat.le_refl _, Nat.le_refl _, ?_, ?_, ?_, ?_⟩
    · intro i c hc
      obtain ⟨inside, rfl⟩ := List.getElem?_eq_some_iff.mp hc
      exact iff_of_true (h _ (List.getElem_mem inside)).1 (inside.trans short)
    · intro reached
      exact absurd reached (Nat.not_le_of_lt short)
    · intro reached
      exact absurd reached (Nat.not_le_of_lt short)
    · rw [List.drop_of_length_le short.le]
      intro c hc
      cases hc

/-- **When the boost phase is as documented.** After any run of filtered reads, a
call that detects a step, with none detected later, starts a phase as documented
exactly when the run stops before `BOOST_SAMPLES` calls were made, counting the
detecting one. -/
theorem boost_phase_ends_iff (s : Driver) (sMaBuf : Option (List ℚ)) (cfg : Config)
    (raw0 : Int) (before : List Int) (raw : Int) (later : List Int) (kf : cfg.useKf = true)
    (last : LastDetection
      (boostTrace (filteredRun s sMaBuf cfg raw0 before) (raw :: later))) :
    BoostPhaseEnds (boostTrace (filteredRun s sMaBuf cfg raw0 before) (raw :: later)) ↔
      (raw :: later).length < boostSamples := by
  have window := filteredRun_windowOf s sMaBuf cfg raw0 before
  have useKf := (filteredRun_sUseKf s sMaBuf cfg raw0 before).trans kf
  have detected := last.first _ rfl
  rw [boostPhaseEnds_iff_of_forever (boost_from_detection useKf window detected later)]
  simp [boostTrace]

/-- An 8-sample window primed with 0, then six readings of 2000. -/
def stepTrace : List BoostStep :=
  boostTrace
    (filteredRun .boot (some (List.replicate 8 0))
      { maWindow := 8, useKf := true, qInit := 1 / 2, rInit := 1 } 0 [])
    [2000, 2000, 2000, 2000, 2000, 2000]

theorem stepTrace_lastDetection : LastDetection stepTrace where
  first := by decide +kernel
  later := by decide +kernel

theorem boost_phase_ends_iff_step :
    LastDetection stepTrace ∧ (BoostPhaseEnds stepTrace ↔ 6 < boostSamples) :=
  ⟨stepTrace_lastDetection,
    boost_phase_ends_iff .boot (some (List.replicate 8 0))
      { maWindow := 8, useKf := true, qInit := 1 / 2, rInit := 1 } 0 [] 2000
      [2000, 2000, 2000, 2000, 2000] rfl stepTrace_lastDetection⟩

/-- The phase that starts with the first of six readings of 2000 does not end:
the sixth call still forces `Q`. -/
theorem boost_phase_overruns :
    ¬ ∀ (s : Driver) (sMaBuf : Option (List ℚ)) (cfg : Config) (raw0 : Int) (before : List Int)
      (raw : Int) (later : List Int), cfg.useKf = true → 0 < cfg.qInit → 0 < cfg.rInit →
      LastDetection (boostTrace (filteredRun s sMaBuf cfg raw0 before) (raw :: later)) →
      BoostPhaseEnds (boostTrace (filteredRun s sMaBuf cfg raw0 before) (raw :: later)) := by
  intro claimed
  have ends : BoostPhaseEnds stepTrace := claimed .boot (some (List.replicate 8 0))
    { maWindow := 8, useKf := true, qInit := 1 / 2, rInit := 1 } 0 [] 2000
    [2000, 2000, 2000, 2000, 2000] rfl (by norm_num) (by norm_num) stepTrace_lastDetection
  have forever : ∀ c ∈ stepTrace,
      c.forces = true ∧ c.restores = false ∧ c.count = boostSamples - 1 := by
    decide +kernel
  exact absurd ((boostPhaseEnds_iff_of_forever forever).mp ends) (by decide +kernel)

end SmartScale.Hx711
