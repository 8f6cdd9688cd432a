import SmartScale.Calibration.SinglePoint
import SmartScale.Hx711.NoisySettling
import SmartScale.WeightManager.Scale

/-!
A load kept on the scale: while the readings stay near a value whose weights all ask for one
event, the filter settles, the queue drains of older values and the weight manager debounces.

* `steady_load_settles`: it then is in the state after that event, however the time-outs,
  requests and lost readings fall.
* `calibrated_load_settles`: the two loads that `app_main` calibrates with lead to `NO_WEIGHT`
  and `MEASURING`.
-/

namespace SmartScale.WeightManager

open SmartScale.Calibration SmartScale.Transducer SmartScale.Binary32 SmartScale.Hx711
open SmartScale.Calibration.SinglePoint

/-! ### The weight manager -/

/-- The calibrated weight of a filtered value. -/
def weightOf (cal : CalibrationT) (rawCount : ℚ) : Value :=
  .finite (calibrationConvert cal (truncate rawCount))

theorem after_processReading (cal : CalibrationT) (s : Wm) (counts : List ℚ) :
    after (processReading cal) s counts = after observe s (counts.map (weightOf cal)) := by
  induction counts generalizing s with
  | nil => rfl
  | cons count counts ih => exact ih _

/-- No weight asks for both events. -/
theorem asksFor_nextEvent {event : WeightEvent} {weight : Value}
    (h : asksFor event weight = true) : asksFor (nextEvent event) weight = false := by
  cases weight with
  | nan => cases event <;> rfl
  | infinite negative => cases event <;> cases negative <;> first | rfl | cases h
  | finite w =>
      rw [Bool.eq_false_iff]
      intro both
      cases event with
      | weightAdded => linarith [weightAdded_asks.mp h, weightRemoved_asks.mp both]
      | weightRemoved => linarith [weightRemoved_asks.mp h, weightAdded_asks.mp both]

theorem levelBefore_injective {a b : WeightEvent} (same : levelBefore a = levelBefore b) :
    a = b := by
  cases a <;> cases b <;> first | rfl | cases same

/-- What the debouncer remembers of a run is shorter than what ends one. -/
theorem Simulates.trailing_lt {s : Wm} {d : Debounce.State Value} (h : Simulates s d) :
    Debounce.trailing (d.level.asks wakes sleeps) d.since < wmDebounceCount + 1 := by
  cases h with
  | @stable event since fresh =>
      rw [asks_levelBefore, fresh]
      exact Nat.succ_pos _
  | @counting event count since below streak =>
      rw [asks_levelBefore, streak]
      omega

/-- Once nothing asks to leave the level, the state is the stable one of that level. -/
theorem Simulates.stable_of_trailing {s : Wm} {d : Debounce.State Value} (h : Simulates s d)
    {event : WeightEvent} (level : d.level = levelBefore event)
    (calm : Debounce.trailing (asksFor event) d.since = 0) : s = ⟨awaits event, 0⟩ := by
  cases h with
  | stable _ => rw [levelBefore_injective level]
  | counting _ streak =>
      rw [levelBefore_injective level] at streak
      exact absurd (streak.symm.trans calm) (Nat.succ_ne_zero _)

/-- **Settling of the weight manager.** -/
theorem Simulates.settles {s : Wm} {d : Debounce.State Value} (h : Simulates s d)
    {event : WeightEvent} {weights : List Value} (long : wmDebounceCount + 1 ≤ weights.length)
    (asks : ∀ w ∈ weights, asksFor event w = true) :
    after observe s weights = ⟨awaits (nextEvent event), 0⟩ := by
  have final := (simulation simulates_step h weights).1
  obtain ⟨level, calm⟩ := Debounce.after_run_leaves (levelBefore event)
    (Nat.succ_pos wmDebounceCount) h.trailing_lt long fun w hw => by
      rw [← levelBefore_next, asks_levelBefore, asks_levelBefore]
      exact ⟨asks w hw, asksFor_nextEvent (asks w hw)⟩
  rw [← levelBefore_next] at level calm
  rw [asks_levelBefore] at calm
  exact final.stable_of_trailing level calm

/-! ### The whole scale -/

/-- Readings processed that are enough to settle: those left in the queue, those the filter
settles in, and those the state machine counts. -/
def settleReadings (maWindow : Int) : Nat :=
  8 + noisySettleCalls maWindow 1 + (wmDebounceCount + 1)

/-- What holds of `xs` from its `k`-th entry on holds of what a queue lets through of it, from
the `capacity + k`-th on. -/
theorem drop_forall_of_sublist {P : ℚ → Prop} {items xs ys : List ℚ} {capacity k : Nat}
    (sub : ys.Sublist (items ++ xs)) (short : items.length ≤ capacity)
    (h : ∀ x ∈ xs.drop k, P x) : ∀ y ∈ ys.drop (capacity + k), P y := by
  intro y hy
  have mem := (sub.drop (capacity + k)).subset hy
  rw [List.drop_append, List.drop_eq_nil_of_le (by omega), List.nil_append] at mem
  refine h y (List.mem_of_mem_drop (i := capacity - items.length) ?_)
  rwa [List.drop_drop, show k + (capacity - items.length) = capacity + k - items.length by omega]

section Liveness

variable {cal : CalibrationT} {s : Scale} {turns : List Turn} {c δ : ℚ} {event : WeightEvent}

theorem wm_after (cal : CalibrationT) (s : Scale) (turns : List Turn) :
    (after (scaleTurn cal) s turns).2.wm =
      after (processReading cal) s.2.wm (processedIn cal s turns) := by
  obtain ⟨final, emitted⟩ := scale_run cal s turns
  rw [final, processedIn, emitted]
  exact wm_run cal _ s.2

/-- What every run from `app_main` keeps. -/
structure Running (s : Scale) : Prop where
  adaptive : Adaptive s.1
  within : WithinHull (-2 ^ 23) (2 ^ 23 - 1) s.1
  debounces : ∃ d, Simulates s.2.wm d

/-- Once all filtered values but the first `k` are near `c`, the scale settles after those left in
the queue, these `k` and those the state machine counts. -/
theorem Running.settles_of_filtered (h : Running s) {k : Nat}
    (filtered : ∀ out ∈ (outputs hx711ReadFiltered s.1 (readings turns)).drop k,
      |out - c| ≤ δ + 1)
    (asks : ∀ x : Int, |(x : ℚ) - c| ≤ δ + 2 →
      asksFor event (.finite (calibrationConvert cal x)) = true)
    (long : 8 + k + (wmDebounceCount + 1) ≤ (processedIn cal s turns).length) :
    (after (scaleTurn cal) s turns).2.wm = ⟨awaits (nextEvent event), 0⟩ := by
  obtain ⟨d, sim⟩ := h.debounces
  have late : ∀ count ∈ (processedIn cal s turns).drop (8 + k),
      asksFor event (weightOf cal count) = true := by
    intro count mem
    have close : |count - c| ≤ δ + 1 := drop_forall_of_sublist (processedIn_sublist cal s turns)
      s.2.hx711Q.bounded filtered count mem
    have cut := abs_truncate_sub_lt count
    refine asks (truncate count) ?_
    calc |(truncate count : ℚ) - c| ≤ |(truncate count : ℚ) - count| + |count - c| :=
          abs_sub_le _ _ _
      _ ≤ δ + 2 := by linarith
  have before := (simulation simulates_step sim
    (((processedIn cal s turns).take (8 + k)).map (weightOf cal))).1
  rw [wm_after, ← List.take_append_drop (8 + k) (processedIn cal s turns), after_append,
    after_processReading, after_processReading]
  refine before.settles ?_ (List.forall_mem_map.mpr late)
  rw [List.length_map, List.length_drop]
  omega

/-- **Settling of the scale** from any such state. -/
theorem Running.settles (h : Running s) (hδ : 0 ≤ δ) (hc : c ∈ Set.Icc (-2 ^ 23 : ℚ) (2 ^ 23))
    (bits : ∀ x ∈ readings turns, Is24Bit x) (near : ∀ x ∈ readings turns, |(x : ℚ) - c| ≤ δ)
    (asks : ∀ x : Int, |(x : ℚ) - c| ≤ δ + 2 →
      asksFor event (.finite (calibrationConvert cal x)) = true)
    (long : settleReadings s.1.sMaWindow ≤ (processedIn cal s turns).length) :
    (after (scaleTurn cal) s turns).2.wm = ⟨awaits (nextEvent event), 0⟩ := by
  refine h.settles_of_filtered ?_ asks long
  intro out mem
  obtain ⟨i, hi⟩ := List.mem_iff_getElem?.mp mem
  rw [List.getElem?_drop] at hi
  exact outputs_settle h.adaptive h.within near (fun x hx => (bits x hx).cast_mem) hc hδ one_pos
    (_ + i) (Nat.le_add_right _ i) out hi

end Liveness

section Start

variable (s : Driver) (sMaBuf : Option (List ℚ)) (cfg : Config) (raw0 : Int) (cal : CalibrationT)
  (history : List Turn)

/-- The scale after a run from its start. -/
def loaded : Scale :=
  after (scaleTurn cal) (.start (hx711Init s sMaBuf cfg raw0)) history

/-- The driver goes through the readings of the history. -/
theorem loaded_driver : (loaded s sMaBuf cfg raw0 cal history).1 =
    filteredRun s sMaBuf cfg raw0 (readings history) :=
  congrArg Prod.fst (scale_run cal _ history).1

theorem loaded_running (kf : cfg.useKf = true) (hq : 1 / 1000 ≤ cfg.qInit) (hr : 0 < cfg.rInit)
    (hr' : cfg.rInit ≤ 5) (bits : ∀ x ∈ raw0 :: readings history, Is24Bit x) :
    Running (loaded s sMaBuf cfg raw0 cal history) := by
  refine ⟨?_, ?_, ?_⟩
  · rw [loaded_driver]
    exact after_invariant (hx711Init_adaptive s sMaBuf raw0 kf hq hr hr')
      fun _ raw _ ht => hx711ReadFiltered_adaptive ht raw
  · rw [loaded_driver]
    refine after_withinHull (hx711Init_withinHull ⟨by norm_num, by norm_num⟩ s sMaBuf
      (by linarith) hr (bits raw0 List.mem_cons_self).cast_mem) ?_
    exact fun x hx => (bits x (List.mem_cons_of_mem raw0 hx)).cast_mem
  · rw [loaded, wm_after, after_processReading]
    exact ⟨_, simulates_run _⟩

/-- **A steady load.** After any history, while the readings stay within `δ` of `c` and the
weights up to 2 counts further all ask for an event, the weight manager has had that event and
awaits the next one once it has processed `settleReadings` of them. -/
theorem steady_load_settles (turns : List Turn) (event : WeightEvent) {c δ : ℚ}
    (kf : cfg.useKf = true) (hq : 1 / 1000 ≤ cfg.qInit) (hr : 0 < cfg.rInit) (hr' : cfg.rInit ≤ 5)
    (bits : ∀ x ∈ raw0 :: readings history ++ readings turns, Is24Bit x) (hδ : 0 ≤ δ)
    (hc : c ∈ Set.Icc (-2 ^ 23 : ℚ) (2 ^ 23)) (near : ∀ x ∈ readings turns, |(x : ℚ) - c| ≤ δ)
    (asks : ∀ x : Int, |(x : ℚ) - c| ≤ δ + 2 →
      asksFor event (.finite (calibrationConvert cal x)) = true)
    (long : settleReadings (loaded s sMaBuf cfg raw0 cal history).1.sMaWindow ≤
      (processedIn cal (loaded s sMaBuf cfg raw0 cal history) turns).length) :
    (after (scaleTurn cal) (loaded s sMaBuf cfg raw0 cal history) turns).2.wm =
      ⟨awaits (nextEvent event), 0⟩ :=
  have running := loaded_running s sMaBuf cfg raw0 cal history kf hq hr hr'
    fun x hx => bits x (List.mem_append_left _ hx)
  running.settles hδ hc (fun x hx => bits x (List.mem_append_right _ hx)) near asks long

/-- A load of 500 g, with a weight manager that keeps up. -/
theorem steady_load_settles_500 :
    let loaded := loaded .boot (some (List.replicate 8 0)) ⟨8, true, 1 / 2, 1⟩ 0 ⟨1, 0⟩
      [.hx711RtosTask true 3, .weightGetHandler]
    (after (scaleTurn ⟨1, 0⟩) loaded (lockstep (List.replicate (settleReadings 8) 500))).2.wm =
      ⟨.measuring, 0⟩ := by
  have constant : ∀ x ∈ readings (lockstep (List.replicate (settleReadings 8) 500)), x = 500 := by
    rw [readings_lockstep]
    exact fun x hx => List.eq_of_mem_replicate hx
  refine steady_load_settles .boot (some (List.replicate 8 0)) ⟨8, true, 1 / 2, 1⟩ 0 ⟨1, 0⟩
    [.hx711RtosTask true 3, .weightGetHandler] (lockstep (List.replicate (settleReadings 8) 500))
    .weightAdded rfl (by norm_num) (by norm_num) (by norm_num) ?_ (le_refl (0 : ℚ))
    (by norm_num : (500 : ℚ) ∈ Set.Icc (-2 ^ 23 : ℚ) (2 ^ 23)) ?_ ?_ ?_
  · refine List.forall_mem_append.mpr ⟨by unfold Is24Bit; decide, fun x hx => ?_⟩
    rw [constant x hx]
    simp [Is24Bit]
  · intro x hx
    rw [constant x hx]
    norm_num
  · intro x near
    rw [weightAdded_asks, calibrationConvert]
    linarith [(abs_le.mp near).1]
  · rw [processedIn_lockstep _ (by rfl), length_outputs, List.length_replicate]
    exact le_rfl

end Start

/-! ### The loads of the calibration -/

/-- The reading with which `app_main` calibrates for the load that brings an event: the known
weight, or nothing. -/
def calibrationReading (rawBuf : Vector Int32 calSamples) (rawAtWeight : Int32) :
    WeightEvent → Int
  | .weightAdded => rawAtWeight.toInt
  | .weightRemoved => (appMainZeroRaw rawBuf).toInt

section Calibrated

variable {rawBuf : Vector Int32 calSamples} {rawAtWeight : Int32} {cal : CalibrationT}

/-- The tare of 24-bit samples is one. -/
theorem appMainZeroRaw_is24Bit (bits : ∀ x ∈ rawBuf.toList, Is24Bit x.toInt) :
    Is24Bit (appMainZeroRaw rawBuf).toInt := by
  have length : rawBuf.toList.length = calSamples := rawBuf.length_toList
  have nonempty : rawBuf.toList ≠ [] := by
    intro empty
    rw [empty] at length
    cases length
  obtain ⟨result, returned, -, value⟩ := calibrationTare_eq 0 nonempty (by rw [length]; decide)
  rw [appMainZeroRaw, returned, Option.getD_some, value]
  have pos : 0 < rawBuf.toList.length := by rw [length]; decide
  exact ⟨le_tdiv pos (le_exactSum fun x hx => (bits x hx).1),
    tdiv_le pos (exactSum_le fun x hx => (bits x hx).2)⟩

/-- The model that `app_main` hands over is the line through its two readings. -/
theorem appMainCalib_convert (weight24 : Is24Bit rawAtWeight.toInt)
    (zero24 : Is24Bit (appMainZeroRaw rawBuf).toInt)
    (calibrated : (appMainCalib rawBuf rawAtWeight).model = some cal) (x : Int) :
    calibrationConvert cal x = 200 * ((x : ℚ) - (appMainZeroRaw rawBuf).toInt) /
      ((rawAtWeight.toInt : ℚ) - (appMainZeroRaw rawBuf).toInt) := by
  have apart : rawAtWeight ≠ appMainZeroRaw rawBuf :=
    (appMain_model_isSome_iff rawBuf rawAtWeight).mp (by rw [calibrated]; rfl)
  have weighted : calKnownWeightG ≠ 0 := by norm_num [calKnownWeightG]
  have stored := calibrationCompute_apart ⟨some 0, some 0⟩ weighted apart
  rw [appMainCalib, stored, Option.getD_some, Stored.model, sub_toInt weight24 zero24] at calibrated
  obtain rfl := Option.some.inj calibrated
  rw [calibrationConvert, calKnownWeightG, Int.cast_sub]
  ring

/-- Within `d` counts of either calibration reading a weight is within 10 g of that load. -/
theorem asksFor_calibrationReading {event : WeightEvent} {x : Int} {d : ℚ}
    (convert : calibrationConvert cal x = 200 * ((x : ℚ) - (appMainZeroRaw rawBuf).toInt) /
      ((rawAtWeight.toInt : ℚ) - (appMainZeroRaw rawBuf).toInt))
    (near : |(x : ℚ) - calibrationReading rawBuf rawAtWeight event| ≤ d)
    (positive : 0 < d)
    (sensitive : 20 * d ≤ |(rawAtWeight.toInt : ℚ) - (appMainZeroRaw rawBuf).toInt|) :
    asksFor event (.finite (calibrationConvert cal x)) = true := by
  have span : 0 < |(rawAtWeight.toInt : ℚ) - (appMainZeroRaw rawBuf).toInt| := by linarith
  have scaled (y : ℚ) (small : |y| ≤ d) :
      |200 * y / ((rawAtWeight.toInt : ℚ) - (appMainZeroRaw rawBuf).toInt)| ≤ 10 := by
    rw [abs_div, div_le_iff₀ span, abs_mul, abs_of_pos (by norm_num)]
    linarith
  rw [convert]
  cases event with
  | weightRemoved =>
      exact weightRemoved_asks.mpr (abs_le.mp (scaled _ near)).2
  | weightAdded =>
      have nonzero : (rawAtWeight.toInt : ℚ) - (appMainZeroRaw rawBuf).toInt ≠ 0 :=
        abs_pos.mp span
      have offset : 200 * ((x : ℚ) - (appMainZeroRaw rawBuf).toInt) /
          ((rawAtWeight.toInt : ℚ) - (appMainZeroRaw rawBuf).toInt) =
          200 + 200 * ((x : ℚ) - rawAtWeight.toInt) /
            ((rawAtWeight.toInt : ℚ) - (appMainZeroRaw rawBuf).toInt) := by
        field_simp
        ring
      have loaded : |(x : ℚ) - rawAtWeight.toInt| ≤ d := near
      have within := (abs_le.mp (scaled _ loaded)).1
      rw [weightAdded_asks, offset]
      linarith

/-- **The calibration loads.** With the scale loaded as in one of the two calibration readings of
`app_main`, up to a noise `δ` that 20 times is below their difference, the weight manager ends up
in the state of that load: `MEASURING` for the known weight, `NO_WEIGHT` for the empty scale. -/
theorem calibrated_load_settles (s : Driver) (sMaBuf : Option (List ℚ)) (cfg : Config)
    (raw0 : Int) (rawBuf : Vector Int32 calSamples) (rawAtWeight : Int32) (cal : CalibrationT)
    (history turns : List Turn) (event : WeightEvent) {δ : ℚ}
    (kf : cfg.useKf = true) (hq : 1 / 1000 ≤ cfg.qInit) (hr : 0 < cfg.rInit) (hr' : cfg.rInit ≤ 5)
    (calBits : ∀ x ∈ rawAtWeight :: rawBuf.toList, Is24Bit x.toInt)
    (calibrated : (appMainCalib rawBuf rawAtWeight).model = some cal)
    (bits : ∀ x ∈ raw0 :: readings history ++ readings turns, Is24Bit x) (hδ : 0 ≤ δ)
    (sensitive : 20 * (δ + 2) ≤ |(rawAtWeight.toInt : ℚ) - (appMainZeroRaw rawBuf).toInt|)
    (near : ∀ x ∈ readings turns, |(x : ℚ) - calibrationReading rawBuf rawAtWeight event| ≤ δ)
    (long : settleReadings (loaded s sMaBuf cfg raw0 cal history).1.sMaWindow ≤
      (processedIn cal (loaded s sMaBuf cfg raw0 cal history) turns).length) :
    (after (scaleTurn cal) (loaded s sMaBuf cfg raw0 cal history) turns).2.wm =
      ⟨awaits (nextEvent event), 0⟩ := by
  have weight24 := calBits rawAtWeight List.mem_cons_self
  have zero24 := appMainZeroRaw_is24Bit fun x hx => calBits x (List.mem_cons_of_mem _ hx)
  have running := loaded_running s sMaBuf cfg raw0 cal history kf hq hr hr'
    fun x hx => bits x (List.mem_append_left _ hx)
  have reading24 : Is24Bit (calibrationReading rawBuf rawAtWeight event) := by
    cases event with
    | weightAdded => exact weight24
    | weightRemoved => exact zero24
  obtain ⟨lower, upper⟩ := reading24.cast_mem
  refine running.settles hδ ⟨lower, upper.trans (by norm_num)⟩
    (fun x hx => bits x (List.mem_append_right _ hx)) near ?_ long
  intro x close
  exact asksFor_calibrationReading (appMainCalib_convert weight24 zero24 calibrated x) close
    (by linarith) sensitive

/-- A tare of 100 and a reading of 4100 with the known weight, which is left on the scale. -/
theorem calibrated_load_settles_4100 :
    let cal : CalibrationT := ⟨1 / 20, -(1 / 20) * 100⟩
    let loaded := loaded .boot (some (List.replicate 8 0)) ⟨8, true, 1 / 2, 1⟩ 100 cal []
    (after (scaleTurn cal) loaded (lockstep (List.replicate (settleReadings 8) 4100))).2.wm =
      ⟨.measuring, 0⟩ := by
  intro cal
  have tare : appMainZeroRaw (.replicate calSamples 100) = 100 := by decide
  have zero : (100 : Int32).toInt = 100 := rfl
  have weight : (4100 : Int32).toInt = 4100 := rfl
  have constant : ∀ x ∈ readings (lockstep (List.replicate (settleReadings 8) 4100)), x = 4100 := by
    rw [readings_lockstep]
    exact fun x hx => List.eq_of_mem_replicate hx
  refine calibrated_load_settles .boot (some (List.replicate 8 0)) ⟨8, true, 1 / 2, 1⟩ 100
    (.replicate calSamples 100) 4100 cal [] (lockstep (List.replicate (settleReadings 8) 4100))
    .weightAdded rfl (by norm_num) (by norm_num) (by norm_num) ?_ ?_ ?_ (le_refl (0 : ℚ)) ?_ ?_ ?_
  · refine List.forall_mem_cons.mpr ⟨by rw [weight]; simp [Is24Bit], fun x hx => ?_⟩
    rw [Vector.toList_replicate] at hx
    rw [List.eq_of_mem_replicate hx, zero]
    simp [Is24Bit]
  · have difference : ((4100 : Int32) - 100).toInt = 4000 := rfl
    have weighted : calKnownWeightG ≠ 0 := by norm_num [calKnownWeightG]
    have apart : (4100 : Int32) ≠ 100 := by decide
    have stored := calibrationCompute_apart ⟨some 0, some 0⟩ weighted apart
    rw [difference, zero] at stored
    rw [appMainCalib, tare, stored]
    norm_num [Stored.model, calKnownWeightG, cal]
  · refine List.forall_mem_append.mpr ⟨by unfold Is24Bit; decide, fun x hx => ?_⟩
    rw [constant x hx]
    simp [Is24Bit]
  · rw [tare, zero, weight]
    norm_num
  · intro x hx
    rw [constant x hx, calibrationReading, weight]
    norm_num
  · rw [processedIn_lockstep _ (by rfl), length_outputs, List.length_replicate]
    exact le_rfl

end Calibrated

end SmartScale.WeightManager
