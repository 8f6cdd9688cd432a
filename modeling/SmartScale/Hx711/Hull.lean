import SmartScale.Hx711.Convergence

/-!
The filter chain never overshoots: whatever mix of filtered and median reads, with
or without the lock, every value handed out lies in the hull of 0 and the raw
readings taken since `hx711_init`.

`WithinHull lo hi` is the one invariant: the window, the estimate and the last
output lie in `[lo, hi]`, and the Kalman filter is `Tuned`. Zero is in the hull
because the estimate starts there and a timed-out read returns it.
-/

namespace SmartScale.Hx711

open SmartScale.Transducer SmartScale.MovingAverage SmartScale.Kalman SmartScale.SlidingWindow
open SmartScale.Binary32

/-- Everything the driver remembers lies in `[lo, hi]`. -/
structure WithinHull (lo hi : ℚ) (s : Driver) : Prop where
  window : WindowOf (· ∈ Set.Icc lo hi) s
  kalman : s.sUseKf = true → Tuned s.sKf ∧ s.sKf.xEst ∈ Set.Icc lo hi
  last : s.sLastOutput ∈ Set.Icc lo hi

/-! ### The pieces -/

theorem getD_of_forall {P : Int → Prop} (zero : P 0) {xs : List Int} (h : ∀ x ∈ xs, P x)
    (i : Nat) : P (xs.getD i 0) := by
  rw [List.getD_eq_getElem?_getD]
  cases hi : xs[i]? with
  | none => exact zero
  | some x => exact h x (List.mem_of_getElem? hi)

/-- The median cascade only moves samples around. -/
theorem medianCascade_forall {P : Int → Prop} (zero : P 0) {samples : List Int}
    (h : ∀ x ∈ samples, P x) : ∀ x ∈ medianCascade samples, P x := by
  unfold medianCascade
  generalize List.range' 2 (samples.length - 2) = indices
  induction indices generalizing samples with
  | nil => exact h
  | cons i indices ih =>
      apply ih
      intro x hx
      rcases List.mem_or_eq_of_mem_set hx with old | rfl
      · exact h x old
      · exact median3_of_forall (getD_of_forall zero h _) (getD_of_forall zero h _)
          (getD_of_forall zero h _)

theorem boostQ_pos {s : Driver} (hq : 0 < s.sKf.q) (w : ℚ) : 0 < boostQ s w := by
  rcases boostQ_cases s w with eq | eq | eq
  · rw [eq]
    norm_num [boostedQ]
  · rw [eq]
    norm_num [normalQ]
  · rw [eq]
    exact hq

/-! ### Initialisation and calls keep the hull -/

section Steps

variable {lo hi : ℚ} {s : Driver}

theorem hx711Init_withinHull (zero : (0 : ℚ) ∈ Set.Icc lo hi) (s : Driver)
    (sMaBuf : Option (List ℚ)) {cfg : Config} {raw0 : Int} (hq : 0 < cfg.qInit)
    (hr : 0 < cfg.rInit) (hraw : (raw0 : ℚ) ∈ Set.Icc lo hi) :
    WithinHull lo hi (hx711Init s sMaBuf cfg raw0) := by
  have tuned := kalmanInitAdaptive_tuned s.sKf hq hr
  have estimate : (kalmanUpdateAdaptive (kalmanInitAdaptive s.sKf cfg.qInit cfg.rInit)
      raw0).1.xEst ∈ Set.Icc lo hi := kalmanUpdateAdaptive_mem_Icc tuned zero hraw
  refine ⟨hx711Init_windowOf s sMaBuf cfg raw0 hraw, ?_, ?_⟩
  · intro kf
    have useKf : cfg.useKf = true := kf
    rw [hx711Init_sKf s sMaBuf raw0 useKf]
    exact ⟨kalmanUpdateAdaptive_tuned tuned raw0, estimate⟩
  · cases useKf : cfg.useKf with
    | true => simpa [hx711Init, useKf] using estimate
    | false =>
        rw [hx711Init_sLastOutput s sMaBuf cfg raw0 useKf]
        exact hraw

/-- A filtered read keeps the hull and returns a value in it. -/
theorem hx711ReadFiltered_withinHull (h : WithinHull lo hi s) {raw : Int}
    (hraw : (raw : ℚ) ∈ Set.Icc lo hi) :
    WithinHull lo hi (hx711ReadFiltered s raw).1 ∧
      (hx711ReadFiltered s raw).2 ∈ Set.Icc lo hi := by
  have averaged : (stepAwareMovingAverage s raw).2 ∈ Set.Icc lo hi :=
    windowStage_mem_Icc h.window _ hraw
  have window : WindowOf (· ∈ Set.Icc lo hi) (hx711ReadFiltered s raw).1 :=
    hx711ReadFiltered_windowOf h.window hraw
  cases kf : s.sUseKf with
  | true =>
      obtain ⟨tuned, estimate⟩ := h.kalman kf
      have forced := tuned.override (boostQ_pos tuned.q_pos (stepAwareMovingAverage s raw).2)
      have next : (hx711ReadFiltered s raw).1.sKf.xEst ∈ Set.Icc lo hi := by
        rw [hx711ReadFiltered_sKf kf]
        exact kalmanUpdateAdaptive_mem_Icc forced estimate averaged
      have output : (hx711ReadFiltered s raw).2 ∈ Set.Icc lo hi := by
        rw [hx711ReadFiltered_output kf]
        exact next
      refine ⟨⟨window, ?_, output⟩, output⟩
      intro _
      refine ⟨?_, next⟩
      rw [hx711ReadFiltered_sKf kf]
      exact kalmanUpdateAdaptive_tuned forced _
  | false =>
      have output : (hx711ReadFiltered s raw).2 = (stepAwareMovingAverage s raw).2 := by
        simp [hx711ReadFiltered, stepAwareKalman, kf]
      have inside : (hx711ReadFiltered s raw).2 ∈ Set.Icc lo hi := output ▸ averaged
      refine ⟨⟨window, ?_, inside⟩, inside⟩
      intro on
      cases kf.symm.trans on

/-- A median read keeps the hull of 0 and the samples it takes, whether or not it
gets the lock. -/
theorem hx711ReadMedianRtos_withinHull (zero : (0 : ℚ) ∈ Set.Icc lo hi) (h : WithinHull lo hi s)
    {lock : Bool} {samples : Nat → Int}
    (hraws : lock = true → ∀ x ∈ medianSamples s samples, (x : ℚ) ∈ Set.Icc lo hi) :
    WithinHull lo hi (hx711ReadMedianRtos s lock samples).1 ∧
      ((hx711ReadMedianRtos s lock samples).2.value : ℚ) ∈ Set.Icc lo hi := by
  cases lock with
  | false => exact ⟨h, by simpa using zero⟩
  | true =>
      have zero' : ((0 : Int) : ℚ) ∈ Set.Icc lo hi := by simpa using zero
      have cascaded := getD_of_forall (P := fun x : Int => (x : ℚ) ∈ Set.Icc lo hi) zero'
        (medianCascade_forall (P := fun x : Int => (x : ℚ) ∈ Set.Icc lo hi) zero' (hraws rfl))
        (nextAdaptiveWindow s - 1)
      have averaged := windowStage_mem_Icc h.window
        (s.stepDetected ((medianCascade (medianSamples s samples)).getD
          (nextAdaptiveWindow s - 1) 0 : Int)) cascaded
      exact ⟨⟨windowStage_windowOf h.window cascaded rfl rfl, h.kalman, averaged⟩,
        truncate_mem_Icc zero averaged⟩

/-- **Step lemma.** A call whose raw readings lie in the hull keeps the hull. -/
theorem callStep_withinHull (zero : (0 : ℚ) ∈ Set.Icc lo hi) {s : Driver} {call : Call}
    (h : WithinHull lo hi s)
    (hraws : ∀ x ∈ (callStep s call).2.raws, (x : ℚ) ∈ Set.Icc lo hi) :
    WithinHull lo hi (callStep s call).1 ∧ (callStep s call).2.returned ∈ Set.Icc lo hi := by
  cases call with
  | filtered raw => exact hx711ReadFiltered_withinHull h (hraws raw List.mem_cons_self)
  | median lock samples =>
      apply hx711ReadMedianRtos_withinHull zero h
      rintro rfl
      exact hraws

end Steps

/-! ### Runs -/

/-- `min(0, …)` over raw readings. -/
def lowest (raws : List Int) : Int := raws.foldr min 0

/-- `max(0, …)` over raw readings. -/
def highest (raws : List Int) : Int := raws.foldr max 0

theorem lowest_le_zero (raws : List Int) : lowest raws ≤ 0 := by
  induction raws with
  | nil => exact Int.le_refl 0
  | cons x xs ih => exact (min_le_right _ _).trans ih

theorem zero_le_highest (raws : List Int) : 0 ≤ highest raws := by
  induction raws with
  | nil => exact Int.le_refl 0
  | cons x xs ih => exact ih.trans (le_max_right _ _)

/-- Every reading lies between the extremes. -/
theorem mem_hull {raws : List Int} : ∀ x ∈ raws, lowest raws ≤ x ∧ x ≤ highest raws := by
  induction raws with
  | nil => simp
  | cons y ys ih =>
      intro x hx
      rcases List.mem_cons.mp hx with rfl | hx
      · exact ⟨min_le_left _ _, le_max_left _ _⟩
      · exact ⟨(min_le_right _ _).trans (ih x hx).1, (ih x hx).2.trans (le_max_right _ _)⟩

/-- Bounds on the readings that hold of 0 too bound the extremes. -/
theorem hull_bounds {raws : List Int} {a b : Int} (ha : a ≤ 0) (hb : 0 ≤ b)
    (h : ∀ x ∈ raws, a ≤ x ∧ x ≤ b) : a ≤ lowest raws ∧ highest raws ≤ b := by
  induction raws with
  | nil => exact ⟨ha, hb⟩
  | cons y ys ih =>
      have head := h y List.mem_cons_self
      have tail := ih fun x hx => h x (List.mem_cons_of_mem _ hx)
      exact ⟨le_min head.1 tail.1, max_le head.2 tail.2⟩

/-- The results of a run of calls after `hx711_init`. -/
def callResults (s : Driver) (sMaBuf : Option (List ℚ)) (cfg : Config) (raw0 : Int)
    (calls : List Call) : List CallResult :=
  outputs callStep (hx711Init s sMaBuf cfg raw0) calls

/-- The raw readings since `hx711_init`, its priming read included. -/
def rawsSinceInit (s : Driver) (sMaBuf : Option (List ℚ)) (cfg : Config) (raw0 : Int)
    (calls : List Call) : List Int :=
  raw0 :: (callResults s sMaBuf cfg raw0 calls).flatMap CallResult.raws

/-- The interval between the extremes of the raw readings. -/
def hull (raws : List Int) : Set ℚ := Set.Icc (lowest raws : ℚ) (highest raws)

theorem zero_mem_hull (raws : List Int) : (0 : ℚ) ∈ hull raws :=
  ⟨by exact_mod_cast lowest_le_zero raws, by exact_mod_cast zero_le_highest raws⟩

theorem cast_mem_hull {raws : List Int} {x : Int} (hx : x ∈ raws) : (x : ℚ) ∈ hull raws := by
  obtain ⟨above, below⟩ := mem_hull x hx
  exact ⟨by exact_mod_cast above, by exact_mod_cast below⟩

/-- The `int32_t` values a 24-bit converter can produce. -/
def Is24Bit (x : Int) : Prop := -2 ^ 23 ≤ x ∧ x ≤ 2 ^ 23 - 1

theorem Is24Bit.cast_mem {x : Int} (h : Is24Bit x) :
    (x : ℚ) ∈ Set.Icc (-2 ^ 23 : ℚ) (2 ^ 23 - 1) :=
  ⟨by exact_mod_cast h.1, by exact_mod_cast h.2⟩

/-- An integer in the hull of 24-bit readings is a 24-bit integer. -/
theorem is24Bit_of_mem_hull {raws : List Int} (h : ∀ x ∈ raws, Is24Bit x) {i : Int}
    (hi : (i : ℚ) ∈ hull raws) : Is24Bit i := by
  obtain ⟨lower, upper⟩ := hull_bounds (by norm_num) (by norm_num) h
  exact ⟨lower.trans (Int.cast_le.mp hi.1), (Int.cast_le.mp hi.2).trans upper⟩

/-- **Run lemma.** The state after a run and the values returned in it stay in the
hull of 0 and the raw readings since `hx711_init`. -/
theorem callRun_withinHull (s : Driver) (sMaBuf : Option (List ℚ)) {cfg : Config} (raw0 : Int)
    (calls : List Call) (hq : 0 < cfg.qInit) (hr : 0 < cfg.rInit) :
    (after callStep (hx711Init s sMaBuf cfg raw0) calls).sLastOutput ∈
        hull (rawsSinceInit s sMaBuf cfg raw0 calls) ∧
      ∀ r ∈ callResults s sMaBuf cfg raw0 calls,
        r.returned ∈ hull (rawsSinceInit s sMaBuf cfg raw0 calls) := by
  have zero := zero_mem_hull (rawsSinceInit s sMaBuf cfg raw0 calls)
  have start := hx711Init_withinHull zero s sMaBuf hq hr (cast_mem_hull List.mem_cons_self)
  have consumed : ∀ r ∈ callResults s sMaBuf cfg raw0 calls, ∀ x ∈ r.raws,
      (x : ℚ) ∈ hull (rawsSinceInit s sMaBuf cfg raw0 calls) := by
    intro r hr x hx
    exact cast_mem_hull (List.mem_cons_of_mem _ (List.mem_flatMap.mpr ⟨r, hr, hx⟩))
  obtain ⟨final, returned⟩ := outputs_guarded
    (P := fun r => r.returned ∈ hull (rawsSinceInit s sMaBuf cfg raw0 calls)) start consumed
    fun _ _ h hraws => callStep_withinHull zero h hraws
  exact ⟨final.last, returned⟩

/-- **No overshoot.** Along every run of filtered and median reads, returned values
and `s_last_output` stay in the hull of 0 and the raw readings since
`hx711_init`; where these are 24-bit, so is every later cast to `int32_t`. -/
theorem filter_chain_within_hull (s : Driver) (sMaBuf : Option (List ℚ)) (cfg : Config)
    (raw0 : Int) (calls : List Call) (hq : 0 < cfg.qInit) (hr : 0 < cfg.rInit) :
    ∀ v, (v = (after callStep (hx711Init s sMaBuf cfg raw0) calls).sLastOutput ∨
        ∃ r ∈ callResults s sMaBuf cfg raw0 calls, v = r.returned) →
      v ∈ hull (rawsSinceInit s sMaBuf cfg raw0 calls) ∧
        ((∀ x ∈ rawsSinceInit s sMaBuf cfg raw0 calls, Is24Bit x) → Is24Bit (truncate v)) := by
  obtain ⟨last, returned⟩ := callRun_withinHull s sMaBuf raw0 calls hq hr
  intro v hv
  have member : v ∈ hull (rawsSinceInit s sMaBuf cfg raw0 calls) := by
    rcases hv with rfl | ⟨r, hr, rfl⟩
    · exact last
    · exact returned r hr
  refine ⟨member, ?_⟩
  intro bits
  exact is24Bit_of_mem_hull bits (truncate_mem_Icc (zero_mem_hull _) member)

/-- A filtered read, a median read that times out and one that does not. -/
theorem filter_chain_within_hull_mixed :
    (after callStep (hx711Init .boot (some (List.replicate 8 0)) ⟨8, true, 1 / 2, 1⟩ 5)
        [.filtered (-40), .median false fun _ => 7, .median true fun i => 100 * i]).sLastOutput ∈
      hull (rawsSinceInit .boot (some (List.replicate 8 0)) ⟨8, true, 1 / 2, 1⟩ 5
        [.filtered (-40), .median false fun _ => 7, .median true fun i => 100 * i]) :=
  (filter_chain_within_hull .boot (some (List.replicate 8 0)) ⟨8, true, 1 / 2, 1⟩ 5
    [.filtered (-40), .median false fun _ => 7, .median true fun i => 100 * i]
    (by norm_num) (by norm_num) _ (.inl rfl)).1

end SmartScale.Hx711
