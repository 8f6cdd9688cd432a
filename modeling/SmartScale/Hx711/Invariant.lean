import SmartScale.Hx711.Driver

/-!
The invariants of the driver state over runs of calls.

* `WindowOf P s`: where the driver has a window, it represents some list of
  pushes that all satisfy `P`.
* `windowStage_spec` is the spec lemma of the moving-average stage: what it
  pushes, and that it returns the mean of the recent pushes.
* `hx711Init_windowOf` and `windowStage_windowOf` keep `WindowOf`.

Each run theorem of the other modules combines these with its own condition on
the Kalman stage.
-/

namespace SmartScale.Hx711

open SmartScale.MovingAverage SmartScale.Kalman SmartScale.SlidingWindow

/-- Where there is a window, it represents pushes that satisfy `P`. -/
def WindowOf (P : ℚ → Prop) (s : Driver) : Prop :=
  0 < s.sMaWindow → ∃ xs, Represents s.sMa s.sMaWindow.toNat xs ∧ ∀ x ∈ xs, P x

/-- The pushes a window has seen after a stage that resets on `reset`. -/
def stagePushes (reset : Bool) (xs : List ℚ) (w : ℚ) : List ℚ :=
  (if reset then [w] else xs) ++ [w]

theorem stagePushes_ne_nil (reset : Bool) (xs : List ℚ) (w : ℚ) : stagePushes reset xs w ≠ [] := by
  simp [stagePushes]

theorem forall_stagePushes {P : ℚ → Prop} {reset : Bool} {xs : List ℚ} {w : ℚ}
    (hxs : ∀ x ∈ xs, P x) (hw : P w) : ∀ x ∈ stagePushes reset xs w, P x := by
  intro x hx
  rcases List.mem_append.mp hx with old | new
  · cases reset with
    | true => exact (List.mem_singleton.mp old) ▸ hw
    | false => exact hxs x old
  · exact (List.mem_singleton.mp new) ▸ hw

section Stage

variable {s : Driver} {P : ℚ → Prop}

/-- **Spec of the moving-average stage**: it pushes its argument, twice where it
resets, and returns the mean of the recent pushes. -/
theorem windowStage_spec (hwin : 0 < s.sMaWindow) {n : Nat} {xs : List ℚ}
    (h : Represents s.sMa n xs) (reset : Bool) (w : ℚ) :
    Represents (windowStage s reset w).1 n (stagePushes reset xs w) ∧
      (windowStage s reset w).2 = mean (recent n (stagePushes reset xs w)) := by
  have start : Represents (if reset then movingAverageReset s.sMa w else s.sMa) n
      (if reset then [w] else xs) := by
    cases reset with
    | true => exact movingAverageReset_represents h w
    | false => exact h
  rw [windowStage, if_pos hwin]
  exact ⟨movingAverageUpdate_represents start w, movingAverageUpdate_mean start w⟩

/-- Without a window the stage hands its argument through. -/
theorem windowStage_off (hwin : ¬ 0 < s.sMaWindow) (reset : Bool) (w : ℚ) :
    windowStage s reset w = (s.sMa, w) :=
  if_neg hwin

/-- **A reset pins the average to the step value**: the value the stage returns
in a call that resets is the value it was given. -/
theorem windowStage_reset (h : WindowOf P s) (w : ℚ) : (windowStage s true w).2 = w := by
  by_cases hwin : 0 < s.sMaWindow
  · obtain ⟨xs, held, _⟩ := h hwin
    have same : ∀ x ∈ recent s.sMaWindow.toNat (stagePushes true xs w), x = w := by
      intro x hx
      have member := recent_subset _ _ hx
      simpa [stagePushes] using member
    rw [(windowStage_spec hwin held true w).2]
    exact mean_eq_of_forall (recent_ne_nil held.size_pos (stagePushes_ne_nil _ _ _)) same
  · rw [windowStage_off hwin]

/-- The stage keeps the window invariant, in any state that takes its window
over and keeps the window size. -/
theorem windowStage_windowOf (h : WindowOf P s) {reset : Bool} {w : ℚ} (hw : P w) {t : Driver}
    (ma : t.sMa = (windowStage s reset w).1) (size : t.sMaWindow = s.sMaWindow) :
    WindowOf P t := by
  intro hwin
  rw [size] at hwin
  obtain ⟨xs, held, hxs⟩ := h hwin
  refine ⟨stagePushes reset xs w, ?_, forall_stagePushes hxs hw⟩
  rw [ma, size]
  exact (windowStage_spec hwin held reset w).1

/-- The value the stage returns stays between bounds on the pushes and its
argument. -/
theorem windowStage_mem_Icc {lo hi : ℚ} (h : WindowOf (· ∈ Set.Icc lo hi) s) (reset : Bool)
    {w : ℚ} (hw : w ∈ Set.Icc lo hi) : (windowStage s reset w).2 ∈ Set.Icc lo hi := by
  by_cases hwin : 0 < s.sMaWindow
  · obtain ⟨xs, held, hxs⟩ := h hwin
    have inside : ∀ x ∈ stagePushes reset xs w, x ∈ Set.Icc lo hi := forall_stagePushes hxs hw
    rw [(windowStage_spec hwin held reset w).2]
    exact mean_mem_Icc (recent_ne_nil held.size_pos (stagePushes_ne_nil _ _ _))
      fun x hx => inside x (recent_subset _ _ hx)
  · rw [windowStage_off hwin]
    exact hw

end Stage

/-! ### Initialisation -/

section Init

variable (s : Driver) (sMaBuf : Option (List ℚ)) (cfg : Config) (raw0 : Int)

/-- The window `hx711_init` leaves has seen the priming read and nothing else. -/
theorem hx711Init_represents (hwin : 0 < (hx711Init s sMaBuf cfg raw0).sMaWindow) :
    Represents (hx711Init s sMaBuf cfg raw0).sMa
      (hx711Init s sMaBuf cfg raw0).sMaWindow.toNat [(raw0 : ℚ)] := by
  cases sMaBuf with
  | none =>
      by_cases hcfg : 0 < cfg.maWindow
      · simp [hx711Init, hcfg] at hwin
      · simp [hx711Init, hcfg] at hwin
  | some block =>
      have size : (hx711Init s (some block) cfg raw0).sMaWindow = cfg.maWindow := by
        simp [hx711Init]
      rw [size] at hwin
      have primed := movingAverageUpdate_represents
        (movingAverageInit_represents s.sMa block hwin) raw0
      rw [size]
      simpa [hx711Init, hwin] using primed

/-- Without the Kalman filter, the last output starts as the priming read: the window has
averaged it alone. -/
theorem hx711Init_sLastOutput (plain : cfg.useKf = false) :
    (hx711Init s sMaBuf cfg raw0).sLastOutput = raw0 := by
  by_cases hwin : 0 < (hx711Init s sMaBuf cfg raw0).sMaWindow
  · have held := hx711Init_represents s sMaBuf cfg raw0 hwin
    have one : (hx711Init s sMaBuf cfg raw0).sMa.count = 1 := by
      rw [held.count_eq, List.length_singleton]
      have := held.size_pos
      omega
    have total : (hx711Init s sMaBuf cfg raw0).sMa.sum = raw0 := by
      rw [held.sum_eq, recent, List.length_singleton, Nat.sub_eq_zero_of_le held.size_pos]
      simp
    have last : (hx711Init s sMaBuf cfg raw0).sLastOutput =
        if 0 < (hx711Init s sMaBuf cfg raw0).sMaWindow then
          getMovingAverageValue (hx711Init s sMaBuf cfg raw0).sMa
        else raw0 := by
      simp [hx711Init, plain]
    rw [last, if_pos hwin]
    simp [getMovingAverageValue, one, total]
  · have inactive := hwin
    simp only [hx711Init] at inactive
    simp only [hx711Init, plain, if_neg inactive, Bool.false_eq_true, if_false]

theorem hx711Init_windowOf {P : ℚ → Prop} (hraw : P raw0) :
    WindowOf P (hx711Init s sMaBuf cfg raw0) := by
  intro hwin
  refine ⟨[(raw0 : ℚ)], hx711Init_represents s sMaBuf cfg raw0 hwin, ?_⟩
  intro x hx
  exact (List.mem_singleton.mp hx) ▸ hraw

end Init

/-! ### Calls -/

section Calls

variable {s : Driver} {P : ℚ → Prop}

theorem hx711ReadFiltered_windowOf (h : WindowOf P s) {raw : Int} (hraw : P raw) :
    WindowOf P (hx711ReadFiltered s raw).1 :=
  windowStage_windowOf h hraw rfl rfl

/-- Along a run of filtered reads the window invariant needs no condition. -/
theorem filtered_run_windowOf (h : WindowOf (fun _ => True) s) (raws : List Int) :
    WindowOf (fun _ => True) (Transducer.after hx711ReadFiltered s raws) :=
  Transducer.after_invariant h fun _ _ _ ht => hx711ReadFiltered_windowOf ht trivial

end Calls

/-! ### Runs of filtered reads -/

/-- The state after `hx711_init` and a run of filtered reads. -/
def filteredRun (s : Driver) (sMaBuf : Option (List ℚ)) (cfg : Config) (raw0 : Int)
    (raws : List Int) : Driver :=
  Transducer.after hx711ReadFiltered (hx711Init s sMaBuf cfg raw0) raws

theorem filteredRun_sUseKf (s : Driver) (sMaBuf : Option (List ℚ)) (cfg : Config) (raw0 : Int)
    (raws : List Int) : (filteredRun s sMaBuf cfg raw0 raws).sUseKf = cfg.useKf := by
  refine Transducer.after_invariant (I := fun t : Driver => t.sUseKf = cfg.useKf) rfl ?_
  intro t raw _ configured
  exact (hx711ReadFiltered_config t raw).2.trans configured

theorem filteredRun_windowOf (s : Driver) (sMaBuf : Option (List ℚ)) (cfg : Config) (raw0 : Int)
    (raws : List Int) : WindowOf (fun _ => True) (filteredRun s sMaBuf cfg raw0 raws) :=
  filtered_run_windowOf (hx711Init_windowOf s sMaBuf cfg raw0 trivial) raws

/-- The window is never longer than configured. -/
theorem filteredRun_sMaWindow_le (s : Driver) (sMaBuf : Option (List ℚ)) {cfg : Config}
    (hcfg : 0 ≤ cfg.maWindow) (raw0 : Int) (raws : List Int) :
    (filteredRun s sMaBuf cfg raw0 raws).sMaWindow ≤ cfg.maWindow := by
  refine Transducer.after_invariant (I := fun t : Driver => t.sMaWindow ≤ cfg.maWindow) ?_ ?_
  · simp only [hx711Init]
    split
    · exact hcfg
    · exact Int.le_refl _
  · intro t raw _ bounded
    exact (hx711ReadFiltered_config t raw).1.trans_le bounded

end SmartScale.Hx711
