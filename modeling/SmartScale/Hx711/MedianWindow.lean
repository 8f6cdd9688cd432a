import SmartScale.Hx711.MedianStage

/-!
The adaptive window of `hx711_read_median_rtos`.

The window grows while `s_boost_count` is positive, but only `hx711_read_filtered` ever raises
that counter: the median read compares its median with `s_last_output` for the moving average
alone. In a run of median reads after `hx711_init` the window can only shrink
(`medianRun_adaptiveWindow`), so every detected step but one in the last call goes unnoticed
(`reacts_iff`).
-/

namespace SmartScale.Hx711

open SmartScale.Transducer SmartScale.MovingAverage

/-! ### What came before -/

/-- Whatever the application does with the driver. -/
inductive DriverEvent where
  | init (sMaBuf : Option (List ℚ)) (cfg : Config) (raw0 : Int)
  | deinit
  | call (call : Call)

def driverStep (s : Driver) : DriverEvent → Driver × Unit
  | .init sMaBuf cfg raw0 => (hx711Init s sMaBuf cfg raw0, ())
  | .deinit => (hx711Deinit s, ())
  | .call call => ((callStep s call).1, ())

/-- The static variables after a history. -/
def history (events : List DriverEvent) : Driver := after driverStep .boot events

/-- The window never leaves its range. -/
structure InRange (s : Driver) : Prop where
  min_le : medianMinSamples ≤ s.adaptiveWindow
  le_max : s.adaptiveWindow ≤ medianMaxSamples

theorem inRange_nextAdaptiveWindow {s : Driver} (h : InRange s) :
    medianMinSamples ≤ nextAdaptiveWindow s ∧ nextAdaptiveWindow s ≤ medianMaxSamples := by
  have lower := h.min_le
  have upper := h.le_max
  unfold nextAdaptiveWindow
  simp only [medianMinSamples, medianMaxSamples, medianStepIncrease] at *
  split_ifs
  · omega
  · omega

theorem driverStep_inRange {s : Driver} (h : InRange s) (event : DriverEvent) :
    InRange (driverStep s event).1 := by
  cases event with
  | init sMaBuf cfg raw0 => exact ⟨h.min_le, h.le_max⟩
  | deinit =>
      unfold driverStep hx711Deinit
      dsimp only
      split_ifs
      · exact ⟨h.min_le, h.le_max⟩
      · exact h
  | call call =>
      cases call with
      | filtered raw => exact ⟨h.min_le, h.le_max⟩
      | median lock samples =>
          cases lock with
          | false => exact h
          | true =>
              obtain ⟨lower, upper⟩ := inRange_nextAdaptiveWindow h
              exact ⟨lower, upper⟩

theorem history_inRange (events : List DriverEvent) : InRange (history events) :=
  after_invariant (I := InRange) ⟨le_rfl, Nat.le_add_right 3 8⟩
    fun _ event _ h => driverStep_inRange h event

/-! ### Runs of median reads -/

/-- A locked median read, observed. -/
structure MedianCall where
  /-- the number of samples it uses -/
  window : Nat
  /-- its median is a step away from `s_last_output` -/
  detects : Bool
deriving DecidableEq

/-- A locked median read of `samples`. -/
def medianCall (s : Driver) (samples : Nat → Int) : Driver × MedianCall :=
  ((hx711ReadMedianRtos s true samples).1,
    { window := nextAdaptiveWindow s
      detects := s.stepDetected (medianValue (medianSamples s samples)) })

/-- The locked median reads after `hx711_init`. -/
def medianCalls (events : List DriverEvent) (sMaBuf : Option (List ℚ)) (cfg : Config)
    (raw0 : Int) (reads : List (Nat → Int)) : List MedianCall :=
  outputs medianCall (hx711Init (history events) sMaBuf cfg raw0) reads

/-- The window as documented: it grows after a detected step, and is back at its minimum when
the calls without a step were enough to give up what it can have grown. -/
structure ReactsToSteps (calls : List MedianCall) : Prop where
  grows : ∀ i c next, calls[i]? = some c → calls[i + 1]? = some next → c.detects = true →
    next.window = min medianMaxSamples (c.window + medianStepIncrease)
  settles : ∀ i c, calls[i + (medianMaxSamples - medianMinSamples)]? = some c →
    (∀ j d, i ≤ j → j < i + (medianMaxSamples - medianMinSamples) → calls[j]? = some d →
      d.detects = false) →
    c.window = medianMinSamples

section Runs

variable {s : Driver}

theorem nextAdaptiveWindow_idle (idle : s.sBoostCount = 0) :
    nextAdaptiveWindow s = max medianMinSamples (s.adaptiveWindow - 1) := by
  rw [nextAdaptiveWindow, idle, if_neg (lt_irrefl 0)]

/-- **A run of median reads only shrinks the window.** -/
theorem medianRun_adaptiveWindow (idle : s.sBoostCount = 0) (range : InRange s)
    (reads : List (Nat → Int)) :
    (after medianCall s reads).sBoostCount = 0 ∧
      (after medianCall s reads).adaptiveWindow =
        max medianMinSamples (s.adaptiveWindow - reads.length) := by
  induction reads using List.reverseRecOn with
  | nil => exact ⟨idle, (max_eq_right range.min_le).symm⟩
  | append_singleton reads samples ih =>
      obtain ⟨idle', window⟩ := ih
      rw [after_append, after_cons, after_nil]
      refine ⟨idle', ?_⟩
      have next : (medianCall (after medianCall s reads) samples).1.adaptiveWindow =
          nextAdaptiveWindow (after medianCall s reads) := rfl
      rw [next, nextAdaptiveWindow_idle idle', window, List.length_append, List.length_singleton]
      omega

/-- The window of the `i`-th call of a run. -/
theorem medianCalls_window (idle : s.sBoostCount = 0) (range : InRange s)
    {reads : List (Nat → Int)} {i : Nat} {c : MedianCall}
    (hc : (outputs medianCall s reads)[i]? = some c) :
    c.window = max medianMinSamples (s.adaptiveWindow - (i + 1)) := by
  rw [getElem?_outputs] at hc
  obtain ⟨samples, hi, rfl⟩ := Option.map_eq_some_iff.mp hc
  have inside : i < reads.length := (List.getElem?_eq_some_iff.mp hi).1
  obtain ⟨idle', window⟩ := medianRun_adaptiveWindow idle range (reads.take i)
  have length : (reads.take i).length = i := List.length_take_of_le inside.le
  rw [length] at window
  show nextAdaptiveWindow _ = _
  rw [nextAdaptiveWindow_idle idle', window]
  omega

end Runs

/-- A call is not the last one exactly if another one follows it. -/
theorem mem_dropLast_iff {calls : List MedianCall} {c : MedianCall} :
    c ∈ calls.dropLast ↔ ∃ i next, calls[i]? = some c ∧ calls[i + 1]? = some next := by
  constructor
  · intro member
    obtain ⟨i, hi⟩ := List.mem_iff_getElem?.mp member
    rw [List.getElem?_dropLast] at hi
    split_ifs at hi with before
    have followed : i + 1 < calls.length := by omega
    exact ⟨i, _, hi, List.getElem?_eq_getElem followed⟩
  · rintro ⟨i, next, hc, hnext⟩
    have followed : i + 1 < calls.length := (List.getElem?_eq_some_iff.mp hnext).1
    refine List.mem_iff_getElem?.mpr ⟨i, ?_⟩
    rw [List.getElem?_dropLast, if_pos (by omega), hc]

/-- A window that only shrinks settles in time, and so reacts to steps exactly if it sees none
before its last call. -/
theorem reactsToSteps_iff_of_shrinks {calls : List MedianCall} {start : Nat}
    (upper : start ≤ medianMaxSamples)
    (window : ∀ {i c}, calls[i]? = some c → c.window = max medianMinSamples (start - (i + 1))) :
    ReactsToSteps calls ↔ ∀ c ∈ calls.dropLast, c.detects = false := by
  simp only [medianMinSamples, medianMaxSamples] at window upper
  constructor
  · intro reacts c member
    obtain ⟨i, next, hc, hnext⟩ := mem_dropLast_iff.mp member
    cases detected : c.detects with
    | false => rfl
    | true =>
        have grown := reacts.grows i c next hc hnext detected
        have now := window hc
        have later := window hnext
        simp only [medianMaxSamples, medianStepIncrease] at grown
        omega
  · intro quiet
    constructor
    · intro i c next hc hnext detected
      have before : c ∈ calls.dropLast := mem_dropLast_iff.mpr ⟨i, next, hc, hnext⟩
      cases detected.symm.trans (quiet c before)
    · intro i c hc _
      have settled := window hc
      simp only [medianMinSamples, medianMaxSamples] at settled ⊢
      omega

/-- **When the window reacts to steps**: in no call but the last one of the run does the median
differ from `s_last_output` by a step. -/
theorem reacts_iff (events : List DriverEvent) (sMaBuf : Option (List ℚ)) (cfg : Config)
    (raw0 : Int) (reads : List (Nat → Int)) :
    ReactsToSteps (medianCalls events sMaBuf cfg raw0 reads) ↔
      ∀ c ∈ (medianCalls events sMaBuf cfg raw0 reads).dropLast, c.detects = false := by
  have range : InRange (hx711Init (history events) sMaBuf cfg raw0) :=
    driverStep_inRange (history_inRange events) (.init sMaBuf cfg raw0)
  exact reactsToSteps_iff_of_shrinks range.le_max fun hc => medianCalls_window rfl range hc

/-- Two reads of 5000 after a priming read of 0: the first median is a step, and the second
read uses 3 samples like the first. -/
theorem median_window_ignores_steps :
    ¬ ∀ (events : List DriverEvent) (sMaBuf : Option (List ℚ)) (cfg : Config) (raw0 : Int)
      (reads : List (Nat → Int)),
      ReactsToSteps (medianCalls events sMaBuf cfg raw0 reads) := by
  intro claimed
  have reacts := claimed [] (some (List.replicate 8 0)) ⟨8, true, 1 / 2, 1⟩ 0
    [fun _ => 5000, fun _ => 5000]
  have calls : medianCalls [] (some (List.replicate 8 0)) ⟨8, true, 1 / 2, 1⟩ 0
      [fun _ => 5000, fun _ => 5000] = [⟨3, true⟩, ⟨3, false⟩] := by
    decide +kernel
  rw [calls] at reacts
  have grown : 3 = min 11 (3 + 2) := reacts.grows 0 _ _ rfl rfl rfl
  omega

end SmartScale.Hx711
