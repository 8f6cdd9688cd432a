import SmartScale.Hx711.MedianWindow
import SmartScale.Hx711.NoisySettling
import SmartScale.Hx711.Tasks

/-!
Outliers and `hx711_rtos_median_task`.

A window of five samples lets two outliers through, but the task does not stay with one: nothing
that it does raises `s_boost_count`, so that its window is down to three samples after
`narrowReads` locked reads, whatever the driver did before. From then on one outlier in three
is rejected by every read, and the moving average forgets the earlier ones
(`median_task_settles`). The mutex is the one of `hx711_init_rtos`, and nobody else reads in
between.
-/

namespace SmartScale.Hx711

open SmartScale.Transducer SmartScale.MovingAverage SmartScale.SlidingWindow SmartScale.Binary32

/-- At least two of the first three samples lie between `lo` and `hi`. -/
def TwoOfThree (lo hi : Int) (samples : Nat → Int) : Prop :=
  Majority lo hi ((List.range medianMinSamples).map samples)

/-- The locked reads until the window has its minimum again. -/
def narrowReads : Nat := medianMaxSamples - medianMinSamples - 1

/-- The locked reads until the outliers of the past are gone: the window of samples is narrow, and
the moving average has seen nothing else since. -/
def medianSettleReads (sMaWindow : Int) : Nat := narrowReads + (sMaWindow.toNat - 1)

/-- A locked iteration of the task. -/
def Turn.locked : Turn (Nat → Int) → Bool
  | .iterate lock _ => lock
  | .take => false

/-- What an iteration takes has at most one outlier in three. -/
def Turn.Mostly (lo hi : Int) : Turn (Nat → Int) → Prop
  | .iterate true samples => TwoOfThree lo hi samples
  | _ => True

/-- The driver after `k` locked median reads. -/
structure MedianSettling (lo hi : Int) (k : Nat) (s : Driver) : Prop where
  idle : s.sBoostCount = 0
  narrow : s.adaptiveWindow ≤ max medianMinSamples (medianMaxSamples - k)
  window : 0 < s.sMaWindow → ∃ xs, Represents s.sMa s.sMaWindow.toNat xs ∧
    EndsIn (· ∈ Set.Icc (lo : ℚ) hi) (k - narrowReads) xs

section Reads

variable {lo hi : Int} {k : Nat} {s : Driver} {samples : Nat → Int}

/-- Truncation does not pass an integer. -/
theorem truncate_between {v : ℚ} (hv : v ∈ Set.Icc (lo : ℚ) hi) :
    lo ≤ truncate v ∧ truncate v ≤ hi := by
  unfold truncate
  split
  · exact ⟨Int.le_floor.mpr hv.1, Int.cast_le.mp ((Int.floor_le v).trans hv.2)⟩
  · exact ⟨Int.cast_le.mp (hv.1.trans (Int.le_ceil v)), Int.ceil_le.mpr hv.2⟩

theorem TwoOfThree.medianValue_mem (most : TwoOfThree lo hi samples) :
    (medianValue ((List.range medianMinSamples).map samples) : ℚ) ∈ Set.Icc (lo : ℚ) hi := by
  have length : ((List.range medianMinSamples).map samples).length = 3 := by
    rw [List.length_map, List.length_range, medianMinSamples]
  have two : 2 ≤ ((List.range medianMinSamples).map samples).length := by omega
  have short : ((List.range medianMinSamples).map samples).length ≤ 4 := by omega
  have lower := (atLeast_medianValue_iff two most).mpr
    (noPairFirst_of_length_le short (most.bits fun _ inside => decide_eq_true inside.1))
  have upper := (atMost_medianValue_iff two most).mpr
    (noPairFirst_of_length_le short (most.bits fun _ inside => decide_eq_true inside.2))
  exact ⟨of_decide_eq_true lower, of_decide_eq_true upper⟩

theorem medianSettling_init (events : List DriverEvent) (sMaBuf : Option (List ℚ)) (cfg : Config)
    (raw0 : Int) : MedianSettling lo hi 0 (hx711Init (history events) sMaBuf cfg raw0) where
  idle := rfl
  narrow := (driverStep_inRange (history_inRange events) (.init sMaBuf cfg raw0)).le_max.trans
    (le_max_right _ _)
  window hwin := by
    exact ⟨_, hx711Init_represents (history events) sMaBuf cfg raw0 hwin, endsIn_zero _ _⟩

/-- What a locked read does with its median. -/
theorem hx711ReadMedianRtos_locked (s : Driver) (samples : Nat → Int) :
    hx711ReadMedianRtos s true samples =
      ({ s with
          adaptiveWindow := nextAdaptiveWindow s
          sMa := (medianMovingAverage s (medianValue (medianSamples s samples))).1
          sLastOutput := (medianMovingAverage s (medianValue (medianSamples s samples))).2 },
        { value := truncate (medianMovingAverage s (medianValue (medianSamples s samples))).2
          currentSampleSize := some (nextAdaptiveWindow s) }) := by
  have length : (medianSamples s samples).length = nextAdaptiveWindow s := by
    simp [medianSamples]
  rw [medianValue, length]
  rfl

theorem MedianSettling.nextAdaptiveWindow_le (h : MedianSettling lo hi k s) :
    nextAdaptiveWindow s ≤ max medianMinSamples (medianMaxSamples - (k + 1)) := by
  have narrow := h.narrow
  rw [nextAdaptiveWindow_idle h.idle]
  omega

/-- After `narrowReads` reads the read takes three samples. -/
theorem MedianSettling.nextAdaptiveWindow_eq (h : MedianSettling lo hi k s)
    (long : narrowReads ≤ k) : nextAdaptiveWindow s = medianMinSamples := by
  have upper := h.nextAdaptiveWindow_le
  have lower : medianMinSamples ≤ nextAdaptiveWindow s := by
    rw [nextAdaptiveWindow_idle h.idle]
    exact le_max_left _ _
  simp only [narrowReads, medianMaxSamples, medianMinSamples] at *
  omega

theorem MedianSettling.median_mem (h : MedianSettling lo hi k s) (long : narrowReads ≤ k)
    (most : TwoOfThree lo hi samples) :
    (medianValue (medianSamples s samples) : ℚ) ∈ Set.Icc (lo : ℚ) hi := by
  rw [medianSamples, h.nextAdaptiveWindow_eq long]
  exact most.medianValue_mem

/-- **Step lemma.** -/
theorem MedianSettling.read (h : MedianSettling lo hi k s) (most : TwoOfThree lo hi samples) :
    MedianSettling lo hi (k + 1) (hx711ReadMedianRtos s true samples).1 where
  idle := h.idle
  narrow := h.nextAdaptiveWindow_le
  window := by
    rw [hx711ReadMedianRtos_locked]
    by_cases long : narrowReads ≤ k
    · rw [Nat.sub_add_comm long]
      exact windowStage_endsIn h.window (h.median_mem long most) rfl rfl
    · intro hwin
      have active : 0 < s.sMaWindow := hwin
      have early : k + 1 - narrowReads = 0 := by omega
      obtain ⟨xs, held, -⟩ := h.window active
      rw [early]
      exact ⟨_, (windowStage_spec active held _ _).1, endsIn_zero _ _⟩

/-- What a read returns when the earlier outliers are gone. -/
theorem MedianSettling.value_mem (h : MedianSettling lo hi k s)
    (long : medianSettleReads s.sMaWindow ≤ k) (most : TwoOfThree lo hi samples) :
    lo ≤ (hx711ReadMedianRtos s true samples).2.value ∧
      (hx711ReadMedianRtos s true samples).2.value ≤ hi := by
  have narrow : narrowReads ≤ k := (Nat.le_add_right _ _).trans long
  have median := h.median_mem narrow most
  rw [hx711ReadMedianRtos_locked]
  apply truncate_between
  have enough : s.sMaWindow ≤ ((k - narrowReads : Nat) : Int) + 1 := by
    rw [medianSettleReads] at long
    omega
  exact windowStage_settled h.window median enough _

end Reads

/-! ### The task -/

section Task

variable {lo hi : Int}

/-- **Run lemma.** -/
theorem medianSettling_run {s : Sampler Int} (h : MedianSettling lo hi 0 s.driver)
    {turns : List (Turn (Nat → Int))} (most : ∀ t ∈ turns, t.Mostly lo hi) :
    MedianSettling lo hi (turns.countP Turn.locked) (after (turn medianTask) s turns).driver ∧
      (after (turn medianTask) s turns).driver.sMaWindow = s.driver.sMaWindow := by
  induction turns using List.reverseRecOn with
  | nil => exact ⟨h, rfl⟩
  | append_singleton turns t ih =>
      obtain ⟨settling, size⟩ := ih fun u hu => most u (List.mem_append_left _ hu)
      have last : t.Mostly lo hi := most t (by simp)
      rw [after_append, after_cons, after_nil, List.countP_append, List.countP_singleton]
      cases t with
      | take => exact ⟨settling, size⟩
      | iterate lock samples =>
          cases lock with
          | false => exact ⟨settling, size⟩
          | true => exact ⟨settling.read last, size⟩

/-- **One outlier in three never gets through.** Whatever the driver did before, and whichever
iterations of `hx711_rtos_median_task` time out: if at most one of the first three samples of
every read is not between `lo` and `hi`, all that its locked iterations publish is, but for the
first `medianSettleReads` of them. -/
theorem median_task_settles (events : List DriverEvent) (sMaBuf : Option (List ℚ)) (cfg : Config)
    (raw0 : Int) (queue : Option (BoundedQueue Int 8)) (turns : List (Turn (Nat → Int)))
    (samples : Nat → Int)
    (most : ∀ t ∈ turns ++ [.iterate true samples], t.Mostly lo hi)
    (long : medianSettleReads (hx711Init (history events) sMaBuf cfg raw0).sMaWindow ≤
      turns.countP Turn.locked) :
    let start : Sampler Int := ⟨hx711Init (history events) sMaBuf cfg raw0, queue⟩
    ∀ val, (hx711RtosMedianTask (after (turn medianTask) start turns) true samples).2 = some val →
      lo ≤ val ∧ val ≤ hi := by
  intro start val published
  obtain ⟨settling, size⟩ := medianSettling_run (s := start)
    (medianSettling_init events sMaBuf cfg raw0)
    fun t ht => most t (List.mem_append_left _ ht)
  obtain rfl := publish_placed published
  rw [← size] at long
  exact settling.value_mem long (most (.iterate true samples) (by simp))

/-- The second sample of every read is an outlier, and so is the priming read. -/
theorem median_task_settles_outlier :
    let samples := fun i : Nat => if i = 1 then (900 : Int) else 5
    let start : Sampler Int :=
      ⟨hx711Init (history [.call (.filtered 4)]) (some [0, 0]) ⟨2, false, 1 / 2, 1⟩ 900,
        some .empty⟩
    let turns := List.replicate 8 (.iterate true samples) ++ [.take]
    ∃ val, (hx711RtosMedianTask (after (turn medianTask) start turns) true samples).2 = some val ∧
      5 ≤ val ∧ val ≤ 5 := by
  intro samples start turns
  have published :
      (hx711RtosMedianTask (after (turn medianTask) start turns) true samples).2 = some 5 := by
    decide +kernel
  have most : ∀ t ∈ turns ++ [.iterate true samples], t.Mostly 5 5 := by
    have outlier : TwoOfThree 5 5 samples := by
      unfold TwoOfThree
      decide +kernel
    intro t ht
    simp only [turns, List.mem_append, List.mem_replicate, List.mem_singleton] at ht
    rcases ht with (⟨-, rfl⟩ | rfl) | rfl
    · exact outlier
    · trivial
    · exact outlier
  exact ⟨5, published, median_task_settles [.call (.filtered 4)] (some [0, 0]) ⟨2, false, 1 / 2, 1⟩
    900 (some .empty) turns samples most (by decide +kernel) 5 published⟩

end Task

end SmartScale.Hx711
