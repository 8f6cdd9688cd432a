import SmartScale.Hx711.Invariant

/-!
The moving average of `hx711_read_filtered` after a step, without the Kalman filter.

A call that detects a step clears the window with `moving_average_reset`, which pushes the
reading, and then pushes it again with `moving_average_update`. Until the window has forgotten
the first copy, the average counts the step reading twice.

`Since` is what was read since the latest detected step; `pushes` is what the window has seen
of it. `TracksPushes` is the invariant that connects the two, and `counted_once_iff` says in
which calls the second copy makes no difference.
-/

namespace SmartScale.Hx711

open SmartScale.Transducer SmartScale.MovingAverage SmartScale.SlidingWindow

/-! ### Readings since the latest step -/

/-- The readings since the latest detected step, or since the priming read. -/
structure Since where
  /-- the step reading, or the priming read -/
  first : ℚ
  later : List ℚ
  /-- whether `first` is a step reading -/
  stepped : Bool

def Since.readings (since : Since) : List ℚ := since.first :: since.later

/-- What the window has seen of them: a step reading twice. -/
def Since.pushes (since : Since) : List ℚ :=
  if since.stepped then since.first :: since.readings else since.readings

/-- A reading, which is a step or not. -/
def Since.read (since : Since) (step : Bool) (raw : ℚ) : Since :=
  if step then ⟨raw, [], true⟩ else { since with later := since.later ++ [raw] }

/-- The stage pushes a reading as a step does. -/
theorem Since.pushes_read (since : Since) (step : Bool) (raw : ℚ) :
    (since.read step raw).pushes = stagePushes step since.pushes raw := by
  cases step with
  | true => rfl
  | false =>
      cases stepped : since.stepped with
      | true => simp [Since.read, Since.pushes, Since.readings, stagePushes, stepped]
      | false => simp [Since.read, Since.pushes, Since.readings, stagePushes, stepped]

/-- A call, with what was read since the latest step when it returns. -/
structure Averaged where
  returned : ℚ
  raw : ℚ
  since : Since

/-- A filtered read, tracked. -/
def trackedRead (t : Driver × Since) (raw : Int) : (Driver × Since) × Averaged :=
  let since := t.2.read (t.1.stepDetected raw) raw
  (((hx711ReadFiltered t.1 raw).1, since), ⟨(hx711ReadFiltered t.1 raw).2, raw, since⟩)

/-- The calls on `raws` after `hx711_init`, tracked from the priming read on. -/
def averages (s : Driver) (sMaBuf : Option (List ℚ)) (cfg : Config) (raw0 : Int)
    (raws : List Int) : List Averaged :=
  outputs trackedRead (hx711Init s sMaBuf cfg raw0, ⟨raw0, [], false⟩) raws

/-! ### What the window has seen -/

/-- A driver without the Kalman filter, whose window, if it has one, has seen the pushes. -/
structure TracksPushes (t : Driver × Since) : Prop where
  plain : t.1.sUseKf = false
  idle : t.1.sBoostCount = 0
  window : 0 < t.1.sMaWindow → Represents t.1.sMa t.1.sMaWindow.toNat t.2.pushes

theorem hx711Init_tracksPushes (s : Driver) (sMaBuf : Option (List ℚ)) {cfg : Config}
    (raw0 : Int) (plain : cfg.useKf = false) :
    TracksPushes (hx711Init s sMaBuf cfg raw0, ⟨raw0, [], false⟩) where
  plain := plain
  idle := rfl
  window := hx711Init_represents s sMaBuf cfg raw0

section Calls

variable {t : Driver × Since}

/-- Without the counter, the window is cleared where a step is detected. -/
theorem TracksPushes.boosting_eq (h : TracksPushes t) (w : ℚ) :
    t.1.boosting w = t.1.stepDetected w := by
  simp [Driver.boosting, h.idle]

theorem hx711ReadFiltered_plain (plain : t.1.sUseKf = false) (raw : Int) :
    (hx711ReadFiltered t.1 raw).2 = (stepAwareMovingAverage t.1 raw).2 ∧
      (hx711ReadFiltered t.1 raw).1.sBoostCount = t.1.sBoostCount := by
  simp [hx711ReadFiltered, stepAwareKalman, plain]

/-- **Step lemma.** -/
theorem trackedRead_tracksPushes (h : TracksPushes t) (raw : Int) :
    TracksPushes (trackedRead t raw).1 where
  plain := h.plain
  idle := (hx711ReadFiltered_plain h.plain raw).2.trans h.idle
  window := by
    intro hwin
    have active : 0 < t.1.sMaWindow := hwin
    have stage := (windowStage_spec active (h.window active) (t.1.boosting raw) raw).1
    show Represents _ _ (Since.read _ _ _).pushes
    rw [Since.pushes_read, ← h.boosting_eq]
    exact stage

/-- What a call returns: the mean of the recent pushes, or the reading itself. -/
theorem trackedRead_returned (h : TracksPushes t) (raw : Int) :
    (trackedRead t raw).2.returned =
      if 0 < t.1.sMaWindow then
        mean (recent t.1.sMaWindow.toNat (trackedRead t raw).2.since.pushes)
      else raw := by
  have returned : (trackedRead t raw).2.returned = (stepAwareMovingAverage t.1 raw).2 :=
    (hx711ReadFiltered_plain h.plain raw).1
  rw [returned, stepAwareMovingAverage, h.boosting_eq]
  split_ifs with hwin
  · rw [(windowStage_spec hwin (h.window hwin) _ _).2, ← Since.pushes_read]
    rfl
  · rw [windowStage_off hwin]

end Calls

/-! ### When each reading counts once -/

/-- The call returns the mean of the last `n` readings since the latest step. -/
def Averaged.Exact (n : Nat) (o : Averaged) : Prop :=
  o.returned = mean (recent n o.since.readings)

/-- The second copy of the step reading makes no difference: there was no step, or the window
has forgotten the copy, or the step reading is the mean of the later ones. Without a buffer
there is no window, and the reading must be the mean of the last `n`. -/
def Averaged.CopyHidden (n : Nat) (buffered : Bool) (o : Averaged) : Prop :=
  if buffered then
    o.since.stepped = true → n ≤ o.since.readings.length ∨
      o.since.later.sum = o.since.later.length * o.since.first
  else (recent n o.since.readings).sum = (recent n o.since.readings).length * o.raw

instance (n : Nat) (o : Averaged) : Decidable (o.Exact n) := by
  unfold Averaged.Exact
  infer_instance

instance (n : Nat) (buffered : Bool) (o : Averaged) : Decidable (o.CopyHidden n buffered) := by
  unfold Averaged.CopyHidden
  infer_instance

theorem Since.mean_pushes_iff (n : Nat) (since : Since) :
    mean (recent n since.pushes) = mean (recent n since.readings) ↔
      (since.stepped = true → n ≤ since.readings.length ∨
        since.later.sum = since.later.length * since.first) := by
  cases stepped : since.stepped with
  | true =>
      rw [Since.pushes, if_pos stepped]
      exact (mean_recent_cons_cons_iff n since.first since.later).trans
        ⟨fun hidden _ => hidden, fun hidden => hidden rfl⟩
  | false =>
      have same : since.pushes = since.readings := by
        rw [Since.pushes, stepped]
        rfl
      rw [same]
      exact iff_of_true rfl Bool.noConfusion

section Window

variable {sMaBuf : Option (List ℚ)} {cfg : Config}

/-- There is a window exactly if `malloc` gave a buffer. -/
theorem hx711Init_sMaWindow (s : Driver) (hW : 1 ≤ cfg.maWindow) (raw0 : Int) :
    (hx711Init s sMaBuf cfg raw0).sMaWindow = if sMaBuf.isSome then cfg.maWindow else 0 := by
  have configured : 0 < cfg.maWindow := by omega
  cases sMaBuf with
  | none => simp [hx711Init, configured]
  | some buffer => simp [hx711Init]

/-- One call of a run. -/
theorem trackedRead_exact_iff {t : Driver × Since} (h : TracksPushes t) (hW : 1 ≤ cfg.maWindow)
    (size : t.1.sMaWindow = if sMaBuf.isSome then cfg.maWindow else 0) (raw : Int) :
    (trackedRead t raw).2.Exact cfg.maWindow.toNat ↔
      (trackedRead t raw).2.CopyHidden cfg.maWindow.toNat sMaBuf.isSome := by
  have configured : 0 < cfg.maWindow := by omega
  have some_recent : recent cfg.maWindow.toNat (trackedRead t raw).2.since.readings ≠ [] :=
    recent_ne_nil (by omega) (List.cons_ne_nil _ _)
  rw [Averaged.Exact, Averaged.CopyHidden, trackedRead_returned h]
  cases buffered : sMaBuf.isSome with
  | true =>
      rw [buffered, if_pos rfl] at size
      rw [size, if_pos configured, if_pos rfl]
      exact Since.mean_pushes_iff _ _
  | false =>
      rw [buffered, if_neg Bool.false_ne_true] at size
      rw [size, if_neg (by omega), if_neg Bool.false_ne_true, eq_comm]
      exact mean_eq_iff some_recent

/-- **When no sample is counted twice**: every call of a run returns the mean of the last `W`
readings since the latest step, each counted once, exactly if the second copy of the step
reading makes no difference in any call. -/
theorem counted_once_iff (s : Driver) (sMaBuf : Option (List ℚ)) {cfg : Config} (raw0 : Int)
    (raws : List Int) (plain : cfg.useKf = false) (hW : 1 ≤ cfg.maWindow) :
    (∀ o ∈ averages s sMaBuf cfg raw0 raws, o.Exact cfg.maWindow.toNat) ↔
      ∀ o ∈ averages s sMaBuf cfg raw0 raws, o.CopyHidden cfg.maWindow.toNat sMaBuf.isSome := by
  have each : ∀ o ∈ averages s sMaBuf cfg raw0 raws,
      o.Exact cfg.maWindow.toNat ↔ o.CopyHidden cfg.maWindow.toNat sMaBuf.isSome := by
    refine outputs_forall (I := fun t : Driver × Since => TracksPushes t ∧
        t.1.sMaWindow = if sMaBuf.isSome then cfg.maWindow else 0)
      ⟨hx711Init_tracksPushes s sMaBuf raw0 plain, hx711Init_sMaWindow s hW raw0⟩ ?_ ?_
    · exact fun t raw _ h => ⟨trackedRead_tracksPushes h.1 raw, h.2⟩
    · exact fun t raw _ h => trackedRead_exact_iff h.1 hW h.2 raw
  exact forall₂_congr each

end Window

/-- A window of 2 after a step to 2000: the second call sees both copies, and they agree with
the reading after them. -/
theorem counted_once_iff_steady :
    (averages .boot (some [0, 0]) ⟨2, false, 0, 0⟩ 0 [2000, 2000, 2010]).Forall
      (Averaged.Exact 2) :=
  List.forall_iff_forall_mem.mpr
    ((counted_once_iff .boot (some [0, 0]) 0 [2000, 2000, 2010] rfl one_le_two).mpr
      (by decide +kernel))

/-- In a window of 8, readings of 2000 and 2010 after the step average 2003 and a third. -/
theorem step_counted_twice :
    ¬ ∀ (s : Driver) (sMaBuf : Option (List ℚ)) (cfg : Config) (raw0 : Int) (raws : List Int),
      cfg.useKf = false → 1 ≤ cfg.maWindow →
      ∀ o ∈ averages s sMaBuf cfg raw0 raws, o.Exact cfg.maWindow.toNat := by
  intro claimed
  have counted := claimed .boot (some (List.replicate 8 0)) ⟨8, false, 0, 0⟩ 0 [2000, 2010] rfl
    (by norm_num)
  exact absurd counted (by decide +kernel)

end SmartScale.Hx711
