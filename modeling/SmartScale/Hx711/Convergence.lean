import SmartScale.Hx711.Invariant
import Mathlib.Algebra.Order.Floor.Ring

/-!
Steady state of `hx711_read_filtered`: with the Kalman filter on and a constant
raw reading, the window fills with the constant and the estimate contracts
towards it.

`SettledBy c j xs` is what the window invariant keeps of `j` constant readings:
either they are the last `j` pushes, or a reset has made every push constant.
The Kalman stage keeps `Adaptive` whatever `Q` the driver forces
(`hx711ReadFiltered_adaptive`), so every call contracts.
-/

namespace SmartScale.Hx711

open SmartScale.Transducer SmartScale.MovingAverage SmartScale.Kalman SmartScale.SlidingWindow
open SmartScale.Gain

/-! ### The Kalman stage -/

section KalmanStage

variable {s : Driver}

theorem boostQ_cases (s : Driver) (w : ℚ) :
    boostQ s w = boostedQ ∨ boostQ s w = normalQ ∨ boostQ s w = s.sKf.q := by
  unfold boostQ
  split_ifs
  · exact .inl rfl
  · exact .inr (.inl rfl)
  · exact .inr (.inr rfl)

theorem hx711ReadFiltered_sKf (kf : s.sUseKf = true) (raw : Int) :
    (hx711ReadFiltered s raw).1.sKf =
      (kalmanUpdateAdaptive { s.sKf with q := boostQ s (stepAwareMovingAverage s raw).2 }
        (stepAwareMovingAverage s raw).2).1 := by
  simp [hx711ReadFiltered, stepAwareKalman, kf]

/-- With the Kalman filter on, the output is the estimate. -/
theorem hx711ReadFiltered_output (kf : s.sUseKf = true) (raw : Int) :
    (hx711ReadFiltered s raw).2 = (hx711ReadFiltered s raw).1.sKf.xEst := by
  rw [hx711ReadFiltered_sKf kf]
  simp [hx711ReadFiltered, stepAwareKalman, kf]

/-- The driver runs an adaptive filter with the default `Q_min` and `R_max`. -/
structure Adaptive (s : Driver) : Prop where
  kf : s.sUseKf = true
  bounded : Bounded s.sKf
  qMin_eq : s.sKf.qMin = 1 / 1000
  rMax_eq : s.sKf.rMax = 5

/-- Every `Q` the driver hands to the update is at least `Q_min`. -/
theorem Adaptive.qMin_le_boostQ (h : Adaptive s) (w : ℚ) : s.sKf.qMin ≤ boostQ s w := by
  rcases boostQ_cases s w with eq | eq | eq
  · rw [eq, h.qMin_eq]
    norm_num [boostedQ]
  · rw [eq, h.qMin_eq]
    norm_num [normalQ]
  · rw [eq]
    exact h.bounded.q_floor

theorem hx711Init_adaptive (s : Driver) (sMaBuf : Option (List ℚ)) {cfg : Config} (raw0 : Int)
    (kf : cfg.useKf = true) (hq : 1 / 1000 ≤ cfg.qInit) (hr : 0 < cfg.rInit)
    (hr' : cfg.rInit ≤ 5) : Adaptive (hx711Init s sMaBuf cfg raw0) := by
  have primed := hx711Init_sKf s sMaBuf raw0 kf
  have start := kalmanInitAdaptive_bounded s.sKf hq hr hr'
  refine ⟨kf, ?_, ?_, ?_⟩
  · rw [primed]
    exact kalmanUpdateAdaptive_bounded start raw0
  · rw [primed]
    rfl
  · rw [primed]
    rfl

/-- The driver's own `Q` overrides keep the filter bounded. -/
theorem hx711ReadFiltered_adaptive (h : Adaptive s) (raw : Int) :
    Adaptive (hx711ReadFiltered s raw).1 := by
  have forced := h.bounded.override (h.qMin_le_boostQ (stepAwareMovingAverage s raw).2)
  refine ⟨h.kf, ?_, ?_, ?_⟩
  · rw [hx711ReadFiltered_sKf h.kf]
    exact kalmanUpdateAdaptive_bounded forced _
  · rw [hx711ReadFiltered_sKf h.kf]
    exact h.qMin_eq
  · rw [hx711ReadFiltered_sKf h.kf]
    exact h.rMax_eq

/-- One call contracts the estimate towards what the window hands on. -/
theorem hx711ReadFiltered_contracts (h : Adaptive s) {raw : Int} {c : ℚ}
    (averaged : (stepAwareMovingAverage s raw).2 = c) :
    |(hx711ReadFiltered s raw).1.sKf.xEst - c| ≤ 5 / (1 / 1000 + 5) * |s.sKf.xEst - c| := by
  have forced := h.bounded.override (h.qMin_le_boostQ c)
  have step := kalmanUpdateAdaptive_contracts forced c
  rw [hx711ReadFiltered_sKf h.kf, averaged]
  simpa [h.qMin_eq, h.rMax_eq] using step

end KalmanStage

/-! ### The window under constant readings -/

/-- `xs` ends in `j` copies of `c`, or consists of copies of `c`. -/
def SettledBy (c : ℚ) (j : Nat) (xs : List ℚ) : Prop :=
  (∀ x ∈ xs, x = c) ∨ ∃ old, xs = old ++ List.replicate j c

theorem SettledBy.push {c : ℚ} {j : Nat} {xs : List ℚ} (h : SettledBy c j xs) (reset : Bool) :
    SettledBy c (j + 1) (stagePushes reset xs c) := by
  cases reset with
  | true =>
      refine .inl fun x hx => ?_
      simpa [stagePushes] using hx
  | false =>
      rcases h with same | ⟨old, rfl⟩
      · exact .inl (forall_stagePushes same rfl)
      · refine .inr ⟨old, ?_⟩
        rw [List.replicate_succ', ← List.append_assoc]
        rfl

/-- Once `n` readings have settled, a window of `n` cells holds nothing else. -/
theorem SettledBy.recent_eq {c : ℚ} {j n : Nat} {xs : List ℚ} (h : SettledBy c j xs)
    (hn : n ≤ j) : ∀ x ∈ recent n xs, x = c := by
  intro x hx
  rcases h with same | ⟨old, rfl⟩
  · exact same x (recent_subset _ _ hx)
  · rw [recent_append old (by simpa using hn)] at hx
    exact List.eq_of_mem_replicate (recent_subset _ _ hx)

/-- The state after `n` further readings of `c`. -/
def settle (s : Driver) (c : Int) (n : Nat) : Driver :=
  after hx711ReadFiltered s (List.replicate n c)

theorem settle_succ (s : Driver) (c : Int) (n : Nat) :
    settle s c (n + 1) = (hx711ReadFiltered (settle s c n) c).1 := by
  simp [settle, List.replicate_succ', after_append]

theorem settle_sMaWindow (s : Driver) (c : Int) (n : Nat) :
    (settle s c n).sMaWindow = s.sMaWindow := by
  induction n with
  | zero => rfl
  | succ n ih =>
      rw [settle_succ]
      exact ih

theorem settle_adaptive {s : Driver} (h : Adaptive s) (c : Int) (n : Nat) :
    Adaptive (settle s c n) :=
  after_invariant h fun _ raw _ ht => hx711ReadFiltered_adaptive ht raw

/-- After `n` readings of `c` the window has settled by `n`. -/
theorem settle_represents {s : Driver} (window : WindowOf (fun _ => True) s)
    (hwin : 0 < s.sMaWindow) (c : Int) (n : Nat) :
    ∃ xs, Represents (settle s c n).sMa s.sMaWindow.toNat xs ∧ SettledBy c n xs := by
  induction n with
  | zero =>
      obtain ⟨xs, held, _⟩ := window hwin
      exact ⟨xs, held, .inr ⟨xs, by simp⟩⟩
  | succ n ih =>
      obtain ⟨xs, held, settled⟩ := ih
      have active : 0 < (settle s c n).sMaWindow := by
        rw [settle_sMaWindow]
        exact hwin
      rw [settle_succ]
      exact ⟨_, (windowStage_spec active held _ c).1, settled.push _⟩

/-- **The moving average settles**: from the `W`-th constant reading on, the
window stage returns the constant. -/
theorem settle_average {s : Driver} (window : WindowOf (fun _ => True) s) (c : Int) {n : Nat}
    (hn : s.sMaWindow ≤ n + 1) : (stepAwareMovingAverage (settle s c n) c).2 = c := by
  by_cases hwin : 0 < s.sMaWindow
  · obtain ⟨xs, held, settled⟩ := settle_represents window hwin c n
    have active : 0 < (settle s c n).sMaWindow := by
      rw [settle_sMaWindow]
      exact hwin
    have enough : s.sMaWindow.toNat ≤ n + 1 := by omega
    rw [stepAwareMovingAverage, (windowStage_spec active held _ c).2]
    exact mean_eq_of_forall (recent_ne_nil held.size_pos (stagePushes_ne_nil _ _ _))
      ((settled.push _).recent_eq enough)
  · have inactive : ¬ 0 < (settle s c n).sMaWindow := by
      rw [settle_sMaWindow]
      exact hwin
    rw [stepAwareMovingAverage, windowStage_off inactive]

/-! ### Convergence -/

/-- Calls enough to bring a distance `d` down to `ε`. -/
def settleCalls (d ε : ℚ) : Nat := ⌈5 * d / (1 / 1000 * ε)⌉₊

theorem distance_le_of_settleCalls {d : Nat → ℚ} {ε : ℚ} (nonneg : 0 ≤ d 0) (hε : 0 < ε)
    (contracts : ∀ n, d (n + 1) ≤ 5 / (1 / 1000 + 5) * d n) {n : Nat}
    (hn : settleCalls (d 0) ε ≤ n) : d n ≤ ε := by
  have enough : 5 * d 0 / (1 / 1000 * ε) ≤ n :=
    (Nat.le_ceil _).trans (Nat.cast_le.mpr hn)
  have power := le_pow_mul_of_contracts (by norm_num) contracts n
  exact power.trans (pow_ratio_mul_le (by norm_num) (by norm_num) nonneg hε enough)

section Converges

variable {s : Driver} (h : Adaptive s) (window : WindowOf (fun _ => True) s) (c : Int)
include h window

/-- From the `W`-th constant reading on, every call contracts. -/
theorem settle_contracts {n : Nat} (hn : s.sMaWindow ≤ n + 1) :
    |(settle s c (n + 1)).sKf.xEst - c| ≤ 5 / (1 / 1000 + 5) * |(settle s c n).sKf.xEst - c| := by
  rw [settle_succ]
  exact hx711ReadFiltered_contracts (settle_adaptive h c n) (settle_average window c hn)

/-- The outputs after `settleCalls` calls stay within `ε`. -/
theorem settle_output_le {m : Nat} (hm : s.sMaWindow ≤ m + 1) {ε : ℚ} (hε : 0 < ε) {n : Nat}
    (hn : settleCalls |(settle s c m).sKf.xEst - c| ε ≤ n) :
    |(hx711ReadFiltered (settle s c (m + n)) c).2 - c| ≤ ε := by
  have contracts : ∀ n, |(settle s c (m + (n + 1))).sKf.xEst - c| ≤
      5 / (1 / 1000 + 5) * |(settle s c (m + n)).sKf.xEst - c| :=
    fun n => settle_contracts h window c (n := m + n) (by omega)
  have bound := distance_le_of_settleCalls (d := fun n => |(settle s c (m + n)).sKf.xEst - c|)
    (abs_nonneg _) hε contracts (hn.trans (Nat.le_succ n))
  rw [hx711ReadFiltered_output (settle_adaptive h c (m + n)).kf, ← settle_succ]
  exact bound

end Converges

/-- **Steady-state convergence.** After any history, under constant readings `c`
the window of `W` samples returns `c` from the `W`-th reading on, every call from
there on contracts the distance of the estimate to `c`, and the output stays
within `ε` of `c` after a number of calls read off the distance at that point. -/
theorem steady_state_convergence (s : Driver) (sMaBuf : Option (List ℚ)) (cfg : Config)
    (raw0 : Int) (history : List Int) (c : Int) (kf : cfg.useKf = true)
    (hW : 1 ≤ cfg.maWindow) (hq : 1 / 1000 ≤ cfg.qInit) (hr : 0 < cfg.rInit)
    (hr' : cfg.rInit ≤ 5) :
    ∀ m : Nat, cfg.maWindow ≤ m + 1 →
      (stepAwareMovingAverage (settle (filteredRun s sMaBuf cfg raw0 history) c m) c).2 = c ∧
      |(settle (filteredRun s sMaBuf cfg raw0 history) c (m + 1)).sKf.xEst - c| ≤
        5 / (1 / 1000 + 5) *
          |(settle (filteredRun s sMaBuf cfg raw0 history) c m).sKf.xEst - c| ∧
      ∀ ε : ℚ, 0 < ε → ∀ n,
        settleCalls |(settle (filteredRun s sMaBuf cfg raw0 history) c m).sKf.xEst - c| ε ≤ n →
        |(hx711ReadFiltered (settle (filteredRun s sMaBuf cfg raw0 history) c (m + n)) c).2 - c|
          ≤ ε := by
  have window := filteredRun_windowOf s sMaBuf cfg raw0 history
  have adaptive : Adaptive (filteredRun s sMaBuf cfg raw0 history) :=
    after_invariant (hx711Init_adaptive s sMaBuf raw0 kf hq hr hr')
      fun _ raw _ ht => hx711ReadFiltered_adaptive ht raw
  have nonneg : 0 ≤ cfg.maWindow := by omega
  have size := filteredRun_sMaWindow_le s sMaBuf nonneg raw0 history
  intro m hm
  have settled := size.trans hm
  exact ⟨settle_average window c settled, settle_contracts adaptive window c settled,
    fun ε hε n hn => settle_output_le adaptive window c settled hε hn⟩

/-- The defaults of the application, after two readings and under readings of 100. -/
theorem steady_state_convergence_default :
    (stepAwareMovingAverage (settle (filteredRun .boot (some (List.replicate 8 0))
      ⟨8, true, 1 / 2, 1⟩ 0 [3, -7]) 100 7) (100 : Int)).2 = (100 : Int) :=
  (steady_state_convergence .boot (some (List.replicate 8 0)) ⟨8, true, 1 / 2, 1⟩ 0 [3, -7] 100
    rfl (by decide) (by norm_num) (by norm_num) (by norm_num) 7 (by decide)).1

end SmartScale.Hx711
