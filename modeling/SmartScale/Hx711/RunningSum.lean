import Mathlib.Data.List.Induction
import SmartScale.Base.Rounding
import SmartScale.Hx711.Hull
import SmartScale.Hx711.StepAverage

/-!
Which values the running sum of the moving average takes under `hx711_read_filtered`, and when
binary32 holds all of them.

Each value is the sum of at most `W` readings (`updateSums_eq`), so with readings up to `B` it
stays within `W * B`. Up to `2^24` every integer is representable; beyond, `shares` gives
readings that keep clear of the step threshold and fill the window to `2^24 + 1`, which is not.
-/

namespace SmartScale.Hx711

open SmartScale.Transducer SmartScale.MovingAverage SmartScale.SlidingWindow SmartScale.Rounding

/-! ### The values of the sum -/

/-- What `moving_average_update` makes of `sum`: first without the outgoing cell, then with the
new value. -/
def updateSums (filter : MovingAvg) (newValue : ℚ) : List ℚ :=
  match filter.buffer with
  | none => []
  | some buffer =>
      if filter.size = 0 then []
      else
        let less := filter.sum - buffer.getD filter.index 0
        [less, less + newValue]

/-- What `moving_average_reset` makes of it. -/
def resetSums (filter : MovingAvg) (initValue : ℚ) : List ℚ :=
  match filter.buffer with
  | none => []
  | some _ => if filter.size = 0 then [] else [initValue]

/-- The values of `s_ma.sum` during `hx711_read_filtered`. -/
def readSums (s : Driver) (raw : Int) : List ℚ :=
  if 0 < s.sMaWindow then
    if s.boosting raw then resetSums s.sMa raw ++ updateSums (movingAverageReset s.sMa raw) raw
    else updateSums s.sMa raw
  else []

/-- Its values during the priming of `hx711_init`. -/
def initSums (s : Driver) (sMaBuf : Option (List ℚ)) (cfg : Config) (raw0 : Int) : List ℚ :=
  if 0 < cfg.maWindow ∧ sMaBuf.isSome then
    updateSums (movingAverageInit s.sMa sMaBuf cfg.maWindow) raw0
  else []

/-- A filtered read, with the values the sum takes in it. -/
def summedRead (s : Driver) (raw : Int) : Driver × List ℚ :=
  ((hx711ReadFiltered s raw).1, readSums s raw)

/-- Every value the sum takes from `hx711_init` on. -/
def sumValues (s : Driver) (sMaBuf : Option (List ℚ)) (cfg : Config) (raw0 : Int)
    (raws : List Int) : List ℚ :=
  initSums s sMaBuf cfg raw0 ++
    (outputs summedRead (hx711Init s sMaBuf cfg raw0) raws).flatten

section Values

variable {filter : MovingAvg} {n : Nat} {xs : List ℚ}

/-- The last of them is the sum the update leaves. -/
theorem updateSums_getLast (filter : MovingAvg) (v : ℚ) :
    (movingAverageUpdate filter v).1.sum = (updateSums filter v).getLastD filter.sum := by
  unfold movingAverageUpdate updateSums
  cases filter.buffer with
  | none => rfl
  | some buffer =>
      dsimp only
      split <;> rfl

/-- **Both are sums of recent pushes.** -/
theorem updateSums_eq (h : Represents filter n xs) (v : ℚ) :
    updateSums filter v = [(recent (n - 1) xs).sum, (recent n (xs ++ [v])).sum] := by
  obtain ⟨buffer, hbuffer, _, _⟩ := h.ring
  have listed : updateSums filter v = [filter.sum - buffer.getD filter.index 0,
      filter.sum - buffer.getD filter.index 0 + v] := by
    simp only [updateSums, hbuffer, h.size_eq, h.size_pos.ne', if_false]
  have added : filter.sum - buffer.getD filter.index 0 + v = (recent n (xs ++ [v])).sum := by
    rw [← (movingAverageUpdate_represents h v).sum_eq, updateSums_getLast, listed]
    rfl
  have less : filter.sum - buffer.getD filter.index 0 = (recent (n - 1) xs).sum := by
    rw [recent_concat h.size_pos, List.sum_append, List.sum_singleton] at added
    exact add_right_cancel added
  rw [listed, added, less]

theorem resetSums_eq (h : Represents filter n xs) (v : ℚ) : resetSums filter v = [v] := by
  obtain ⟨buffer, hbuffer, _, _⟩ := h.ring
  simp only [resetSums, hbuffer, h.size_eq, h.size_pos.ne', if_false]

end Values

/-! ### Readings that leave room -/

/-- An integer of at most `B` in magnitude. -/
def Counts (B : Nat) (v : ℚ) : Prop := ∃ k : ℤ, v = k ∧ |k| ≤ B

section Room

variable {B n : Nat} {v : ℚ} {xs ys : List ℚ}

theorem counts_sum (h : ∀ y ∈ ys, Counts B y) : Counts (ys.length * B) ys.sum := by
  induction ys with
  | nil => exact ⟨0, by simp, by simp⟩
  | cons y ys ih =>
      obtain ⟨k, hk, bound⟩ := h y List.mem_cons_self
      obtain ⟨l, hl, rest⟩ := ih fun z hz => h z (List.mem_cons_of_mem _ hz)
      refine ⟨k + l, by rw [List.sum_cons, hk, hl, Int.cast_add], (abs_add_le k l).trans ?_⟩
      rw [List.length_cons]
      push_cast at rest ⊢
      linarith

/-- At most `n` readings sum to a representable value. -/
theorem representable_sum (room : n * B ≤ 2 ^ 24) (h : ∀ y ∈ ys, Counts B y)
    (few : ys.length ≤ n) : Representable ys.sum := by
  obtain ⟨k, hk, bound⟩ := counts_sum h
  have least : ys.length * B ≤ 2 ^ 24 := (Nat.mul_le_mul_right B few).trans room
  rw [hk]
  exact representable_of_abs_le (bound.trans (by exact_mod_cast least))

theorem updateSums_representable {filter : MovingAvg} (held : Represents filter n xs)
    (room : n * B ≤ 2 ^ 24) (hxs : ∀ x ∈ xs, Counts B x) (hv : Counts B v) :
    ∀ sum ∈ updateSums filter v, Representable sum := by
  have pushed : ∀ x ∈ xs ++ [v], Counts B x := by
    intro x hx
    rcases List.mem_append.mp hx with old | new
    · exact hxs x old
    · rw [List.mem_singleton.mp new]
      exact hv
  rw [updateSums_eq held]
  simp only [List.mem_cons, List.not_mem_nil, or_false, forall_eq_or_imp, forall_eq]
  constructor
  · apply representable_sum room fun x hx => hxs x (recent_subset _ _ hx)
    rw [length_recent]
    omega
  · apply representable_sum room fun x hx => pushed x (recent_subset _ _ hx)
    rw [length_recent]
    omega

/-- **Step lemma.** -/
theorem readSums_representable {s : Driver} (h : WindowOf (Counts B) s)
    (room : s.sMaWindow.toNat * B ≤ 2 ^ 24) {raw : Int} (hraw : Counts B raw) :
    ∀ sum ∈ readSums s raw, Representable sum := by
  unfold readSums
  split
  · rename_i hwin
    obtain ⟨xs, held, hxs⟩ := h hwin
    have one : ∀ x ∈ [(raw : ℚ)], Counts B x := by
      intro x hx
      rw [List.mem_singleton.mp hx]
      exact hraw
    split
    · intro sum hsum
      rcases List.mem_append.mp hsum with reset | update
      · rw [resetSums_eq held] at reset
        rw [List.mem_singleton.mp reset]
        simpa using representable_sum room one held.size_pos
      · exact updateSums_representable (movingAverageReset_represents held raw) room one hraw
          sum update
    · exact updateSums_representable held room hxs hraw
  · simp

/-- **Run lemma.** -/
theorem sumValues_representable (s : Driver) (block : List ℚ) {cfg : Config} {raw0 : Int}
    {raws : List Int} (room : cfg.maWindow.toNat * B ≤ 2 ^ 24)
    (bounded : ∀ x ∈ raw0 :: raws, |x| ≤ B) :
    ∀ sum ∈ sumValues s (some block) cfg raw0 raws, Representable sum := by
  have counts : ∀ x ∈ raw0 :: raws, Counts B x := fun x hx => ⟨x, rfl, bounded x hx⟩
  have first : Counts B raw0 := counts raw0 List.mem_cons_self
  intro sum hsum
  rcases List.mem_append.mp hsum with priming | later
  · unfold initSums at priming
    split at priming
    · rename_i active
      exact updateSums_representable (movingAverageInit_represents s.sMa block active.1) room
        (fun x hx => absurd hx List.not_mem_nil) first sum priming
    · exact absurd priming List.not_mem_nil
  · obtain ⟨values, emitted, member⟩ := List.mem_flatten.mp later
    refine outputs_forall
      (I := fun t : Driver => WindowOf (Counts B) t ∧ t.sMaWindow = cfg.maWindow)
      (P := fun values => ∀ sum ∈ values, Representable sum) ?_ ?_ ?_ values emitted sum member
    · exact ⟨hx711Init_windowOf s (some block) cfg raw0 first, by simp [hx711Init]⟩
    · rintro t raw hraw ⟨window, size⟩
      exact ⟨hx711ReadFiltered_windowOf window (counts raw (List.mem_cons_of_mem _ hraw)), size⟩
    · rintro t raw hraw ⟨window, size⟩
      exact readSums_representable window (by rw [size]; exact room)
        (counts raw (List.mem_cons_of_mem _ hraw))

end Room

/-! ### Readings that leave none -/

/-- `total` in `n` shares that differ by at most one. -/
def shares (total n : Nat) : List Int :=
  List.replicate (total % n) (((total / n : Nat) : Int) + 1) ++
    List.replicate (n - total % n) ((total / n : Nat) : Int)

section Shares

variable {total n : Nat}

theorem length_shares (total : Nat) (pos : 0 < n) : (shares total n).length = n := by
  have below := Nat.mod_lt total pos
  simp only [shares, List.length_append, List.length_replicate]
  omega

theorem sum_shares (total : Nat) (pos : 0 < n) : (shares total n).sum = total := by
  have below : total % n ≤ n := (Nat.mod_lt total pos).le
  have parts : (n : ℤ) * (total / n : Nat) + (total % n : Nat) = total := by
    exact_mod_cast Nat.div_add_mod total n
  simp only [shares, List.sum_append, List.sum_replicate, nsmul_eq_mul, Nat.cast_sub below]
  linarith

theorem mem_shares {x : Int} (hx : x ∈ shares total n) :
    (total / n : Nat) ≤ x ∧ x ≤ (total / n : Nat) + 1 := by
  rcases List.mem_append.mp hx with larger | smaller
  · rw [List.eq_of_mem_replicate larger]
    omega
  · rw [List.eq_of_mem_replicate smaller]
    omega

/-- No share is above a bound that `n` of them could meet. -/
theorem shares_le {B : Nat} (pos : 0 < n) (room : total ≤ n * B) {x : Int}
    (hx : x ∈ shares total n) : x ≤ B := by
  have parts := Nat.div_add_mod total n
  rcases List.mem_append.mp hx with larger | smaller
  · rw [List.eq_of_mem_replicate larger]
    have some_left : total % n ≠ 0 := fun none => by simp [none] at larger
    have below : total / n < B := by
      apply lt_of_mul_lt_mul_left (a := n) _ (Nat.zero_le n)
      omega
    exact_mod_cast below
  · rw [List.eq_of_mem_replicate smaller]
    exact_mod_cast (Nat.div_le_iff_le_mul_add_pred pos).mpr (by omega)

/-- Two shares or more have a first and a last. -/
theorem shares_eq_cons_concat (total : Nat) (two : 2 ≤ n) :
    ∃ first middle last, shares total n = first :: (middle ++ [last]) := by
  have length : (shares total n).length = n := length_shares total (by omega)
  match shares total n, length with
  | [], length =>
      rw [List.length_nil] at length
      omega
  | first :: rest, length =>
      rcases List.eq_nil_or_concat rest with rfl | ⟨middle, last, rfl⟩
      · rw [List.length_singleton] at length
        omega
      · exact ⟨first, middle, last, by rw [List.concat_eq_append]⟩

end Shares

/-- Readings within the step threshold of one another go into the window one by one. -/
structure Steady (lo hi : ℚ) (raw0 : Int) (raws : List Int) (t : Driver) : Prop where
  tracks : TracksPushes (t, ⟨raw0, raws.map fun x : Int => (x : ℚ), false⟩)
  window : WindowOf (· ∈ Set.Icc lo hi) t
  last : t.sLastOutput ∈ Set.Icc lo hi

section Run

variable {s t : Driver} {sMaBuf : Option (List ℚ)} {cfg : Config} {raw0 raw : Int}
  {raws : List Int} {lo hi : ℚ}

theorem Steady.stepDetected_eq (h : Steady lo hi raw0 raws t) (close : hi - lo ≤ stepThreshold)
    {w : ℚ} (inside : w ∈ Set.Icc lo hi) : t.stepDetected w = false := by
  rw [Driver.stepDetected, decide_eq_false_iff_not, not_lt, abs_le]
  obtain ⟨low, high⟩ := h.last
  obtain ⟨low', high'⟩ := inside
  constructor <;> linarith

theorem hx711Init_steady (plain : cfg.useKf = false) (inside : (raw0 : ℚ) ∈ Set.Icc lo hi) :
    Steady lo hi raw0 [] (hx711Init s sMaBuf cfg raw0) where
  tracks := hx711Init_tracksPushes s sMaBuf raw0 plain
  window := hx711Init_windowOf s sMaBuf cfg raw0 inside
  last := by
    rw [hx711Init_sLastOutput s sMaBuf cfg raw0 plain]
    exact inside

theorem hx711ReadFiltered_steady (h : Steady lo hi raw0 raws t) (close : hi - lo ≤ stepThreshold)
    (inside : (raw : ℚ) ∈ Set.Icc lo hi) :
    Steady lo hi raw0 (raws ++ [raw]) (hx711ReadFiltered t raw).1 where
  tracks := by
    have next := trackedRead_tracksPushes h.tracks raw
    rw [List.map_append, List.map_singleton]
    simpa only [trackedRead, Since.read, h.stepDetected_eq close inside, Bool.false_eq_true,
      if_false] using next
  window := hx711ReadFiltered_windowOf h.window inside
  last := by
    show (hx711ReadFiltered t raw).2 ∈ Set.Icc lo hi
    rw [(hx711ReadFiltered_plain h.tracks.plain raw).1]
    exact windowStage_mem_Icc h.window _ inside

/-- **Run lemma**: steady readings stay steady. -/
theorem steady_run (s : Driver) (sMaBuf : Option (List ℚ)) (plain : cfg.useKf = false)
    (close : hi - lo ≤ stepThreshold)
    (within : ∀ x ∈ raw0 :: raws, (x : ℚ) ∈ Set.Icc lo hi) :
    Steady lo hi raw0 raws (after hx711ReadFiltered (hx711Init s sMaBuf cfg raw0) raws) := by
  induction raws using List.reverseRec with
  | nil => exact hx711Init_steady plain (within raw0 List.mem_cons_self)
  | append_singleton raws raw ih =>
      have before := ih fun x hx => within x (by
        rw [← List.cons_append]
        exact List.mem_append_left _ hx)
      rw [after_append, after_cons, after_nil]
      exact hx711ReadFiltered_steady before close (within raw (by simp))

/-- The reading that fills the window makes the sum that of all readings. -/
theorem Steady.sum_mem_readSums (h : Steady lo hi raw0 raws t) (close : hi - lo ≤ stepThreshold)
    (inside : (raw : ℚ) ∈ Set.Icc lo hi)
    (full : t.sMaWindow = (raw0 :: (raws ++ [raw])).length) :
    (((raw0 :: (raws ++ [raw])).sum : Int) : ℚ) ∈ readSums t raw := by
  have active : 0 < t.sMaWindow := by
    rw [full, List.length_cons]
    omega
  have calm : ¬ t.boosting raw = true := by
    rw [h.tracks.boosting_eq, h.stepDetected_eq close inside]
    exact Bool.false_ne_true
  have pushes : Since.pushes ⟨raw0, raws.map fun x : Int => (x : ℚ), false⟩ ++ [(raw : ℚ)] =
      (raw0 :: (raws ++ [raw])).map fun x : Int => (x : ℚ) := by
    simp [Since.pushes, Since.readings]
  have whole : recent t.sMaWindow.toNat
      ((raw0 :: (raws ++ [raw])).map fun x : Int => (x : ℚ)) =
      (raw0 :: (raws ++ [raw])).map fun x : Int => (x : ℚ) := by
    rw [full, recent, List.length_map, Int.toNat_natCast, Nat.sub_self, List.drop_zero]
  have total : (((raw0 :: (raws ++ [raw])).sum : Int) : ℚ) =
      ((raw0 :: (raws ++ [raw])).map fun x : Int => (x : ℚ)).sum :=
    map_list_sum (Int.castRingHom ℚ) _
  rw [readSums, if_pos active, if_neg calm, updateSums_eq (h.tracks.window active), pushes, whole,
    total]
  exact List.mem_cons_of_mem _ List.mem_cons_self

theorem readSums_subset_sumValues (s : Driver) (sMaBuf : Option (List ℚ)) (cfg : Config)
    (raw0 : Int) (raws : List Int) (raw : Int) :
    readSums (after hx711ReadFiltered (hx711Init s sMaBuf cfg raw0) raws) raw ⊆
      sumValues s sMaBuf cfg raw0 (raws ++ [raw]) := by
  have same : after summedRead (hx711Init s sMaBuf cfg raw0) raws =
      after hx711ReadFiltered (hx711Init s sMaBuf cfg raw0) raws :=
    after_congr fun _ _ => rfl
  rw [sumValues, outputs_append, same]
  intro v hv
  simp [summedRead, hv]

/-- Steady readings that just fill the window sum up in it. -/
theorem sum_mem_sumValues (s : Driver) (block : List ℚ) (plain : cfg.useKf = false)
    (close : hi - lo ≤ stepThreshold)
    (within : ∀ x ∈ raw0 :: (raws ++ [raw]), (x : ℚ) ∈ Set.Icc lo hi)
    (full : cfg.maWindow = (raw0 :: (raws ++ [raw])).length) :
    (((raw0 :: (raws ++ [raw])).sum : Int) : ℚ) ∈
      sumValues s (some block) cfg raw0 (raws ++ [raw]) := by
  have before : ∀ x ∈ raw0 :: raws, (x : ℚ) ∈ Set.Icc lo hi := fun x hx => within x (by
    rw [← List.cons_append]
    exact List.mem_append_left _ hx)
  have steady := steady_run s (some block) plain close before
  have size : (after hx711ReadFiltered (hx711Init s (some block) cfg raw0) raws).sMaWindow =
      cfg.maWindow :=
    after_invariant (I := fun t : Driver => t.sMaWindow = cfg.maWindow) (by simp [hx711Init])
      fun _ _ _ h => h
  exact readSums_subset_sumValues s (some block) cfg raw0 raws raw
    (steady.sum_mem_readSums close (within raw (by simp)) (size.trans full))

end Run

/-- Past `2^24`, the shares of `2^24 + 1` are readings whose sum is not representable. -/
theorem exists_not_representable (s : Driver) (block : List ℚ) {cfg : Config} {B : Nat}
    (plain : cfg.useKf = false) (bits : B ≤ 2 ^ 23) (large : 2 ^ 24 < cfg.maWindow.toNat * B) :
    ∃ (raw0 : Int) (raws : List Int), (∀ x ∈ raw0 :: raws, Is24Bit x ∧ |x| ≤ B) ∧
      ∃ v ∈ sumValues s (some block) cfg raw0 raws, ¬ Representable v := by
  set n := cfg.maWindow.toNat with hn
  have three : 3 ≤ n := by
    by_contra few
    have most : n * B ≤ 2 * 2 ^ 23 := Nat.mul_le_mul (by omega) bits
    omega
  -- a share is about a third of `2^24` or less, so that it is a reading
  have share : (2 ^ 24 + 1) / n ≤ (2 ^ 24 + 1) / 3 := Nat.div_le_div_left three (by norm_num)
  have nonneg : 0 ≤ (((2 ^ 24 + 1) / n : Nat) : Int) := Int.natCast_nonneg _
  obtain ⟨raw0, raws, raw, parts⟩ := shares_eq_cons_concat (2 ^ 24 + 1) (show 2 ≤ n by omega)
  have length : (raw0 :: (raws ++ [raw])).length = n := by rw [← parts, length_shares _ (by omega)]
  have total : (raw0 :: (raws ++ [raw])).sum = 2 ^ 24 + 1 := by
    rw [← parts, sum_shares _ (by omega)]
    norm_num
  have close : ((((2 ^ 24 + 1) / n : Nat) : Int) + 1 : ℚ) - (((2 ^ 24 + 1) / n : Nat) : Int) ≤
      stepThreshold := by
    norm_num [stepThreshold]
  refine ⟨raw0, raws ++ [raw], ?_, ((2 ^ 24 + 1 : ℤ) : ℚ), ?_, ?_⟩
  · intro x hx
    rw [← parts] at hx
    obtain ⟨low, high⟩ := mem_shares hx
    have least := shares_le (by omega) large hx
    refine ⟨⟨?_, ?_⟩, abs_le.mpr ⟨?_, least⟩⟩ <;> omega
  · rw [← total]
    refine sum_mem_sumValues s block plain close (fun x hx => ?_) (by omega)
    rw [← parts] at hx
    obtain ⟨low, high⟩ := mem_shares hx
    exact ⟨by exact_mod_cast low, by exact_mod_cast high⟩
  · exact not_representable_of_odd (by decide) (by norm_num)

/-- **How large the readings may get**: the running sum of a window of `W` is representable in
every run with 24-bit readings of at most `B` in magnitude exactly if `W * B` is at most
`2^24`. -/
theorem running_sum_exact_iff (s : Driver) (block : List ℚ) (cfg : Config) (B : Nat)
    (plain : cfg.useKf = false) (hW : 1 ≤ cfg.maWindow) (bits : B ≤ 2 ^ 23) :
    (∀ (raw0 : Int) (raws : List Int), (∀ x ∈ raw0 :: raws, Is24Bit x ∧ |x| ≤ B) →
      ∀ v ∈ sumValues s (some block) cfg raw0 raws, Representable v) ↔
    cfg.maWindow * B ≤ 2 ^ 24 := by
  have same : cfg.maWindow * B = ((cfg.maWindow.toNat * B : Nat) : Int) := by
    rw [Nat.cast_mul, Int.toNat_of_nonneg (by omega)]
  rw [same]
  constructor
  · intro exact_runs
    by_contra large
    obtain ⟨raw0, raws, readings, v, taken, lost⟩ :=
      exists_not_representable s block plain bits (by exact_mod_cast not_le.mp large)
    exact lost (exact_runs raw0 raws readings v taken)
  · intro room raw0 raws readings
    exact sumValues_representable s block (by exact_mod_cast room) fun x hx => (readings x hx).2

/-- A window of 8 with readings below a sixteenth of the range. -/
theorem running_sum_exact_eight :
    (sumValues .boot (some (List.replicate 8 0)) ⟨8, false, 0, 0⟩ 500000
      [500003, -1, 500007]).Forall Representable :=
  List.forall_iff_forall_mem.mpr
    ((running_sum_exact_iff .boot (List.replicate 8 0) ⟨8, false, 0, 0⟩ (2 ^ 19) rfl (by norm_num)
      (by norm_num)).mpr (by norm_num) 500000 [500003, -1, 500007] (by simp [Is24Bit]))

/-- Three readings at the top of the range do not add up in binary32. -/
theorem running_sum_rounds :
    ¬ ∀ (s : Driver) (block : List ℚ) (cfg : Config) (raw0 : Int) (raws : List Int),
      cfg.useKf = false → 1 ≤ cfg.maWindow → (∀ x ∈ raw0 :: raws, Is24Bit x) →
      ∀ v ∈ sumValues s (some block) cfg raw0 raws, Representable v := by
  intro claimed
  have all := claimed .boot [0, 0, 0] ⟨3, false, 0, 0⟩ 8388607 [8388607, 8388607] rfl
    (by norm_num) (by simp [Is24Bit])
  have taken : ((25165821 : ℤ) : ℚ) ∈
      sumValues .boot (some [0, 0, 0]) ⟨3, false, 0, 0⟩ 8388607 [8388607, 8388607] := by
    decide +kernel
  exact not_representable_of_odd (by decide) (by norm_num) (all _ taken)

end SmartScale.Hx711
