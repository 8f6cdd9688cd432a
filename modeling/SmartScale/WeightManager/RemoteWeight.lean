import SmartScale.Base.Rounding
import SmartScale.WeightManager.SharedQueue

/-!
The weight a `GET /weight` request is told against the one the weight manager
computes from the same reading. Both are shown with `%.2f`, and `weight_get_handler`
shows the reading itself, where the weight manager truncates and converts it.

* `not_remoteIsLocal`: under no calibration is every reading reported as it weighs. The weight
  manager cannot tell 0.5 from 0, and the request can.
* `agrees_exact_iff`: in exact arithmetic they agree on a reading where the calibration has not
  failed and moves its whole part by what the truncation cut off (`printed_intCast_iff` where that
  is nothing).

A calibration is a pair of binary32 values, so that one that has failed is covered. The rounding
of its arithmetic is a parameter: `ofRat` is that of `float`, `finite` is none.
-/

namespace SmartScale.WeightManager

open SmartScale.Binary32 SmartScale.Calibration SmartScale.Rounding SmartScale.BoundedQueue

/-- What `%.2f` prints, in hundredths. -/
def hundredths (v : ℚ) : ℤ := roundHalfEven (100 * v)

/-- A printed `float`: a number of hundredths, or one of the texts that are no number. -/
inductive Printed where
  | number (hundredths : ℤ)
  | infinite (negative : Bool)
  | nan
deriving DecidableEq

/-- `%.2f` -/
def printed : Value → Printed
  | .finite v => .number (hundredths v)
  | .infinite negative => .infinite negative
  | .nan => .nan

/-- The weight in a response, as it is printed. -/
def Response.printed : Response → Option Printed
  | .weight value => some (WeightManager.printed (.finite value))
  | .serverError => none

/-- `calibration_t` with its members as they are stored: a division by zero leaves an infinity. -/
structure StoredCalibration where
  slope : Value
  intercept : Value
deriving DecidableEq

/-- `calibration_convert`, each operation rounded. -/
def calibrationConvertRounded (round : ℚ → Value) (cal : StoredCalibration) (raw : ℤ) : Value :=
  (cal.slope.mul round (round raw)).add round cal.intercept

/-- `current_weight` in `weight_manager_task`. -/
def currentWeight (round : ℚ → Value) (cal : StoredCalibration) (rawCount : ℚ) : Value :=
  calibrationConvertRounded round cal (truncate rawCount)

/-- The response to a request that takes the reading `r`, and the weight manager's weight
for `r`, are printed alike. -/
def Agrees (round : ℚ → Value) (cal : StoredCalibration) (response : Option Response) (r : ℚ) :
    Prop :=
  response.bind Response.printed = some (printed (currentWeight round cal r))

/-- Every reading that a request takes is reported as the weight manager would weigh it. -/
def RemoteIsLocal (round : ℚ → Value) (cal : StoredCalibration) : Prop :=
  ∀ (s : System) (rest : BoundedQueue ℚ 8) (r : ℚ), s.hx711Q.receive = (rest, some r) →
    Agrees round cal (weightGetHandler s).2.response r

/-- `hx711_q` with one reading. -/
def System.holding (r : ℚ) : System := ⟨⟨[r], by simp⟩, Wm.start⟩

section Weights

variable {round : ℚ → Value} {cal : StoredCalibration} {s : System} {rest : BoundedQueue ℚ 8}
  {r : ℚ}

/-- In exact arithmetic it is the weight the state machine processes. -/
theorem processReading_currentWeight (cal : CalibrationT) (wm : Wm) :
    processReading cal wm r =
      processWeight wm (currentWeight .finite ⟨.finite cal.slope, .finite cal.intercept⟩ r) := rfl

/-- The response is the reading taken, not converted. -/
theorem weightGetHandler_response (taken : s.hx711Q.receive = (rest, some r)) :
    (weightGetHandler s).2.response = some (.weight r) := by
  simp only [weightGetHandler, taken]

theorem agrees_taken_iff (taken : s.hx711Q.receive = (rest, some r)) :
    Agrees round cal (weightGetHandler s).2.response r ↔
      .number (hundredths r) = printed (currentWeight round cal r) := by
  rw [weightGetHandler_response taken]
  exact Option.some_inj

/-! ### Whole calibrations -/

theorem truncate_intCast (n : ℤ) : truncate n = n := by
  rw [truncate, Int.floor_intCast, Int.ceil_intCast, ite_self]

/-- A whole value is printed with no hundredths. -/
theorem hundredths_intCast (n : ℤ) : hundredths n = 100 * n := by
  have whole : (100 : ℚ) * n = ((100 * n : ℤ) : ℚ) := by push_cast; rfl
  rw [hundredths, whole, roundHalfEven_intCast]

/-- Readings that truncate alike weigh alike, so that one that agrees is printed as they are. -/
theorem RemoteIsLocal.hundredths_eq (always : RemoteIsLocal round cal) {r r' : ℚ}
    (cut : truncate r = truncate r') : hundredths r = hundredths r' := by
  have one := (agrees_taken_iff rfl).mp (always (.holding r) empty r rfl)
  have other := (agrees_taken_iff rfl).mp (always (.holding r') empty r' rfl)
  have same : currentWeight round cal r = currentWeight round cal r' := by
    rw [currentWeight, currentWeight, cut]
  rw [same, ← other] at one
  exact Printed.number.inj one

/-- **No calibration agrees on all readings**: 0.5 weighs what 0 weighs, and is reported as
0.50. -/
theorem not_remoteIsLocal (round : ℚ → Value) (cal : StoredCalibration) :
    ¬ RemoteIsLocal round cal := by
  intro always
  have cut : truncate (1 / 2) = truncate ((0 : ℤ) : ℚ) := by
    rw [truncate_intCast, truncate, if_pos (by norm_num), Int.floor_eq_zero_iff]
    norm_num
  have half : hundredths (1 / 2) = 50 := by
    rw [hundredths, roundHalfEven_eq_iff]
    exact .inl (by norm_num)
  have same := always.hundredths_eq cut
  rw [half, hundredths_intCast] at same
  cases same

/-! ### Single readings -/

/-- Whole hundreds of hundredths are kept. -/
theorem hundredths_intCast_add (n : ℤ) (v : ℚ) :
    hundredths (n + v) = 100 * n + hundredths v := by
  have even : Even (100 * n) := (by decide : Even (100 : ℤ)).mul_right n
  have scaled : 100 * ((n : ℚ) + v) = ((100 * n : ℤ) : ℚ) + 100 * v := by
    push_cast
    ring
  rw [hundredths, scaled, roundHalfEven_even_add even, hundredths]

/-- A calibration that has failed weighs nothing to a number. -/
theorem calibrated_of_number {n : ℤ} (weighs : printed (currentWeight round cal r) = .number n) :
    ∃ slope intercept, cal = ⟨.finite slope, .finite intercept⟩ := by
  cases weight : currentWeight round cal r with
  | finite w =>
      obtain ⟨⟨product, multiplied⟩, intercept, stored⟩ := Value.finite_of_add weight
      obtain ⟨⟨slope, stored'⟩, -⟩ := Value.finite_of_mul multiplied
      obtain ⟨_, _⟩ := cal
      subst stored stored'
      exact ⟨slope, intercept, rfl⟩
  | infinite _ | nan =>
      rw [weight] at weighs
      cases weighs

/-- In exact arithmetic the two agree on a reading where the calibration moves its whole part by
what the truncation cut off, to the hundredth. -/
theorem printed_exact_iff (slope intercept r : ℚ) :
    .number (hundredths r) = printed (currentWeight .finite ⟨.finite slope, .finite intercept⟩ r) ↔
      hundredths (r - (truncate r : ℤ)) =
        hundredths ((slope - 1) * (truncate r : ℤ) + intercept) := by
  have weighs : currentWeight .finite ⟨.finite slope, .finite intercept⟩ r =
      .finite (slope * (truncate r : ℤ) + intercept) := rfl
  have reading : hundredths r = 100 * truncate r + hundredths (r - (truncate r : ℤ)) := by
    rw [← hundredths_intCast_add, add_sub_cancel]
  have weight : hundredths (slope * (truncate r : ℤ) + intercept) =
      100 * truncate r + hundredths ((slope - 1) * (truncate r : ℤ) + intercept) := by
    rw [← hundredths_intCast_add]
    congr 1
    ring
  rw [weighs, printed, Printed.number.injEq, reading, weight]
  exact add_right_inj _

/-- A whole reading is moved by at most half a hundredth. -/
theorem printed_intCast_iff (slope intercept : ℚ) (n : ℤ) :
    .number (hundredths n) = printed (currentWeight .finite ⟨.finite slope, .finite intercept⟩ n) ↔
      |(slope - 1) * n + intercept| ≤ 1 / 200 := by
  have nothing : hundredths 0 = 0 := by exact_mod_cast hundredths_intCast 0
  rw [printed_exact_iff, truncate_intCast, sub_self, nothing, eq_comm, hundredths,
    roundHalfEven_eq_iff, roundsTo_even_iff Even.zero, Int.cast_zero, sub_zero, abs_mul,
    abs_of_pos (by norm_num), ← le_div_iff₀' (by norm_num)]
  norm_num

/-- Whatever a calibration is, in exact arithmetic. -/
theorem agrees_exact_iff (taken : s.hx711Q.receive = (rest, some r)) :
    Agrees .finite cal (weightGetHandler s).2.response r ↔
      ∃ slope intercept, cal = ⟨.finite slope, .finite intercept⟩ ∧
        hundredths (r - (truncate r : ℤ)) =
          hundredths ((slope - 1) * (truncate r : ℤ) + intercept) := by
  rw [agrees_taken_iff taken]
  constructor
  · intro agrees
    obtain ⟨slope, intercept, rfl⟩ := calibrated_of_number agrees.symm
    exact ⟨slope, intercept, rfl, (printed_exact_iff slope intercept r).mp agrees⟩
  · rintro ⟨slope, intercept, rfl, moved⟩
    exact (printed_exact_iff slope intercept r).mpr moved

end Weights

/-- **Remote weight is never local weight**: no calibration, whatever the rounding of its
arithmetic, has every reading reported as it weighs; and a single reading is, in exact
arithmetic, where the calibration has not failed and moves its whole part by what the truncation
cut off. -/
theorem remoteWeight_iff (round : ℚ → Value) (cal : StoredCalibration) :
    ¬ RemoteIsLocal round cal ∧
      ∀ (s : System) (rest : BoundedQueue ℚ 8) (r : ℚ), s.hx711Q.receive = (rest, some r) →
        (Agrees .finite cal (weightGetHandler s).2.response r ↔
          ∃ slope intercept, cal = ⟨.finite slope, .finite intercept⟩ ∧
            hundredths (r - (truncate r : ℤ)) =
              hundredths ((slope - 1) * (truncate r : ℤ) + intercept)) :=
  ⟨not_remoteIsLocal round cal, fun _ _ _ taken => agrees_exact_iff taken⟩

/-- With the identity, a reading of 25 is reported as it weighs. -/
theorem remoteWeight_iff_identity :
    Agrees .finite ⟨.finite 1, .finite 0⟩ (weightGetHandler (.holding 25)).2.response 25 := by
  have cut : truncate 25 = 25 := truncate_intCast 25
  refine ((remoteWeight_iff .finite ⟨.finite 1, .finite 0⟩).2 (.holding 25) empty 25 rfl).mpr
    ⟨1, 0, rfl, ?_⟩
  rw [cut]
  norm_num

/-- With a slope of 2, a reading of 1 is reported as 1.00 and weighs 2.00. -/
theorem double_slope_differs :
    ¬ ∀ cal : StoredCalibration, RemoteIsLocal Value.ofRat cal := by
  intro always
  have agrees := (agrees_taken_iff rfl).mp
    (always ⟨.finite 2, .finite 0⟩ (.holding 1) empty 1 rfl)
  have one : Value.ofRat 1 = .finite 1 := by
    exact_mod_cast Value.ofRat_intCast (n := 1) (by norm_num)
  have two : Value.ofRat 2 = .finite 2 := Value.ofRat_intCast (n := 2) (by norm_num)
  have cut : truncate 1 = 1 := by exact_mod_cast truncate_intCast 1
  have weight : currentWeight Value.ofRat ⟨.finite 2, .finite 0⟩ 1 = .finite 2 := by
    simp only [currentWeight, calibrationConvertRounded, cut, Int.cast_one, one, Value.mul, mul_one,
      two, Value.add, add_zero]
  have reported : hundredths 1 = 100 := by exact_mod_cast hundredths_intCast 1
  have weighed : hundredths 2 = 200 := hundredths_intCast 2
  rw [weight, printed, reported, weighed] at agrees
  exact absurd (Printed.number.inj agrees) (by decide)

end SmartScale.WeightManager
