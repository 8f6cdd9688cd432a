import Mathlib.Tactic.FieldSimp
import Mathlib.Tactic.Ring
import SmartScale.Calibration.Tare
import SmartScale.Hx711.Hull

/-!
`calibration_compute` of `calibration/calibration.c` without `MULTI_POINT_CALIBRATION`, and the
calibration of `app_main` (`main.c`), in exact rational arithmetic where a division by zero has
no value.

* `singlePoint_sound_iff`: the function keeps its contract exactly when the two readings differ
  or the weight is rejected.
* `appMain_model_isSome_iff`: `app_main` hands a model to the weight manager exactly when the
  reading with the weight differs from the tare.
-/

namespace SmartScale.Calibration.SinglePoint

open SmartScale.Hx711

/-- `calibration_t`; a member computed from an undefined quotient is `none`. -/
structure Stored where
  slope : Option ℚ
  intercept : Option ℚ
deriving DecidableEq

/-- The model, where both members are defined. -/
def Stored.model : Stored → Option CalibrationT
  | ⟨some slope, some intercept⟩ => some ⟨slope, intercept⟩
  | _ => none

/-- `calibration_convert` -/
def calibrationConvert? (cal : Stored) (raw : Int32) : Option ℚ :=
  cal.model.map fun model => calibrationConvert model raw.toInt

/-- The quotient, where it is defined. -/
def div? (a b : ℚ) : Option ℚ := if b = 0 then none else some (a / b)

/-- `calibration_compute`: the object of `cal` after the call, and the code it returns. A
NULL pointer is `none`. -/
def calibrationCompute (cal : Option Stored) (zeroRaw rawAtWeight : Int32) (weight : ℚ) :
    Option Stored × Int :=
  match cal with
  | none => (none, -1)
  | some _ =>
      if weight = 0 then (cal, -1)
      else
        let slope := div? weight (rawAtWeight - zeroRaw).toInt
        let intercept := slope.map fun slope => -slope * (zeroRaw.toInt : ℚ)
        (some ⟨slope, intercept⟩, 0)

/-- `CAL_SAMPLES` -/
def calSamples : Nat := 10

/-- `CAL_KNOWN_WEIGHT_G` -/
def calKnownWeightG : ℚ := 200

/-- `zero_raw` in `app_main`, after the tare of the samples. -/
def appMainZeroRaw (rawBuf : Vector Int32 calSamples) : Int32 :=
  (calibrationTare (some 0) (some rawBuf.toList)).1.getD 0

/-- `g_calib` as `app_main` hands it to `weight_manager_init`: neither code is looked at. -/
def appMainCalib (rawBuf : Vector Int32 calSamples) (rawAtWeight : Int32) : Stored :=
  let gCalib : Stored := ⟨some 0, some 0⟩
  (calibrationCompute (some gCalib) (appMainZeroRaw rawBuf) rawAtWeight calKnownWeightG).1.getD
    gCalib

/-- The contract: a code of 0 exactly for a usable model, which then passes through both points;
otherwise a negative code and an object as it was. -/
structure Sound (cal : Stored) (zeroRaw rawAtWeight : Int32) (weight : ℚ)
    (result : Option Stored × Int) : Prop where
  succeeds : result.2 = 0 ↔ weight ≠ 0 ∧ rawAtWeight ≠ zeroRaw
  converts : result.2 = 0 → ∃ after, result.1 = some after ∧
    calibrationConvert? after zeroRaw = some 0 ∧
    calibrationConvert? after rawAtWeight = some weight
  fails : result.2 ≠ 0 → result.2 < 0 ∧ result.1 = some cal

/-! ### The difference of the readings -/

theorem sub_toInt {a b : Int32} (ha : Is24Bit a.toInt) (hb : Is24Bit b.toInt) :
    (a - b).toInt = a.toInt - b.toInt := by
  obtain ⟨lowA, highA⟩ := ha
  obtain ⟨lowB, highB⟩ := hb
  rw [Int32.toInt_sub]
  exact Int.bmod_eq_of_le (by omega) (by omega)

/-- Wrapped or not, only equal readings have no difference. -/
theorem sub_toInt_eq_zero_iff (a b : Int32) : (a - b).toInt = 0 ↔ a = b := by
  rw [← Int32.toInt_zero, Int32.toInt_inj, Int32.sub_eq_iff_eq_add, Int32.zero_add]

/-! ### What the call stores -/

/-- With equal readings the call stores a slope that is undefined, and returns 0. -/
theorem calibrationCompute_equal (cal : Stored) (raw : Int32) {weight : ℚ} (loaded : weight ≠ 0) :
    calibrationCompute (some cal) raw raw weight = (some ⟨none, none⟩, 0) := by
  simp [calibrationCompute, loaded, div?]

/-- With different readings it stores the line through both points. -/
theorem calibrationCompute_apart (cal : Stored) {zeroRaw rawAtWeight : Int32} {weight : ℚ}
    (loaded : weight ≠ 0) (apart : rawAtWeight ≠ zeroRaw) :
    let slope := weight / (rawAtWeight - zeroRaw).toInt
    calibrationCompute (some cal) zeroRaw rawAtWeight weight =
      (some ⟨some slope, some (-slope * zeroRaw.toInt)⟩, 0) := by
  have nonzero : (((rawAtWeight - zeroRaw).toInt : Int) : ℚ) ≠ 0 :=
    Int.cast_ne_zero.mpr (mt (sub_toInt_eq_zero_iff _ _).mp apart)
  simp only [calibrationCompute, if_neg loaded, div?, if_neg nonzero, Option.map_some]

theorem model_isSome_iff (cal : Stored) (zeroRaw rawAtWeight : Int32) {weight : ℚ}
    (loaded : weight ≠ 0) : ∃ after : Stored,
      calibrationCompute (some cal) zeroRaw rawAtWeight weight = (some after, 0) ∧
      (after.model.isSome ↔ rawAtWeight ≠ zeroRaw) := by
  by_cases apart : rawAtWeight = zeroRaw
  · subst apart
    exact ⟨_, calibrationCompute_equal cal rawAtWeight loaded, by simp [Stored.model]⟩
  · exact ⟨_, calibrationCompute_apart cal loaded apart, by simp [Stored.model, apart]⟩

/-- **`app_main` hands over a model exactly when the weight moved the reading.** -/
theorem appMain_model_isSome_iff (rawBuf : Vector Int32 calSamples) (rawAtWeight : Int32) :
    (appMainCalib rawBuf rawAtWeight).model.isSome ↔ rawAtWeight ≠ appMainZeroRaw rawBuf := by
  have loaded : calKnownWeightG ≠ 0 := by norm_num [calKnownWeightG]
  obtain ⟨after, stored, defined⟩ :=
    model_isSome_iff ⟨some 0, some 0⟩ (appMainZeroRaw rawBuf) rawAtWeight loaded
  rw [appMainCalib, stored]
  exact defined

/-! ### The contract -/

theorem sound_of_apart (cal : Stored) {zeroRaw rawAtWeight : Int32} {weight : ℚ}
    (zero24 : Is24Bit zeroRaw.toInt) (weight24 : Is24Bit rawAtWeight.toInt)
    (loaded : weight ≠ 0) (apart : rawAtWeight ≠ zeroRaw) :
    Sound cal zeroRaw rawAtWeight weight
      (calibrationCompute (some cal) zeroRaw rawAtWeight weight) := by
  have nonzero : (rawAtWeight.toInt : ℚ) - zeroRaw.toInt ≠ 0 := by
    rw [← Int.cast_sub, ← sub_toInt weight24 zero24, Int.cast_ne_zero]
    exact mt (sub_toInt_eq_zero_iff _ _).mp apart
  rw [calibrationCompute_apart cal loaded apart, sub_toInt weight24 zero24]
  refine ⟨by simp [loaded, apart], fun _ => ⟨_, rfl, ?_, ?_⟩, fun fails => absurd rfl fails⟩
  · simp only [calibrationConvert?, Stored.model, Option.map_some, calibrationConvert]
    congr 1
    ring
  · simp only [calibrationConvert?, Stored.model, Option.map_some, calibrationConvert,
      Int.cast_sub]
    congr 1
    field_simp
    ring

theorem sound_of_unloaded (cal : Stored) (zeroRaw rawAtWeight : Int32) :
    Sound cal zeroRaw rawAtWeight 0 (calibrationCompute (some cal) zeroRaw rawAtWeight 0) := by
  have early : calibrationCompute (some cal) zeroRaw rawAtWeight 0 = (some cal, -1) := by
    simp [calibrationCompute]
  rw [early]
  exact ⟨by simp, fun returned => absurd returned (by simp), fun _ => ⟨by simp, rfl⟩⟩

/-- **Single-point calibration keeps its contract exactly when the weight is rejected or the
two readings differ**, and `app_main` hands over a defined model exactly when they do. -/
theorem singlePoint_sound_iff (cal : Stored) (zeroRaw rawAtWeight : Int32) (weight : ℚ)
    (zero24 : Is24Bit zeroRaw.toInt) (weight24 : Is24Bit rawAtWeight.toInt) :
    (Sound cal zeroRaw rawAtWeight weight
        (calibrationCompute (some cal) zeroRaw rawAtWeight weight) ↔
      weight = 0 ∨ rawAtWeight ≠ zeroRaw) ∧
    ∀ rawBuf reading,
      (appMainCalib rawBuf reading).model.isSome ↔ reading ≠ appMainZeroRaw rawBuf := by
  refine ⟨⟨?_, ?_⟩, appMain_model_isSome_iff⟩
  · intro sound
    by_cases loaded : weight = 0
    · exact .inl loaded
    · obtain ⟨after, returned, -⟩ := model_isSome_iff cal zeroRaw rawAtWeight loaded
      exact .inr (sound.succeeds.mp (by rw [returned])).2
  · intro condition
    by_cases loaded : weight = 0
    · subst loaded
      exact sound_of_unloaded cal zeroRaw rawAtWeight
    · exact sound_of_apart cal zero24 weight24 loaded (condition.resolve_left loaded)

/-- A tare of -3 and a load that gives 800. -/
theorem singlePoint_sound_loaded :
    Sound ⟨some 0, some 0⟩ (-3) 800 200 (calibrationCompute (some ⟨some 0, some 0⟩) (-3) 800 200) :=
  (singlePoint_sound_iff ⟨some 0, some 0⟩ (-3) 800 200 (by simp [Is24Bit])
    (by simp [Is24Bit])).1.mpr (.inr (by simp))

/-- Nothing was put on the scale: the code is 0 and the slope has no value. -/
theorem singlePoint_unloaded :
    calibrationCompute (some ⟨some 0, some 0⟩) 800 800 200 = (some ⟨none, none⟩, 0) ∧
    ¬ Sound ⟨some 0, some 0⟩ 800 800 200
      (calibrationCompute (some ⟨some 0, some 0⟩) 800 800 200) ∧
    (appMainCalib (.replicate calSamples 800) 800).model = none := by
  have loaded : (200 : ℚ) ≠ 0 := by norm_num
  have stored := calibrationCompute_equal ⟨some 0, some 0⟩ 800 loaded
  refine ⟨stored, fun sound => ?_, ?_⟩
  · rw [stored] at sound
    exact (sound.succeeds.mp rfl).2 rfl
  · have tare : appMainZeroRaw (.replicate calSamples 800) = 800 := by decide
    have same := (appMain_model_isSome_iff (.replicate calSamples 800) 800).not
    rw [tare] at same
    simpa using same

end SmartScale.Calibration.SinglePoint
