import Mathlib.Algebra.Order.Ring.Rat

/-!
The calibration model (`calibration/calibration.c`), in exact rational arithmetic.
-/

namespace SmartScale.Calibration

/-- `calibration_t`. -/
structure CalibrationT where
  slope : ℚ
  intercept : ℚ
deriving DecidableEq

/-- `calibration_convert`. -/
def calibrationConvert (cal : CalibrationT) (raw : Int) : ℚ :=
  cal.slope * raw + cal.intercept

end SmartScale.Calibration
