import SmartScale.Base.Binary32
import SmartScale.Base.Transducer
import SmartScale.Calibration

/-!
The state machine of the weight manager (`weight_manager/weight_manager.c`).

`handleStateTransition` is the switch of the source; `processWeight` is what the
task does with a calibrated weight, which zeroes the counter a second time on
every state change. Weights are binary32 values, so that a calibration that
yields an infinity or NaN is covered; `processReading` starts from the raw count
with an exact calibration.
-/

namespace SmartScale.WeightManager

open SmartScale.Binary32 SmartScale.Calibration

/-- `WM_DEBOUNCE_COUNT` -/
def wmDebounceCount : Nat := 3

/-- `WM_WAKE_THRESHOLD_G`, as `weight_manager.c` redefines the header's 200. -/
def wmWakeThresholdG : ℚ := 20

/-- `WM_SLEEP_THRESHOLD_G` -/
def wmSleepThresholdG : ℚ := 10

/-- `wm_state_t` -/
inductive WmState where
  | noWeight
  | debounceAdd
  | measuring
  | debounceRemove
  | error
deriving DecidableEq, Repr

/-- The events `log_weight_event` is called with: `"WEIGHT_ADDED"` and
`"WEIGHT_REMOVED"`. -/
inductive WeightEvent where
  | weightAdded
  | weightRemoved
deriving DecidableEq, Repr

/-- A call of `log_weight_event`. -/
structure LogEntry where
  event : WeightEvent
  weight : Value
deriving DecidableEq

/-- The outcome of `handle_state_transition`: the state it returns, the counter it
leaves behind, and what it logs. -/
structure Transition where
  state : WmState
  debounceCount : Nat
  logged : Option LogEntry
deriving DecidableEq

/-- `weight >= WM_WAKE_THRESHOLD_G` -/
def wakes (weight : Value) : Bool := weight.atLeast wmWakeThresholdG

/-- `weight <= WM_SLEEP_THRESHOLD_G` -/
def sleeps (weight : Value) : Bool := weight.atMost wmSleepThresholdG

/-- `handle_state_transition` -/
def handleStateTransition (current : WmState) (weight : Value) (debounceCount : Nat) :
    Transition :=
  match current with
  | .noWeight =>
      if wakes weight then
        if wmDebounceCount ≤ debounceCount + 1 then
          ⟨.measuring, debounceCount + 1, some ⟨.weightAdded, weight⟩⟩
        else ⟨.debounceAdd, debounceCount + 1, none⟩
      else ⟨.noWeight, debounceCount, none⟩
  | .debounceAdd =>
      if wakes weight then
        if wmDebounceCount ≤ debounceCount + 1 then
          ⟨.measuring, debounceCount + 1, some ⟨.weightAdded, weight⟩⟩
        else ⟨.debounceAdd, debounceCount + 1, none⟩
      else ⟨.noWeight, 0, none⟩
  | .measuring =>
      if sleeps weight then
        if wmDebounceCount ≤ debounceCount + 1 then
          ⟨.noWeight, debounceCount + 1, some ⟨.weightRemoved, weight⟩⟩
        else ⟨.debounceRemove, debounceCount + 1, none⟩
      else ⟨.measuring, debounceCount, none⟩
  | .debounceRemove =>
      if sleeps weight then
        if wmDebounceCount ≤ debounceCount + 1 then
          ⟨.noWeight, debounceCount + 1, some ⟨.weightRemoved, weight⟩⟩
        else ⟨.debounceRemove, debounceCount + 1, none⟩
      else ⟨.measuring, 0, none⟩
  | .error =>
      if weight.within 1000 then ⟨.noWeight, 0, none⟩
      else ⟨.error, debounceCount, none⟩

/-- `current_state` and the task's `debounce_count`. -/
structure Wm where
  currentState : WmState
  debounceCount : Nat
deriving DecidableEq, Repr

/-- The task as it enters its loop. -/
def Wm.start : Wm := ⟨.noWeight, 0⟩

/-- The state handling of one loop iteration of `weight_manager_task`: every state
change zeroes the counter. -/
def processWeight (s : Wm) (weight : Value) : Wm × Option LogEntry :=
  let t := handleStateTransition s.currentState weight s.debounceCount
  (if t.state ≠ s.currentState then ⟨t.state, 0⟩ else ⟨s.currentState, t.debounceCount⟩, t.logged)

/-- The same from the raw count the task received. -/
def processReading (cal : CalibrationT) (s : Wm) (rawCount : ℚ) : Wm × Option LogEntry :=
  processWeight s (.finite (calibrationConvert cal (truncate rawCount)))

/-- What is observable of one iteration: the state it leaves and what it logged. -/
def observe (s : Wm) (weight : Value) : Wm × (WmState × Option LogEntry) :=
  ((processWeight s weight).1, (processWeight s weight).1.currentState, (processWeight s weight).2)

/-- The states and log entries of the task over a sequence of calibrated weights. -/
def weightLog (weights : List Value) : List (WmState × Option LogEntry) :=
  Transducer.outputs observe Wm.start weights

/-- The task's variables after a sequence of calibrated weights. -/
def weightState (weights : List Value) : Wm :=
  Transducer.after observe Wm.start weights

end SmartScale.WeightManager
