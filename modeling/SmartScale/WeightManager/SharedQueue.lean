import SmartScale.Base.BoundedQueue
import SmartScale.WeightManager.Machine

/-!
The three parties that share `hx711_q`: `hx711_rtos_task` sends, and both
`weight_manager_task` and `weight_get_handler` receive. A receive takes the
reading off the queue, so a reading served to a `GET /weight` request is one the
weight manager never sees.

* `readings_conserved`: no reading is lost, duplicated or reordered by the queue.
* `wm_run`: the weight manager's state is what its readings make of it.
* `undisturbed_iff`: these are all the readings that left the queue exactly when
  every request finds the queue empty.
-/

namespace SmartScale.WeightManager

open SmartScale.Calibration SmartScale.Transducer SmartScale.BoundedQueue

/-- The parties that receive from `hx711_q`. -/
inductive Receiver where
  | weightManagerTask
  | weightGetHandler
deriving DecidableEq

/-- The response to a `GET /weight` request: `{"weight":…}` or
`httpd_resp_send_500`. -/
inductive Response where
  | weight (value : ℚ)
  | serverError
deriving DecidableEq

/-- `hx711_q` and the weight manager's variables. -/
structure System where
  hx711Q : BoundedQueue ℚ 8
  wm : Wm

/-- The empty queue and the weight manager entering its loop. -/
def System.start : System := ⟨empty, Wm.start⟩

/-- What is observable of one action: what it moved, the reading given to the state
machine and what that logged, and the response sent. -/
structure Event where
  moved : Moved ℚ Receiver
  processed : Option ℚ
  logged : Option LogEntry
  response : Option Response

/-- Which party acts. -/
inductive Action where
  | hx711RtosTask (filteredValue : ℚ)
  | weightManagerTask
  | weightGetHandler
deriving DecidableEq

/-- `xQueueSend(scale->data_queue, &filtered_value, 0)` -/
def enqueue (s : System) (filteredValue : ℚ) : System × Event :=
  let sent := s.hx711Q.send filteredValue
  ({ s with hx711Q := sent.1 }, ⟨⟨sent.2, none⟩, none, none, none⟩)

/-- One iteration of `weight_manager_task`. With `portMAX_DELAY` it stays blocked on
an empty queue, so that the action changes nothing. -/
def weightManagerTask (cal : CalibrationT) (s : System) : System × Event :=
  match s.hx711Q.receive with
  | (_, none) => (s, ⟨⟨none, none⟩, none, none, none⟩)
  | (rest, some rawCount) =>
      let next := processReading cal s.wm rawCount
      (⟨rest, next.1⟩,
        ⟨⟨none, some (.weightManagerTask, rawCount)⟩, some rawCount, next.2, none⟩)

/-- `weight_get_handler`, which does not block. -/
def weightGetHandler (s : System) : System × Event :=
  match s.hx711Q.receive with
  | (_, none) => (s, ⟨⟨none, none⟩, none, none, some .serverError⟩)
  | (rest, some weight) =>
      ({ s with hx711Q := rest },
        ⟨⟨none, some (.weightGetHandler, weight)⟩, none, none, some (.weight weight)⟩)

/-- One action. -/
def perform (cal : CalibrationT) (s : System) : Action → System × Event
  | .hx711RtosTask filteredValue => enqueue s filteredValue
  | .weightManagerTask => weightManagerTask cal s
  | .weightGetHandler => weightGetHandler s

/-- The system after a run. -/
def systemAfter (cal : CalibrationT) (actions : List Action) : System :=
  after (perform cal) System.start actions

/-- What a run did, in order. -/
def events (cal : CalibrationT) (actions : List Action) : List Event :=
  outputs (perform cal) System.start actions

/-- The readings that left the queue, in order. -/
def leftReadings (cal : CalibrationT) (actions : List Action) : List ℚ :=
  left ((events cal actions).map Event.moved)

/-- The readings the weight manager's state machine processed, in order. -/
def processedReadings (cal : CalibrationT) (actions : List Action) : List ℚ :=
  (events cal actions).filterMap Event.processed

/-! ### One action -/

/-- The access an action makes to the queue. -/
def Action.access : Action → Access ℚ Receiver
  | .hx711RtosTask filteredValue => .send filteredValue
  | .weightManagerTask => .receive .weightManagerTask
  | .weightGetHandler => .receive .weightGetHandler

section Actions

variable (cal : CalibrationT) (s : System)

/-- On the queue, an action is its access. -/
theorem perform_queue (a : Action) :
    (perform cal s a).1.hx711Q = (s.hx711Q.operate a.access).1 ∧
      (perform cal s a).2.moved = (s.hx711Q.operate a.access).2 := by
  cases a with
  | hx711RtosTask filteredValue => exact ⟨rfl, rfl⟩
  | weightManagerTask =>
      rcases receive_cases s.hx711Q with empty | ⟨rest, rawCount, taken⟩
      · simp [perform, weightManagerTask, Action.access, operate, empty]
      · simp [perform, weightManagerTask, Action.access, operate, taken]
  | weightGetHandler =>
      rcases receive_cases s.hx711Q with empty | ⟨rest, weight, taken⟩
      · simp [perform, weightGetHandler, Action.access, operate, empty]
      · simp [perform, weightGetHandler, Action.access, operate, taken]

/-- The state machine processes what the weight manager receives, and only that
changes its variables. -/
theorem perform_processes (a : Action) :
    (perform cal s a).2.processed = (perform cal s a).2.moved.itemOf .weightManagerTask ∧
      (perform cal s a).1.wm =
        after (processReading cal) s.wm (perform cal s a).2.processed.toList := by
  cases a with
  | hx711RtosTask filteredValue => exact ⟨rfl, rfl⟩
  | weightManagerTask =>
      simp only [perform, weightManagerTask]
      split
      · exact ⟨rfl, rfl⟩
      · exact ⟨rfl, rfl⟩
  | weightGetHandler =>
      simp only [perform, weightGetHandler]
      split
      · exact ⟨rfl, rfl⟩
      · exact ⟨rfl, rfl⟩

end Actions

/-! ### Runs -/

section Runs

variable (cal : CalibrationT) (actions : List Action)

/-- On the queue, a run is the run of its accesses. -/
theorem queue_run (s : System) :
    (after (perform cal) s actions).hx711Q = after operate s.hx711Q (actions.map Action.access) ∧
      (outputs (perform cal) s actions).map Event.moved =
        outputs operate s.hx711Q (actions.map Action.access) := by
  induction actions generalizing s with
  | nil => exact ⟨rfl, rfl⟩
  | cons a actions ih =>
      obtain ⟨queue, moved⟩ := perform_queue cal s a
      obtain ⟨final, rest⟩ := ih (perform cal s a).1
      rw [queue] at final rest
      simp only [after_cons, outputs_cons, List.map_cons]
      exact ⟨final, by rw [moved, rest]⟩

/-- The weight manager's state is what the readings it processed make of it. -/
theorem wm_run (s : System) :
    (after (perform cal) s actions).wm = after (processReading cal) s.wm
      ((outputs (perform cal) s actions).filterMap Event.processed) := by
  induction actions generalizing s with
  | nil => rfl
  | cons a actions ih =>
      have wm := (perform_processes cal s a).2
      rw [after_cons, ih, wm, outputs_cons, List.filterMap_cons]
      cases (perform cal s a).2.processed with
      | none => rfl
      | some reading => rfl

/-- What was processed is what the weight manager received. -/
theorem processedReadings_eq :
    processedReadings cal actions =
      receivedBy .weightManagerTask ((events cal actions).map Event.moved) := by
  rw [processedReadings, receivedBy, List.filterMap_map]
  apply List.filterMap_congr
  refine forall_outputs_iff.mpr ?_
  intro i a _
  exact (perform_processes cal _ a).1

/-- Whatever the requests, the queue loses, duplicates and reorders nothing: the
readings that entered are those that left and those still there. -/
theorem readings_conserved :
    entered ((events cal actions).map Event.moved) =
      leftReadings cal actions ++ (systemAfter cal actions).hx711Q.items := by
  obtain ⟨queue, moved⟩ := queue_run cal actions System.start
  rw [leftReadings, events, systemAfter, moved, queue]
  exact run_conserves (empty : BoundedQueue ℚ 8) (actions.map Action.access)

/-- Serving requests does not disturb measuring: what left the queue was processed,
in order and exactly once, and the weight manager is in the state this leads to. -/
structure Undisturbed : Prop where
  processed : processedReadings cal actions = leftReadings cal actions
  state : (systemAfter cal actions).wm =
    after (processReading cal) Wm.start (leftReadings cal actions)

/-- What left the queue went to the weight manager exactly if no request found a reading. -/
theorem processedReadings_eq_iff :
    processedReadings cal actions = leftReadings cal actions ↔
      ∀ i, actions[i]? = some .weightGetHandler →
        (systemAfter cal (actions.take i)).hx711Q.items = [] := by
  rw [processedReadings_eq, leftReadings, events, (queue_run cal actions System.start).2,
    receivedBy_run_iff]
  constructor
  · intro empty i hi
    have queue := (queue_run cal (actions.take i) System.start).1
    rw [systemAfter, queue, List.map_take]
    refine empty i .weightGetHandler ?_ nofun
    rw [List.getElem?_map, hi]
    rfl
  · intro empty i other hi different
    rw [List.getElem?_map] at hi
    obtain ⟨a, ha, access⟩ := Option.map_eq_some_iff.mp hi
    cases a with
    | hx711RtosTask filteredValue => cases access
    | weightManagerTask =>
        cases access
        exact absurd rfl different
    | weightGetHandler =>
        have queue := (queue_run cal (actions.take i) System.start).1
        rw [← List.map_take, ← queue]
        exact empty i ha

/-- **Serving the weight** leaves measuring undisturbed exactly in the runs in which
every `GET /weight` request finds the queue empty. -/
theorem undisturbed_iff :
    Undisturbed cal actions ↔
      ∀ i, actions[i]? = some .weightGetHandler →
        (systemAfter cal (actions.take i)).hx711Q.items = [] := by
  constructor
  · intro undisturbed
    exact (processedReadings_eq_iff cal actions).mp undisturbed.processed
  · intro empty
    have same := (processedReadings_eq_iff cal actions).mpr empty
    refine ⟨same, ?_⟩
    rw [← same]
    exact wm_run cal actions System.start

/-- One reading of 25 g, taken by a request: it left the queue and was not processed. -/
theorem disturbed_by_request :
    ¬ Undisturbed ⟨1, 0⟩ [.hx711RtosTask 25, .weightGetHandler] := by
  intro undisturbed
  have processed : processedReadings ⟨1, 0⟩ [.hx711RtosTask 25, .weightGetHandler] = [] := by
    decide +kernel
  have left : leftReadings ⟨1, 0⟩ [.hx711RtosTask 25, .weightGetHandler] = [25] := by
    decide +kernel
  have same := undisturbed.processed
  rw [processed, left] at same
  cases same

end Runs

end SmartScale.WeightManager
