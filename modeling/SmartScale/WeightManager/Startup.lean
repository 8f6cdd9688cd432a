import SmartScale.Base.Schedule

/-!
Start-up of the weight manager: `app_main` against the handler of
`IP_EVENT_STA_GOT_IP`.

Both end in `weight_manager_init(hx711_get_queue(), &g_calib)`. The queue is read
by one call and latched by the next, and the first `weight_manager_init` decides:
given NULL, it makes a queue of its own which no sampling task ever sends to.

* `startup_step`: what one call preserves, and when it keeps the weight manager fed.
* `stays_fed_iff`: in every interleaving, the weight manager is fed by the driver
  exactly when no handler that read the queue before `hx711_init_rtos` is the first
  to initialise the weight manager.
-/

namespace SmartScale.WeightManager

open SmartScale.Schedule

/-- A queue, named by the number of queues created before it. -/
abbrev QueueHandle := Nat

/-- Where `app_main` is, after `wifi_comm_start`; `initWeightManager` holds the
argument of its pending call. -/
inductive AppMain where
  | initDriver
  | getQueue
  | initWeightManager (hx711Queue : Option QueueHandle)
  | done
deriving DecidableEq

/-- Where `wifi_event_handler` is. The event loop handles one event at a time. -/
inductive GotIpHandler where
  | waiting
  | initWeightManager (hx711Queue : Option QueueHandle)
deriving DecidableEq

/-- The queue handles (NULL is `none`) and the two tasks. -/
structure Startup where
  hx711Q : Option QueueHandle
  dataQueue : Option QueueHandle
  wmQueue : Option QueueHandle
  created : Nat
  appMain : AppMain
  handler : GotIpHandler
deriving DecidableEq

/-- As `wifi_comm_start` leaves it. -/
def Startup.start : Startup := ⟨none, none, none, 0, .initDriver, .waiting⟩

/-- `hx711_init_rtos`, which stores the queue it creates in `hx711_q` and in
`scale->data_queue`. -/
def hx711InitRtos (s : Startup) : Startup :=
  { s with hx711Q := some s.created, dataQueue := some s.created, created := s.created + 1 }

/-- `weight_manager_init`: `wm_queue = hx711_queue ? hx711_queue : xQueueCreate(…)`,
unless `wm_queue` is set. -/
def weightManagerInit (s : Startup) (hx711Queue : Option QueueHandle) : Startup :=
  match s.wmQueue, hx711Queue with
  | some _, _ => s
  | none, some queue => { s with wmQueue := some queue }
  | none, none => { s with wmQueue := some s.created, created := s.created + 1 }

/-- The calls, by the task that makes them. -/
inductive Call where
  | appInitDriver
  | appGetQueue
  | appInitWeightManager
  | handlerGetQueue
  | handlerInitWeightManager
deriving DecidableEq

/-- One call, where it is the next one of its task. -/
def call (s : Startup) : Call → Option Startup
  | .appInitDriver =>
      match s.appMain with
      | .initDriver => some { hx711InitRtos s with appMain := .getQueue }
      | _ => none
  | .appGetQueue =>
      match s.appMain with
      | .getQueue => some { s with appMain := .initWeightManager s.hx711Q }
      | _ => none
  | .appInitWeightManager =>
      match s.appMain with
      | .initWeightManager queue => some { weightManagerInit s queue with appMain := .done }
      | _ => none
  | .handlerGetQueue =>
      match s.handler with
      | .waiting => some { s with handler := .initWeightManager s.hx711Q }
      | _ => none
  | .handlerInitWeightManager =>
      match s.handler with
      | .initWeightManager queue => some { weightManagerInit s queue with handler := .waiting }
      | _ => none

/-- The weight manager waits on the queue of the driver, into which the sampling task
sends. -/
def FedByDriver (s : Startup) : Prop :=
  ∀ wm hx711, s.wmQueue = some wm → s.hx711Q = some hx711 →
    wm = hx711 ∧ s.dataQueue = some wm

/-- It does, and it still does if the driver is started now. -/
def StaysFed (s : Startup) : Prop :=
  FedByDriver s ∧ ∀ t, call s .appInitDriver = some t → FedByDriver t

/-- A call is not the one of a handler that read NULL and finds the weight manager not
initialised. -/
def HandlerReady (s : Startup) (c : Call) : Prop :=
  c = .handlerInitWeightManager → s.handler = .initWeightManager none → s.wmQueue ≠ none

/-! ### Inversion of the calls -/

section Calls

variable {s t : Startup}

theorem appInitDriver_iff :
    call s .appInitDriver = some t ↔
      s.appMain = .initDriver ∧ t = { hx711InitRtos s with appMain := .getQueue } := by
  rw [call]
  cases s.appMain <;> simp [eq_comm]

theorem appGetQueue_iff :
    call s .appGetQueue = some t ↔
      s.appMain = .getQueue ∧ t = { s with appMain := .initWeightManager s.hx711Q } := by
  rw [call]
  cases s.appMain <;> simp [eq_comm]

theorem appInitWeightManager_iff :
    call s .appInitWeightManager = some t ↔
      ∃ queue, s.appMain = .initWeightManager queue ∧
        t = { weightManagerInit s queue with appMain := .done } := by
  rw [call]
  cases s.appMain <;> simp [eq_comm]

theorem handlerGetQueue_iff :
    call s .handlerGetQueue = some t ↔
      s.handler = .waiting ∧ t = { s with handler := .initWeightManager s.hx711Q } := by
  rw [call]
  cases s.handler <;> simp [eq_comm]

theorem handlerInitWeightManager_iff :
    call s .handlerInitWeightManager = some t ↔
      ∃ queue, s.handler = .initWeightManager queue ∧
        t = { weightManagerInit s queue with handler := .waiting } := by
  rw [call]
  cases s.handler <;> simp [eq_comm]

end Calls

/-! ### The invariant -/

/-- What holds in every interleaving. -/
structure Startup.Inv (s : Startup) : Prop where
  driver : s.appMain = .initDriver ↔ s.hx711Q = none
  app : ∀ queue, s.appMain = .initWeightManager queue → queue = s.hx711Q
  handler : ∀ queue, s.handler = .initWeightManager (some queue) → s.hx711Q = some queue
  hx711Old : ∀ queue, s.hx711Q = some queue → queue < s.created
  wmOld : ∀ queue, s.wmQueue = some queue → queue < s.created
  dataQueue : s.dataQueue = s.hx711Q

/-- `wm_queue`, where it is set, is `hx711_q`. -/
def Latched (s : Startup) : Prop := ∀ wm, s.wmQueue = some wm → s.hx711Q = some wm

theorem inv_start : Startup.start.Inv := by
  constructor <;> simp [Startup.start]

section Steps

variable {s t : Startup}

theorem weightManagerInit_of_some (hx711Queue : Option QueueHandle) {wm : QueueHandle}
    (h : s.wmQueue = some wm) : weightManagerInit s hx711Queue = s := by
  simp [weightManagerInit, h]

theorem weightManagerInit_of_none (queue : QueueHandle) (h : s.wmQueue = none) :
    weightManagerInit s (some queue) = { s with wmQueue := some queue } := by
  simp [weightManagerInit, h]

theorem weightManagerInit_null (h : s.wmQueue = none) :
    weightManagerInit s none =
      { s with wmQueue := some s.created, created := s.created + 1 } := by
  simp [weightManagerInit, h]

/-- A weight manager that stays fed has latched the queue of the driver, or none. -/
theorem staysFed_iff (inv : s.Inv) : StaysFed s ↔ Latched s := by
  constructor
  · rintro ⟨now, later⟩ wm hwm
    cases driver : s.hx711Q with
    | some hx711 => rw [(now wm hx711 hwm driver).1]
    | none =>
        have fed := later _ (appInitDriver_iff.mpr ⟨inv.driver.mpr driver, rfl⟩)
        have same : wm = s.created := (fed wm s.created hwm rfl).1
        exact absurd same (Nat.ne_of_lt (inv.wmOld wm hwm))
  · intro latched
    constructor
    · intro wm hx711 hwm driver
      have same := latched wm hwm
      rw [inv.dataQueue, same]
      rw [driver] at same
      exact ⟨(Option.some.inj same).symm, rfl⟩
    · intro t started wm hx711 hwm _
      obtain ⟨ready, rfl⟩ := appInitDriver_iff.mp started
      have same := latched wm hwm
      rw [inv.driver.mp ready] at same
      cases same

/-- A `weight_manager_init` given the queue of the driver keeps it latched. -/
theorem weightManagerInit_driver (inv : s.Inv) (latched : Latched s) {queue : QueueHandle}
    (driver : s.hx711Q = some queue) :
    (weightManagerInit s (some queue)).Inv ∧ Latched (weightManagerInit s (some queue)) := by
  cases unset : s.wmQueue with
  | some wm =>
      rw [weightManagerInit_of_some _ unset]
      exact ⟨inv, latched⟩
  | none =>
      rw [weightManagerInit_of_none queue unset]
      constructor
      · refine { inv with wmOld := ?_ }
        rintro _ ⟨⟩
        exact inv.hx711Old queue driver
      · rintro _ ⟨⟩
        exact driver

/-- Given NULL, it keeps the queue of the driver latched exactly where it does
nothing. -/
theorem weightManagerInit_none (inv : s.Inv) (latched : Latched s) :
    (weightManagerInit s none).Inv ∧ (s.wmQueue ≠ none ↔ Latched (weightManagerInit s none)) := by
  cases unset : s.wmQueue with
  | some wm =>
      rw [weightManagerInit_of_some _ unset]
      exact ⟨inv, iff_of_true nofun latched⟩
  | none =>
      rw [weightManagerInit_null unset]
      constructor
      · refine { inv with hx711Old := ?_, wmOld := ?_ }
        · intro queue driver
          exact Nat.lt_succ_of_lt (inv.hx711Old queue driver)
        · rintro _ ⟨⟩
          exact Nat.lt_succ_self _
      · apply iff_of_false fun set => set rfl
        intro still
        have old := inv.hx711Old s.created (still s.created rfl)
        exact Nat.lt_irrefl _ old

/-- Moving on from a call changes nothing else, and the invariant asks nothing of the
places reached. -/
theorem Startup.Inv.appDone (inv : s.Inv) (h : s.appMain ≠ .initDriver) :
    Startup.Inv { s with appMain := .done } := by
  refine { inv with driver := iff_of_false nofun ?_, app := nofun }
  intro driver
  exact h (inv.driver.mpr driver)

theorem Startup.Inv.handlerWaits (inv : s.Inv) : Startup.Inv { s with handler := .waiting } :=
  { inv with handler := nofun }

/-- `weight_manager_init` leaves the tasks where they are. -/
theorem weightManagerInit_appMain (hx711Queue : Option QueueHandle) :
    (weightManagerInit s hx711Queue).appMain = s.appMain := by
  unfold weightManagerInit
  split <;> rfl

/-! One lemma for each call. -/

theorem appInitDriver_step (inv : s.Inv) (latched : Latched s)
    (enabled : call s .appInitDriver = some t) : t.Inv ∧ Latched t := by
  obtain ⟨ready, rfl⟩ := appInitDriver_iff.mp enabled
  have driver := inv.driver.mp ready
  refine ⟨⟨iff_of_false nofun nofun, nofun, ?_, ?_, ?_, rfl⟩, ?_⟩
  · intro queue pending
    have same := inv.handler queue pending
    rw [driver] at same
    cases same
  · rintro _ ⟨⟩
    exact Nat.lt_succ_self _
  · intro queue wm
    exact Nat.lt_succ_of_lt (inv.wmOld queue wm)
  · intro wm hwm
    have same := latched wm hwm
    rw [driver] at same
    cases same

theorem appGetQueue_step (inv : s.Inv) (latched : Latched s)
    (enabled : call s .appGetQueue = some t) : t.Inv ∧ Latched t := by
  obtain ⟨ready, rfl⟩ := appGetQueue_iff.mp enabled
  refine ⟨{ inv with driver := iff_of_false nofun ?_, app := ?_ }, latched⟩
  · intro driver
    have early := inv.driver.mpr driver
    rw [ready] at early
    cases early
  · rintro _ ⟨⟩
    rfl

theorem appInitWeightManager_step (inv : s.Inv) (latched : Latched s)
    (enabled : call s .appInitWeightManager = some t) : t.Inv ∧ Latched t := by
  obtain ⟨queue, ready, rfl⟩ := appInitWeightManager_iff.mp enabled
  have past : s.appMain ≠ .initDriver := by
    rw [ready]
    nofun
  obtain ⟨hx711, driver⟩ : ∃ hx711, s.hx711Q = some hx711 :=
    Option.ne_none_iff_exists'.mp fun unset => past (inv.driver.mpr unset)
  rw [inv.app queue ready, driver]
  obtain ⟨kept, still⟩ := weightManagerInit_driver inv latched driver
  refine ⟨kept.appDone ?_, still⟩
  rw [weightManagerInit_appMain]
  exact past

theorem handlerGetQueue_step (inv : s.Inv) (latched : Latched s)
    (enabled : call s .handlerGetQueue = some t) : t.Inv ∧ Latched t := by
  obtain ⟨_, rfl⟩ := handlerGetQueue_iff.mp enabled
  refine ⟨{ inv with handler := ?_ }, latched⟩
  intro queue pending
  exact GotIpHandler.initWeightManager.inj pending

/-- The only call that may latch another queue. -/
theorem handlerInitWeightManager_step (inv : s.Inv) (latched : Latched s)
    (enabled : call s .handlerInitWeightManager = some t) :
    t.Inv ∧ (HandlerReady s .handlerInitWeightManager ↔ Latched t) := by
  obtain ⟨queue, pending, rfl⟩ := handlerInitWeightManager_iff.mp enabled
  cases queue with
  | some queue =>
      obtain ⟨kept, still⟩ := weightManagerInit_driver inv latched (inv.handler queue pending)
      refine ⟨kept.handlerWaits, iff_of_true ?_ still⟩
      intro _ null
      rw [pending] at null
      cases null
  | none =>
      obtain ⟨kept, same⟩ := weightManagerInit_none inv latched
      refine ⟨kept.handlerWaits, ?_⟩
      constructor
      · intro ready
        exact same.mp (ready rfl pending)
      · intro still _ _
        exact same.mpr still

/-- **One call** keeps the invariant, and keeps the weight manager fed exactly if it
is not a handler's first initialisation with NULL. -/
theorem startup_step (s : Startup) (c : Call) (t : Startup) (inv : s.Inv) (latched : Latched s)
    (enabled : call s c = some t) : t.Inv ∧ (HandlerReady s c ↔ Latched t) := by
  cases c with
  | appInitDriver =>
      obtain ⟨kept, still⟩ := appInitDriver_step inv latched enabled
      exact ⟨kept, iff_of_true nofun still⟩
  | appGetQueue =>
      obtain ⟨kept, still⟩ := appGetQueue_step inv latched enabled
      exact ⟨kept, iff_of_true nofun still⟩
  | appInitWeightManager =>
      obtain ⟨kept, still⟩ := appInitWeightManager_step inv latched enabled
      exact ⟨kept, iff_of_true nofun still⟩
  | handlerGetQueue =>
      obtain ⟨kept, still⟩ := handlerGetQueue_step inv latched enabled
      exact ⟨kept, iff_of_true nofun still⟩
  | handlerInitWeightManager => exact handlerInitWeightManager_step inv latched enabled

end Steps

/-! ### Every interleaving -/

/-- **Fed by the driver.** In every interleaving of `app_main` with the events, the
weight manager is fed by the driver in every state, and stays so when the driver
starts, exactly when no handler initialises the weight manager first with the NULL it
read before `hx711_init_rtos`. -/
theorem stays_fed_iff (calls : List Call) :
    AllSteps call HandlerReady Startup.start calls ↔
      AllStates call StaysFed Startup.start calls := by
  have fed_start : StaysFed Startup.start := (staysFed_iff inv_start).mpr nofun
  refine allSteps_iff_allStates (I := Startup.Inv) ?_ inv_start fed_start calls
  intro s c t inv fed enabled
  obtain ⟨next, same⟩ := startup_step s c t inv ((staysFed_iff inv).mp fed) enabled
  exact ⟨next, same.trans (staysFed_iff next).symm⟩

/-- An address before the driver is started: the weight manager waits on a queue of
its own. -/
theorem not_fed_before_driver :
    ¬ ∀ calls, AllStates call FedByDriver Startup.start calls := by
  intro fed
  have ends : run call Startup.start
      [.handlerGetQueue, .handlerInitWeightManager, .appInitDriver] =
      some ⟨some 1, some 1, some 0, 2, .getQueue, .waiting⟩ := rfl
  have apart := (fed _).of_run ends
  exact absurd (apart 0 1 rfl rfl).1 Nat.zero_ne_one

end SmartScale.WeightManager
