import Mathlib.Data.List.Induction
import SmartScale.Base.Objects
import SmartScale.Base.Schedule

/-!
The kernel objects of the HX711 driver (`hx711/hx711.c`) over calls of `hx711_init`,
`hx711_init_rtos` and `hx711_deinit`.

The queue is recorded twice, in `hx711_q` and in `scale->data_queue`; the mutex is
recorded in the struct that every sampling task goes on using. `hx711_init` forgets
what the struct holds, also as a part of `hx711_init_rtos`, and `hx711_deinit` deletes
it; none of them looks at `hx711_q` or at the tasks.

The calls come one after another and go statement by statement; the sampling tasks
run on the other core, between any two statements.

* `handles_valid_iff`: the handles stay valid in every interleaving exactly when only
  reads follow an `hx711_init_rtos`.
-/

namespace SmartScale.Hx711

open SmartScale.Schedule

/-- What a handle of the driver refers to. -/
inductive KernelObject where
  | queue
  | mutex
deriving DecidableEq, Repr

/-- Where a sampling task is: before `xSemaphoreTake`, before `xSemaphoreGive`, before
`if (scale->data_queue)`, and before `xQueueSend`. -/
inductive SamplingTask.Pc where
  | take
  | give
  | check
  | send
deriving DecidableEq, Repr

/-- The kernel's objects, `hx711_q`, the handles in `*scale`, the sampling tasks, and
whether one of them has taken a mutex or sent to a queue that was NULL or deleted. -/
structure Handles where
  objects : Objects KernelObject
  hx711Q : Option Nat
  mutex : Option Nat
  dataQueue : Option Nat
  tasks : List SamplingTask.Pc
  misused : Bool
deriving DecidableEq

/-- As the program starts; the struct may hold anything. -/
def Handles.boot (mutex dataQueue : Option Nat) : Handles :=
  ⟨.empty, none, mutex, dataQueue, [], false⟩

/-! ### The calls -/

/-- `vSemaphoreDelete` or `vQueueDelete` on a handle that is not NULL. -/
def deleteHandle (objects : Objects KernelObject) : Option Nat → Objects KernelObject
  | some h => objects.delete h
  | none => objects

/-- The statements of the driver that change a handle, an object or the tasks. -/
inductive HandleStatement where
  | createQueue
  | nullMutex
  | nullDataQueue
  | storeQueue
  | createMutex
  | createTask
  | deleteMutex
  | deleteDataQueue
deriving DecidableEq, Repr

/-- A statement; the assertions on `createQueue` and `createMutex` hold. -/
def HandleStatement.exec (s : Handles) : HandleStatement → Handles
  | .createQueue =>
      { s with objects := s.objects.create .queue, hx711Q := some s.objects.next }
  | .nullMutex => { s with mutex := none }
  | .nullDataQueue => { s with dataQueue := none }
  | .storeQueue => { s with dataQueue := s.hx711Q }
  | .createMutex =>
      { s with objects := s.objects.create .mutex, mutex := some s.objects.next }
  | .createTask => { s with tasks := s.tasks ++ [.take] }
  | .deleteMutex => { s with objects := deleteHandle s.objects s.mutex }
  | .deleteDataQueue => { s with objects := deleteHandle s.objects s.dataQueue }

/-- `hx711_init` -/
def initHandles : List HandleStatement := [.nullMutex, .nullDataQueue]

/-- `hx711_init_rtos` -/
def initRtosHandles : List HandleStatement :=
  .createQueue :: initHandles ++ [.storeQueue, .createMutex, .createTask]

/-- `hx711_deinit` -/
def deinitHandles : List HandleStatement :=
  [.deleteMutex, .nullMutex, .deleteDataQueue, .nullDataQueue]

def hx711GetQueue (s : Handles) : Option Nat := s.hx711Q

/-- The calls of the driver; `read` is any of its read functions. -/
inductive HandleCall where
  | hx711Init
  | hx711InitRtos
  | hx711Deinit
  | read
deriving DecidableEq, Repr

def HandleCall.body : HandleCall → List HandleStatement
  | .hx711Init => initHandles
  | .hx711InitRtos => initRtosHandles
  | .hx711Deinit => deinitHandles
  | .read => []

/-- The handles, and what is left of the call that goes on. -/
structure Lifecycle where
  handles : Handles
  pending : List HandleStatement
deriving DecidableEq

def Lifecycle.boot (mutex dataQueue : Option Nat) : Lifecycle := ⟨.boot mutex dataQueue, []⟩

/-- A call begins, goes on by a statement, or a sampling task takes a step; `taken` is
what `xSemaphoreTake` returns. -/
inductive HandleAction where
  | call (c : HandleCall)
  | statement
  | task (i : Nat) (taken : Bool)
deriving DecidableEq, Repr

/-- The next step of a sampling task. -/
def taskStep (s : Handles) (i : Nat) (taken : Bool) : Option Handles :=
  match s.tasks[i]? with
  | none => none
  | some .take =>
      if s.objects.Usable s.mutex then
        if taken then some { s with tasks := s.tasks.set i .give } else some s
      else some { s with misused := true }
  | some .give => some { s with tasks := s.tasks.set i .check }
  | some .check =>
      some { s with tasks := s.tasks.set i (if s.dataQueue.isSome then .send else .take) }
  | some .send =>
      if s.objects.Usable s.dataQueue then some { s with tasks := s.tasks.set i .take }
      else some { s with misused := true }

/-- One step. -/
def handleStep (d : Lifecycle) : HandleAction → Option Lifecycle
  | .call c => if d.pending = [] then some { d with pending := c.body } else none
  | .statement =>
      match d.pending with
      | [] => none
      | now :: later => some ⟨now.exec d.handles, later⟩
  | .task i taken => (taskStep d.handles i taken).map fun s => { d with handles := s }

/-- `hx711_get_queue` returns NULL or a queue that is there, and no sampling task has
used a mutex or a queue that was not. -/
structure HandlesValid (s : Handles) : Prop where
  getQueue : ∀ queue ∈ hx711GetQueue s, s.objects.Live queue
  used : s.misused = false

def HandleAction.call? : HandleAction → Option HandleCall
  | .call c => some c
  | .statement | .task _ _ => none

/-- The calls of a run. -/
def handleCalls (actions : List HandleAction) : List HandleCall :=
  actions.filterMap HandleAction.call?

/-- The handles are valid in every state of every interleaving of the calls with the steps
of the sampling tasks. -/
def AlwaysValid (d : Lifecycle) (calls : List HandleCall) : Prop :=
  ∀ actions, handleCalls actions = calls →
    AllStates handleStep (fun d => HandlesValid d.handles) d actions

/-- The first call is an initialisation. -/
def StartsWithInit (calls : List HandleCall) : Prop :=
  calls.head? = some .hx711Init ∨ calls.head? = some .hx711InitRtos

/-- After `hx711_init_rtos`, a later call is a read. -/
def KeptAfter (c d : HandleCall) : Prop := c = .hx711InitRtos → d = .read

/-! ### The phases of the driver -/

/-- There is neither a queue nor a task. -/
structure Handles.Booted (s : Handles) : Prop where
  hx711Q : s.hx711Q = none
  tasks : s.tasks = []
  used : s.misused = false

/-- Nor does the struct hold anything. -/
structure Handles.Idle (s : Handles) : Prop extends s.Booted where
  mutex : s.mutex = none
  dataQueue : s.dataQueue = none

/-- Both copies of the queue are the same and usable, and so is the mutex. -/
structure Handles.Running (s : Handles) : Prop where
  hx711Q : s.hx711Q = s.dataQueue
  dataQueue : s.objects.Usable s.dataQueue
  mutex : s.objects.Usable s.mutex
  used : s.misused = false

/-- The phase of the driver between two calls, and the calls it still admits. -/
def Handles.Settled (calls : List HandleCall) (s : Handles) : Prop :=
  (s.Running ∧ ∀ c ∈ calls, c = .read) ∨
    (s.Idle ∧ calls.Pairwise KeptAfter) ∨
    (s.Booted ∧ StartsWithInit calls ∧ calls.Pairwise KeptAfter)

/-- While a call goes on there is no task yet and the handles are valid; it ends in a
phase that admits the calls after it. -/
def Handles.Leads (calls : List HandleCall) : List HandleStatement → Handles → Prop
  | [], s => s.Settled calls
  | now :: later, s =>
      s.tasks = [] ∧ HandlesValid s ∧ Handles.Leads calls later (now.exec s)

section Phases

variable {s t : Handles} {d : Lifecycle} {calls : List HandleCall} {c : HandleCall}

theorem Handles.Booted.valid (h : s.Booted) : HandlesValid s where
  getQueue := by simp [hx711GetQueue, h.hx711Q]
  used := h.used

theorem Handles.Running.valid (h : s.Running) : HandlesValid s where
  getQueue queue here := by
    obtain ⟨q, same, live⟩ := h.dataQueue
    rw [hx711GetQueue, h.hx711Q, Option.mem_def.mp same] at here
    cases here
    exact live
  used := h.used

theorem Handles.Settled.valid (h : s.Settled calls) : HandlesValid s := by
  rcases h with ⟨running, _⟩ | ⟨idle, _⟩ | ⟨booted, _⟩
  · exact running.valid
  · exact idle.toBooted.valid
  · exact booted.valid

theorem Handles.Leads.valid {pending : List HandleStatement} (h : s.Leads calls pending) :
    HandlesValid s := by
  cases pending with
  | nil => exact Handles.Settled.valid h
  | cons now later => exact h.2.1

/-! ### What a call leads to -/

theorem leads_init (h : s.Booted) (later : calls.Pairwise KeptAfter) :
    s.Leads calls initHandles := by
  have nulled : ({ s with mutex := none } : Handles).Booted := ⟨h.hx711Q, h.tasks, h.used⟩
  refine ⟨h.tasks, h.valid, h.tasks, nulled.valid, .inr (.inl ⟨⟨⟨?_, ?_, ?_⟩, rfl, rfl⟩, later⟩)⟩
  · exact h.hx711Q
  · exact h.tasks
  · exact h.used

/-- From the creation of the queue on, `hx711_q` refers to it. -/
theorem leads_initRtos (h : s.Booted) (reads : ∀ c ∈ calls, c = .read) :
    s.Leads calls initRtosHandles := by
  have created (mutex dataQueue : Option Nat) :
      HandlesValid { s with
        objects := s.objects.create .queue
        hx711Q := some s.objects.next
        mutex := mutex
        dataQueue := dataQueue } := by
    refine ⟨?_, h.used⟩
    intro queue here
    cases here
    exact Objects.live_create_self
  have launched (tasks : List SamplingTask.Pc) :
      Handles.Running
        { objects := (s.objects.create .queue).create .mutex
          hx711Q := some s.objects.next
          mutex := some (s.objects.create .queue).next
          dataQueue := some s.objects.next
          tasks := tasks
          misused := s.misused } :=
    ⟨rfl, ⟨_, rfl, Objects.live_create_self.create⟩, ⟨_, rfl, Objects.live_create_self⟩, h.used⟩
  refine ⟨h.tasks, h.valid, h.tasks, created _ _, h.tasks, created _ _, h.tasks, created _ _,
    h.tasks, created _ _, h.tasks, (launched _).valid, .inl ⟨launched _, reads⟩⟩

/-- There is nothing to delete. -/
theorem leads_deinit (h : s.Idle) (later : calls.Pairwise KeptAfter) :
    s.Leads calls deinitHandles := by
  obtain ⟨objects, hx711Q, mutex, dataQueue, tasks, misused⟩ := s
  obtain rfl : mutex = none := h.mutex
  obtain rfl : dataQueue = none := h.dataQueue
  have valid := h.toBooted.valid
  exact ⟨h.tasks, valid, h.tasks, valid, h.tasks, valid, h.tasks, valid, .inr (.inl ⟨h, later⟩)⟩

/-- A call leads to a phase that admits the calls after it. -/
theorem leads_call (h : s.Settled (c :: calls)) : s.Leads calls c.body := by
  have reads (kept : (.hx711InitRtos :: calls).Pairwise KeptAfter) : ∀ d ∈ calls, d = .read :=
    fun d hd => (List.pairwise_cons.mp kept).1 d hd rfl
  rcases h with ⟨running, only⟩ | ⟨idle, kept⟩ | ⟨booted, first, kept⟩
  · obtain ⟨rfl, later⟩ := List.forall_mem_cons.mp only
    exact .inl ⟨running, later⟩
  · have later := (List.pairwise_cons.mp kept).2
    cases c with
    | hx711Init => exact leads_init idle.toBooted later
    | hx711InitRtos => exact leads_initRtos idle.toBooted (reads kept)
    | hx711Deinit => exact leads_deinit idle later
    | read => exact .inr (.inl ⟨idle, later⟩)
  · rcases first with init | initRtos
    · cases init
      exact leads_init booted (List.pairwise_cons.mp kept).2
    · cases initRtos
      exact leads_initRtos booted (reads kept)

/-! ### What a sampling task finds -/

/-- A task of a running driver finds what it uses. -/
theorem running_task {i : Nat} {taken : Bool} (h : s.Running)
    (enabled : taskStep s i taken = some t) : t.Running := by
  cases here : s.tasks[i]? with
  | none => simp [taskStep, here] at enabled
  | some pc =>
      cases pc with
      | take =>
          simp only [taskStep, here, h.mutex, if_true] at enabled
          cases taken <;> cases enabled <;> exact ⟨h.hx711Q, h.dataQueue, h.mutex, h.used⟩
      | give =>
          simp only [taskStep, here, Option.some.injEq] at enabled
          subst enabled
          exact ⟨h.hx711Q, h.dataQueue, h.mutex, h.used⟩
      | check =>
          simp only [taskStep, here, Option.some.injEq] at enabled
          subst enabled
          exact ⟨h.hx711Q, h.dataQueue, h.mutex, h.used⟩
      | send =>
          simp only [taskStep, here, h.dataQueue, if_true, Option.some.injEq] at enabled
          subst enabled
          exact ⟨h.hx711Q, h.dataQueue, h.mutex, h.used⟩

/-- Without a task there is none to take a step. -/
theorem taskStep_nil {i : Nat} {taken : Bool} (none : s.tasks = []) :
    taskStep s i taken = .none := by
  simp [taskStep, none]

/-- Only a running driver has tasks, and they leave it running. -/
theorem leads_task {i : Nat} {taken : Bool} {pending : List HandleStatement}
    (h : s.Leads calls pending) (enabled : taskStep s i taken = some t) :
    t.Leads calls pending := by
  have absent (tasks : s.tasks = []) : t.Leads calls pending := by
    rw [taskStep_nil tasks] at enabled
    cases enabled
  cases pending with
  | nil =>
      rcases h with ⟨running, reads⟩ | ⟨idle, _⟩ | ⟨booted, _⟩
      · exact .inl ⟨running_task running enabled, reads⟩
      · exact absent idle.tasks
      · exact absent booted.tasks
  | cons now later => exact absent h.1

/-- The run lemma: a driver that admits the calls of a run has valid handles all along. -/
theorem states_valid {actions : List HandleAction}
    (h : d.handles.Leads (handleCalls actions) d.pending) :
    AllStates handleStep (fun d => HandlesValid d.handles) d actions := by
  induction actions generalizing d with
  | nil => exact h.valid
  | cons a actions ih =>
      obtain ⟨s, pending⟩ := d
      refine ⟨h.valid, ?_⟩
      intro e enabled
      apply ih
      cases a with
      | call c =>
          simp only [handleStep, Option.ite_none_right_eq_some, Option.some.injEq] at enabled
          obtain ⟨rfl, rfl⟩ := enabled
          exact leads_call h
      | statement =>
          cases pending with
          | nil => cases enabled
          | cons now later =>
              cases enabled
              exact h.2.2
      | task i taken =>
          obtain ⟨t, takes, rfl⟩ := Option.map_eq_some_iff.mp enabled
          exact leads_task h takes

/-! ### Runs of calls alone -/

/-- The whole of a call. -/
def callHandles (s : Handles) (c : HandleCall) : Handles := c.body.foldl HandleStatement.exec s

/-- The calls one after another, no sampling task in between. -/
def callActions (calls : List HandleCall) : List HandleAction :=
  calls.flatMap fun c => .call c :: c.body.map fun _ => .statement

theorem handleCalls_statements (pending : List HandleStatement) :
    handleCalls (pending.map fun _ => .statement) = [] := by
  simp [handleCalls, HandleAction.call?]

theorem handleCalls_call (c : HandleCall) (as : List HandleAction) :
    handleCalls (.call c :: as) = c :: handleCalls as := rfl

theorem handleCalls_append (as bs : List HandleAction) :
    handleCalls (as ++ bs) = handleCalls as ++ handleCalls bs := List.filterMap_append

theorem handleCalls_callActions (calls : List HandleCall) :
    handleCalls (callActions calls) = calls := by
  induction calls with
  | nil => rfl
  | cons c calls ih =>
      rw [callActions, List.flatMap_cons, ← callActions, handleCalls_append, ih,
        handleCalls_call, handleCalls_statements]
      rfl

theorem run_statements (s : Handles) (now later : List HandleStatement) :
    run handleStep ⟨s, now ++ later⟩ (now.map fun _ => .statement) =
      some ⟨now.foldl HandleStatement.exec s, later⟩ := by
  induction now generalizing s with
  | nil => rfl
  | cons first now ih => exact ih (first.exec s)

theorem run_callActions (s : Handles) (calls : List HandleCall) :
    run handleStep ⟨s, []⟩ (callActions calls) = some ⟨calls.foldl callHandles s, []⟩ := by
  induction calls generalizing s with
  | nil => rfl
  | cons c calls ih =>
      have body := run_statements s c.body []
      rw [List.append_nil] at body
      rw [callActions, List.flatMap_cons, ← callActions, run_append, run]
      simp only [handleStep, if_true, Option.bind_some]
      rw [body, Option.bind_some]
      exact ih (callHandles s c)

/-! ### What goes wrong -/

/-- A sampling task is about to take the mutex. -/
def Handles.Ready (s : Handles) (i : Nat) : Prop := s.tasks[i]? = some .take

/-- Statements only add tasks. -/
theorem ready_statements {i : Nat} (pending : List HandleStatement) (ready : s.Ready i) :
    (pending.foldl HandleStatement.exec s).Ready i := by
  induction pending generalizing s with
  | nil => exact ready
  | cons now pending ih =>
      apply ih
      cases now with
      | createTask =>
          have inside := (List.getElem?_eq_some_iff.mp ready).1
          exact (List.getElem?_append_left inside).trans ready
      | createQueue | nullMutex | nullDataQueue | storeQueue | createMutex | deleteMutex
      | deleteDataQueue => exact ready

/-- Once `hx711_init_rtos` has been called, a task is about to take the mutex. -/
theorem ready_calls (called : .hx711InitRtos ∈ calls) :
    ∃ i, (calls.foldl callHandles s).Ready i := by
  induction calls using List.reverseRecOn with
  | nil => cases called
  | append_singleton calls c ih =>
      rw [List.foldl_concat]
      rcases List.mem_append.mp called with before | last
      · obtain ⟨i, ready⟩ := ih before
        exact ⟨i, ready_statements _ ready⟩
      · cases List.mem_singleton.mp last
        generalize calls.foldl callHandles s = u
        refine ⟨u.tasks.length, ?_⟩
        simp [Handles.Ready, callHandles, HandleCall.body, initRtosHandles, initHandles,
          HandleStatement.exec]

/-- Any call but a read comes to a point where the mutex is NULL or deleted. -/
theorem unusable_within (s : Handles) (other : c ≠ .read) :
    ∃ now later, c.body = now ++ later ∧
      ¬ (now.foldl HandleStatement.exec s).objects.Usable
        (now.foldl HandleStatement.exec s).mutex := by
  have null (objects : Objects KernelObject) : ¬ objects.Usable none := by
    rintro ⟨_, none, _⟩
    cases none
  cases c with
  | hx711Init => exact ⟨[.nullMutex], _, rfl, null _⟩
  | hx711InitRtos => exact ⟨[.createQueue, .nullMutex], _, rfl, null _⟩
  | hx711Deinit =>
      refine ⟨[.deleteMutex], _, rfl, ?_⟩
      rintro ⟨m, here, live⟩
      have which : s.mutex = some m := here
      simp only [List.foldl_cons, List.foldl_nil, HandleStatement.exec, which, deleteHandle] at live
      exact (Objects.live_delete_iff.mp live).1 rfl
  | read => exact absurd rfl other

/-- Where a task comes to take the mutex at that point, it misuses it. -/
theorem invalid_run {i : Nat} (ready : (calls.foldl callHandles s).Ready i)
    (other : c ≠ .read) :
    ∃ actions e, handleCalls actions = calls ++ [c] ∧ run handleStep ⟨s, []⟩ actions = some e ∧
      ¬ HandlesValid e.handles := by
  obtain ⟨now, later, body, unusable⟩ := unusable_within (calls.foldl callHandles s) other
  have still := ready_statements now ready
  have statements := run_statements (calls.foldl callHandles s) now later
  generalize now.foldl HandleStatement.exec (calls.foldl callHandles s) = u
    at unusable still statements
  have takes : taskStep u i true = some { u with misused := true } := by
    simp only [taskStep, show u.tasks[i]? = some .take from still]
    exact if_neg unusable
  refine ⟨callActions calls ++ (.call c :: ((now.map fun _ => .statement) ++ [.task i true])),
    ⟨{ u with misused := true }, later⟩, ?_, ?_, ?_⟩
  · rw [handleCalls_append, handleCalls_callActions, handleCalls_call, handleCalls_append,
      handleCalls_statements]
    rfl
  · rw [run_append, run_callActions, Option.bind_some, run]
    simp only [handleStep, if_true, Option.bind_some]
    rw [body, run_append, statements, Option.bind_some, run]
    simp only [handleStep, takes]
    rfl
  · intro valid
    cases valid.used

/-- If the handles are valid in every run of some calls, only reads follow an
`hx711_init_rtos`. -/
theorem keptAfter_of_valid (valid : AlwaysValid ⟨s, []⟩ calls) : calls.Pairwise KeptAfter := by
  induction calls using List.reverseRecOn with
  | nil => exact .nil
  | append_singleton calls d ih =>
      have kept : calls.Pairwise KeptAfter := by
        apply ih
        rintro actions rfl
        have longer := valid (actions ++ [.call d]) (by simp [handleCalls, HandleAction.call?])
        exact longer.of_append
      refine List.pairwise_append.mpr ⟨kept, List.pairwise_singleton _ _, ?_⟩
      rintro c hc e he rfl
      rw [List.mem_singleton.mp he]
      by_contra other
      obtain ⟨i, ready⟩ := ready_calls (s := s) hc
      obtain ⟨actions, t, same, ends, invalid⟩ := invalid_run ready other
      exact invalid ((valid actions same).of_run ends)

end Phases

/-! ### Every interleaving -/

/-- **The handles stay valid** in every interleaving of calls that start with an
initialisation with the sampling tasks, exactly when only reads follow an
`hx711_init_rtos`. -/
theorem handles_valid_iff (mutex dataQueue : Option Nat) (calls : List HandleCall)
    (starts : StartsWithInit calls) :
    AlwaysValid (.boot mutex dataQueue) calls ↔ calls.Pairwise KeptAfter := by
  constructor
  · exact keptAfter_of_valid
  · rintro kept actions rfl
    exact states_valid (.inr (.inr ⟨⟨rfl, rfl, rfl⟩, starts, kept⟩))

/-- `app_main` calls `hx711_init` before `hx711_init_rtos`, and only reads after it. -/
theorem handles_valid_iff_appMain :
    AlwaysValid (.boot none none) [.hx711Init, .read, .hx711InitRtos, .read] := by
  rw [handles_valid_iff none none _ (.inl rfl)]
  simp [KeptAfter]

/-- After `hx711_deinit`, `hx711_get_queue` returns the deleted queue. -/
theorem deinit_leaves_queue :
    ¬ ∀ calls, StartsWithInit calls → AlwaysValid (.boot none none) calls := by
  intro valid
  have states := valid [.hx711InitRtos, .hx711Deinit] (.inr rfl)
    (callActions [.hx711InitRtos, .hx711Deinit]) rfl
  have dangling := (states.of_run rfl).getQueue 0 rfl
  exact absurd dangling (by decide)

end SmartScale.Hx711
