import SmartScale.Base.Kernel
import SmartScale.Wifi.ServerControl

/-!
The HTTPS side of `wifi/wifi_comm.c` on the kernel: `start_https_server_task`,
`https_server_monitor`, `init_https_server` and `start_https_server`, with the tasks,
event groups and server instances there are.

Every task reads `https_server_events` anew at each call. A call on a group that is not
there is recorded as a misuse and does not return.

* `HttpsStep`: what a step of a task does. It moves no other task, and changes
  `https_server` only where `httpd_ssl_start` succeeds.
* `initHttpsServer_of_proceeds`: which tasks `init_https_server` creates.
-/

namespace SmartScale.WifiComm

open SmartScale.EventGroup SmartScale.Wifi

/-- Where `start_https_server_task` goes on: its wait, the checks of the certificate,
`httpd_ssl_start`, `xEventGroupSetBits` with `SERVER_ERROR_BIT`, and the loop
`while (https_server)`. -/
inductive ServerPc where
  | wait
  | validate
  | sslStart
  | setError
  | serving
deriving DecidableEq, Repr

/-- Where `https_server_monitor` goes on: its wait, `xEventGroupGetBits`, and the delay
before `SERVER_START_BIT` is set. -/
inductive MonitorPc where
  | wait
  | getBits
  | restartDelay
deriving DecidableEq, Repr

inductive HttpsPc where
  | server (pc : ServerPc)
  | monitor (pc : MonitorPc)
deriving DecidableEq, Repr

def HttpsPc.isServer : HttpsPc → Bool
  | .server _ => true
  | .monitor _ => false

/-- The kernel's part, the instances of the server (live while they run), the handles
`https_server_events`, `https_server_task_handle` and `https_server`, and whether a call
was made on a group that was not there. -/
structure Https where
  kernel : Kernel ServerBit HttpsPc
  instances : Objects Unit
  httpsServerEvents : Option Nat
  httpsServerTaskHandle : Option Nat
  httpsServer : Option Nat
  misused : Bool

def Https.boot : Https := ⟨.empty, .empty, none, none, none, false⟩

/-- Whether a task is one of `start_https_server_task` or of `https_server_monitor`. -/
def Https.kind? (s : Https) (j : Nat) : Option Bool := (s.kernel.pc? j).map HttpsPc.isServer

namespace Https

/-- A call on `https_server_events`. -/
def onEvents (s : Https) (call : Nat → Kernel ServerBit HttpsPc) : Https :=
  match s.kernel.onGroup s.httpsServerEvents call with
  | some k => { s with kernel := k }
  | none => { s with misused := true }

def goto (s : Https) (i : Nat) (pc : HttpsPc) : Https := { s with kernel := s.kernel.goto i pc }

/-- `https_server_events = xEventGroupCreate()` -/
def createEvents (s : Https) (created : Bool) : Https :=
  if created then
    { s with kernel := s.kernel.createGroup, httpsServerEvents := some s.kernel.groups.next }
  else { s with httpsServerEvents := none }

/-- `xTaskCreate(start_https_server_task, …, &https_server_task_handle)`, which leaves the
handle where it fails. -/
def createServer (s : Https) (created : Bool) : Https :=
  if created then
    { s with
      kernel := s.kernel.createTask (.server .wait)
      httpsServerTaskHandle := some s.kernel.tasks.next }
  else s

/-- `xTaskCreate(https_server_monitor, …)` -/
def createMonitor (s : Https) (created : Bool) : Https :=
  if created then { s with kernel := s.kernel.createTask (.monitor .wait) } else s

/-- `vTaskDelete(https_server_task_handle)` -/
def deleteServer (s : Https) : Https :=
  match s.httpsServerTaskHandle with
  | some i => { s with kernel := s.kernel.deleteTask i }
  | none => s

/-- `vEventGroupDelete(https_server_events)` -/
def deleteEvents (s : Https) : Https :=
  match s.httpsServerEvents with
  | some g => { s with kernel := s.kernel.deleteGroup g }
  | none => s

end Https

/-! ### The functions -/

/-- `start_https_server` -/
def startHttpsServer (s : Https) : Https := s.onEvents fun g => s.kernel.setBits g {.start}

/-- What `start_https_server_task` does next; `ok` is the outcome of the checks of the
certificate, and of `httpd_ssl_start`. -/
def startHttpsServerTask (s : Https) (i : Nat) (ok : Bool) : ServerPc → Https
  | .wait => s.onEvents fun g => s.kernel.waitBits i g serverWait (.server .validate)
  | .validate => s.goto i (.server (if ok then .sslStart else .setError))
  | .sslStart =>
      if ok then
        { s.goto i (.server .serving) with
          instances := s.instances.create ()
          httpsServer := some s.instances.next }
      else s.goto i (.server .setError)
  | .setError => s.onEvents fun g => (s.kernel.goto i (.server .wait)).setBits g {.error}
  | .serving => if s.httpsServer.isSome then s else s.goto i (.server .setError)

/-- What `https_server_monitor` does next. -/
def httpsServerMonitor (s : Https) (i : Nat) : MonitorPc → Https
  | .wait => s.onEvents fun g => s.kernel.waitBits i g monitorWait (.monitor .getBits)
  | .getBits =>
      s.onEvents fun g =>
        s.kernel.goto i (.monitor
          (if .error ∈ (s.kernel.groups.get? g).getD ∅ then .restartDelay else .wait))
  | .restartDelay => s.onEvents fun g => (s.kernel.goto i (.monitor .wait)).setBits g {.start}

/-- A step of an HTTPS task. -/
def httpsTask (s : Https) (i : Nat) (ok : Bool) : HttpsPc → Https
  | .server pc => startHttpsServerTask s i ok pc
  | .monitor pc => httpsServerMonitor s i pc

/-- Whether the creations in `init_https_server` succeed. -/
structure InitOutcome where
  group : Bool
  server : Bool
  monitor : Bool
deriving DecidableEq, Repr

/-- The event group is created if it doesn't exist. -/
def ensureEvents (s : Https) (created : Bool) : Https :=
  if s.httpsServerEvents = none then s.createEvents created else s

/-- The server task is created if there is no handle of one. -/
def ensureServer (s : Https) : Https :=
  if s.httpsServerTaskHandle = none then s.createServer true else s

/-- `init_https_server`; without a server task the group is deleted again. -/
def initHttpsServer (s : Https) (o : InitOutcome) : Https :=
  let s := ensureEvents s o.group
  if s.httpsServerEvents = none then s
  else if s.httpsServerTaskHandle = none ∧ o.server = false then
    { s.deleteEvents with httpsServerEvents := none }
  else (ensureServer s).createMonitor o.monitor

/-! ### One step of a task -/

/-- Task `i` goes from `p` to `q`, which is a place of the same function; no other task moves. -/
structure Moved (k k' : Kernel ServerBit HttpsPc) (i : Nat) (p q : HttpsPc) : Prop where
  pcs : ∀ j, k'.pc? j = if j = i then some q else k.pc? j
  kind : q.isServer = p.isServer

/-- `httpd_ssl_start` is called, and succeeds. -/
def StartsServer (p : HttpsPc) (ok : Bool) : Prop := p = .server .sslStart ∧ ok = true

instance (p : HttpsPc) (ok : Bool) : Decidable (StartsServer p ok) :=
  inferInstanceAs (Decidable (_ ∧ _))

/-- What a step of task `i` does that starts no instance. The loop `while (https_server)`
is left only when `https_server` is NULL. -/
structure Quiet (s t : Https) (i : Nat) (p q : HttpsPc) : Prop where
  moved : Moved s.kernel t.kernel i p q
  instances : t.instances = s.instances
  handle : t.httpsServerTaskHandle = s.httpsServerTaskHandle
  server : t.httpsServer = s.httpsServer
  stays : p = .server .serving → q = .server .serving ∨ s.httpsServer = none

/-- What a step of task `i` does that starts one. -/
structure Starts (s t : Https) (i : Nat) : Prop where
  moved : Moved s.kernel t.kernel i (.server .sslStart) (.server .serving)
  instances : t.instances = s.instances.create ()
  handle : t.httpsServerTaskHandle = s.httpsServerTaskHandle
  server : t.httpsServer = some s.instances.next

/-- What a step of a task at `p` does. -/
def HttpsStep (s t : Https) (i : Nat) (p : HttpsPc) (ok : Bool) : Prop :=
  (StartsServer p ok ∧ Starts s t i) ∨ (¬ StartsServer p ok ∧ ∃ q, Quiet s t i p q)

section Steps

variable {s t : Https} {i : Nat} {ok : Bool} {p q : HttpsPc}

/-- `https_server_events` refers to a group. -/
abbrev Https.EventsUsable (s : Https) : Prop := s.kernel.groups.Usable s.httpsServerEvents

theorem onEvents_of_usable (usable : s.EventsUsable) (call : Nat → Kernel ServerBit HttpsPc) :
    ∃ g, s.onEvents call = { s with kernel := call g } := by
  obtain ⟨g, _, _, called⟩ := Kernel.onGroup_of_usable usable call
  refine ⟨g, ?_⟩
  simp only [Https.onEvents, called]

theorem onEvents_of_not_usable (unusable : ¬ s.EventsUsable)
    (call : Nat → Kernel ServerBit HttpsPc) : s.onEvents call = { s with misused := true } := by
  simp only [Https.onEvents, Kernel.onGroup_of_not_usable unusable call]

theorem moved_goto (here : s.kernel.pc? i = some p) (kind : q.isServer = p.isServer) :
    Moved s.kernel (s.kernel.goto i q) i p q where
  pcs j := by
    rw [Kernel.pc?_goto, here]
    rfl
  kind := kind

theorem moved_waitBits {g : Nat} {w : Wait ServerBit} (here : s.kernel.pc? i = some p)
    (kind : q.isServer = p.isServer) : Moved s.kernel (s.kernel.waitBits i g w q) i p q where
  pcs j := by
    rw [Kernel.pc?_waitBits, here]
    rfl
  kind := kind

theorem Moved.setBits {k k' : Kernel ServerBit HttpsPc} {g : Nat} {bits : Finset ServerBit}
    (h : Moved k k' i p q) : Moved k (k'.setBits g bits) i p q where
  pcs j := Kernel.pc?_setBits.trans (h.pcs j)
  kind := h.kind

theorem moved_self {k : Kernel ServerBit HttpsPc} (here : k.pc? i = some p) : Moved k k i p p where
  pcs j := by
    split
    · rename_i same
      rw [same, here]
    · rfl
  kind := rfl

/-- A task that goes on elsewhere, not being in the loop. -/
theorem quiet_of_moved {k : Kernel ServerBit HttpsPc} (moved : Moved s.kernel k i p q)
    (stays : p ≠ .server .serving) : Quiet s { s with kernel := k } i p q :=
  ⟨moved, rfl, rfl, rfl, fun loop => absurd loop stays⟩

theorem quiet_self {misused : Bool} (here : s.kernel.pc? i = some p) :
    Quiet s { s with misused := misused } i p p :=
  ⟨moved_self here, rfl, rfl, rfl, .inl⟩

/-- A call on the event group that moves the task, or is a misuse. -/
theorem quiet_onEvents {call : Nat → Kernel ServerBit HttpsPc} (here : s.kernel.pc? i = some p)
    (stays : p ≠ .server .serving) (moves : ∀ g, ∃ q, Moved s.kernel (call g) i p q) :
    ∃ q, Quiet s (s.onEvents call) i p q := by
  by_cases usable : s.EventsUsable
  · obtain ⟨g, same⟩ := onEvents_of_usable usable call
    obtain ⟨q, moved⟩ := moves g
    rw [same]
    exact ⟨q, quiet_of_moved moved stays⟩
  · rw [onEvents_of_not_usable usable]
    exact ⟨p, quiet_self here⟩

theorem startHttpsServerTask_step {pc : ServerPc} (here : s.kernel.pc? i = some (.server pc)) :
    HttpsStep s (startHttpsServerTask s i ok pc) i (.server pc) ok := by
  cases pc with
  | wait =>
      refine .inr ⟨nofun, quiet_onEvents here nofun ?_⟩
      intro g
      exact ⟨_, moved_waitBits here rfl⟩
  | validate =>
      refine .inr ⟨nofun, _, quiet_of_moved (moved_goto here ?_) nofun⟩
      cases ok <;> rfl
  | sslStart =>
      cases ok with
      | true => exact .inl ⟨⟨rfl, rfl⟩, moved_goto here rfl, rfl, rfl, rfl⟩
      | false => exact .inr ⟨nofun, _, quiet_of_moved (moved_goto here rfl) nofun⟩
  | setError =>
      refine .inr ⟨nofun, quiet_onEvents here nofun ?_⟩
      intro g
      have back : Moved s.kernel (s.kernel.goto i (.server .wait)) i _ _ := moved_goto here rfl
      exact ⟨_, back.setBits⟩
  | serving =>
      rw [startHttpsServerTask]
      split
      · exact .inr ⟨nofun, _, quiet_self here⟩
      · rename_i stopped
        have null : s.httpsServer = none := Option.not_isSome_iff_eq_none.mp stopped
        exact .inr ⟨nofun, _, moved_goto here rfl, rfl, rfl, rfl, fun _ => .inr null⟩

theorem httpsServerMonitor_step {pc : MonitorPc} (here : s.kernel.pc? i = some (.monitor pc)) :
    ∃ q, Quiet s (httpsServerMonitor s i pc) i (.monitor pc) q := by
  cases pc with
  | wait =>
      refine quiet_onEvents here nofun ?_
      intro g
      exact ⟨_, moved_waitBits here rfl⟩
  | getBits =>
      refine quiet_onEvents here nofun ?_
      intro g
      exact ⟨_, moved_goto here rfl⟩
  | restartDelay =>
      refine quiet_onEvents here nofun ?_
      intro g
      have back : Moved s.kernel (s.kernel.goto i (.monitor .wait)) i _ _ := moved_goto here rfl
      exact ⟨_, back.setBits⟩

/-- **One step** of an HTTPS task. -/
theorem httpsTask_step (here : s.kernel.pc? i = some p) (ok : Bool) :
    HttpsStep s (httpsTask s i ok p) i p ok := by
  cases p with
  | server pc => exact startHttpsServerTask_step here
  | monitor pc => exact .inr ⟨nofun, httpsServerMonitor_step here⟩

theorem HttpsStep.moved (step : HttpsStep s t i p ok) : ∃ q, Moved s.kernel t.kernel i p q := by
  rcases step with ⟨⟨rfl, _⟩, starts⟩ | ⟨_, q, quiet⟩
  · exact ⟨_, starts.moved⟩
  · exact ⟨q, quiet.moved⟩

theorem HttpsStep.handle (step : HttpsStep s t i p ok) :
    t.httpsServerTaskHandle = s.httpsServerTaskHandle := by
  rcases step with ⟨_, starts⟩ | ⟨_, q, quiet⟩
  · exact starts.handle
  · exact quiet.handle

/-- Every task stays one of its function. -/
theorem HttpsStep.kind (step : HttpsStep s t i p ok) (here : s.kernel.pc? i = some p) (j : Nat) :
    t.kind? j = s.kind? j := by
  obtain ⟨q, moved⟩ := step.moved
  rw [Https.kind?, moved.pcs j, Https.kind?]
  split
  · rename_i same
    rw [same, here, Option.map_some, Option.map_some, moved.kind]
  · rfl

end Steps

/-! ### `init_https_server` -/

/-- The tasks, the instances and the handles of both are the same. -/
structure SameTasks (s t : Https) : Prop where
  pcs : ∀ j, t.kernel.pc? j = s.kernel.pc? j
  instances : t.instances = s.instances
  handle : t.httpsServerTaskHandle = s.httpsServerTaskHandle
  server : t.httpsServer = s.httpsServer

/-- `init_https_server` comes to `xTaskCreate(https_server_monitor, …)`. -/
def InitProceeds (s : Https) (o : InitOutcome) : Prop :=
  (s.httpsServerEvents ≠ none ∨ o.group = true) ∧
    (s.httpsServerTaskHandle ≠ none ∨ o.server = true)

instance (s : Https) (o : InitOutcome) : Decidable (InitProceeds s o) :=
  inferInstanceAs (Decidable (_ ∧ _))

/-- `init_https_server` creates a monitor. -/
def MakesMonitor (s : Https) (o : InitOutcome) : Prop := InitProceeds s o ∧ o.monitor = true

section Init

variable {s t u : Https} {o : InitOutcome} {created : Bool}

theorem SameTasks.refl : SameTasks s s := ⟨fun _ => rfl, rfl, rfl, rfl⟩

theorem SameTasks.trans (h : SameTasks s t) (h' : SameTasks t u) : SameTasks s u where
  pcs j := (h'.pcs j).trans (h.pcs j)
  instances := h'.instances.trans h.instances
  handle := h'.handle.trans h.handle
  server := h'.server.trans h.server

theorem SameTasks.kind (h : SameTasks s t) (j : Nat) : t.kind? j = s.kind? j :=
  congrArg (Option.map HttpsPc.isServer) (h.pcs j)

theorem same_startHttpsServer : SameTasks s (startHttpsServer s) := by
  unfold startHttpsServer
  by_cases usable : s.EventsUsable
  · obtain ⟨g, same⟩ := onEvents_of_usable usable fun g => s.kernel.setBits g {.start}
    rw [same]
    exact ⟨fun _ => Kernel.pc?_setBits, rfl, rfl, rfl⟩
  · rw [onEvents_of_not_usable usable]
    exact ⟨fun _ => rfl, rfl, rfl, rfl⟩

theorem same_createEvents : SameTasks s (s.createEvents created) := by
  unfold Https.createEvents
  split
  · exact ⟨fun _ => Kernel.pc?_createGroup, rfl, rfl, rfl⟩
  · exact ⟨fun _ => rfl, rfl, rfl, rfl⟩

theorem same_ensureEvents : SameTasks s (ensureEvents s created) := by
  unfold ensureEvents
  split
  · exact same_createEvents
  · exact .refl

theorem same_deleteEvents : SameTasks s s.deleteEvents := by
  unfold Https.deleteEvents
  split
  · exact ⟨fun _ => Kernel.pc?_deleteGroup, rfl, rfl, rfl⟩
  · exact .refl

theorem events_ensureEvents :
    (ensureEvents s created).httpsServerEvents ≠ none ↔
      s.httpsServerEvents ≠ none ∨ created = true := by
  unfold ensureEvents
  split
  · rename_i null
    rw [or_iff_right (not_not.mpr null)]
    cases created
    · exact iff_of_false (fun there => there rfl) nofun
    · exact iff_of_true nofun rfl
  · rename_i there
    exact iff_of_true there (.inl there)

theorem initHttpsServer_of_proceeds (proceeds : InitProceeds s o) :
    initHttpsServer s o = (ensureServer (ensureEvents s o.group)).createMonitor o.monitor := by
  have there := events_ensureEvents.mpr proceeds.1
  rw [initHttpsServer, if_neg there, if_neg]
  rw [same_ensureEvents.handle]
  rintro ⟨null, failed⟩
  exact proceeds.2.elim (absurd null) fun done => absurd done (by simp [failed])

/-- Otherwise it returns early, with or without deleting the group. -/
theorem initHttpsServer_of_not_proceeds (returns : ¬ InitProceeds s o) :
    ((ensureEvents s o.group).httpsServerEvents = none ∧
        initHttpsServer s o = ensureEvents s o.group) ∨
      initHttpsServer s o =
        { (ensureEvents s o.group).deleteEvents with httpsServerEvents := none } := by
  by_cases null : (ensureEvents s o.group).httpsServerEvents = none
  · exact .inl ⟨null, by rw [initHttpsServer, if_pos null]⟩
  · have failed : ¬ (s.httpsServerTaskHandle ≠ none ∨ o.server = true) :=
      fun server => returns ⟨events_ensureEvents.mp null, server⟩
    have path : (ensureEvents s o.group).httpsServerTaskHandle = none ∧ o.server = false := by
      rw [same_ensureEvents.handle]
      simpa only [not_or, not_not, Bool.not_eq_true] using failed
    exact .inr (by rw [initHttpsServer, if_neg null, if_pos path])

theorem same_initHttpsServer (returns : ¬ InitProceeds s o) :
    SameTasks s (initHttpsServer s o) := by
  rcases initHttpsServer_of_not_proceeds returns with ⟨_, same⟩ | same
  · rw [same]
    exact same_ensureEvents
  · rw [same]
    have deleted := same_deleteEvents (s := ensureEvents s o.group)
    exact same_ensureEvents.trans ⟨deleted.pcs, deleted.instances, deleted.handle, deleted.server⟩

theorem pc?_createServer {j : Nat} : (s.createServer created).kernel.pc? j =
    if created = true ∧ j = s.kernel.tasks.next then some (.server .wait) else s.kernel.pc? j := by
  cases created with
  | true =>
      rw [Https.createServer, if_pos rfl, Kernel.pc?_createTask]
      simp only [true_and]
  | false => rfl

theorem pc?_createMonitor {j : Nat} : (s.createMonitor created).kernel.pc? j =
    if created = true ∧ j = s.kernel.tasks.next then some (.monitor .wait) else s.kernel.pc? j := by
  cases created with
  | true =>
      rw [Https.createMonitor, if_pos rfl, Kernel.pc?_createTask]
      simp only [true_and]
  | false => rfl

theorem deleteServer_handle :
    s.deleteServer.httpsServerTaskHandle = s.httpsServerTaskHandle := by
  unfold Https.deleteServer
  split <;> rfl

theorem deleteServer_instances : s.deleteServer.instances = s.instances := by
  unfold Https.deleteServer
  split <;> rfl

theorem deleteServer_httpsServer : s.deleteServer.httpsServer = s.httpsServer := by
  unfold Https.deleteServer
  split <;> rfl

theorem pc?_deleteServer {j : Nat} : s.deleteServer.kernel.pc? j =
    if s.httpsServerTaskHandle = some j then none else s.kernel.pc? j := by
  unfold Https.deleteServer
  cases handle : s.httpsServerTaskHandle with
  | none => rfl
  | some i =>
      rw [Kernel.pc?_deleteTask]
      simp only [Option.some.injEq, eq_comm]

/-- The tasks there are stay where they are, and no instance is started or stopped. -/
structure Keeps (s t : Https) : Prop where
  pcs : ∀ j q, s.kernel.pc? j = some q → t.kernel.pc? j = some q
  instances : t.instances = s.instances
  server : t.httpsServer = s.httpsServer

theorem Keeps.refl : Keeps s s := ⟨fun _ _ => id, rfl, rfl⟩

theorem Keeps.trans (h : Keeps s t) (h' : Keeps t u) : Keeps s u where
  pcs j q here := h'.pcs j q (h.pcs j q here)
  instances := h'.instances.trans h.instances
  server := h'.server.trans h.server

theorem SameTasks.keeps (h : SameTasks s t) : Keeps s t where
  pcs j _ here := (h.pcs j).trans here
  instances := h.instances
  server := h.server

theorem pc?_ne_next {j : Nat} {q : HttpsPc} (here : s.kernel.pc? j = some q) :
    j ≠ s.kernel.tasks.next := by
  rintro rfl
  rw [Kernel.pc?_next] at here
  cases here

theorem keeps_ensureServer : Keeps s (ensureServer s) := by
  unfold ensureServer
  split
  · refine ⟨?_, rfl, rfl⟩
    intro j q here
    rw [pc?_createServer, if_neg fun new => pc?_ne_next here new.2, here]
  · exact .refl

theorem keeps_createMonitor : Keeps s (s.createMonitor created) := by
  refine ⟨?_, ?_, ?_⟩
  · intro j q here
    rw [pc?_createMonitor, if_neg fun new => pc?_ne_next here new.2, here]
  · cases created <;> rfl
  · cases created <;> rfl

theorem keeps_initHttpsServer : Keeps s (initHttpsServer s o) := by
  by_cases proceeds : InitProceeds s o
  · rw [initHttpsServer_of_proceeds proceeds]
    exact (same_ensureEvents.keeps.trans keeps_ensureServer).trans keeps_createMonitor
  · exact (same_initHttpsServer proceeds).keeps

theorem kind?_next : s.kind? s.kernel.tasks.next = none := by
  rw [Https.kind?, Kernel.pc?_next]
  rfl

theorem kind?_createServer {j : Nat} : (s.createServer created).kind? j =
    if created = true ∧ j = s.kernel.tasks.next then some true else s.kind? j := by
  rw [Https.kind?, pc?_createServer]
  split <;> rfl

theorem kind?_createMonitor {j : Nat} : (s.createMonitor created).kind? j =
    if created = true ∧ j = s.kernel.tasks.next then some false else s.kind? j := by
  rw [Https.kind?, pc?_createMonitor]
  split <;> rfl

theorem kind?_deleteServer {j : Nat} : s.deleteServer.kind? j =
    if s.httpsServerTaskHandle = some j then none else s.kind? j := by
  rw [Https.kind?, pc?_deleteServer]
  split <;> rfl

theorem monitor_ensureServer {j : Nat} :
    (ensureServer s).kind? j = some false ↔ s.kind? j = some false := by
  unfold ensureServer
  split
  · rw [kind?_createServer]
    split
    · rename_i new
      rw [new.2, kind?_next]
      exact iff_of_false nofun nofun
    · rfl
  · rfl

/-- The monitor that `init_https_server` creates is a new task. -/
theorem monitor_initHttpsServer (makes : MakesMonitor s o) :
    ∃ n, s.kind? n ≠ some false ∧
      ∀ j, (initHttpsServer s o).kind? j = some false ↔ j = n ∨ s.kind? j = some false := by
  have old (j : Nat) : (ensureServer (ensureEvents s o.group)).kind? j = some false ↔
      s.kind? j = some false := by
    rw [monitor_ensureServer, same_ensureEvents.kind]
  refine ⟨(ensureServer (ensureEvents s o.group)).kernel.tasks.next, ?_, ?_⟩
  · rw [Ne, ← old, kind?_next]
    exact nofun
  · intro j
    rw [initHttpsServer_of_proceeds makes.1, kind?_createMonitor, ← old]
    split
    · rename_i new
      exact iff_of_true rfl (.inl new.2)
    · rename_i other
      exact (or_iff_right fun new => other ⟨makes.2, new⟩).symm

theorem monitor_initHttpsServer_of_not (keeps : ¬ MakesMonitor s o) (j : Nat) :
    (initHttpsServer s o).kind? j = some false ↔ s.kind? j = some false := by
  by_cases proceeds : InitProceeds s o
  · rw [initHttpsServer_of_proceeds proceeds, kind?_createMonitor,
      if_neg fun new => keeps ⟨proceeds, new.1⟩, monitor_ensureServer, same_ensureEvents.kind]
  · rw [(same_initHttpsServer proceeds).kind]

end Init

end SmartScale.WifiComm
