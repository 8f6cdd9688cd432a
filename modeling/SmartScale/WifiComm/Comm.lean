import SmartScale.Base.Schedule
import SmartScale.Wifi.ScanConnect
import SmartScale.WifiComm.Https

/-!
All of `wifi/wifi_comm.c` on two kernels, one for each event group: `wifi_comm_start`,
the scan and the connect task, the HTTPS side, `wifi_event_handler`, `wifi_is_connected`,
`init_https_server` and `wifi_comm_stop`.

A task runs from one call of the kernel or the driver to the next. `wifi_comm_start` runs
once (a second call aborts where the default event loop is created again) and goes
statement by statement, as does `wifi_comm_stop`; its calls come one after another. The
driver delivers events once it is started, also after `wifi_comm_stop`, which unregisters
no handler.

* `handleWifi_flags`: `wifi_event_handler` is the one of `Wifi.EventHandler`.
* `commStep`: one step of anything but `wifi_comm_start`, `bootStep` of all of it.
* `run_startSteps`: what `wifi_comm_start` leaves.
-/

namespace SmartScale.WifiComm

open SmartScale.EventGroup SmartScale.Schedule SmartScale.Wifi

/-- Where `wifi_comm_start` goes on. -/
inductive StartPc where
  | createWifiGroup
  | createServerGroup
  | wifiStart
  | waitStart
  | createScan
  | createConnect
  | createMonitor
  | createServer
deriving DecidableEq, Repr

/-- The tasks on `s_wifi_event_group`, with the caller of `wifi_comm_start`. A task at
`deleted` comes to `vTaskDelete(NULL)`. -/
inductive WifiPc where
  | start (pc : StartPc)
  | scan (pc : ScanTask)
  | connect (pc : ConnectTask)
deriving DecidableEq, Repr

/-- Where `wifi_comm_stop` goes on. -/
inductive StopPc where
  | idle
  | checkServer
  | sslStop
  | clearServer
  | disconnect
  | wifiStop
  | wifiDeinit
  | checkWifiGroup
  | deleteWifiGroup
  | clearWifiGroup
  | checkServerGroup
  | deleteServerGroup
  | clearServerGroup
  | checkTask
  | deleteTask
  | clearTask
deriving DecidableEq, Repr

/-- The Wi-Fi side: `s_wifi_event_group`, `s_scan_successful`, whether events may come,
and whether a call was made on a group that was not there. -/
structure WifiSide where
  kernel : Kernel WifiBit WifiPc
  sWifiEventGroup : Option Nat
  sScanSuccessful : Bool
  driverStarted : Bool
  misused : Bool

namespace WifiSide

/-- A call on `s_wifi_event_group`. -/
def onGroup (w : WifiSide) (call : Nat → Kernel WifiBit WifiPc) : WifiSide :=
  match w.kernel.onGroup w.sWifiEventGroup call with
  | some k => { w with kernel := k }
  | none => { w with misused := true }

def goto (w : WifiSide) (i : Nat) (pc : WifiPc) : WifiSide :=
  { w with kernel := w.kernel.goto i pc }

/-- `s_wifi_event_group = xEventGroupCreate()` -/
def createGroup (w : WifiSide) (created : Bool) : WifiSide :=
  if created then
    { w with kernel := w.kernel.createGroup, sWifiEventGroup := some w.kernel.groups.next }
  else { w with sWifiEventGroup := none }

/-- `xTaskCreatePinnedToCore` -/
def createTask (w : WifiSide) (pc : WifiPc) (created : Bool) : WifiSide :=
  if created then { w with kernel := w.kernel.createTask pc } else w

/-- `vTaskDelete(NULL)` -/
def endTask (w : WifiSide) (i : Nat) : WifiSide := { w with kernel := w.kernel.deleteTask i }

/-- `vEventGroupDelete(s_wifi_event_group)` -/
def deleteGroup (w : WifiSide) : WifiSide :=
  match w.sWifiEventGroup with
  | some g => { w with kernel := w.kernel.deleteGroup g }
  | none => w

end WifiSide

/-- `stopped`: `wifi_comm_stop` has returned, and `init_https_server` has not been called
since. -/
structure Comm where
  https : Https
  wifi : WifiSide
  stop : StopPc
  stopped : Bool

/-- `wifi_comm_start` is called; nothing else has happened. -/
def Comm.boot : Comm where
  https := .boot
  wifi := ⟨Kernel.empty.createTask (.start .createWifiGroup), none, false, false, false⟩
  stop := .idle
  stopped := false

/-! ### The functions -/

/-- What `wifi_comm_start` does next; `created` is the outcome of a creation. -/
def wifiCommStart (s : Comm) (i : Nat) (created : Bool) : StartPc → Comm
  | .createWifiGroup =>
      { s with wifi := (s.wifi.createGroup created).goto i (.start .createServerGroup) }
  | .createServerGroup =>
      { s with
        https := s.https.createEvents created
        wifi := s.wifi.goto i (.start .wifiStart) }
  | .wifiStart =>
      { s with wifi := { s.wifi.goto i (.start .waitStart) with driverStarted := true } }
  | .waitStart =>
      { s with
        wifi := s.wifi.onGroup fun g =>
          s.wifi.kernel.waitBits i g WifiWaiter.start.wait (.start .createScan) }
  | .createScan =>
      { s with
        wifi := (s.wifi.createTask (.scan .waitStart) created).goto i (.start .createConnect) }
  | .createConnect =>
      { s with
        wifi := (s.wifi.createTask (.connect .polling) created).goto i (.start .createMonitor) }
  | .createMonitor =>
      { s with
        https := s.https.createMonitor created
        wifi := s.wifi.goto i (.start .createServer) }
  | .createServer =>
      { s with https := s.https.createServer created, wifi := s.wifi.endTask i }

/-- What `wifi_scan_task` does next; the driver answers with `apCount`, and `found` is the
outcome of the `strcmp`. -/
def wifiScanTask (w : WifiSide) (i apCount : Nat) (found : Bool) : ScanTask → WifiSide
  | .waitStart =>
      w.onGroup fun g => w.kernel.waitBits i g WifiWaiter.start.wait (.scan .scanStart)
  | .scanStart => w.goto i (.scan .waitDone)
  | .waitDone => w.onGroup fun g => w.kernel.waitBits i g WifiWaiter.scan.wait (.scan .getNum)
  | .getNum => w.goto i (.scan (if apCount = 0 then .deleted else .getRecords apCount))
  | .getRecords _ =>
      { w.goto i (.scan .deleted) with sScanSuccessful := w.sScanSuccessful || found }
  | .deleted => w.endTask i

/-- What `wifi_connect_task` does next. -/
def wifiConnectTask (w : WifiSide) (i : Nat) : ConnectTask → WifiSide
  | .polling => if w.sScanSuccessful then w.goto i (.connect .configure) else w
  | .configure => w.goto i (.connect .waitConnected)
  | .waitConnected =>
      w.onGroup fun g => w.kernel.waitBits i g WifiWaiter.connect.wait (.connect .deleted)
  | .deleted => w.endTask i

/-- The calls of `wifi_event_handler` on `s_wifi_event_group`. -/
def handleWifi (w : WifiSide) : WifiEvent → WifiSide
  | .staStart => w.onGroup fun g => w.kernel.setBits g {.staStart}
  | .scanDone => w.onGroup fun g => w.kernel.setBits g {.scanDone}
  | .staConnected => w.onGroup fun g => w.kernel.setBits g {.connected}
  | .staDisconnected => w.onGroup fun g => w.kernel.clearBits g {.connected}
  | .otherWifi | .gotIp => w

/-- `wifi_event_handler` -/
def wifiEventHandler (s : Comm) (event : WifiEvent) : Comm where
  https := if event = .gotIp then startHttpsServer s.https else s.https
  wifi := handleWifi s.wifi event
  stop := s.stop
  stopped := s.stopped

/-- `wifi_is_connected`; `none` where the group is not there. -/
def wifiIsConnected (w : WifiSide) : Option Bool :=
  (w.sWifiEventGroup.bind w.kernel.groups.get?).map Wifi.wifiIsConnected

/-- What a call of it does. -/
def callIsConnected (w : WifiSide) : WifiSide :=
  match wifiIsConnected w with
  | some _ => w
  | none => { w with misused := true }

/-- **The handler** leaves the bits as `Wifi.wifiEventHandler` does. -/
theorem handleWifi_flags {w : WifiSide} {g : Nat} {flags : Finset WifiBit}
    {blocked : List WifiWaiter} (group : w.sWifiEventGroup = some g)
    (here : w.kernel.groups.get? g = some flags)
    (waits : w.kernel.blockedWaits g = blocked.map WifiWaiter.wait) (e : WifiEvent) :
    (handleWifi w e).kernel.groups.get? g = some (Wifi.wifiEventHandler flags ⟨e, blocked⟩).1 := by
  have calls (call : Nat → Kernel WifiBit WifiPc) : (w.onGroup call).kernel = call g := by
    have live : w.kernel.groups.Live g := Objects.live_iff.mpr ⟨flags, here⟩
    simp only [WifiSide.onGroup, Kernel.onGroup, group, if_pos live]
  have sets (bit : WifiBit) : (w.onGroup fun h => w.kernel.setBits h {bit}).kernel.groups.get? g =
      some (setWifiBit flags bit blocked) := by
    rw [calls, Kernel.get?_setBits here, waits]
    rfl
  cases e with
  | staStart => exact sets .staStart
  | scanDone => exact sets .scanDone
  | staConnected => exact sets .connected
  | staDisconnected =>
      rw [handleWifi, calls]
      exact Kernel.get?_clearBits here
  | otherWifi => exact here
  | gotIp => exact here

/-- What `wifi_comm_stop` does next, with `stop_https_server` in it. -/
def wifiCommStop (s : Comm) : Comm :=
  match s.stop with
  | .idle => { s with stop := .checkServer }
  | .checkServer => { s with stop := if s.https.httpsServer = none then .disconnect else .sslStop }
  | .sslStop =>
      { s with
        https := { s.https with
          instances := s.https.httpsServer.elim s.https.instances s.https.instances.delete }
        stop := .clearServer }
  | .clearServer => { s with https := { s.https with httpsServer := none }, stop := .disconnect }
  | .disconnect => { s with stop := .wifiStop }
  | .wifiStop => { s with stop := .wifiDeinit }
  | .wifiDeinit => { s with stop := .checkWifiGroup }
  | .checkWifiGroup =>
      { s with
        stop := if s.wifi.sWifiEventGroup = none then .checkServerGroup else .deleteWifiGroup }
  | .deleteWifiGroup => { s with wifi := s.wifi.deleteGroup, stop := .clearWifiGroup }
  | .clearWifiGroup =>
      { s with wifi := { s.wifi with sWifiEventGroup := none }, stop := .checkServerGroup }
  | .checkServerGroup =>
      { s with
        stop := if s.https.httpsServerEvents = none then .checkTask else .deleteServerGroup }
  | .deleteServerGroup => { s with https := s.https.deleteEvents, stop := .clearServerGroup }
  | .clearServerGroup =>
      { s with https := { s.https with httpsServerEvents := none }, stop := .checkTask }
  | .checkTask =>
      if s.https.httpsServerTaskHandle = none then { s with stop := .idle, stopped := true }
      else { s with stop := .deleteTask }
  | .deleteTask => { s with https := s.https.deleteServer, stop := .clearTask }
  | .clearTask =>
      { s with
        https := { s.https with httpsServerTaskHandle := none }
        stop := .idle
        stopped := true }

/-! ### Steps -/

/-- What acts next. -/
inductive CommAction where
  | httpsTask (i : Nat) (ok : Bool)
  | wifiTask (i apCount : Nat) (found : Bool)
  | event (e : WifiEvent)
  | init (o : InitOutcome)
  | stop
  | isConnected
deriving DecidableEq, Repr

/-- The scan task or the connect task; the caller of `wifi_comm_start` is neither. -/
def wifiTask (w : WifiSide) (i apCount : Nat) (found : Bool) : WifiPc → Option WifiSide
  | .start _ => none
  | .scan pc => some (wifiScanTask w i apCount found pc)
  | .connect pc => some (wifiConnectTask w i pc)

/-- One step. A task acts while it is not blocked, the driver once it is started. -/
def commStep (s : Comm) : CommAction → Option Comm
  | .httpsTask i ok =>
      (s.https.kernel.ready? i).map fun pc => { s with https := httpsTask s.https i ok pc }
  | .wifiTask i apCount found =>
      ((s.wifi.kernel.ready? i).bind (wifiTask s.wifi i apCount found)).map fun w =>
        { s with wifi := w }
  | .event e => if s.wifi.driverStarted then some (wifiEventHandler s e) else none
  | .init o => some { s with https := initHttpsServer s.https o, stopped := false }
  | .stop => some (wifiCommStop s)
  | .isConnected => some { s with wifi := callIsConnected s.wifi }

inductive BootAction where
  | start (i : Nat) (created : Bool)
  | comm (a : CommAction)
deriving DecidableEq, Repr

/-- The place of the caller of `wifi_comm_start`. -/
def starting? : WifiPc → Option StartPc
  | .start pc => some pc
  | _ => none

/-- One step of all of it. -/
def bootStep (s : Comm) : BootAction → Option Comm
  | .start i created =>
      ((s.wifi.kernel.ready? i).bind starting?).map fun pc => wifiCommStart s i created pc
  | .comm a => commStep s a

/-- The steps that are not of the HTTPS tasks, of `init_https_server` or of
`wifi_comm_stop`. -/
def CommAction.ofWifi : CommAction → Bool
  | .wifiTask .. | .event _ | .isConnected => true
  | .httpsTask .. | .init _ | .stop => false

/-- They leave the HTTPS tasks and the instances alone. -/
theorem commStep_ofWifi {s t : Comm} {a : CommAction} (wifi : a.ofWifi = true)
    (enabled : commStep s a = some t) :
    SameTasks s.https t.https ∧ t.stop = s.stop ∧ t.stopped = s.stopped := by
  cases a with
  | wifiTask i apCount found =>
      obtain ⟨w, _, rfl⟩ := Option.map_eq_some_iff.mp enabled
      exact ⟨.refl, rfl, rfl⟩
  | event e =>
      rw [commStep, Option.ite_none_right_eq_some, Option.some.injEq] at enabled
      obtain ⟨_, rfl⟩ := enabled
      refine ⟨?_, rfl, rfl⟩
      unfold wifiEventHandler
      split
      · exact same_startHttpsServer
      · exact .refl
  | isConnected =>
      cases enabled
      exact ⟨.refl, rfl, rfl⟩
  | httpsTask i ok => cases wifi
  | init o => cases wifi
  | stop => cases wifi

/-! ### What `wifi_comm_start` leaves -/

/-- As `wifi_comm_start` leaves it, with the tasks that could be created. -/
def Comm.started (scan connect monitor server : Bool) : Comm where
  https := ((Https.boot.createEvents true).createMonitor monitor).createServer server
  wifi :=
    { kernel :=
        { groups := ⟨[some {.staStart}]⟩
          tasks := ⟨none :: ((if scan then [some ⟨.scan .waitStart, none⟩] else []) ++
            (if connect then [some ⟨.connect .polling, none⟩] else []))⟩ }
      sWifiEventGroup := some 0
      sScanSuccessful := false
      driverStarted := true
      misused := false }
  stop := .idle
  stopped := false

/-- `wifi_comm_start`, with the event it waits for. -/
def startSteps (scan connect monitor server : Bool) : List BootAction :=
  [.start 0 true, .start 0 true, .start 0 true, .comm (.event .staStart), .start 0 true,
    .start 0 scan, .start 0 connect, .start 0 monitor, .start 0 server]

/-- **The start.** Both groups created, `wifi_comm_start` leaves the tasks it could create. -/
theorem run_startSteps (scan connect monitor server : Bool) :
    run bootStep Comm.boot (startSteps scan connect monitor server) =
      some (Comm.started scan connect monitor server) := by
  cases scan <;> cases connect <;> rfl

end SmartScale.WifiComm
