import SmartScale.Base.Schedule
import SmartScale.Wifi.EventHandler

/-!
`wifi_scan_task` and `wifi_connect_task` (`wifi/wifi_comm.c`), for a given outcome of the
scan. The scan task runs once: it ends on every path, reads as many records as the
driver found into room for one, and compares the first. The connect task polls
`s_scan_successful`, which nobody else sets.

* `scan_step`: with one access point, of the target SSID, every step keeps the handshake.
* `scan_sets_flag`: its flag is set in every run in which the task and the driver go on.
* `handshake_iff`: with any other outcome, the handshake fails.
-/

namespace SmartScale.Wifi

open SmartScale.EventGroup SmartScale.Schedule

/-- The bytes of a C string. -/
abbrev CString := List UInt8

/-- `wifi_ap_record_t`, the fields that are read. -/
structure WifiApRecord where
  ssid : CString
  rssi : Int
deriving DecidableEq, Repr

/-- Where `wifi_scan_task` is; `getRecords` holds `ap_count`. -/
inductive ScanTask where
  | waitStart
  | scanStart
  | waitDone
  | getNum
  | getRecords (apCount : Nat)
  | deleted
deriving DecidableEq, Repr

/-- Where `wifi_connect_task` is. -/
inductive ConnectTask where
  | polling
  | configure
  | waitConnected
  | deleted
deriving DecidableEq, Repr

/-- The bits of `s_wifi_event_group`, whether the driver is scanning, the two tasks,
`s_scan_successful`, and the number of records that were asked for. -/
structure ScanConnect where
  bits : Finset WifiBit
  scanning : Bool
  scan : ScanTask
  connect : ConnectTask
  sScanSuccessful : Bool
  requested : Nat
deriving DecidableEq

/-- As `wifi_comm_start` leaves it, which has waited for the start of the driver. -/
def ScanConnect.start : ScanConnect := ⟨{.staStart}, false, .waitStart, .polling, false, 0⟩

/-- `wifi_ap_record_t ap` is room for one. -/
def apRoom : Nat := 1

/-- What acts next: one of the tasks up to its next call of the driver or the kernel, or
the driver, which ends the scan or reports a connection. -/
inductive ScanAction where
  | scanTask
  | connectTask
  | scanDone
  | staConnected
  | staDisconnected
deriving DecidableEq, Repr

/-- The bits after an event. -/
def handled (s : ScanConnect) (event : WifiEvent) : Finset WifiBit :=
  (wifiEventHandler s.bits ⟨event, []⟩).1

/-- One step of `wifi_scan_task`; a wait is a step once it is satisfied. -/
def wifiScanTask (target : CString) (records : List WifiApRecord) (s : ScanConnect) :
    Option ScanConnect :=
  match s.scan with
  | .waitStart =>
      (waitBits s.bits WifiWaiter.start.wait).map fun bits =>
        { s with bits := bits, scan := .scanStart }
  | .scanStart => some { s with scanning := true, scan := .waitDone }
  | .waitDone =>
      (waitBits s.bits WifiWaiter.scan.wait).map fun bits =>
        { s with bits := bits, scan := .getNum }
  | .getNum =>
      if records.length = 0 then some { s with scan := .deleted }
      else some { s with scan := .getRecords records.length }
  | .getRecords apCount =>
      let found := (records.take apCount).head?.any fun ap => ap.ssid = target
      some { s with
        requested := max s.requested apCount
        sScanSuccessful := s.sScanSuccessful || found
        scan := .deleted }
  | .deleted => none

/-- One step of `wifi_connect_task`. -/
def wifiConnectTask (s : ScanConnect) : Option ScanConnect :=
  match s.connect with
  | .polling => some (if s.sScanSuccessful then { s with connect := .configure } else s)
  | .configure => some { s with connect := .waitConnected }
  | .waitConnected =>
      (waitBits s.bits WifiWaiter.connect.wait).map fun bits =>
        { s with bits := bits, connect := .deleted }
  | .deleted => none

/-- One step; the driver connects only when it was asked to. -/
def scanStep (target : CString) (records : List WifiApRecord) (s : ScanConnect) :
    ScanAction → Option ScanConnect
  | .scanTask => wifiScanTask target records s
  | .connectTask => wifiConnectTask s
  | .scanDone =>
      if s.scanning then some { s with bits := handled s .scanDone, scanning := false } else none
  | .staConnected =>
      if s.connect = .waitConnected ∨ s.connect = .deleted then
        some { s with bits := handled s .staConnected }
      else none
  | .staDisconnected =>
      if s.connect = .waitConnected ∨ s.connect = .deleted then
        some { s with bits := handled s .staDisconnected }
      else none

/-- The scan task has not started its scan, and nothing keeps it from doing so. -/
def ScanConnect.ToStart (s : ScanConnect) : Prop :=
  s.scan = .waitStart ∧ .staStart ∈ s.bits ∨ s.scan = .scanStart

/-- The scan is over, and the scan task is free to read its result. -/
def ScanConnect.ToRead (s : ScanConnect) : Prop :=
  s.scan = .waitDone ∧ .scanDone ∈ s.bits ∨ s.scan = .getNum ∨
    ∃ apCount, s.scan = .getRecords apCount

/-- A scan will be started, is running, or has a result that is still to be read. -/
def ScanConnect.Pending (s : ScanConnect) : Prop :=
  s.ToStart ∨ s.scanning = true ∨ s.ToRead

/-- The records asked for have room; once the scan task has ended, the flag is set if some
record carries the target; and while the connect task polls, the flag is set or a scan
is pending. -/
structure Handshake (target : CString) (records : List WifiApRecord) (s : ScanConnect) :
    Prop where
  room : s.requested ≤ apRoom
  found : s.scan = .deleted → (∃ ap ∈ records, ap.ssid = target) → s.sScanSuccessful = true
  live : s.connect = .polling → s.sScanSuccessful = true ∨ s.Pending

/-- The scan task runs, and the driver ends its scans. -/
def goesOn : Set ScanAction := {.scanTask, .scanDone}

/-- The handshake for an outcome of the scan: it holds in every state of every run, and where
some record carries the target, the flag gets set as long as the scan goes on. -/
structure HandshakeWorks (target : CString) (records : List WifiApRecord) : Prop where
  always : ∀ actions,
    AllStates (scanStep target records) (Handshake target records) ScanConnect.start actions
  sets : (∃ ap ∈ records, ap.ssid = target) → ∀ schedule, Fair goesOn schedule →
    ∃ n, (stateAt (scanStep target records) ScanConnect.start schedule n).sScanSuccessful = true

/-! ### One access point: the invariant -/

/-- With one record, of the target, the scan task waits for nothing that will not come, and ends
with the flag set. -/
structure ScanConnect.Inv (s : ScanConnect) : Prop where
  room : s.requested ≤ apRoom
  starts : s.scan = .waitStart → .staStart ∈ s.bits
  ends : s.scan = .waitDone → s.scanning = true ∨ .scanDone ∈ s.bits
  count : ∀ apCount, s.scan = .getRecords apCount → apCount = 1
  ended : s.scan = .deleted → s.sScanSuccessful = true

section Steps

variable {target : CString} {records : List WifiApRecord} {ap : WifiApRecord}
  {s t : ScanConnect}

/-- **What the scan task can do** in a step. -/
inductive ScanMove (target : CString) (records : List WifiApRecord) (s : ScanConnect) :
    ScanConnect → Prop
  | started : s.scan = .waitStart → .staStart ∈ s.bits →
      ScanMove target records s { s with scan := .scanStart }
  | scans : s.scan = .scanStart →
      ScanMove target records s { s with scanning := true, scan := .waitDone }
  | done : s.scan = .waitDone → .scanDone ∈ s.bits →
      ScanMove target records s { s with bits := s.bits \ {.scanDone}, scan := .getNum }
  | nobody : s.scan = .getNum → records = [] →
      ScanMove target records s { s with scan := .deleted }
  | counted : s.scan = .getNum → records ≠ [] →
      ScanMove target records s { s with scan := .getRecords records.length }
  | compared (apCount : Nat) : s.scan = .getRecords apCount →
      ScanMove target records s { s with
        requested := max s.requested apCount
        sScanSuccessful := s.sScanSuccessful ||
          (records.take apCount).head?.any fun ap => ap.ssid = target
        scan := .deleted }

theorem waitBits_start_iff {bits left : Finset WifiBit} :
    waitBits bits WifiWaiter.start.wait = some left ↔ .staStart ∈ bits ∧ left = bits := by
  rw [waitBits_eq_some_iff]
  simp [Wait.satisfied, Wait.clears, WifiWaiter.wait]

theorem waitBits_scan_iff {bits left : Finset WifiBit} :
    waitBits bits WifiWaiter.scan.wait = some left ↔
      .scanDone ∈ bits ∧ left = bits \ {.scanDone} := by
  rw [waitBits_eq_some_iff]
  simp [Wait.satisfied, Wait.clears, WifiWaiter.wait]

theorem wifiScanTask_iff :
    wifiScanTask target records s = some t ↔ ScanMove target records s t := by
  constructor
  · intro enabled
    cases here : s.scan with
    | waitStart =>
        simp only [wifiScanTask, here, Option.map_eq_some_iff, waitBits_start_iff] at enabled
        obtain ⟨_, ⟨set, rfl⟩, rfl⟩ := enabled
        exact .started here set
    | scanStart =>
        simp only [wifiScanTask, here, Option.some.injEq] at enabled
        exact enabled ▸ .scans here
    | waitDone =>
        simp only [wifiScanTask, here, Option.map_eq_some_iff, waitBits_scan_iff] at enabled
        obtain ⟨_, ⟨set, rfl⟩, rfl⟩ := enabled
        exact .done here set
    | getNum =>
        simp only [wifiScanTask, here, List.length_eq_zero_iff] at enabled
        split_ifs at enabled with none_found
        · exact Option.some.inj enabled ▸ .nobody here none_found
        · exact Option.some.inj enabled ▸ .counted here none_found
    | getRecords apCount =>
        simp only [wifiScanTask, here, Option.some.injEq] at enabled
        exact enabled ▸ .compared apCount here
    | deleted => simp [wifiScanTask, here] at enabled
  · intro move
    cases move with
    | started here set =>
        simp only [wifiScanTask, here, Option.map_eq_some_iff, waitBits_start_iff]
        exact ⟨s.bits, ⟨set, rfl⟩, rfl⟩
    | scans here => simp [wifiScanTask, here]
    | done here set =>
        simp only [wifiScanTask, here, Option.map_eq_some_iff, waitBits_scan_iff]
        exact ⟨s.bits \ {.scanDone}, ⟨set, rfl⟩, rfl⟩
    | nobody here none_found => simp [wifiScanTask, here, none_found]
    | counted here some_found => simp [wifiScanTask, here, some_found]
    | compared apCount here => simp [wifiScanTask, here]

/-- The connect task moves itself and takes no bits. -/
theorem wifiConnectTask_cases (enabled : wifiConnectTask s = some t) :
    ∃ bits connect, t = { s with bits := bits, connect := connect } ∧
      ∀ b ∈ s.bits, b ≠ .connected → b ∈ bits := by
  cases here : s.connect with
  | polling =>
      simp only [wifiConnectTask, here, Option.some.injEq] at enabled
      subst enabled
      split
      · exact ⟨s.bits, .configure, rfl, fun b set _ => set⟩
      · exact ⟨s.bits, s.connect, rfl, fun b set _ => set⟩
  | configure =>
      simp only [wifiConnectTask, here, Option.some.injEq] at enabled
      subst enabled
      exact ⟨s.bits, .waitConnected, rfl, fun b set _ => set⟩
  | waitConnected =>
      simp only [wifiConnectTask, here, Option.map_eq_some_iff, waitBits_eq_some_iff] at enabled
      obtain ⟨_, ⟨-, rfl⟩, rfl⟩ := enabled
      refine ⟨_, .deleted, rfl, fun b set _ => ?_⟩
      simpa [Wait.clears, WifiWaiter.wait] using set
  | deleted => simp [wifiConnectTask, here] at enabled

/-- A report of the driver takes no bit but `WIFI_CONNECTED_BIT`. -/
theorem mem_handled {event : WifiEvent} {b : WifiBit} (other : b ≠ .connected)
    (set : b ∈ s.bits) : b ∈ handled s event := by
  cases event <;> simp [handled, wifiEventHandler, setWifiBit, set, other]

/-- **What a step can do**: one of the scan task, or one that leaves the scan task where it is,
with what it has asked for and found, and with a scan that runs on or has reported its end. -/
theorem scanStep_cases {a : ScanAction} (enabled : scanStep target records s a = some t) :
    wifiScanTask target records s = some t ∨ ∃ bits scanning connect,
      t = { s with bits := bits, scanning := scanning, connect := connect } ∧
        (∀ b ∈ s.bits, b ≠ .connected → b ∈ bits) ∧
        (s.scanning = true → scanning = true ∨ .scanDone ∈ bits) := by
  cases a with
  | scanTask => exact .inl enabled
  | connectTask =>
      obtain ⟨bits, connect, rfl, kept⟩ := wifiConnectTask_cases enabled
      exact .inr ⟨bits, s.scanning, connect, rfl, kept, .inl⟩
  | scanDone =>
      simp only [scanStep, Option.ite_none_right_eq_some, Option.some.injEq] at enabled
      refine .inr ⟨_, _, _, enabled.2.symm, fun b set other => mem_handled other set, fun _ => ?_⟩
      right
      simp [handled, wifiEventHandler, setWifiBit]
  | staConnected =>
      simp only [scanStep, Option.ite_none_right_eq_some, Option.some.injEq] at enabled
      exact .inr ⟨_, _, _, enabled.2.symm, fun b set other => mem_handled other set, .inl⟩
  | staDisconnected =>
      simp only [scanStep, Option.ite_none_right_eq_some, Option.some.injEq] at enabled
      exact .inr ⟨_, _, _, enabled.2.symm, fun b set other => mem_handled other set, .inl⟩

/-! ### One access point -/

theorem ScanConnect.Inv.pending (inv : s.Inv) (going : s.scan ≠ .deleted) : s.Pending := by
  cases here : s.scan with
  | waitStart => exact .inl (.inl ⟨here, inv.starts here⟩)
  | scanStart => exact .inl (.inr here)
  | waitDone =>
      rcases inv.ends here with scanning | done
      · exact .inr (.inl scanning)
      · exact .inr (.inr (.inl ⟨here, done⟩))
  | getNum => exact .inr (.inr (.inr (.inl here)))
  | getRecords apCount => exact .inr (.inr (.inr (.inr ⟨apCount, here⟩)))
  | deleted => exact absurd here going

theorem ScanConnect.Inv.handshake (inv : s.Inv) : Handshake target records s where
  room := inv.room
  found ended _ := inv.ended ended
  live _ := by
    by_cases ended : s.scan = .deleted
    · exact .inl (inv.ended ended)
    · exact .inr (inv.pending ended)

theorem scanInv_start : ScanConnect.start.Inv where
  room := Nat.zero_le _
  starts _ := by decide
  ends := ScanTask.noConfusion
  count _ := ScanTask.noConfusion
  ended := ScanTask.noConfusion

theorem inv_scanTask (found : ap.ssid = target) (inv : s.Inv)
    (move : ScanMove target [ap] s t) : t.Inv := by
  cases move with
  | started here set =>
      exact ⟨inv.room, ScanTask.noConfusion, ScanTask.noConfusion, fun _ => ScanTask.noConfusion,
        ScanTask.noConfusion⟩
  | scans here =>
      exact ⟨inv.room, ScanTask.noConfusion, fun _ => .inl rfl, fun _ => ScanTask.noConfusion,
        ScanTask.noConfusion⟩
  | done here set =>
      exact ⟨inv.room, ScanTask.noConfusion, ScanTask.noConfusion, fun _ => ScanTask.noConfusion,
        ScanTask.noConfusion⟩
  | nobody here none_found => cases none_found
  | counted here some_found =>
      exact ⟨inv.room, ScanTask.noConfusion, ScanTask.noConfusion,
        fun _ same => (ScanTask.getRecords.inj same).symm, ScanTask.noConfusion⟩
  | compared apCount here =>
      obtain rfl := inv.count apCount here
      refine ⟨max_le inv.room le_rfl, ScanTask.noConfusion, ScanTask.noConfusion,
        fun _ => ScanTask.noConfusion, fun _ => ?_⟩
      simp [found]

/-- **One step** with one record, of the target. -/
theorem scan_step (found : ap.ssid = target) (a : ScanAction) (inv : s.Inv)
    (enabled : scanStep target [ap] s a = some t) : t.Inv := by
  rcases scanStep_cases enabled with scans | ⟨bits, scanning, connect, rfl, kept, ends⟩
  · exact inv_scanTask found inv (wifiScanTask_iff.mp scans)
  · refine ⟨inv.room, fun here => kept _ (inv.starts here) WifiBit.noConfusion, fun here => ?_,
      inv.count, inv.ended⟩
    rcases inv.ends here with running | done
    · exact ends running
    · exact .inr (kept _ done WifiBit.noConfusion)

/-- How many steps the scan is from its end. -/
def ScanConnect.ahead (s : ScanConnect) : Nat :=
  match s.scan with
  | .waitStart => 6
  | .scanStart => 5
  | .waitDone => if .scanDone ∈ s.bits then 3 else 4
  | .getNum => 2
  | .getRecords _ => 1
  | .deleted => 0

/-- Whose turn brings it closer: the driver's while it scans. -/
def nextOfScan (ahead : Nat) : ScanAction := if ahead = 4 then .scanDone else .scanTask

theorem ahead_scanTask (move : ScanMove target records s t) : t.ahead < s.ahead := by
  cases move with
  | started here _ => simp [ScanConnect.ahead, here]
  | scans here =>
      simp only [ScanConnect.ahead, here]
      split <;> omega
  | done here set => simp [ScanConnect.ahead, here, set]
  | nobody here _ => simp [ScanConnect.ahead, here]
  | counted here _ => simp [ScanConnect.ahead, here]
  | compared apCount here => simp [ScanConnect.ahead, here]

theorem ahead_le {a : ScanAction} (enabled : scanStep target records s a = some t) :
    t.ahead ≤ s.ahead := by
  rcases scanStep_cases enabled with scans | ⟨bits, scanning, connect, rfl, kept, _⟩
  · exact (ahead_scanTask (wifiScanTask_iff.mp scans)).le
  · cases here : s.scan with
    | waitDone =>
        simp only [ScanConnect.ahead, here]
        by_cases done : .scanDone ∈ s.bits
        · rw [if_pos done, if_pos (kept _ done WifiBit.noConfusion)]
        · rw [if_neg done]
          split <;> omega
    | _ => simp [ScanConnect.ahead, here]

/-- Short of its end, the scan has a next step. -/
theorem scan_goes_on (inv : s.Inv) (going : s.scan ≠ .deleted) :
    ∃ t, scanStep target [ap] s (nextOfScan s.ahead) = some t ∧ t.ahead < s.ahead := by
  have moved {t : ScanConnect} (turn : nextOfScan s.ahead = .scanTask)
      (move : ScanMove target [ap] s t) :
      ∃ t, scanStep target [ap] s (nextOfScan s.ahead) = some t ∧ t.ahead < s.ahead := by
    rw [turn]
    exact ⟨t, wifiScanTask_iff.mpr move, ahead_scanTask move⟩
  cases here : s.scan with
  | waitStart =>
      refine moved ?_ (.started here (inv.starts here))
      simp [nextOfScan, ScanConnect.ahead, here]
  | scanStart =>
      refine moved ?_ (.scans here)
      simp [nextOfScan, ScanConnect.ahead, here]
  | waitDone =>
      by_cases done : .scanDone ∈ s.bits
      · refine moved ?_ (.done here done)
        simp [nextOfScan, ScanConnect.ahead, here, done]
      · have running : s.scanning = true := (inv.ends here).resolve_right done
        refine ⟨{ s with bits := handled s .scanDone, scanning := false }, ?_, ?_⟩
        · simp [nextOfScan, ScanConnect.ahead, here, done, scanStep, running]
        · simp [ScanConnect.ahead, here, done, handled, wifiEventHandler, setWifiBit]
  | getNum =>
      refine moved ?_ (.counted here (List.cons_ne_nil ap []))
      simp [nextOfScan, ScanConnect.ahead, here]
  | getRecords apCount =>
      refine moved ?_ (.compared apCount here)
      simp [nextOfScan, ScanConnect.ahead, here]
  | deleted => exact absurd here going

/-- **The flag gets set** in every run without end in which the scan goes on. -/
theorem scan_sets_flag (found : ap.ssid = target) {schedule : ℕ → ScanAction}
    (fair : Fair goesOn schedule) : ∃ n,
    (stateAt (scanStep target [ap]) ScanConnect.start schedule n).sScanSuccessful = true := by
  refine Fair.eventually (I := ScanConnect.Inv) (fun s => s.sScanSuccessful = true)
    ScanConnect.ahead nextOfScan fair (fun s a t inv enabled => scan_step found a inv enabled)
    (fun s a t _ enabled => .inr (ahead_le enabled)) ?_ scanInv_start
  intro s inv
  by_cases ended : s.scan = .deleted
  · exact .inl (inv.ended ended)
  · obtain ⟨t, enabled, closer⟩ : ∃ t, scanStep target [ap] s (nextOfScan s.ahead) = some t ∧
        t.ahead < s.ahead := scan_goes_on inv ended
    refine .inr ⟨?_, t, enabled, .inr closer⟩
    unfold nextOfScan
    split
    · exact Set.mem_insert_of_mem _ rfl
    · exact Set.mem_insert _ _

/-! ### Any other outcome -/

/-- The scan up to the number of access points found. -/
def scanRun : List ScanAction := [.scanTask, .scanTask, .scanDone, .scanTask, .scanTask]

/-- Nobody found: the scan task has ended, and the connect task polls. -/
theorem run_empty : run (scanStep target []) ScanConnect.start scanRun =
    some ⟨{.staStart}, false, .deleted, .polling, false, 0⟩ := by
  rfl

/-- Somebody found: all records are asked for, and the first is compared. -/
theorem run_records : run (scanStep target (ap :: records)) ScanConnect.start
    (scanRun ++ [.scanTask]) = some ⟨{.staStart}, false, .deleted, .polling,
      decide (ap.ssid = target), records.length + 1⟩ := by
  have found : run (scanStep target (ap :: records)) ScanConnect.start scanRun =
      some ⟨{.staStart}, false, .getRecords (records.length + 1), .polling, false, 0⟩ := by
    rfl
  rw [run_append, found, Option.bind_some]
  rfl

end Steps

/-! ### Every run -/

/-- **The handshake** works for a scan exactly when the scan found one access point, and that one
is the target. -/
theorem handshake_iff (target : CString) (records : List WifiApRecord) :
    HandshakeWorks target records ↔ ∃ ap, records = [ap] ∧ ap.ssid = target := by
  constructor
  · intro works
    cases records with
    | nil =>
        have stuck := (works.always scanRun).of_run run_empty
        rcases stuck.live rfl with set | pending
        · cases set
        · simp [ScanConnect.Pending, ScanConnect.ToStart, ScanConnect.ToRead] at pending
    | cons ap records =>
        have last := (works.always (scanRun ++ [.scanTask])).of_run run_records
        have room : records.length + 1 ≤ 1 := last.room
        obtain rfl : records = [] := List.eq_nil_of_length_eq_zero (by omega)
        rcases last.live rfl with set | pending
        · exact ⟨ap, rfl, of_decide_eq_true set⟩
        · simp [ScanConnect.Pending, ScanConnect.ToStart, ScanConnect.ToRead] at pending
  · rintro ⟨ap, rfl, found⟩
    constructor
    · intro actions
      refine (allStates_of_invariant ?_ scanInv_start actions).mono fun s inv => inv.handshake
      intro s a t inv enabled
      exact scan_step found a inv enabled
    · intro _ schedule fair
      exact scan_sets_flag found fair

/-- Two access points share the target's SSID: two records are asked for. -/
theorem two_records_overrun :
    ¬ ∀ (target : CString) (records : List WifiApRecord), HandshakeWorks target records := by
  intro all
  have states := (all [1] [⟨[1], -40⟩, ⟨[1], -60⟩]).always (scanRun ++ [.scanTask])
  have room := (states.of_run run_records).room
  exact absurd room (by decide)

end SmartScale.Wifi
