import SmartScale.WifiComm.Comm

/-!
What the functions of `wifi/wifi_comm.c` do to the two event groups.

* `Uses`: what a call does that finds the group there. It leaves the groups and the handle
  alone, and is no misuse.
* `initHttpsServer_proceeds`, `initHttpsServer_returns`: whether `init_https_server` leaves
  a group.
-/

namespace SmartScale.WifiComm

open SmartScale.Wifi

/-- `s_wifi_event_group` refers to a group. -/
abbrev WifiSide.GroupUsable (w : WifiSide) : Prop := w.kernel.groups.Usable w.sWifiEventGroup

/-! ### Calls on a group that is there -/

/-- The groups there are, the handle and `misused` are the same. -/
structure WifiSide.Uses (w w' : WifiSide) : Prop where
  group : w'.sWifiEventGroup = w.sWifiEventGroup
  live : ∀ g, w'.kernel.groups.Live g ↔ w.kernel.groups.Live g
  misused : w'.misused = w.misused

structure Https.Uses (h h' : Https) : Prop where
  events : h'.httpsServerEvents = h.httpsServerEvents
  live : ∀ g, h'.kernel.groups.Live g ↔ h.kernel.groups.Live g
  misused : h'.misused = h.misused

section Calls

variable {w w' : WifiSide} {h h' : Https}

theorem WifiSide.Uses.usable (uses : w.Uses w') : w'.GroupUsable ↔ w.GroupUsable := by
  rw [WifiSide.GroupUsable, uses.group]
  exact exists_congr fun g => and_congr_right fun _ => uses.live g

theorem Https.Uses.usable (uses : h.Uses h') : h'.EventsUsable ↔ h.EventsUsable := by
  rw [Https.EventsUsable, uses.events]
  exact exists_congr fun g => and_congr_right fun _ => uses.live g

theorem uses_onGroup {call : Nat → Kernel WifiBit WifiPc} (usable : w.GroupUsable)
    (live : ∀ g j, (call g).groups.Live j ↔ w.kernel.groups.Live j) : w.Uses (w.onGroup call) := by
  obtain ⟨g, _, _, called⟩ := Kernel.onGroup_of_usable usable call
  simp only [WifiSide.onGroup, called]
  exact ⟨rfl, live g, rfl⟩

theorem uses_onEvents {call : Nat → Kernel ServerBit HttpsPc} (usable : h.EventsUsable)
    (live : ∀ g j, (call g).groups.Live j ↔ h.kernel.groups.Live j) : h.Uses (h.onEvents call) := by
  obtain ⟨g, same⟩ := onEvents_of_usable usable call
  rw [same]
  exact ⟨rfl, live g, rfl⟩

theorem uses_wifiScanTask {i apCount : Nat} {found : Bool} (usable : w.GroupUsable)
    (pc : ScanTask) : w.Uses (wifiScanTask w i apCount found pc) := by
  cases pc with
  | waitStart => exact uses_onGroup usable fun _ _ => Kernel.live_waitBits
  | scanStart => exact ⟨rfl, fun _ => Iff.rfl, rfl⟩
  | waitDone => exact uses_onGroup usable fun _ _ => Kernel.live_waitBits
  | getNum => exact ⟨rfl, fun _ => Iff.rfl, rfl⟩
  | getRecords apCount => exact ⟨rfl, fun _ => Iff.rfl, rfl⟩
  | deleted => exact ⟨rfl, fun _ => Iff.rfl, rfl⟩

theorem uses_wifiConnectTask {i : Nat} (usable : w.GroupUsable) (pc : ConnectTask) :
    w.Uses (wifiConnectTask w i pc) := by
  cases pc with
  | polling =>
      rw [wifiConnectTask]
      split
      · exact ⟨rfl, fun _ => Iff.rfl, rfl⟩
      · exact ⟨rfl, fun _ => Iff.rfl, rfl⟩
  | configure => exact ⟨rfl, fun _ => Iff.rfl, rfl⟩
  | waitConnected => exact uses_onGroup usable fun _ _ => Kernel.live_waitBits
  | deleted => exact ⟨rfl, fun _ => Iff.rfl, rfl⟩

theorem uses_wifiTask {i apCount : Nat} {found : Bool} {p : WifiPc} (usable : w.GroupUsable)
    (enabled : wifiTask w i apCount found p = some w') : w.Uses w' := by
  cases p with
  | start pc => cases enabled
  | scan pc =>
      cases enabled
      exact uses_wifiScanTask usable pc
  | connect pc =>
      cases enabled
      exact uses_wifiConnectTask usable pc

theorem uses_handleWifi (usable : w.GroupUsable) (e : WifiEvent) : w.Uses (handleWifi w e) := by
  cases e with
  | staStart => exact uses_onGroup usable fun _ _ => Kernel.live_setBits
  | scanDone => exact uses_onGroup usable fun _ _ => Kernel.live_setBits
  | staConnected => exact uses_onGroup usable fun _ _ => Kernel.live_setBits
  | staDisconnected => exact uses_onGroup usable fun _ _ => Kernel.live_clearBits
  | otherWifi => exact ⟨rfl, fun _ => Iff.rfl, rfl⟩
  | gotIp => exact ⟨rfl, fun _ => Iff.rfl, rfl⟩

theorem uses_startHttpsServer (usable : h.EventsUsable) : h.Uses (startHttpsServer h) :=
  uses_onEvents usable fun _ _ => Kernel.live_setBits

theorem uses_startHttpsServerTask {i : Nat} {ok : Bool} (usable : h.EventsUsable)
    (pc : ServerPc) : h.Uses (startHttpsServerTask h i ok pc) := by
  cases pc with
  | wait => exact uses_onEvents usable fun _ _ => Kernel.live_waitBits
  | validate => exact ⟨rfl, fun _ => Iff.rfl, rfl⟩
  | sslStart =>
      rw [startHttpsServerTask]
      split
      · exact ⟨rfl, fun _ => Iff.rfl, rfl⟩
      · exact ⟨rfl, fun _ => Iff.rfl, rfl⟩
  | setError => exact uses_onEvents usable fun _ _ => Kernel.live_setBits
  | serving =>
      rw [startHttpsServerTask]
      split
      · exact ⟨rfl, fun _ => Iff.rfl, rfl⟩
      · exact ⟨rfl, fun _ => Iff.rfl, rfl⟩

theorem uses_httpsServerMonitor {i : Nat} (usable : h.EventsUsable) (pc : MonitorPc) :
    h.Uses (httpsServerMonitor h i pc) := by
  cases pc with
  | wait => exact uses_onEvents usable fun _ _ => Kernel.live_waitBits
  | getBits => exact uses_onEvents usable fun _ _ => Iff.rfl
  | restartDelay => exact uses_onEvents usable fun _ _ => Kernel.live_setBits

theorem uses_httpsTask {i : Nat} {ok : Bool} (usable : h.EventsUsable) (p : HttpsPc) :
    h.Uses (httpsTask h i ok p) := by
  cases p with
  | server pc => exact uses_startHttpsServerTask usable pc
  | monitor pc => exact uses_httpsServerMonitor usable pc

theorem uses_createServer {created : Bool} : h.Uses (h.createServer created) := by
  cases created
  · exact ⟨rfl, fun _ => Iff.rfl, rfl⟩
  · exact ⟨rfl, fun _ => Iff.rfl, rfl⟩

theorem uses_createMonitor {created : Bool} : h.Uses (h.createMonitor created) := by
  cases created
  · exact ⟨rfl, fun _ => Iff.rfl, rfl⟩
  · exact ⟨rfl, fun _ => Iff.rfl, rfl⟩

theorem uses_createTask {p : WifiPc} {created : Bool} : w.Uses (w.createTask p created) := by
  cases created
  · exact ⟨rfl, fun _ => Iff.rfl, rfl⟩
  · exact ⟨rfl, fun _ => Iff.rfl, rfl⟩

/-- `wifi_is_connected` has an answer if the group is there. -/
theorem wifiIsConnected_isSome {w : WifiSide} :
    (wifiIsConnected w).isSome = true ↔ w.GroupUsable := by
  rw [wifiIsConnected, Option.isSome_map]
  cases group : w.sWifiEventGroup with
  | none =>
      refine iff_of_false nofun ?_
      rintro ⟨g, there, _⟩
      exact absurd (group.symm.trans there) nofun
  | some g =>
      rw [Option.bind_some]
      constructor
      · exact fun live => ⟨g, group, live⟩
      · rintro ⟨j, there, live⟩
        obtain rfl : g = j := Option.some.inj (group.symm.trans there)
        exact live

end Calls

/-! ### Deletions -/

theorem not_usable_deleteGroup (w : WifiSide) : ¬ w.deleteGroup.GroupUsable := by
  unfold WifiSide.deleteGroup
  split
  · rename_i g here
    rintro ⟨h, there, live⟩
    obtain rfl : g = h := Option.some.inj (here.symm.trans there)
    exact (Kernel.live_deleteGroup.mp live).1 rfl
  · rename_i null
    rintro ⟨h, there, _⟩
    exact Option.some_ne_none h (there.symm.trans null)

theorem not_usable_deleteEvents (h : Https) : ¬ h.deleteEvents.EventsUsable := by
  unfold Https.deleteEvents
  split
  · rename_i g here
    rintro ⟨j, there, live⟩
    obtain rfl : g = j := Option.some.inj (here.symm.trans there)
    exact (Kernel.live_deleteGroup.mp live).1 rfl
  · rename_i null
    rintro ⟨j, there, _⟩
    exact Option.some_ne_none j (there.symm.trans null)

theorem deleteGroup_same (w : WifiSide) : w.deleteGroup.misused = w.misused ∧
    w.deleteGroup.driverStarted = w.driverStarted ∧
      ∀ j, w.deleteGroup.kernel.pc? j = w.kernel.pc? j := by
  unfold WifiSide.deleteGroup
  split
  · exact ⟨rfl, rfl, fun _ => Kernel.pc?_deleteGroup⟩
  · exact ⟨rfl, rfl, fun _ => rfl⟩

theorem deleteEvents_misused (h : Https) : h.deleteEvents.misused = h.misused := by
  unfold Https.deleteEvents
  split <;> rfl

theorem uses_deleteServer (h : Https) : h.Uses h.deleteServer := by
  unfold Https.deleteServer
  split
  · exact ⟨rfl, fun _ => Iff.rfl, rfl⟩
  · exact ⟨rfl, fun _ => Iff.rfl, rfl⟩

/-! ### `init_https_server` -/

/-- `init_https_server` cannot create the server task, and deletes the group. -/
def InitFails (s : Https) (o : InitOutcome) : Prop :=
  (s.httpsServerEvents ≠ none ∨ o.group = true) ∧
    s.httpsServerTaskHandle = none ∧ o.server = false

/-- `init_https_server` creates a task. -/
def InitCreates (s : Https) (o : InitOutcome) : Prop :=
  InitProceeds s o ∧ (s.httpsServerTaskHandle = none ∨ o.monitor = true)

instance (s : Https) (o : InitOutcome) : Decidable (InitFails s o) :=
  inferInstanceAs (Decidable (_ ∧ _))

instance (s : Https) (o : InitOutcome) : Decidable (InitCreates s o) :=
  inferInstanceAs (Decidable (_ ∧ _))

section Init

variable {h : Https} {o : InitOutcome}

theorem ensureEvents_misused {created : Bool} : (ensureEvents h created).misused = h.misused := by
  unfold ensureEvents
  split
  · cases created <;> rfl
  · rfl

theorem uses_ensureServer : h.Uses (ensureServer h) := by
  unfold ensureServer
  split
  · exact uses_createServer
  · exact ⟨rfl, fun _ => Iff.rfl, rfl⟩

theorem usable_ensureEvents {created : Bool} (there : h.httpsServerEvents ≠ none ∨ created = true) :
    (ensureEvents h created).EventsUsable ↔ h.httpsServerEvents = none ∨ h.EventsUsable := by
  unfold ensureEvents
  split
  · rename_i null
    refine iff_of_true ?_ (.inl null)
    rw [there.resolve_left (not_not.mpr null)]
    exact ⟨h.kernel.groups.next, rfl, Objects.live_create_self⟩
  · rename_i there'
    exact (or_iff_right there').symm

theorem not_proceeds_of_fails (fails : InitFails h o) : ¬ InitProceeds h o := by
  rintro ⟨_, handle | server⟩
  · exact handle fails.2.1
  · exact absurd (fails.2.2.symm.trans server) nofun

theorem fails_of_not_proceeds (group : h.httpsServerEvents ≠ none ∨ o.group = true)
    (returns : ¬ InitProceeds h o) : InitFails h o := by
  obtain ⟨handle, server⟩ := not_or.mp fun server => returns ⟨group, server⟩
  exact ⟨group, not_not.mp handle, Bool.not_eq_true _ ▸ server⟩

/-- Where it returns early, there is no group left. -/
theorem initHttpsServer_returns (returns : ¬ InitProceeds h o) :
    (initHttpsServer h o).httpsServerEvents = none ∧ (initHttpsServer h o).misused = h.misused := by
  rcases initHttpsServer_of_not_proceeds returns with ⟨null, same⟩ | same
  · rw [same]
    exact ⟨null, ensureEvents_misused⟩
  · rw [same]
    exact ⟨rfl, (deleteEvents_misused _).trans ensureEvents_misused⟩

/-- Where it goes on, the tasks use the group that is there or was created. -/
theorem initHttpsServer_proceeds (proceeds : InitProceeds h o) :
    ((initHttpsServer h o).EventsUsable ↔ h.httpsServerEvents = none ∨ h.EventsUsable) ∧
      (initHttpsServer h o).misused = h.misused := by
  rw [initHttpsServer_of_proceeds proceeds]
  have server : (ensureEvents h o.group).Uses _ := uses_ensureServer
  have monitor : (ensureServer (ensureEvents h o.group)).Uses (Https.createMonitor _ o.monitor) :=
    uses_createMonitor
  exact ⟨monitor.usable.trans (server.usable.trans (usable_ensureEvents proceeds.1)),
    monitor.misused.trans (server.misused.trans ensureEvents_misused)⟩

theorem any_of_creates (creates : InitCreates h o) :
    (initHttpsServer h o).kernel.Any fun _ => True := by
  obtain ⟨proceeds, server | monitor⟩ := creates
  · rw [initHttpsServer_of_proceeds proceeds]
    refine ⟨(ensureEvents h o.group).kernel.tasks.next, .server .wait, ?_, trivial⟩
    apply keeps_createMonitor.pcs _ _
    rw [ensureServer, if_pos (same_ensureEvents.handle.trans server), pc?_createServer,
      if_pos ⟨rfl, rfl⟩]
  · rw [initHttpsServer_of_proceeds proceeds]
    refine ⟨(ensureServer (ensureEvents h o.group)).kernel.tasks.next, .monitor .wait, ?_, trivial⟩
    rw [pc?_createMonitor, if_pos ⟨monitor, rfl⟩]

theorem same_of_not_creates (creates : ¬ InitCreates h o) :
    SameTasks h (initHttpsServer h o) := by
  by_cases proceeds : InitProceeds h o
  · obtain ⟨handle, monitor⟩ := not_or.mp fun new => creates ⟨proceeds, new⟩
    rw [Bool.not_eq_true] at monitor
    have events : SameTasks h (ensureEvents h o.group) := same_ensureEvents
    rw [initHttpsServer_of_proceeds proceeds, ensureServer, events.handle, if_neg handle, monitor]
    exact events
  · exact same_initHttpsServer proceeds

end Init

end SmartScale.WifiComm
