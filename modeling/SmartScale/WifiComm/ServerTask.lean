import SmartScale.WifiComm.Comm

/-!
There is one `start_https_server_task` at most, and `https_server_task_handle` is its
handle. Nothing but the check of this handle in `init_https_server` is needed for it:
`wifi_comm_stop` clears the handle only after it has deleted the task.

* `oneServer_step`: every step keeps it.
-/

namespace SmartScale.WifiComm

open SmartScale.Wifi

/-- A server task has the handle, and between `vTaskDelete` and the clearing of the handle
there is none. -/
structure OneServer (s : Comm) : Prop where
  owner : ∀ j, s.https.kind? j = some true → s.https.httpsServerTaskHandle = some j
  deleting : s.stop = .deleteTask ∨ s.stop = .clearTask → s.https.httpsServerTaskHandle ≠ none
  deleted : s.stop = .clearTask → ∀ j, s.https.kind? j ≠ some true

section Steps

variable {s t : Comm} {a : CommAction} {h : Https} {i j : Nat} {p q : ServerPc}

theorem OneServer.unique (one : OneServer s) (hi : s.https.kind? i = some true)
    (hj : s.https.kind? j = some true) : i = j :=
  Option.some.inj ((one.owner i hi).symm.trans (one.owner j hj))

/-- What leaves the server tasks, the handle and `wifi_comm_stop` alone. -/
theorem OneServer.same (one : OneServer s)
    (servers : ∀ j, t.https.kind? j = some true → s.https.kind? j = some true)
    (handle : t.https.httpsServerTaskHandle = s.https.httpsServerTaskHandle)
    (stop : t.stop = s.stop) : OneServer t where
  owner j server := handle.trans (one.owner j (servers j server))
  deleting here := by
    rw [handle]
    exact one.deleting (stop ▸ here)
  deleted here j server := one.deleted (stop.symm.trans here) j (servers j server)

/-- What `wifi_comm_stop` does elsewhere. -/
theorem OneServer.goesOn (one : OneServer s)
    (servers : ∀ j, t.https.kind? j = s.https.kind? j)
    (handle : t.https.httpsServerTaskHandle = s.https.httpsServerTaskHandle)
    (deleting : t.stop = .deleteTask → s.https.httpsServerTaskHandle ≠ none)
    (deleted : t.stop ≠ .clearTask) : OneServer t where
  owner j server := handle.trans (one.owner j ((servers j).symm.trans server))
  deleting here := by
    rw [handle]
    exact here.elim deleting fun clear => absurd clear deleted
  deleted here := absurd here deleted

theorem oneServer_ensureServer (one : OneServer s) :
    OneServer { s with https := ensureServer s.https } := by
  by_cases null : s.https.httpsServerTaskHandle = none
  · have nobody (j : Nat) : s.https.kind? j ≠ some true := by
      intro server
      rw [one.owner j server] at null
      cases null
    rw [ensureServer, if_pos null]
    refine ⟨?_, ?_, ?_⟩
    · intro j server
      rw [kind?_createServer] at server
      split at server
      · rename_i new
        rw [new.2]
        rfl
      · exact absurd server (nobody j)
    · exact fun _ => Option.some_ne_none _
    · intro clear
      exact absurd null (one.deleting (.inr clear))
  · rw [ensureServer, if_neg null]
    exact one

theorem oneServer_createMonitor {created : Bool} (one : OneServer s) :
    OneServer { s with https := s.https.createMonitor created } := by
  refine one.same ?_ ?_ rfl
  · intro j server
    rw [kind?_createMonitor] at server
    split at server
    · cases server
    · exact server
  · cases created <;> rfl

theorem oneServer_initHttpsServer {o : InitOutcome} (one : OneServer s) :
    OneServer { s with https := initHttpsServer s.https o } := by
  by_cases proceeds : InitProceeds s.https o
  · rw [initHttpsServer_of_proceeds proceeds]
    have events : SameTasks s.https (ensureEvents s.https o.group) := same_ensureEvents
    have ensured : OneServer { s with https := ensureEvents s.https o.group } :=
      one.same (fun j server => (events.kind j).symm.trans server) events.handle rfl
    exact oneServer_createMonitor (oneServer_ensureServer ensured)
  · have same := same_initHttpsServer proceeds
    exact one.same (fun j server => (same.kind j).symm.trans server) same.handle rfl

theorem oneServer_wifiCommStop (one : OneServer s) : OneServer (wifiCommStop s) := by
  have kinds (j : Nat) : s.https.kind? j = s.https.kind? j := rfl
  unfold wifiCommStop
  cases here : s.stop with
  | idle | sslStop | clearServer | disconnect | wifiStop | wifiDeinit | deleteWifiGroup
  | clearWifiGroup | clearServerGroup => exact one.goesOn kinds rfl nofun nofun
  | checkServer | checkWifiGroup | checkServerGroup =>
      dsimp only
      split
      · exact one.goesOn kinds rfl nofun nofun
      · exact one.goesOn kinds rfl nofun nofun
  | deleteServerGroup =>
      have same : SameTasks s.https s.https.deleteEvents := same_deleteEvents
      exact one.goesOn same.kind same.handle nofun nofun
  | checkTask =>
      dsimp only
      split
      · exact one.goesOn kinds rfl nofun nofun
      · rename_i there
        exact one.goesOn kinds rfl (fun _ => there) nofun
  | deleteTask =>
      have nobody (j : Nat) : s.https.deleteServer.kind? j ≠ some true := by
        rw [kind?_deleteServer]
        split
        · exact nofun
        · rename_i other
          exact fun server => other (one.owner j server)
      refine ⟨fun j server => absurd server (nobody j), ?_, fun _ => nobody⟩
      intro _
      rw [deleteServer_handle]
      exact one.deleting (.inl here)
  | clearTask =>
      exact ⟨fun j server => absurd server (one.deleted here j), nofun, nofun⟩

/-- **One server task**: every step keeps it. -/
theorem oneServer_step (one : OneServer s) (enabled : commStep s a = some t) : OneServer t := by
  by_cases wifi : a.ofWifi = true
  · obtain ⟨same, stop, _⟩ := commStep_ofWifi wifi enabled
    exact one.same (fun j server => (same.kind j).symm.trans server) same.handle stop
  · cases a with
    | httpsTask i ok =>
        obtain ⟨p, ready, rfl⟩ := Option.map_eq_some_iff.mp enabled
        have here := Kernel.pc?_of_ready? ready
        have step := httpsTask_step here ok
        exact one.same (fun j server => (step.kind here j).symm.trans server) step.handle rfl
    | init o =>
        cases enabled
        have init := oneServer_initHttpsServer (o := o) one
        exact ⟨init.owner, init.deleting, init.deleted⟩
    | stop =>
        cases enabled
        exact oneServer_wifiCommStop one
    | wifiTask i apCount found => exact absurd rfl wifi
    | event e => exact absurd rfl wifi
    | isConnected => exact absurd rfl wifi

end Steps

/-- After `wifi_comm_start`. -/
theorem oneServer_started (scan connect monitor server : Bool) :
    OneServer (Comm.started scan connect monitor server) := by
  refine ⟨?_, nofun, nofun⟩
  intro j there
  rw [Comm.started, kind?_createServer] at there
  split at there
  · rename_i new
    rw [Comm.started, Https.createServer, if_pos new.1, new.2]
  · rw [kind?_createMonitor] at there
    split at there
    · cases there
    · cases there

end SmartScale.WifiComm
