import SmartScale.WifiComm.Groups

/-!
The two event groups, from before `wifi_comm_start` creates them until after
`wifi_comm_stop` has deleted them.

Whoever may still call a group uses it: `wifi_comm_start` once it has created it, every task
on it, and the event handler, which is never unregistered, from the start of the driver on.
Nothing in `wifi_comm_stop` waits for them.

* `keepsGroups_iff`: when a group that is used is always there.
* `never_misused`: then no call is made on a group that is not there.
* `event_misuses`: otherwise the next event may make one.
-/

namespace SmartScale.WifiComm

open SmartScale.Schedule SmartScale.Wifi

/-- The event handler, a task, or `wifi_comm_start` may still call `s_wifi_event_group`. -/
def WifiUsed (w : WifiSide) : Prop :=
  w.driverStarted = true ∨ w.kernel.Any fun p => p ≠ .start .createWifiGroup

/-- The event handler, an HTTPS task, or `wifi_comm_start` for those it creates, may still
call `https_server_events`. -/
def ServerUsed (s : Comm) : Prop :=
  s.wifi.driverStarted = true ∨ (s.https.kernel.Any fun _ => True) ∨
    s.wifi.kernel.Any fun p => p ≠ .start .createWifiGroup ∧ p ≠ .start .createServerGroup

instance (w : WifiSide) : Decidable (WifiUsed w) := inferInstanceAs (Decidable (_ ∨ _))

instance (s : Comm) : Decidable (ServerUsed s) := inferInstanceAs (Decidable (_ ∨ _))

structure WifiOwned (w : WifiSide) : Prop where
  clean : w.misused = false
  usable : WifiUsed w → w.GroupUsable

structure ServerOwned (s : Comm) : Prop where
  clean : s.https.misused = false
  usable : ServerUsed s → s.https.EventsUsable

/-- No call was made on a group that is not there, and a group that is used is. -/
structure GroupsOwned (s : Comm) : Prop where
  wifi : WifiOwned s.wifi
  server : ServerOwned s

/-- No call was made on a group that is not there. -/
def NeverMisused (s : Comm) : Prop := s.wifi.misused = false ∧ s.https.misused = false

/-! ### The condition -/

/-- The places of `wifi_comm_start` where it creates a group. -/
def CreatesGroup (p : WifiPc) : Prop := p = .start .createWifiGroup ∨ p = .start .createServerGroup

instance (p : WifiPc) : Decidable (CreatesGroup p) := inferInstanceAs (Decidable (_ ∨ _))

/-- `wifi_comm_start` can create the groups. `wifi_comm_stop` deletes and clears those that
nobody uses; so does `init_https_server`, which creates no task on a group that was deleted.
`wifi_is_connected` is called while the group is there. -/
def KeepsGroups (s : Comm) : BootAction → Prop
  | .start i created => (∃ p ∈ s.wifi.kernel.ready? i, CreatesGroup p) → created = true
  | .comm .stop =>
      (s.stop = .deleteWifiGroup ∨ s.stop = .clearWifiGroup → ¬ WifiUsed s.wifi) ∧
        (s.stop = .deleteServerGroup ∨ s.stop = .clearServerGroup → ¬ ServerUsed s)
  | .comm (.init o) =>
      (InitFails s.https o → ¬ ServerUsed s) ∧
        (InitCreates s.https o → s.https.httpsServerEvents = none ∨ s.https.EventsUsable)
  | .comm .isConnected => s.wifi.GroupUsable
  | .comm (.httpsTask ..) | .comm (.wifiTask ..) | .comm (.event _) => True

instance (s : Comm) : DecidablePred (KeepsGroups s)
  | .start .. => inferInstanceAs (Decidable (_ → _))
  | .comm .stop => inferInstanceAs (Decidable (_ ∧ _))
  | .comm (.init _) => inferInstanceAs (Decidable (_ ∧ _))
  | .comm .isConnected => inferInstanceAs (Decidable (WifiSide.GroupUsable _))
  | .comm (.httpsTask ..) | .comm (.wifiTask ..) | .comm (.event _) => instDecidableTrue

section Steps

variable {s t : Comm} {a : BootAction} {i : Nat} {created : Bool} {o : InitOutcome}

/-- Both groups are there, and one of the sides is called. -/
theorem GroupsOwned.of_uses (owned : GroupsOwned s) (wifiUsable : s.wifi.GroupUsable)
    (serverUsable : s.https.EventsUsable) (wifi : s.wifi.Uses t.wifi)
    (https : s.https.Uses t.https) : GroupsOwned t where
  wifi := ⟨wifi.misused.trans owned.wifi.clean, fun _ => wifi.usable.mpr wifiUsable⟩
  server := ⟨https.misused.trans owned.server.clean, fun _ => https.usable.mpr serverUsable⟩

/-! ### `wifi_comm_start` -/

/-- The step of a task that uses both groups. -/
theorem GroupsOwned.usable {p : WifiPc} (owned : GroupsOwned s)
    (here : s.wifi.kernel.pc? i = some p) (uses : ¬ CreatesGroup p) :
    s.wifi.GroupUsable ∧ s.https.EventsUsable := by
  obtain ⟨first, second⟩ := not_or.mp uses
  exact ⟨owned.wifi.usable (.inr ⟨i, p, here, first⟩),
    owned.server.usable (.inr (.inr ⟨i, p, here, first, second⟩))⟩

theorem pc?_goto_self {k : Kernel WifiBit WifiPc} {p q : WifiPc} (here : k.pc? i = some p) :
    (k.goto i q).pc? i = some q := by
  rw [Kernel.pc?_goto, if_pos rfl, here]
  rfl

theorem owned_createWifiGroup (owned : GroupsOwned s)
    (here : s.wifi.kernel.pc? i = some (.start .createWifiGroup)) :
    created = true ↔ GroupsOwned (wifiCommStart s i created .createWifiGroup) := by
  have there : (s.wifi.createGroup created).kernel.pc? i = some (.start .createWifiGroup) := by
    cases created <;> exact here
  constructor
  · rintro rfl
    refine ⟨⟨owned.wifi.clean, fun _ => ?_⟩, owned.server.clean, ?_⟩
    · exact ⟨s.wifi.kernel.groups.next, rfl, Objects.live_create_self⟩
    · rintro (started | server | ⟨j, p, at_, first, second⟩)
      · exact owned.server.usable (.inl started)
      · exact owned.server.usable (.inr (.inl server))
      · refine owned.server.usable (.inr (.inr ⟨j, p, ?_, first, second⟩))
        rcases eq_or_ne j i with rfl | other
        · rw [wifiCommStart, WifiSide.goto, pc?_goto_self there, Option.some.injEq] at at_
          exact absurd at_.symm second
        · rw [wifiCommStart, WifiSide.goto, Kernel.pc?_goto, if_neg other] at at_
          exact at_
  · intro owned'
    by_contra failed
    have used : WifiUsed (wifiCommStart s i created .createWifiGroup).wifi :=
      .inr ⟨i, _, pc?_goto_self there, nofun⟩
    rw [Bool.not_eq_true] at failed
    subst failed
    obtain ⟨g, null, _⟩ := owned'.wifi.usable used
    cases null

theorem owned_createServerGroup (owned : GroupsOwned s)
    (here : s.wifi.kernel.pc? i = some (.start .createServerGroup)) :
    created = true ↔ GroupsOwned (wifiCommStart s i created .createServerGroup) := by
  constructor
  · rintro rfl
    have usable := owned.wifi.usable (.inr ⟨i, _, here, nofun⟩)
    refine ⟨⟨owned.wifi.clean, fun _ => usable⟩, owned.server.clean, fun _ => ?_⟩
    exact ⟨s.https.kernel.groups.next, rfl, Objects.live_create_self⟩
  · intro owned'
    by_contra failed
    have used : ServerUsed (wifiCommStart s i created .createServerGroup) :=
      .inr (.inr ⟨i, _, pc?_goto_self here, nofun, nofun⟩)
    rw [Bool.not_eq_true] at failed
    subst failed
    obtain ⟨g, null, _⟩ := owned'.server.usable used
    cases null

theorem owned_wifiCommStart {pc : StartPc} (owned : GroupsOwned s)
    (here : s.wifi.kernel.pc? i = some (.start pc)) :
    (CreatesGroup (.start pc) → created = true) ↔ GroupsOwned (wifiCommStart s i created pc) := by
  by_cases creates : CreatesGroup (.start pc)
  · rw [imp_iff_right creates]
    rcases creates with first | second
    · cases first
      exact owned_createWifiGroup owned here
    · cases second
      exact owned_createServerGroup owned here
  · apply iff_of_true (absurd · creates)
    obtain ⟨wifiUsable, serverUsable⟩ := owned.usable here creates
    have uses (w : s.wifi.Uses (wifiCommStart s i created pc).wifi)
        (h : s.https.Uses (wifiCommStart s i created pc).https) :=
      owned.of_uses wifiUsable serverUsable w h
    cases pc with
    | createWifiGroup => exact absurd (.inl rfl) creates
    | createServerGroup => exact absurd (.inr rfl) creates
    | wifiStart => exact uses ⟨rfl, fun _ => Iff.rfl, rfl⟩ ⟨rfl, fun _ => Iff.rfl, rfl⟩
    | waitStart =>
        exact uses (uses_onGroup wifiUsable fun _ _ => Kernel.live_waitBits)
          ⟨rfl, fun _ => Iff.rfl, rfl⟩
    | createScan =>
        have creates : s.wifi.Uses (s.wifi.createTask (.scan .waitStart) created) :=
          uses_createTask
        exact uses ⟨creates.group, creates.live, creates.misused⟩ ⟨rfl, fun _ => Iff.rfl, rfl⟩
    | createConnect =>
        have creates : s.wifi.Uses (s.wifi.createTask (.connect .polling) created) :=
          uses_createTask
        exact uses ⟨creates.group, creates.live, creates.misused⟩ ⟨rfl, fun _ => Iff.rfl, rfl⟩
    | createMonitor => exact uses ⟨rfl, fun _ => Iff.rfl, rfl⟩ uses_createMonitor
    | createServer => exact uses ⟨rfl, fun _ => Iff.rfl, rfl⟩ uses_createServer

/-! ### `wifi_comm_stop` -/

theorem wifiUsed_congr {w w' : WifiSide} (driver : w'.driverStarted = w.driverStarted)
    (pcs : ∀ j, w'.kernel.pc? j = w.kernel.pc? j) : WifiUsed w' ↔ WifiUsed w := by
  simp only [WifiUsed, Kernel.Any, driver, pcs]

theorem serverUsed_congr (driver : t.wifi.driverStarted = s.wifi.driverStarted)
    (wifi : ∀ j, t.wifi.kernel.pc? j = s.wifi.kernel.pc? j)
    (https : ∀ j, t.https.kernel.pc? j = s.https.kernel.pc? j) : ServerUsed t ↔ ServerUsed s := by
  simp only [ServerUsed, Kernel.Any, driver, wifi, https]

/-- A statement that leaves the groups alone, and creates no task. -/
theorem GroupsOwned.goesOn (owned : GroupsOwned s) (wifi : t.wifi = s.wifi)
    (uses : s.https.Uses t.https)
    (pcs : ∀ j p, t.https.kernel.pc? j = some p → s.https.kernel.pc? j = some p) :
    GroupsOwned t := by
  refine ⟨wifi.symm ▸ owned.wifi, uses.misused.trans owned.server.clean, ?_⟩
  intro used
  refine uses.usable.mpr (owned.server.usable ?_)
  rw [ServerUsed, wifi] at used
  exact used.imp_right fun tasks => tasks.imp_left fun any => any.of_pc? pcs

/-- A statement after which `s_wifi_event_group` refers to no group. -/
theorem owned_wifiGone (owned : GroupsOwned s) (misused : t.wifi.misused = s.wifi.misused)
    (driver : t.wifi.driverStarted = s.wifi.driverStarted)
    (pcs : ∀ j, t.wifi.kernel.pc? j = s.wifi.kernel.pc? j) (gone : ¬ t.wifi.GroupUsable)
    (https : t.https = s.https) : ¬ WifiUsed s.wifi ↔ GroupsOwned t := by
  rw [← wifiUsed_congr driver pcs]
  constructor
  · intro unused
    refine ⟨⟨misused.trans owned.wifi.clean, fun used => absurd used unused⟩, ?_, ?_⟩
    · rw [https]
      exact owned.server.clean
    · rw [serverUsed_congr driver pcs (fun j => by rw [https]), https]
      exact owned.server.usable
  · exact fun owned' used => gone (owned'.wifi.usable used)

/-- A statement after which `https_server_events` refers to no group. -/
theorem owned_serverGone (owned : GroupsOwned s) (misused : t.https.misused = s.https.misused)
    (pcs : ∀ j, t.https.kernel.pc? j = s.https.kernel.pc? j) (gone : ¬ t.https.EventsUsable)
    (wifi : t.wifi = s.wifi) : ¬ ServerUsed s ↔ GroupsOwned t := by
  have same : ServerUsed t ↔ ServerUsed s :=
    serverUsed_congr (congrArg _ wifi) (fun j => by rw [wifi]) pcs
  rw [← same]
  constructor
  · intro unused
    exact ⟨wifi.symm ▸ owned.wifi, misused.trans owned.server.clean, fun used => absurd used unused⟩
  · exact fun owned' used => gone (owned'.server.usable used)

theorem keepsGroups_stop_wifi (here : s.stop = .deleteWifiGroup ∨ s.stop = .clearWifiGroup) :
    KeepsGroups s (.comm .stop) ↔ ¬ WifiUsed s.wifi := by
  refine ⟨fun keeps => keeps.1 here, fun unused => ⟨fun _ => unused, ?_⟩⟩
  rcases here with here | here <;> exact here ▸ nofun

theorem keepsGroups_stop_server
    (here : s.stop = .deleteServerGroup ∨ s.stop = .clearServerGroup) :
    KeepsGroups s (.comm .stop) ↔ ¬ ServerUsed s := by
  refine ⟨fun keeps => keeps.2 here, fun unused => ⟨?_, fun _ => unused⟩⟩
  rcases here with here | here <;> exact here ▸ nofun

theorem owned_wifiCommStop (owned : GroupsOwned s) :
    KeepsGroups s (.comm .stop) ↔ GroupsOwned (wifiCommStop s) := by
  have goesOn {t : Comm} (keeps : KeepsGroups s (.comm .stop)) (wifi : t.wifi = s.wifi)
      (uses : s.https.Uses t.https)
      (pcs : ∀ j p, t.https.kernel.pc? j = some p → s.https.kernel.pc? j = some p) :
      KeepsGroups s (.comm .stop) ↔ GroupsOwned t :=
    iff_of_true keeps (owned.goesOn wifi uses pcs)
  unfold wifiCommStop
  cases here : s.stop with
  | deleteWifiGroup =>
      obtain ⟨misused, driver, pcs⟩ := deleteGroup_same s.wifi
      exact (keepsGroups_stop_wifi (.inl here)).trans
        (owned_wifiGone owned misused driver pcs (not_usable_deleteGroup _) rfl)
  | clearWifiGroup =>
      exact (keepsGroups_stop_wifi (.inr here)).trans
        (owned_wifiGone owned rfl rfl (fun _ => rfl) nofun rfl)
  | deleteServerGroup =>
      exact (keepsGroups_stop_server (.inl here)).trans
        (owned_serverGone owned (deleteEvents_misused _) same_deleteEvents.pcs
          (not_usable_deleteEvents _) rfl)
  | clearServerGroup =>
      exact (keepsGroups_stop_server (.inr here)).trans
        (owned_serverGone owned rfl (fun _ => rfl) nofun rfl)
  | deleteTask =>
      refine goesOn ⟨here ▸ nofun, here ▸ nofun⟩ rfl (uses_deleteServer _) ?_
      intro j p there
      rw [pc?_deleteServer] at there
      split at there
      · cases there
      · exact there
  | checkTask =>
      dsimp only
      split
      · exact goesOn ⟨here ▸ nofun, here ▸ nofun⟩ rfl ⟨rfl, fun _ => Iff.rfl, rfl⟩ fun _ _ => id
      · exact goesOn ⟨here ▸ nofun, here ▸ nofun⟩ rfl ⟨rfl, fun _ => Iff.rfl, rfl⟩ fun _ _ => id
  | _ =>
      exact goesOn ⟨here ▸ nofun, here ▸ nofun⟩ rfl ⟨rfl, fun _ => Iff.rfl, rfl⟩ fun _ _ => id

/-! ### `init_https_server` -/

theorem owned_initHttpsServer (owned : GroupsOwned s) :
    KeepsGroups s (.comm (.init o)) ↔
      GroupsOwned { s with https := initHttpsServer s.https o, stopped := false } := by
  by_cases creates : InitCreates s.https o
  · obtain ⟨usable, misused⟩ := initHttpsServer_proceeds creates.1
    constructor
    · rintro ⟨_, there⟩
      exact ⟨owned.wifi, misused.trans owned.server.clean, fun _ => usable.mpr (there creates)⟩
    · intro owned'
      refine ⟨fun fails => absurd creates.1 (not_proceeds_of_fails fails), fun _ => ?_⟩
      exact usable.mp (owned'.server.usable (.inr (.inl (any_of_creates creates))))
  · have used := serverUsed_congr (s := s)
      (t := { s with https := initHttpsServer s.https o, stopped := false }) rfl (fun _ => rfl)
      (same_of_not_creates creates).pcs
    by_cases proceeds : InitProceeds s.https o
    · obtain ⟨usable, misused⟩ := initHttpsServer_proceeds proceeds
      refine iff_of_true ?_ ⟨owned.wifi, misused.trans owned.server.clean, fun there => ?_⟩
      · exact ⟨fun fails => absurd proceeds (not_proceeds_of_fails fails),
          fun makes => absurd makes creates⟩
      · exact usable.mpr (.inr (owned.server.usable (used.mp there)))
    · obtain ⟨null, misused⟩ := initHttpsServer_returns proceeds
      constructor
      · rintro ⟨unused, _⟩
        refine ⟨owned.wifi, misused.trans owned.server.clean, fun there => ?_⟩
        obtain ⟨g, here, _⟩ := owned.server.usable (used.mp there)
        have group : s.https.httpsServerEvents ≠ none := Option.ne_none_iff_exists'.mpr ⟨g, here⟩
        exact absurd (used.mp there) (unused (fails_of_not_proceeds (.inl group) proceeds))
      · intro owned'
        refine ⟨fun _ there => ?_, fun makes => absurd makes creates⟩
        obtain ⟨g, here, _⟩ := owned'.server.usable (used.mpr there)
        exact absurd (null.symm.trans here) nofun

/-! ### Every step -/

/-- Once the driver is started, everything is used. -/
theorem GroupsOwned.usable_of_started (owned : GroupsOwned s)
    (started : s.wifi.driverStarted = true) : s.wifi.GroupUsable ∧ s.https.EventsUsable :=
  ⟨owned.wifi.usable (.inl started), owned.server.usable (.inl started)⟩

theorem owned_httpsTask {ok : Bool} {p : HttpsPc} (owned : GroupsOwned s)
    (here : s.https.kernel.pc? i = some p) :
    GroupsOwned { s with https := httpsTask s.https i ok p } := by
  have usable := owned.server.usable (.inr (.inl ⟨i, p, here, trivial⟩))
  have uses : s.https.Uses (httpsTask s.https i ok p) := uses_httpsTask usable p
  exact ⟨owned.wifi, uses.misused.trans owned.server.clean, fun _ => uses.usable.mpr usable⟩

theorem owned_wifiTask {apCount : Nat} {found : Bool} {p : WifiPc} {w : WifiSide}
    (owned : GroupsOwned s) (here : s.wifi.kernel.pc? i = some p)
    (enabled : wifiTask s.wifi i apCount found p = some w) : GroupsOwned { s with wifi := w } := by
  have later : ¬ CreatesGroup p := by
    rintro (rfl | rfl)
    · cases enabled
    · cases enabled
  obtain ⟨wifiUsable, serverUsable⟩ := owned.usable here later
  exact owned.of_uses wifiUsable serverUsable (uses_wifiTask wifiUsable enabled)
    ⟨rfl, fun _ => Iff.rfl, rfl⟩

theorem owned_event (owned : GroupsOwned s) (started : s.wifi.driverStarted = true)
    (e : WifiEvent) : GroupsOwned (wifiEventHandler s e) := by
  obtain ⟨wifiUsable, serverUsable⟩ := owned.usable_of_started started
  apply owned.of_uses wifiUsable serverUsable (uses_handleWifi wifiUsable e)
  unfold wifiEventHandler
  split
  · exact uses_startHttpsServer serverUsable
  · exact ⟨rfl, fun _ => Iff.rfl, rfl⟩

theorem owned_isConnected (owned : GroupsOwned s) :
    s.wifi.GroupUsable ↔ GroupsOwned { s with wifi := callIsConnected s.wifi } := by
  rw [← wifiIsConnected_isSome, callIsConnected]
  cases answer : wifiIsConnected s.wifi with
  | none => exact iff_of_false nofun fun owned' => absurd owned'.wifi.clean nofun
  | some connected => exact iff_of_true rfl ⟨owned.wifi, owned.server⟩

theorem keepsGroups_start {created : Bool} {p : WifiPc}
    (ready : s.wifi.kernel.ready? i = some p) :
    KeepsGroups s (.start i created) ↔ (CreatesGroup p → created = true) := by
  unfold KeepsGroups
  constructor
  · exact fun keeps creates => keeps ⟨p, ready, creates⟩
  · rintro keeps ⟨q, there, creates⟩
    obtain rfl : p = q := Option.some.inj (ready.symm.trans there)
    exact keeps creates

theorem starting?_eq_some {p : WifiPc} {pc : StartPc} (start : starting? p = some pc) :
    p = .start pc := by
  cases p with
  | start pc' => rw [Option.some.inj start]
  | scan pc' => cases start
  | connect pc' => cases start

/-- **One step**: it keeps the groups in use exactly if it meets the condition. -/
theorem owned_step (owned : GroupsOwned s) (enabled : bootStep s a = some t) :
    KeepsGroups s a ↔ GroupsOwned t := by
  cases a with
  | start i created =>
      obtain ⟨pc, starting, rfl⟩ := Option.map_eq_some_iff.mp enabled
      obtain ⟨p, ready, start⟩ := Option.bind_eq_some_iff.mp starting
      obtain rfl := starting?_eq_some start
      rw [keepsGroups_start ready]
      exact owned_wifiCommStart owned (Kernel.pc?_of_ready? ready)
  | comm c =>
      cases c with
      | httpsTask i ok =>
          obtain ⟨p, ready, rfl⟩ := Option.map_eq_some_iff.mp enabled
          exact iff_of_true trivial (owned_httpsTask owned (Kernel.pc?_of_ready? ready))
      | wifiTask i apCount found =>
          obtain ⟨w, moves, rfl⟩ := Option.map_eq_some_iff.mp enabled
          obtain ⟨p, ready, moves⟩ := Option.bind_eq_some_iff.mp moves
          exact iff_of_true trivial (owned_wifiTask owned (Kernel.pc?_of_ready? ready) moves)
      | event e =>
          rw [bootStep, commStep, Option.ite_none_right_eq_some, Option.some.injEq] at enabled
          obtain ⟨started, rfl⟩ := enabled
          exact iff_of_true trivial (owned_event owned started e)
      | init o =>
          cases enabled
          exact owned_initHttpsServer owned
      | stop =>
          cases enabled
          exact owned_wifiCommStop owned
      | isConnected =>
          cases enabled
          exact owned_isConnected owned

/-- **A missing group is called**: once the driver is started, the next event may call a
group that is gone. -/
theorem event_misuses (started : s.wifi.driverStarted = true)
    (gone : ¬ (s.wifi.GroupUsable ∧ s.https.EventsUsable)) :
    ∃ e t, commStep s (.event e) = some t ∧ ¬ NeverMisused t := by
  rw [not_and_or] at gone
  rcases gone with wifi | server
  · refine ⟨.staDisconnected, _, if_pos started, fun never => ?_⟩
    have misused : (handleWifi s.wifi .staDisconnected).misused = true := by
      simp only [handleWifi, WifiSide.onGroup, Kernel.onGroup_of_not_usable wifi]
    exact Bool.noConfusion (misused.symm.trans never.1)
  · refine ⟨.gotIp, _, if_pos started, fun never => ?_⟩
    have misused : (startHttpsServer s.https).misused = true := by
      rw [startHttpsServer, onEvents_of_not_usable server]
    exact Bool.noConfusion (misused.symm.trans never.2)

end Steps

/-! ### Every run -/

theorem owned_boot : GroupsOwned Comm.boot := by
  have nobody (j : Nat) (p : WifiPc) (here : Comm.boot.wifi.kernel.pc? j = some p) :
      p = .start .createWifiGroup := by
    rw [Comm.boot, Kernel.pc?_createTask] at here
    split at here
    · exact (Option.some.inj here).symm
    · cases here
  refine ⟨⟨rfl, ?_⟩, rfl, ?_⟩
  · rintro (started | ⟨j, p, here, uses⟩)
    · cases started
    · exact absurd (nobody j p here) uses
  · rintro (started | ⟨j, p, here, _⟩ | ⟨j, p, here, uses, _⟩)
    · cases started
    · cases here
    · exact absurd (nobody j p here) uses

/-- A group in use is always there in exactly the runs whose steps meet the condition. -/
theorem keepsGroups_iff (actions : List BootAction) :
    AllSteps bootStep KeepsGroups Comm.boot actions ↔
      AllStates bootStep GroupsOwned Comm.boot actions := by
  refine allSteps_iff_allStates (I := fun _ => True) ?_ trivial owned_boot actions
  intro s a t _ owned enabled
  exact ⟨trivial, owned_step owned enabled⟩

/-- **No use of a deleted group**: in such a run nobody calls a group that is not there. -/
theorem never_misused (actions : List BootAction)
    (keeps : AllSteps bootStep KeepsGroups Comm.boot actions) :
    AllStates bootStep NeverMisused Comm.boot actions :=
  ((keepsGroups_iff actions).mp keeps).mono fun _ owned => ⟨owned.wifi.clean, owned.server.clean⟩

/-- Everything comes up, and `app_main` asks for the server again. -/
def comesUp : List BootAction :=
  startSteps true true true true ++ [.comm .isConnected, .comm (.httpsTask 0 true),
    .comm (.httpsTask 1 true), .comm (.event .staConnected), .comm .isConnected,
    .comm (.event .gotIp), .comm (.init ⟨true, true, true⟩), .comm (.httpsTask 1 true)]

theorem never_misused_comesUp : AllStates bootStep NeverMisused Comm.boot comesUp :=
  never_misused comesUp (by decide)

/-- `wifi_comm_stop` disconnects, and the event comes when it has deleted the group. -/
def disconnectsLate : List BootAction :=
  startSteps true true true true ++ List.replicate 7 (.comm .stop) ++
    [.comm (.event .staDisconnected)]

theorem late_disconnect_misuses :
    ¬ ∀ actions : List BootAction, AllStates bootStep NeverMisused Comm.boot actions := by
  intro all
  have ends : ((run bootStep Comm.boot disconnectsLate).map fun s => s.wifi.misused) =
      some true := by decide
  obtain ⟨s, ends, last⟩ := Option.map_eq_some_iff.mp ends
  exact absurd (((all disconnectsLate).of_run ends).1.symm.trans last) nofun

end SmartScale.WifiComm
