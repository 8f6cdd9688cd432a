import SmartScale.WifiComm.ServerTask

/-!
`app_main` (`main.c`) after `wifi_comm_start`: it waits for Wi-Fi, calls
`init_https_server`, and looks after the server in its health loop.

`main.c` has an `https_server` of its own, which nobody sets. So its
`https_server_is_running()` is always false, and each sixtieth round with Wi-Fi up calls
`init_https_server`, which makes a monitor each time.

* `single_iff`: when there is one server task and one monitor at most, and no restart is
  attempted while a server runs.
-/

namespace SmartScale.WifiComm

open SmartScale.Schedule SmartScale.Wifi

/-- Where `app_main` goes on; `startSntp` and `startServer` are the `if`s on
`wifi_is_connected()`, `restart` the one of the health loop. -/
inductive MainPc where
  | waitConnected (retries : Nat)
  | startSntp
  | startServer
  | initServer
  | loop
  | restart
deriving DecidableEq, Repr

/-- `wifi_comm.c`, the variables of `main.c`, and whether a restart was attempted while
`wifi_comm.c` held a server. The attempt is the decision of the status check: the call of
`init_https_server` that follows does not look at the server again. -/
structure App where
  comm : Comm
  pc : MainPc
  counter : UInt32
  httpsServer : Option Nat
  misjudged : Bool

/-- `wifi_comm_start` has returned. -/
def App.started (scan connect monitor server : Bool) : App where
  comm := Comm.started scan connect monitor server
  pc := .waitConnected 0
  counter := 0
  httpsServer := none
  misjudged := false

namespace App

/-- `app_main` goes on according to `wifi_is_connected()`. -/
def onConnected (s : App) (next : Bool → App) : App :=
  match wifiIsConnected s.comm.wifi with
  | some connected => next connected
  | none => { s with comm := { s.comm with wifi := callIsConnected s.comm.wifi } }

/-- It calls `init_https_server`, and comes to its loop. -/
def callInit (s : App) (o : InitOutcome) : App :=
  { s with
    comm := { s.comm with https := initHttpsServer s.comm.https o, stopped := false }
    pc := .loop }

end App

/-- `https_server_is_running` -/
def httpsServerIsRunning (s : App) : Bool := s.httpsServer.isSome

/-- One round of the health loop, up to the attempt to restart. -/
def healthLoop (s : App) : App :=
  let s := { s with counter := s.counter + 1 }
  if s.counter % 60 = 0 then
    s.onConnected fun connected =>
      if connected && !httpsServerIsRunning s then
        { s with pc := .restart, misjudged := s.misjudged || s.comm.https.httpsServer.isSome }
      else s
  else s

/-- What `app_main` does next. -/
def appMain (s : App) (o : InitOutcome) : App :=
  match s.pc with
  | .waitConnected retries =>
      s.onConnected fun connected =>
        { s with pc := if !connected && retries < 20 then .waitConnected (retries + 1)
                       else .startSntp }
  | .startSntp => s.onConnected fun _ => { s with pc := .startServer }
  | .startServer =>
      s.onConnected fun connected => { s with pc := if connected then .initServer else .loop }
  | .initServer => s.callInit o
  | .loop => healthLoop s
  | .restart => s.callInit o

inductive AppAction where
  | main (o : InitOutcome)
  | comm (a : CommAction)
deriving DecidableEq, Repr

/-- One step, of `app_main` or of anything else. -/
def appStep (s : App) : AppAction → Option App
  | .main o => some (appMain s o)
  | .comm a => (commStep s.comm a).map fun t => { s with comm := t }

/-! ### The property and the condition -/

/-- One server task and one monitor at most, and no restart decided on while `wifi_comm.c` holds
a server. -/
structure Single (s : App) : Prop where
  server : ∀ i j, s.comm.https.kind? i = some true → s.comm.https.kind? j = some true → i = j
  monitor : ∀ i j, s.comm.https.kind? i = some false → s.comm.https.kind? j = some false → i = j
  restart : s.misjudged = false

/-- If `init_https_server` creates a monitor, none is alive. -/
def MonitorIsNew (s : Https) (o : InitOutcome) : Prop :=
  MakesMonitor s o → ∀ j, s.kind? j ≠ some false

/-- The health loop looks at the status this time, with Wi-Fi up. -/
def StatusDue (s : App) : Prop :=
  (s.counter + 1) % 60 = 0 ∧ wifiIsConnected s.comm.wifi = some true

/-- `init_https_server` makes a monitor only where none is alive; and where the health loop
looks at the status with Wi-Fi up, `wifi_comm.c` holds no server. -/
def KeepsSingle (s : App) : AppAction → Prop
  | .main o =>
      match s.pc with
      | .initServer | .restart => MonitorIsNew s.comm.https o
      | .loop => StatusDue s → s.comm.https.httpsServer = none
      | _ => True
  | .comm (.init o) => MonitorIsNew s.comm.https o
  | .comm _ => True

section Steps

variable {s t : App} {a : AppAction} {o : InitOutcome}

/-- There is one server task at most, and `main.c` holds no server. -/
structure AppInv (s : App) : Prop where
  one : OneServer s.comm
  null : s.httpsServer = none

theorem Single.same (single : Single s)
    (kinds : ∀ j b, t.comm.https.kind? j = some b → s.comm.https.kind? j = some b)
    (misjudged : t.misjudged = s.misjudged) : Single t where
  server i j hi hj := single.server i j (kinds i true hi) (kinds j true hj)
  monitor i j hi hj := single.monitor i j (kinds i false hi) (kinds j false hj)
  restart := misjudged.trans single.restart

theorem kind?_wifiCommStop {c : Comm} {j : Nat} {b : Bool}
    (there : (wifiCommStop c).https.kind? j = some b) : c.https.kind? j = some b := by
  unfold wifiCommStop at there
  cases here : c.stop with
  | deleteServerGroup =>
      rw [here] at there
      exact (same_deleteEvents.kind j).symm.trans there
  | deleteTask =>
      simp only [here, kind?_deleteServer] at there
      split at there
      · cases there
      · exact there
  | checkTask =>
      simp only [here] at there
      split at there
      · exact there
      · exact there
  | _ =>
      rw [here] at there
      exact there

/-- After a call of `init_https_server`. -/
theorem single_init (single : Single s) (one : OneServer t.comm)
    (https : t.comm.https = initHttpsServer s.comm.https o)
    (misjudged : t.misjudged = s.misjudged) : Single t ↔ MonitorIsNew s.comm.https o := by
  have restart := misjudged.trans single.restart
  by_cases makes : MakesMonitor s.comm.https o
  · obtain ⟨n, new, monitors⟩ := monitor_initHttpsServer makes
    rw [← https] at monitors
    constructor
    · intro after _ j there
      have same := after.monitor j n ((monitors j).mpr (.inr there)) ((monitors n).mpr (.inl rfl))
      exact new (same ▸ there)
    · intro isNew
      refine ⟨fun i j => one.unique, ?_, restart⟩
      intro i j hi hj
      have first := ((monitors i).mp hi).resolve_right (isNew makes i)
      have second := ((monitors j).mp hj).resolve_right (isNew makes j)
      exact first.trans second.symm
  · refine iff_of_true ⟨fun i j => one.unique, ?_, restart⟩ fun makes' => absurd makes' makes
    intro i j hi hj
    rw [https, monitor_initHttpsServer_of_not makes] at hi hj
    exact single.monitor i j hi hj

/-- A step that changes neither the HTTPS side nor what `wifi_comm_stop` does. -/
structure Unchanged (s t : App) : Prop where
  https : t.comm.https = s.comm.https
  stop : t.comm.stop = s.comm.stop
  server : t.httpsServer = s.httpsServer
  misjudged : t.misjudged = s.misjudged

theorem Unchanged.inv (unchanged : Unchanged s t) (inv : AppInv s) : AppInv t where
  one := by
    refine inv.one.same ?_ (congrArg _ unchanged.https) unchanged.stop
    rw [unchanged.https]
    exact fun _ => id
  null := unchanged.server.trans inv.null

theorem Unchanged.single (unchanged : Unchanged s t) (single : Single s) : Single t := by
  refine single.same ?_ unchanged.misjudged
  rw [unchanged.https]
  exact fun _ _ => id

theorem unchanged_onConnected {next : Bool → App} (next_unchanged : ∀ b, Unchanged s (next b)) :
    Unchanged s (s.onConnected next) := by
  unfold App.onConnected
  split
  · exact next_unchanged _
  · exact ⟨rfl, rfl, rfl, rfl⟩

/-! ### The health loop -/

theorem healthLoop_of_due (null : s.httpsServer = none) (due : StatusDue s) :
    healthLoop s =
      { s with
        counter := s.counter + 1
        pc := .restart
        misjudged := s.misjudged || s.comm.https.httpsServer.isSome } := by
  have stopped (c : UInt32) : httpsServerIsRunning { s with counter := c } = false := by
    rw [httpsServerIsRunning, null]
    rfl
  unfold healthLoop
  simp only [due.1, if_true, App.onConnected, due.2, stopped, Bool.not_false, Bool.and_self]

theorem unchanged_healthLoop (notDue : ¬ StatusDue s) : Unchanged s (healthLoop s) := by
  by_cases round : (s.counter + 1) % 60 = 0
  · have down : wifiIsConnected s.comm.wifi ≠ some true := fun connected =>
      notDue ⟨round, connected⟩
    simp only [healthLoop, round, if_true, App.onConnected]
    split
    · rename_i connected here
      cases connected with
      | true => exact absurd here down
      | false => exact ⟨rfl, rfl, rfl, rfl⟩
    · exact ⟨rfl, rfl, rfl, rfl⟩
  · simp only [healthLoop, round, if_false]
    exact ⟨rfl, rfl, rfl, rfl⟩

theorem healthLoop_step (inv : AppInv s) (single : Single s) :
    AppInv (healthLoop s) ∧
      ((StatusDue s → s.comm.https.httpsServer = none) ↔ Single (healthLoop s)) := by
  by_cases due : StatusDue s
  · rw [healthLoop_of_due inv.null due]
    refine ⟨⟨inv.one, inv.null⟩, ?_⟩
    rw [imp_iff_right due, ← Option.not_isSome_iff_eq_none, Bool.not_eq_true]
    constructor
    · intro null
      refine ⟨single.server, single.monitor, ?_⟩
      rw [single.restart, null]
      rfl
    · intro after
      exact (Bool.or_eq_false_iff.mp after.restart).2
  · have unchanged := unchanged_healthLoop due
    exact ⟨unchanged.inv inv, iff_of_true (absurd · due) (unchanged.single single)⟩

/-! ### Every step -/

theorem callInit_step (inv : AppInv s) (single : Single s) :
    AppInv (s.callInit o) ∧ (MonitorIsNew s.comm.https o ↔ Single (s.callInit o)) := by
  have init := oneServer_initHttpsServer (o := o) inv.one
  have one : OneServer (s.callInit o).comm := ⟨init.owner, init.deleting, init.deleted⟩
  exact ⟨⟨one, inv.null⟩, (single_init single one rfl rfl).symm⟩

theorem appMain_step (inv : AppInv s) (single : Single s) :
    AppInv (appMain s o) ∧ (KeepsSingle s (.main o) ↔ Single (appMain s o)) := by
  have passes {t : App} (unchanged : Unchanged s t) : AppInv t ∧ (True ↔ Single t) :=
    ⟨unchanged.inv inv, iff_of_true trivial (unchanged.single single)⟩
  rw [appMain, KeepsSingle]
  cases here : s.pc with
  | waitConnected retries =>
      exact passes (unchanged_onConnected fun _ => ⟨rfl, rfl, rfl, rfl⟩)
  | startSntp => exact passes (unchanged_onConnected fun _ => ⟨rfl, rfl, rfl, rfl⟩)
  | startServer => exact passes (unchanged_onConnected fun _ => ⟨rfl, rfl, rfl, rfl⟩)
  | initServer => exact callInit_step inv single
  | loop => exact healthLoop_step inv single
  | restart => exact callInit_step inv single

theorem comm_step {c : CommAction} {u : Comm} (inv : AppInv s) (single : Single s)
    (enabled : commStep s.comm c = some u) :
    AppInv { s with comm := u } ∧
      (KeepsSingle s (.comm c) ↔ Single { s with comm := u }) := by
  have one := oneServer_step inv.one enabled
  refine ⟨⟨one, inv.null⟩, ?_⟩
  by_cases wifi : c.ofWifi = true
  · obtain ⟨same, _, _⟩ := commStep_ofWifi wifi enabled
    refine iff_of_true ?_ (single.same (fun j b there => (same.kind j).symm.trans there) rfl)
    cases c <;> trivial
  · cases c with
    | httpsTask i ok =>
        obtain ⟨p, ready, rfl⟩ := Option.map_eq_some_iff.mp enabled
        have here := Kernel.pc?_of_ready? ready
        have step := httpsTask_step here ok
        exact iff_of_true trivial
          (single.same (fun j b there => (step.kind here j).symm.trans there) rfl)
    | init o =>
        cases enabled
        have init : Single { s with comm := _ } ↔ _ := single_init single one rfl rfl
        exact init.symm
    | stop =>
        cases enabled
        exact iff_of_true trivial (single.same (fun j b => kind?_wifiCommStop) rfl)
    | wifiTask i apCount found => exact absurd rfl wifi
    | event e => exact absurd rfl wifi
    | isConnected => exact absurd rfl wifi

end Steps

/-! ### Every run -/

theorem single_started (scan connect monitor server : Bool) :
    Single (App.started scan connect monitor server) := by
  have one := oneServer_started scan connect monitor server
  refine ⟨fun i j => one.unique, ?_, rfl⟩
  have first (j : Nat)
      (there : (Comm.started scan connect monitor server).https.kind? j = some false) :
      j = (Https.boot.createEvents true).kernel.tasks.next := by
    rw [Comm.started, kind?_createServer] at there
    split at there
    · cases there
    · rw [kind?_createMonitor] at there
      split at there
      · rename_i new
        exact new.2
      · cases there
  exact fun i j hi hj => (first i hi).trans (first j hj).symm

/-- **The helper tasks do not multiply**, and no running server is restarted, in exactly
the runs in which `init_https_server` makes a monitor only where none is alive, and
`wifi_comm.c` holds no server where the health loop looks with Wi-Fi up. -/
theorem single_iff (scan connect monitor server : Bool) (actions : List AppAction) :
    AllSteps appStep KeepsSingle (App.started scan connect monitor server) actions ↔
      AllStates appStep Single (App.started scan connect monitor server) actions := by
  refine allSteps_iff_allStates (I := AppInv) ?_
    ⟨oneServer_started scan connect monitor server, rfl⟩
    (single_started scan connect monitor server) actions
  intro s a t inv single enabled
  cases a with
  | main o =>
      cases enabled
      exact appMain_step inv single
  | comm c =>
      obtain ⟨u, moves, rfl⟩ := Option.map_eq_some_iff.mp enabled
      exact comm_step inv single moves

/-- Wi-Fi is up, and `app_main` calls `init_https_server` for the first time. -/
def firstInit : List AppAction :=
  .comm (.event .staConnected) :: List.replicate 4 (.main ⟨true, true, true⟩)

theorem first_init_makes_second_monitor :
    ¬ ∀ (scan connect monitor server : Bool) (actions : List AppAction),
      AllStates appStep Single (App.started scan connect monitor server) actions := by
  intro all
  have ends : ((run appStep (App.started true true true true) firstInit).map fun s =>
      (s.comm.https.kind? 0, s.comm.https.kind? 2)) = some (some false, some false) := by decide
  obtain ⟨s, ends, last⟩ := Option.map_eq_some_iff.mp ends
  have single := (all true true true true firstInit).of_run ends
  have same := single.monitor 0 2 (congrArg Prod.fst last) (congrArg Prod.snd last)
  exact absurd same (by decide)

end SmartScale.WifiComm
