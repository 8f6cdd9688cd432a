import SmartScale.WifiComm.ServerTask

/-!
The instances of the HTTPS server under every interleaving after `wifi_comm_start`.

While `httpd_ssl_start` is not called by a second task, there is one instance at most, and
the server task is in `while (https_server)` as long as there is one. `wifi_comm_stop` looks
at `https_server` once, before it deletes the group and the task. A server that starts
after this look is never stopped, and runs on when `wifi_comm_stop` has returned.

* `OneInstance`: what holds at any rate.
* `startsInTime_iff`: where no server starts after the look.
* `late_instance_outlives_stop`: what becomes of one that does.
-/

namespace SmartScale.WifiComm

open SmartScale.Schedule SmartScale.Wifi

/-- The statements of `wifi_comm_stop` after `stop_https_server`. -/
def StopPc.past : StopPc → Bool
  | .idle | .checkServer | .sslStop | .clearServer => false
  | _ => true

/-- The statements of `stop_https_server` that stop a server. -/
def StopPc.stopping : StopPc → Bool
  | .sslStop | .clearServer => true
  | _ => false

/-- `wifi_comm_stop` does not stop a server any more, or has returned. -/
def Past (s : Comm) : Prop := s.stop.past = true ∨ s.stopped = true

instance (s : Comm) : Decidable (Past s) := inferInstanceAs (Decidable (_ ∨ _))

def NoInstance (s : Comm) : Prop := ∀ k, ¬ s.https.instances.Live k

/-- `httpd_ssl_start` is not called while an instance runs, and none runs when
`wifi_comm_stop` has returned. -/
structure Exclusive (s : Comm) : Prop where
  start : ∀ i, s.https.kernel.pc? i = some (.server .sslStart) → NoInstance s
  stopped : s.stopped = true → NoInstance s

/-- If `httpd_ssl_start` is called and succeeds, `wifi_comm_stop` is not past
`stop_https_server`, and has not returned since the last `init_https_server`. -/
def StartsInTime (s : Comm) : CommAction → Prop
  | .httpsTask i ok => (∃ p ∈ s.https.kernel.ready? i, StartsServer p ok) → ¬ Past s
  | _ => True

instance (s : Comm) : DecidablePred (StartsInTime s)
  | .httpsTask _ _ => inferInstanceAs (Decidable (_ → _))
  | .wifiTask .. | .event _ | .init _ | .stop | .isConnected => instDecidableTrue

/-- The instance that runs is the one of `https_server`, and while there is one, a server
task is in its loop. -/
structure OneInstance (s : Comm) : Prop where
  held : ∀ k, s.https.instances.Live k → s.https.httpsServer = some k
  runs : ∀ k, s.https.httpsServer = some k → s.https.instances.Live k ∨ s.stop = .clearServer
  served : s.https.httpsServer ≠ none → ∃ i, s.https.kernel.pc? i = some (.server .serving)
  stopping : s.stop.stopping = true → s.https.httpsServer ≠ none
  ended : s.stop = .clearServer → NoInstance s

section Steps

variable {s t : Comm} {a : CommAction} {i : Nat} {ok : Bool} {p : HttpsPc}

theorem OneInstance.noInstance (one : OneInstance s) (null : s.https.httpsServer = none) :
    NoInstance s := by
  intro k live
  rw [one.held k live] at null
  cases null

/-- A server task that is not in its loop: there is no instance. -/
theorem OneInstance.httpsServer_eq_none (one : OneInstance s) (server : OneServer s)
    (here : s.https.kernel.pc? i = some p) (kind : p.isServer = true)
    (elsewhere : p ≠ .server .serving) : s.https.httpsServer = none := by
  by_contra running
  obtain ⟨j, serving⟩ := one.served running
  have hi : s.https.kind? i = some true := by rw [Https.kind?, here, Option.map_some, kind]
  have hj : s.https.kind? j = some true := by rw [Https.kind?, serving]; rfl
  rw [server.unique hi hj, serving] at here
  exact elsewhere (Option.some.inj here).symm

/-- What leaves the instances and the loops alone. -/
theorem OneInstance.same (one : OneInstance s)
    (serving : s.https.httpsServer ≠ none →
      (∃ i, s.https.kernel.pc? i = some (.server .serving)) →
        ∃ i, t.https.kernel.pc? i = some (.server .serving))
    (instances : t.https.instances = s.https.instances)
    (server : t.https.httpsServer = s.https.httpsServer) (stop : t.stop = s.stop) :
    OneInstance t := by
  obtain ⟨held, runs, served, stopping, ended⟩ := one
  refine ⟨?_, ?_, ?_, ?_, ?_⟩
  · rwa [instances, server]
  · rwa [instances, server, stop]
  · rw [server]
    exact fun running => serving running (served running)
  · rwa [server, stop]
  · rw [stop, NoInstance, instances]
    exact ended

theorem OneInstance.keeps (one : OneInstance s) (keeps : Keeps s.https t.https)
    (stop : t.stop = s.stop) : OneInstance t := by
  refine one.same ?_ keeps.instances keeps.server stop
  rintro _ ⟨i, serving⟩
  exact ⟨i, keeps.pcs i _ serving⟩

/-- What `wifi_comm_stop` does apart from `stop_https_server`. -/
theorem OneInstance.goesOn (one : OneInstance s) (keeps : Keeps s.https t.https)
    (left : s.stop ≠ .clearServer) (goes : t.stop.stopping = false) : OneInstance t where
  held k := by
    rw [keeps.instances, keeps.server]
    exact one.held k
  runs k server := by
    rw [keeps.server] at server
    rw [keeps.instances]
    exact .inl ((one.runs k server).resolve_right left)
  served running := by
    rw [keeps.server] at running
    obtain ⟨i, serving⟩ := one.served running
    exact ⟨i, keeps.pcs i _ serving⟩
  stopping here := absurd (goes.symm.trans here) Bool.false_ne_true
  ended here := by
    rw [here] at goes
    cases goes

/-! ### The HTTPS tasks -/

theorem oneInstance_quiet {q : HttpsPc} {u : Https} (one : OneInstance s)
    (quiet : Quiet s.https u i p q) (here : s.https.kernel.pc? i = some p) :
    OneInstance { s with https := u } := by
  refine one.same ?_ quiet.instances quiet.server rfl
  rintro running ⟨j, serving⟩
  refine ⟨j, ?_⟩
  rw [quiet.moved.pcs j]
  split
  · rename_i same
    rw [same, here] at serving
    rw [(quiet.stays (Option.some.inj serving)).resolve_right running]
  · exact serving

theorem oneInstance_starts {u : Https} (one : OneInstance s) (server : OneServer s)
    (starts : Starts s.https u i) (here : s.https.kernel.pc? i = some (.server .sslStart)) :
    OneInstance { s with https := u } := by
  have null := one.httpsServer_eq_none server here rfl nofun
  refine ⟨?_, ?_, ?_, ?_, ?_⟩
  · intro k live
    rw [starts.instances, Objects.live_create_iff] at live
    rcases live with rfl | live
    · exact starts.server
    · exact absurd live (one.noInstance null k)
  · intro k runs
    rw [starts.server, Option.some.injEq] at runs
    rw [starts.instances, Objects.live_create_iff]
    exact .inl (.inl runs.symm)
  · intro _
    refine ⟨i, ?_⟩
    rw [starts.moved.pcs i, if_pos rfl]
  · intro _
    rw [starts.server]
    exact nofun
  · intro clear
    exact absurd null (one.stopping (clear ▸ rfl))

/-- An instance that starts is there past `stop_https_server` if it starts there. -/
theorem nonePast_starts {u : Https} (starts : Starts s.https u i) :
    (Past { s with https := u } → NoInstance { s with https := u }) ↔ ¬ Past s := by
  refine ⟨fun nonePast past => nonePast past s.https.instances.next ?_, ?_⟩
  · rw [starts.instances]
    exact Objects.live_create_self
  · exact fun notPast past => absurd past notPast

/-! ### `wifi_comm_stop` -/

/-- A statement of `wifi_comm_stop` from which it goes on past `stop_https_server`, and
neither the instances nor the loops change. -/
theorem oneInstance_goesOn (one : OneInstance s) (nonePast : Past s → NoInstance s)
    (keeps : Keeps s.https t.https) (past : Past t → Past s)
    (left : s.stop ≠ .clearServer) (goes : t.stop.stopping = false) :
    OneInstance t ∧ (Past t → NoInstance t) := by
  refine ⟨one.goesOn keeps left goes, ?_⟩
  intro later
  rw [NoInstance, keeps.instances]
  exact nonePast (past later)

/-- Where the stop returns from `httpd_ssl_stop`, no instance is left. -/
theorem noInstance_clearServer (one : OneInstance s) (here : s.stop = .clearServer) :
    OneInstance (wifiCommStop s) ∧ NoInstance (wifiCommStop s) := by
  have ended := one.ended here
  rw [wifiCommStop, here]
  refine ⟨⟨?_, ?_, absurd rfl, ?_, ?_⟩, ended⟩
  · exact fun k live => absurd live (ended k)
  · exact fun k null => absurd null.symm (Option.some_ne_none k)
  · exact fun stopping => absurd stopping Bool.false_ne_true
  · exact fun _ => ended

/-- `httpd_ssl_stop` ends the one instance there is. -/
theorem noInstance_sslStop (one : OneInstance s) (here : s.stop = .sslStop) :
    OneInstance (wifiCommStop s) ∧ NoInstance (wifiCommStop s) := by
  have running := one.stopping (here ▸ rfl)
  obtain ⟨k, server⟩ := Option.ne_none_iff_exists'.mp running
  have ended : ∀ j, ¬ (s.https.instances.delete k).Live j := by
    intro j live
    obtain ⟨other, live⟩ := Objects.live_delete_iff.mp live
    exact other (Option.some.inj ((one.held j live).symm.trans server))
  rw [wifiCommStop, here]
  simp only [server, Option.elim_some]
  refine ⟨⟨fun j live => absurd live (ended j), ?_, ?_, fun _ => Option.some_ne_none k,
    fun _ => ended⟩, ended⟩
  · exact fun _ _ => .inr rfl
  · exact fun _ => one.served running

/-- The task is deleted after its instance. -/
theorem noInstance_deleteTask (one : OneInstance s) (here : s.stop = .deleteTask)
    (ended : NoInstance s) : OneInstance (wifiCommStop s) ∧ NoInstance (wifiCommStop s) := by
  have clearing : s.stop ≠ .clearServer := by
    rw [here]
    exact StopPc.noConfusion
  have null : s.https.httpsServer = none := by
    rw [Option.eq_none_iff_forall_ne_some]
    intro k server
    exact ended k ((one.runs k server).resolve_right clearing)
  rw [wifiCommStop, here]
  refine ⟨⟨?_, ?_, ?_, Bool.noConfusion, StopPc.noConfusion⟩, ?_⟩
  · rw [deleteServer_instances]
    exact fun k live => absurd live (ended k)
  · rw [deleteServer_httpsServer, null]
    exact fun k server => absurd server.symm (Option.some_ne_none k)
  · rw [deleteServer_httpsServer]
    exact absurd null
  · rw [NoInstance, deleteServer_instances]
    exact ended

/-- `stop_https_server` is left out where there is no instance, entered where there is one. -/
theorem oneInstance_checkServer (one : OneInstance s) (nonePast : Past s → NoInstance s)
    (here : s.stop = .checkServer) :
    OneInstance (wifiCommStop s) ∧ (Past (wifiCommStop s) → NoInstance (wifiCommStop s)) := by
  have left : s.stop ≠ .clearServer := by
    rw [here]
    exact StopPc.noConfusion
  rw [wifiCommStop, here]
  dsimp only
  split
  · rename_i null
    refine ⟨one.goesOn .refl left rfl, ?_⟩
    exact fun _ => one.noInstance null
  · rename_i running
    refine ⟨⟨one.held, ?_, one.served, fun _ => running, StopPc.noConfusion⟩, ?_⟩
    · exact fun k server => .inl ((one.runs k server).resolve_right left)
    · exact fun later => nonePast (.inr (later.resolve_left Bool.false_ne_true))

theorem oneInstance_wifiCommStop (one : OneInstance s) (nonePast : Past s → NoInstance s) :
    OneInstance (wifiCommStop s) ∧ (Past (wifiCommStop s) → NoInstance (wifiCommStop s)) := by
  by_cases clearing : s.stop = .clearServer
  · exact (noInstance_clearServer one clearing).imp_right fun ended _ => ended
  have goesOn {t : Comm} (keeps : Keeps s.https t.https) (past : Past t → Past s) :=
    oneInstance_goesOn one nonePast keeps past clearing
  have past {t : Comm} (later : s.stop.past = true) : Past t → Past s := fun _ => .inl later
  cases here : s.stop with
  | clearServer => exact absurd here clearing
  | sslStop => exact (noInstance_sslStop one here).imp_right fun ended _ => ended
  | deleteTask =>
      exact (noInstance_deleteTask one here (nonePast (.inl (here ▸ rfl)))).imp_right
        fun ended _ => ended
  | idle =>
      rw [wifiCommStop, here]
      exact goesOn .refl (fun later => .inr (later.resolve_left Bool.false_ne_true)) rfl
  | checkServer => exact oneInstance_checkServer one nonePast here
  | disconnect | wifiStop | wifiDeinit | deleteWifiGroup | clearWifiGroup =>
      rw [wifiCommStop, here]
      exact goesOn .refl (past (here ▸ rfl)) rfl
  | checkWifiGroup | checkServerGroup | checkTask =>
      rw [wifiCommStop, here]
      dsimp only
      split
      · exact goesOn .refl (past (here ▸ rfl)) rfl
      · exact goesOn .refl (past (here ▸ rfl)) rfl
  | deleteServerGroup =>
      rw [wifiCommStop, here]
      exact goesOn same_deleteEvents.keeps (past (here ▸ rfl)) rfl
  | clearServerGroup | clearTask =>
      rw [wifiCommStop, here]
      exact goesOn ⟨fun _ _ => id, rfl, rfl⟩ (past (here ▸ rfl)) rfl

/-! ### Every step -/

/-- No instance runs past `stop_https_server`, and what holds at any rate. -/
structure Guarded (s : Comm) : Prop where
  server : OneServer s
  one : OneInstance s
  nonePast : Past s → NoInstance s

theorem Guarded.exclusive (guarded : Guarded s) : Exclusive s where
  start _ here := guarded.one.noInstance
    (guarded.one.httpsServer_eq_none guarded.server here rfl nofun)
  stopped returned := guarded.nonePast (.inr returned)

/-- Of the HTTPS tasks, only a server task that starts its server adds an instance. -/
theorem guarded_httpsTask (guarded : Guarded s) (enabled : commStep s (.httpsTask i ok) = some t) :
    OneInstance t ∧ (StartsInTime s (.httpsTask i ok) ↔ (Past t → NoInstance t)) := by
  obtain ⟨server, one, nonePast⟩ := guarded
  obtain ⟨p, ready, rfl⟩ := Option.map_eq_some_iff.mp enabled
  have here := Kernel.pc?_of_ready? ready
  rcases httpsTask_step here ok with ⟨starting, starts⟩ | ⟨quietly, q, quiet⟩
  · obtain ⟨rfl, rfl⟩ := starting
    refine ⟨oneInstance_starts one server starts here, ?_⟩
    refine Iff.trans ⟨?_, fun notPast _ => notPast⟩ (nonePast_starts starts).symm
    exact fun inTime => inTime ⟨_, ready, rfl, rfl⟩
  · refine ⟨oneInstance_quiet one quiet here, iff_of_true ?_ ?_⟩
    · rintro ⟨p', ready', starting⟩
      rw [Option.mem_def, ready, Option.some.injEq] at ready'
      exact absurd (ready' ▸ starting) quietly
    · rw [NoInstance, quiet.instances]
      exact nonePast

/-- Whatever a step does, there is one instance at most; none runs past
`stop_https_server` exactly if none starts there. -/
theorem guarded_step (guarded : Guarded s) (enabled : commStep s a = some t) :
    (OneServer t ∧ OneInstance t) ∧ (StartsInTime s a ↔ (Past t → NoInstance t)) := by
  have ⟨server, one, nonePast⟩ := guarded
  refine and_assoc.mpr ⟨oneServer_step server enabled, ?_⟩
  by_cases wifi : a.ofWifi = true
  · obtain ⟨same, stop, stopped⟩ := commStep_ofWifi wifi enabled
    refine ⟨one.keeps same.keeps stop, iff_of_true ?_ ?_⟩
    · cases a <;> trivial
    · rw [Past, stop, stopped, NoInstance, same.instances]
      exact nonePast
  · cases a with
    | httpsTask i ok => exact guarded_httpsTask guarded enabled
    | init o =>
        cases enabled
        have keeps : Keeps s.https (initHttpsServer s.https o) := keeps_initHttpsServer
        refine ⟨one.keeps keeps rfl, iff_of_true trivial ?_⟩
        rw [NoInstance, keeps.instances]
        exact fun past => nonePast (.inl (past.resolve_right nofun))
    | stop =>
        cases enabled
        obtain ⟨one', nonePast'⟩ := oneInstance_wifiCommStop one nonePast
        exact ⟨one', iff_of_true trivial nonePast'⟩
    | wifiTask i apCount found => exact absurd rfl wifi
    | event e => exact absurd rfl wifi
    | isConnected => exact absurd rfl wifi

/-! ### A late instance -/

/-- The statements that are left of `wifi_comm_stop`, past `stop_https_server`. -/
def StopPc.left : StopPc → Nat
  | .idle | .checkServer | .sslStop | .clearServer => 0
  | .disconnect => 12
  | .wifiStop => 11
  | .wifiDeinit => 10
  | .checkWifiGroup => 9
  | .deleteWifiGroup => 8
  | .clearWifiGroup => 7
  | .checkServerGroup => 6
  | .deleteServerGroup => 5
  | .clearServerGroup => 4
  | .checkTask => 3
  | .deleteTask => 2
  | .clearTask => 1

/-- Each of them stops no instance, and is the last or leaves fewer. -/
theorem wifiCommStop_past (past : s.stop.past = true) :
    (wifiCommStop s).https.instances = s.https.instances ∧
      ((wifiCommStop s).stopped = true ∨
        ((wifiCommStop s).stop.past = true ∧ (wifiCommStop s).stop.left < s.stop.left)) := by
  unfold wifiCommStop
  cases here : s.stop with
  | idle | checkServer | sslStop | clearServer =>
      rw [here] at past
      cases past
  | checkWifiGroup | checkServerGroup =>
      refine ⟨rfl, .inr ?_⟩
      dsimp only
      split
      · exact ⟨rfl, by decide⟩
      · exact ⟨rfl, Nat.lt_add_one _⟩
  | deleteServerGroup => exact ⟨same_deleteEvents.instances, .inr ⟨rfl, Nat.lt_add_one _⟩⟩
  | checkTask =>
      dsimp only
      split
      · exact ⟨rfl, .inl rfl⟩
      · exact ⟨rfl, .inr ⟨rfl, Nat.lt_add_one _⟩⟩
  | deleteTask => exact ⟨deleteServer_instances, .inr ⟨rfl, Nat.lt_add_one _⟩⟩
  | clearTask => exact ⟨rfl, .inl rfl⟩
  | _ => exact ⟨rfl, .inr ⟨rfl, Nat.lt_add_one _⟩⟩

/-- From there it returns, with the instances there are. -/
theorem wifiCommStop_returns (past : s.stop.past = true) :
    ∃ n t, run commStep s (List.replicate n .stop) = some t ∧ t.stopped = true ∧
      t.https.instances = s.https.instances := by
  induction left : s.stop.left using Nat.strong_induction_on generalizing s with
  | h m ih =>
      obtain ⟨same, returned | ⟨past', fewer⟩⟩ := wifiCommStop_past past
      · exact ⟨1, _, rfl, returned, same⟩
      · obtain ⟨n, t, ends, returned, same'⟩ := ih _ (left ▸ fewer) past' rfl
        exact ⟨n + 1, t, ends, returned, same'.trans same⟩

/-- **A late instance runs on**: one that runs past `stop_https_server` is there when
`wifi_comm_stop` has returned. -/
theorem late_instance_outlives_stop (past : Past s) (late : ¬ NoInstance s) :
    ∃ n t, run commStep s (List.replicate n .stop) = some t ∧ ¬ Exclusive t := by
  rcases past with past | returned
  · obtain ⟨n, t, ends, returned, same⟩ := wifiCommStop_returns past
    refine ⟨n, t, ends, fun exclusive => late ?_⟩
    rw [NoInstance, ← same]
    exact exclusive.stopped returned
  · exact ⟨0, s, rfl, fun exclusive => late (exclusive.stopped returned)⟩

end Steps

/-! ### Every run -/

section Runs

variable (scan connect monitor server : Bool)

theorem guarded_started : Guarded (Comm.started scan connect monitor server) := by
  have null : (Comm.started scan connect monitor server).https.httpsServer = none := by
    cases monitor <;> cases server <;> rfl
  have instances : (Comm.started scan connect monitor server).https.instances = .empty := by
    cases monitor <;> cases server <;> rfl
  have ended : NoInstance (Comm.started scan connect monitor server) := by
    rw [NoInstance, instances]
    exact fun k => Objects.not_live_empty
  refine ⟨oneServer_started scan connect monitor server, ⟨?_, ?_, ?_, nofun, nofun⟩, ?_⟩
  · exact fun k live => absurd live (ended k)
  · rw [null]
    exact nofun
  · exact absurd null
  · exact fun _ => ended

/-- No instance runs past `stop_https_server` exactly if none starts there. -/
theorem startsInTime_iff (actions : List CommAction) :
    AllSteps commStep StartsInTime (Comm.started scan connect monitor server) actions ↔
      AllStates commStep Guarded (Comm.started scan connect monitor server) actions := by
  have guarded := guarded_started scan connect monitor server
  refine allSteps_iff_allStates (I := fun s => OneServer s ∧ OneInstance s) ?_
    ⟨guarded.server, guarded.one⟩ guarded actions
  intro s a t _ guarded enabled
  obtain ⟨⟨server, one⟩, same⟩ := guarded_step guarded enabled
  refine ⟨⟨server, one⟩, same.trans ?_⟩
  exact ⟨fun nonePast => ⟨server, one, nonePast⟩, Guarded.nonePast⟩

/-- **One instance, and none after the stop**, in every run in which no server starts
once `wifi_comm_stop` is past `stop_https_server`. -/
theorem exclusive_of_startsInTime (actions : List CommAction)
    (inTime : AllSteps commStep StartsInTime (Comm.started scan connect monitor server) actions) :
    AllStates commStep Exclusive (Comm.started scan connect monitor server) actions :=
  ((startsInTime_iff scan connect monitor server actions).mp inTime).mono
    fun _ guarded => guarded.exclusive

end Runs

/-- The server starts on a `GOT_IP`. -/
def serverStarts : List CommAction :=
  [.httpsTask 1 true, .event .gotIp, .httpsTask 1 true, .httpsTask 1 true]

/-- A server starts, and `wifi_comm_stop` stops it. -/
theorem exclusive_of_startsInTime_stop :
    AllStates commStep Exclusive (Comm.started true true true true)
      (serverStarts ++ List.replicate 16 .stop) :=
  exclusive_of_startsInTime true true true true _ (by decide)

/-- The server task starts a server after `wifi_comm_stop` has looked at `https_server`,
which goes on to its return. -/
def lateStart : List CommAction :=
  [.httpsTask 1 true, .event .gotIp, .httpsTask 1 true, .stop, .stop, .httpsTask 1 true] ++
    List.replicate 12 .stop

theorem late_start_runs_on :
    ¬ ∀ (scan connect monitor server : Bool) (actions : List CommAction),
      AllStates commStep Exclusive (Comm.started scan connect monitor server) actions := by
  intro all
  have ends : ((run commStep (Comm.started true true true true) lateStart).map fun s =>
      (s.stopped, decide (s.https.instances.Live 0))) = some (true, true) := by decide
  obtain ⟨s, ends, last⟩ := Option.map_eq_some_iff.mp ends
  have exclusive := (all true true true true lateStart).of_run ends
  exact exclusive.stopped (congrArg Prod.fst last) 0 (of_decide_eq_true (congrArg Prod.snd last))

end SmartScale.WifiComm
