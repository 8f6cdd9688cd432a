import SmartScale.Base.EventGroup
import SmartScale.Base.Schedule

/-!
Control of the HTTPS server (`wifi/wifi_comm.c`): `start_https_server_task` and
`https_server_monitor` wait on the bits of one event group, both with
clear-on-exit.

The monitor re-reads the bits after its own wait has cleared them. An error is
seen only if it is set between the two calls, and a start request that meets the
monitor's wait before the server's is consumed by the monitor.

* `control_step`: one step keeps the invariant, and loses no request exactly when
  it is `Disciplined`.
* `requests_kept_iff`: so do whole schedules.
-/

namespace SmartScale.Wifi

open SmartScale.EventGroup SmartScale.Schedule

/-- `SERVER_START_BIT` and `SERVER_ERROR_BIT` -/
inductive ServerBit where
  | start
  | error
deriving DecidableEq, Repr

/-- Where `start_https_server_task` is: before and in its wait, trying to start the
server, and in the loop `while (https_server)`. -/
inductive ServerTask where
  | wait
  | blocked
  | attempt
  | serving
deriving DecidableEq, Repr

/-- Where `https_server_monitor` is: before and in its wait, before
`xEventGroupGetBits`, and in `vTaskDelay`. -/
inductive Monitor where
  | wait
  | blocked
  | getBits
  | restartDelay
deriving DecidableEq, Repr

/-- `https_server_events` and `https_server` (whether it is set), the two tasks, and
whether, since the last start attempt, `start_https_server` was called or the task set
`SERVER_ERROR_BIT`. -/
structure Control where
  bits : Finset ServerBit
  httpsServer : Bool
  server : ServerTask
  monitor : Monitor
  requested : Bool
deriving DecidableEq

/-- As `wifi_comm_start` leaves it. -/
def Control.start : Control := ⟨∅, false, .wait, .wait, false⟩

/-- The wait of `start_https_server_task`. -/
def serverWait : Wait ServerBit := ⟨{.start}, true, false⟩

/-- The wait of `https_server_monitor`. -/
def monitorWait : Wait ServerBit := ⟨{.start, .error}, true, false⟩

/-- The waits of the tasks that are blocked. -/
def blockedWaits (s : Control) : List (Wait ServerBit) :=
  (if s.server = .blocked then [serverWait] else []) ++
    (if s.monitor = .blocked then [monitorWait] else [])

/-- `xEventGroupSetBits(https_server_events, …)`. A released server starts an
attempt. -/
def setServerBits (s : Control) (bit : ServerBit) : Control :=
  let raised := s.bits ∪ {bit}
  let starts := decide (s.server = .blocked) && serverWait.satisfied raised
  let wakes := decide (s.monitor = .blocked) && monitorWait.satisfied raised
  { s with
    bits := setBits s.bits {bit} (blockedWaits s)
    server := if starts then .attempt else s.server
    monitor := if wakes then .getBits else s.monitor
    requested := if starts then false else s.requested }

/-- The steps: each is one call of a task or of `start_https_server`, with the local
work before it. `stopHttpsServer` only clears `https_server`. -/
inductive ControlAction where
  | serverWait
  | serverStarts
  | serverFails
  | serverEnds
  | monitorWait
  | monitorGetBits
  | monitorRestart
  | startHttpsServer
  | stopHttpsServer
deriving DecidableEq, Repr

/-- The server reports an error and goes back to its wait. -/
def setError (s : Control) : Control :=
  setServerBits { s with server := .wait, requested := true } .error

/-- One step, where it is enabled. -/
def controlStep (s : Control) : ControlAction → Option Control
  | .serverWait =>
      if s.server = .wait then
        match waitBits s.bits Wifi.serverWait with
        | some bits => some { s with bits := bits, server := .attempt, requested := false }
        | none => some { s with server := .blocked }
      else none
  | .serverStarts =>
      if s.server = .attempt then some { s with server := .serving, httpsServer := true }
      else none
  | .serverFails => if s.server = .attempt then some (setError s) else none
  | .serverEnds =>
      if s.server = .serving ∧ s.httpsServer = false then some (setError s) else none
  | .monitorWait =>
      if s.monitor = .wait then
        match waitBits s.bits Wifi.monitorWait with
        | some bits => some { s with bits := bits, monitor := .getBits }
        | none => some { s with monitor := .blocked }
      else none
  | .monitorGetBits =>
      if s.monitor = .getBits then
        if .error ∈ s.bits then some { s with monitor := .restartDelay }
        else some { s with monitor := .wait }
      else none
  | .monitorRestart =>
      if s.monitor = .restartDelay then some (setServerBits { s with monitor := .wait } .start)
      else none
  | .startHttpsServer => some (setServerBits { s with requested := true } .start)
  | .stopHttpsServer => some { s with httpsServer := false }

/-- A restart is pending: a bit is set, or the monitor is in its restart delay. -/
def Control.Pending (s : Control) : Prop :=
  .start ∈ s.bits ∨ .error ∈ s.bits ∨ s.monitor = .restartDelay

/-- Where the server is blocked with a request outstanding, a restart is pending. -/
def RestartPending (s : Control) : Prop :=
  s.server = .blocked → s.requested = true → s.Pending

/-- It is, and it still is if the server waits now. -/
def KeepsRequests (s : Control) : Prop :=
  RestartPending s ∧ ∀ t, controlStep s .serverWait = some t → RestartPending t

/-- The server is at its wait. -/
def Control.AtWait (s : Control) : Prop := s.server = .wait ∨ s.server = .blocked

/-- The steps that lose nothing: the server sets `SERVER_ERROR_BIT` when the monitor is
not blocked in its wait; the monitor's wait finds no bit set while the server is at its
own; and `start_https_server` does not meet a blocked monitor when the server is about
to wait. -/
def Disciplined (s : Control) : ControlAction → Prop
  | .serverFails | .serverEnds => s.monitor ≠ .blocked
  | .monitorWait => s.AtWait → s.bits = ∅
  | .startHttpsServer => s.server = .wait → s.monitor ≠ .blocked
  | _ => True

/-! ### Setting bits -/

section SetBits

variable {s : Control} {bit : ServerBit}

theorem monitorWait_satisfied_iff {flags : Finset ServerBit} :
    Wifi.monitorWait.satisfied flags = true ↔ flags ≠ ∅ := by
  rw [satisfied_any rfl, ← Finset.nonempty_iff_ne_empty]
  constructor
  · rintro ⟨b, _, here⟩
    exact ⟨b, here⟩
  · rintro ⟨b, here⟩
    refine ⟨b, ?_, here⟩
    cases b <;> simp [Wifi.monitorWait]

theorem serverWait_satisfied_iff {flags : Finset ServerBit} :
    Wifi.serverWait.satisfied flags = true ↔ .start ∈ flags := by
  rw [satisfied_any rfl]
  simp [Wifi.serverWait]

theorem raised_ne_empty : s.bits ∪ {bit} ≠ ∅ :=
  Finset.ne_empty_of_mem (Finset.mem_union_right _ (Finset.mem_singleton_self bit))

theorem mem_monitorWait_clears (b : ServerBit) : b ∈ Wifi.monitorWait.clears := by
  cases b <;> simp [Wait.clears, Wifi.monitorWait]

/-- With no task blocked, the bit is set. -/
theorem setServerBits_free (server : s.server ≠ .blocked) (monitor : s.monitor ≠ .blocked) :
    setServerBits s bit = { s with bits := s.bits ∪ {bit} } := by
  simp [setServerBits, blockedWaits, server, monitor]

/-- A blocked monitor is released and clears everything. -/
theorem setServerBits_monitor (server : s.server ≠ .blocked) (monitor : s.monitor = .blocked) :
    setServerBits s bit = { s with bits := ∅, monitor := .getBits } := by
  have woken : Wifi.monitorWait.satisfied (s.bits ∪ {bit}) = true :=
    monitorWait_satisfied_iff.mpr raised_ne_empty
  have cleared : setBits s.bits {bit} [Wifi.monitorWait] = ∅ := by
    apply Finset.eq_empty_of_forall_notMem
    intro b left
    exact (mem_setBits.mp left).2 _ (List.mem_singleton.mpr rfl) woken (mem_monitorWait_clears b)
  have waits : blockedWaits s = [Wifi.monitorWait] := by
    simp [blockedWaits, server, monitor]
  simp only [setServerBits, waits, woken, cleared, monitor, decide_eq_false server, decide_true,
    Bool.and_self, Bool.false_and, Bool.false_eq_true, if_true, if_false]

/-- A blocked server starts an attempt at `SERVER_START_BIT`, and no monitor is left
blocked. -/
theorem setServerBits_server (server : s.server = .blocked) :
    (setServerBits s .start).server = .attempt ∧ (setServerBits s .start).monitor ≠ .blocked := by
  have starts : Wifi.serverWait.satisfied (s.bits ∪ {.start}) = true := by
    simp [serverWait_satisfied_iff]
  have wakes : Wifi.monitorWait.satisfied (s.bits ∪ {.start}) = true :=
    monitorWait_satisfied_iff.mpr raised_ne_empty
  have attempts : (setServerBits s .start).server = .attempt := by
    simp only [setServerBits, server, starts, decide_true, Bool.and_self, if_true]
  refine ⟨attempts, ?_⟩
  by_cases monitor : s.monitor = .blocked
  · have awake : (setServerBits s .start).monitor = .getBits := by
      simp only [setServerBits, monitor, wakes, decide_true, Bool.and_self, if_true]
    intro blocked
    rw [awake] at blocked
    cases blocked
  · have same : (setServerBits s .start).monitor = s.monitor := by
      simp only [setServerBits, decide_eq_false monitor, Bool.false_and, Bool.false_eq_true,
        if_false]
    rw [same]
    exact monitor

end SetBits

/-! ### The invariant -/

/-- What holds in every interleaving. -/
structure Control.Inv (s : Control) : Prop where
  monitorBlocked : s.monitor = .blocked → s.bits = ∅
  idle : s.AtWait → s.requested = false → s.bits = ∅ ∧ s.monitor ≠ .restartDelay

/-- No request is lost: at its wait with a request outstanding, the server has a restart
pending. -/
def NotLost (s : Control) : Prop := s.AtWait → s.requested = true → s.Pending

theorem inv_start : Control.start.Inv :=
  ⟨nofun, fun _ _ => ⟨rfl, nofun⟩⟩

section Steps

variable {s t : Control}

theorem pending_iff : s.Pending ↔ s.bits ≠ ∅ ∨ s.monitor = .restartDelay := by
  have set : s.bits ≠ ∅ ↔ .start ∈ s.bits ∨ .error ∈ s.bits := by
    rw [← Finset.nonempty_iff_ne_empty]
    constructor
    · rintro ⟨b, here⟩
      cases b with
      | start => exact .inl here
      | error => exact .inr here
    · rintro (here | here)
      · exact ⟨_, here⟩
      · exact ⟨_, here⟩
  rw [Control.Pending, set, or_assoc]

theorem pending_of_mem {b : ServerBit} (here : b ∈ s.bits) : s.Pending :=
  pending_iff.mpr (.inl (Finset.ne_empty_of_mem here))

theorem not_atWait_of_attempt (h : s.server = .attempt) : ¬ s.AtWait := by
  simp [Control.AtWait, h]

theorem not_atWait_of_serving (h : s.server = .serving) : ¬ s.AtWait := by
  simp [Control.AtWait, h]

/-! ### Inversion of the waits -/

theorem serverWait_iff :
    controlStep s .serverWait = some t ↔ s.server = .wait ∧
      ((.start ∈ s.bits ∧
          t = { s with bits := s.bits \ {.start}, server := .attempt, requested := false }) ∨
        (.start ∉ s.bits ∧ t = { s with server := .blocked })) := by
  rw [controlStep]
  by_cases here : s.server = .wait
  · rw [if_pos here]
    by_cases started : .start ∈ s.bits
    · have taken : waitBits s.bits Wifi.serverWait = some (s.bits \ {.start}) :=
        waitBits_eq_some_iff.mpr ⟨serverWait_satisfied_iff.mpr started, rfl⟩
      simp [taken, here, started, eq_comm]
    · have blocks : waitBits s.bits Wifi.serverWait = none := by
        rw [waitBits_eq_none_iff, ← Bool.not_eq_true, serverWait_satisfied_iff]
        exact started
      simp [blocks, here, started, eq_comm]
  · simp [here]

theorem monitorWait_iff :
    controlStep s .monitorWait = some t ↔ s.monitor = .wait ∧
      ((s.bits ≠ ∅ ∧ t = { s with bits := ∅, monitor := .getBits }) ∨
        (s.bits = ∅ ∧ t = { s with monitor := .blocked })) := by
  rw [controlStep]
  by_cases here : s.monitor = .wait
  · rw [if_pos here]
    by_cases quiet : s.bits = ∅
    · have blocks : waitBits s.bits Wifi.monitorWait = none := by
        rw [waitBits_eq_none_iff, ← Bool.not_eq_true, monitorWait_satisfied_iff]
        exact not_not_intro quiet
      rw [blocks]
      simp [here, quiet, eq_comm]
    · have taken : waitBits s.bits Wifi.monitorWait = some ∅ := by
        refine waitBits_eq_some_iff.mpr ⟨monitorWait_satisfied_iff.mpr quiet, ?_⟩
        refine (Finset.sdiff_eq_empty_iff_subset.mpr ?_).symm
        intro b _
        exact mem_monitorWait_clears b
      simp [taken, here, quiet, eq_comm]
  · simp [here]

/-- A server that keeps its requests is one that has not lost any. -/
theorem keepsRequests_iff : KeepsRequests s ↔ NotLost s := by
  constructor
  · rintro ⟨now, later⟩ (waits | blocked) requested
    · by_cases started : .start ∈ s.bits
      · exact pending_of_mem started
      · have blocks : RestartPending { s with server := .blocked } :=
          later _ (serverWait_iff.mpr ⟨waits, .inr ⟨started, rfl⟩⟩)
        exact blocks rfl requested
    · exact now blocked requested
  · intro kept
    refine ⟨fun blocked => kept (.inr blocked), ?_⟩
    intro t enabled blocked requested
    obtain ⟨waits, ⟨_, rfl⟩ | ⟨_, rfl⟩⟩ := serverWait_iff.mp enabled
    · cases blocked
    · exact kept (.inl waits) requested

/-! ### One step -/

/-- Away from its wait, the server has lost nothing. -/
theorem notLost_of_not_atWait (h : ¬ s.AtWait) : NotLost s := fun waits => absurd waits h

theorem setError_free (monitor : s.monitor ≠ .blocked) :
    setError s = { s with bits := s.bits ∪ {.error}, server := .wait, requested := true } :=
  setServerBits_free (s := { s with server := .wait, requested := true }) nofun monitor

theorem setError_monitor (monitor : s.monitor = .blocked) :
    setError s =
      { s with bits := ∅, server := .wait, monitor := .getBits, requested := true } :=
  setServerBits_monitor (s := { s with server := .wait, requested := true }) nofun monitor

/-- A monitor that is blocked consumes the error the server sets. -/
theorem setError_step : (setError s).Inv ∧ (s.monitor ≠ .blocked ↔ NotLost (setError s)) := by
  by_cases monitor : s.monitor = .blocked
  · rw [setError_monitor monitor]
    refine ⟨⟨nofun, fun _ => nofun⟩, iff_of_false (not_not_intro monitor) ?_⟩
    intro kept
    have pending := pending_iff.mp (kept (.inl rfl) rfl)
    simp at pending
  · rw [setError_free monitor]
    refine ⟨⟨fun blocked => absurd blocked monitor, fun _ => nofun⟩, iff_of_true monitor ?_⟩
    intro _ _
    exact pending_of_mem (Finset.mem_union_right _ (Finset.mem_singleton_self _))

/-- A server at its wait that is set `SERVER_START_BIT` while it is blocked starts an
attempt. -/
theorem setStart_blocked (server : s.server = .blocked) :
    (setServerBits s .start).Inv ∧ NotLost (setServerBits s .start) := by
  obtain ⟨attempts, awake⟩ := setServerBits_server server
  have away := not_atWait_of_attempt attempts
  exact ⟨⟨fun blocked => absurd blocked awake, fun waits => absurd waits away⟩,
    notLost_of_not_atWait away⟩

/-- What a step owes: the invariant, and no loss exactly when it is disciplined. -/
def StepKeeps (s : Control) (a : ControlAction) (t : Control) : Prop :=
  t.Inv ∧ (Disciplined s a ↔ NotLost t)

theorem step_serverWait (inv : s.Inv) (kept : NotLost s)
    (enabled : controlStep s .serverWait = some t) : StepKeeps s .serverWait t := by
  obtain ⟨waits, ⟨started, rfl⟩ | ⟨_, rfl⟩⟩ := serverWait_iff.mp enabled
  · refine ⟨⟨?_, fun waits => absurd waits (not_atWait_of_attempt rfl)⟩,
      iff_of_true trivial (notLost_of_not_atWait (not_atWait_of_attempt rfl))⟩
    intro blocked
    exact absurd (inv.monitorBlocked blocked) (Finset.ne_empty_of_mem started)
  · refine ⟨⟨inv.monitorBlocked, fun _ => inv.idle (.inl waits)⟩, iff_of_true trivial ?_⟩
    intro _ requested
    exact kept (.inl waits) requested

theorem step_monitorWait (inv : s.Inv) (kept : NotLost s)
    (enabled : controlStep s .monitorWait = some t) : StepKeeps s .monitorWait t := by
  obtain ⟨waits, ⟨set, rfl⟩ | ⟨quiet, rfl⟩⟩ := monitorWait_iff.mp enabled
  · -- The monitor takes the bits: what the server was about to see is gone.
    refine ⟨⟨nofun, fun _ _ => ⟨rfl, nofun⟩⟩, ?_⟩
    constructor
    · intro disciplined atWait
      exact absurd (disciplined atWait) set
    · intro lost atWait
      cases requested : s.requested with
      | false => exact (inv.idle atWait requested).1
      | true =>
          have pending := pending_iff.mp (lost atWait requested)
          simp at pending
  · refine ⟨⟨fun _ => quiet, fun atWait requested => ⟨quiet, nofun⟩⟩,
      iff_of_true (fun _ => quiet) ?_⟩
    intro atWait requested
    have pending := pending_iff.mp (kept atWait requested)
    simp [quiet, waits] at pending

theorem step_monitorGetBits (inv : s.Inv) (kept : NotLost s)
    (enabled : controlStep s .monitorGetBits = some t) : StepKeeps s .monitorGetBits t := by
  by_cases here : s.monitor = .getBits
  · by_cases error : .error ∈ s.bits
    · simp only [controlStep, here, error, if_true, Option.some.injEq] at enabled
      subst enabled
      refine ⟨⟨nofun, ?_⟩, iff_of_true trivial fun _ _ => .inr (.inr rfl)⟩
      intro atWait requested
      exact absurd (inv.idle atWait requested).1 (Finset.ne_empty_of_mem error)
    · simp only [controlStep, here, error, if_true, if_false, Option.some.injEq] at enabled
      subst enabled
      refine ⟨⟨nofun, fun atWait requested => ⟨(inv.idle atWait requested).1, nofun⟩⟩,
        iff_of_true trivial ?_⟩
      intro atWait requested
      have pending := pending_iff.mp (kept atWait requested)
      exact pending_iff.mpr (.inl (by simpa [here] using pending))
  · simp [controlStep, here] at enabled

theorem step_monitorRestart (inv : s.Inv)
    (enabled : controlStep s .monitorRestart = some t) : StepKeeps s .monitorRestart t := by
  simp only [controlStep, Option.ite_none_right_eq_some, Option.some.injEq] at enabled
  obtain ⟨delayed, rfl⟩ := enabled
  by_cases server : s.server = .blocked
  · obtain ⟨next, still⟩ := setStart_blocked (s := { s with monitor := .wait }) server
    exact ⟨next, iff_of_true trivial still⟩
  · rw [setServerBits_free (s := { s with monitor := .wait }) server nofun]
    refine ⟨⟨nofun, ?_⟩, iff_of_true trivial ?_⟩
    · intro atWait requested
      exact absurd delayed (inv.idle atWait requested).2
    · intro _ _
      exact pending_of_mem (Finset.mem_union_right _ (Finset.mem_singleton_self _))

theorem step_startHttpsServer (enabled : controlStep s .startHttpsServer = some t) :
    StepKeeps s .startHttpsServer t := by
  simp only [controlStep, Option.some.injEq] at enabled
  subst enabled
  by_cases server : s.server = .blocked
  · obtain ⟨next, still⟩ := setStart_blocked (s := { s with requested := true }) server
    refine ⟨next, iff_of_true ?_ still⟩
    intro waits
    rw [server] at waits
    cases waits
  · by_cases monitor : s.monitor = .blocked
    · rw [setServerBits_monitor (s := { s with requested := true }) server monitor]
      refine ⟨⟨nofun, fun _ => nofun⟩, ?_⟩
      constructor
      · intro disciplined atWait _
        rcases atWait with waits | blocked
        · exact absurd monitor (disciplined waits)
        · exact absurd blocked server
      · intro lost waits _
        have pending := pending_iff.mp (lost (.inl waits) rfl)
        simp at pending
    · rw [setServerBits_free (s := { s with requested := true }) server monitor]
      refine ⟨⟨fun blocked => absurd blocked monitor, fun _ => nofun⟩,
        iff_of_true (fun _ => monitor) ?_⟩
      intro _ _
      exact pending_of_mem (Finset.mem_union_right _ (Finset.mem_singleton_self _))

/-- **One step** keeps the invariant, and loses no request exactly when it is
disciplined. -/
theorem control_step (s : Control) (a : ControlAction) (t : Control) (inv : s.Inv)
    (kept : NotLost s) (enabled : controlStep s a = some t) : StepKeeps s a t := by
  cases a with
  | serverWait => exact step_serverWait inv kept enabled
  | serverStarts =>
      simp only [controlStep, Option.ite_none_right_eq_some, Option.some.injEq] at enabled
      obtain ⟨_, rfl⟩ := enabled
      exact ⟨⟨inv.monitorBlocked, fun waits => absurd waits (not_atWait_of_serving rfl)⟩,
        iff_of_true trivial (notLost_of_not_atWait (not_atWait_of_serving rfl))⟩
  | serverFails =>
      simp only [controlStep, Option.ite_none_right_eq_some, Option.some.injEq] at enabled
      obtain ⟨_, rfl⟩ := enabled
      exact setError_step
  | serverEnds =>
      simp only [controlStep, Option.ite_none_right_eq_some, Option.some.injEq] at enabled
      obtain ⟨_, rfl⟩ := enabled
      exact setError_step
  | monitorWait => exact step_monitorWait inv kept enabled
  | monitorGetBits => exact step_monitorGetBits inv kept enabled
  | monitorRestart => exact step_monitorRestart inv enabled
  | startHttpsServer => exact step_startHttpsServer enabled
  | stopHttpsServer =>
      simp only [controlStep, Option.some.injEq] at enabled
      subst enabled
      exact ⟨⟨inv.monitorBlocked, inv.idle⟩, iff_of_true trivial kept⟩

end Steps

/-! ### Every interleaving -/

/-- **No control request is lost.** In every interleaving, wherever the server is blocked
with a request outstanding, or would be if it waited now, a restart is pending, exactly
when every step is disciplined. -/
theorem requests_kept_iff (actions : List ControlAction) :
    AllSteps controlStep Disciplined Control.start actions ↔
      AllStates controlStep KeepsRequests Control.start actions := by
  have kept_start : KeepsRequests Control.start :=
    keepsRequests_iff.mpr fun _ => nofun
  refine allSteps_iff_allStates (I := Control.Inv) ?_ inv_start kept_start actions
  intro s a t inv kept enabled
  obtain ⟨next, same⟩ := control_step s a t inv (keepsRequests_iff.mp kept) enabled
  exact ⟨next, same.trans keepsRequests_iff.symm⟩

/-- The first start attempt fails while the monitor waits: the monitor is woken by the
error and clears it, and no restart follows. -/
theorem error_is_lost :
    ¬ ∀ actions, AllStates controlStep RestartPending Control.start actions := by
  intro pending
  have ends : run controlStep Control.start
      [.serverWait, .monitorWait, .startHttpsServer, .monitorGetBits, .monitorWait, .serverFails,
        .serverWait] = some ⟨∅, false, .blocked, .getBits, true⟩ := by
    decide
  have lost := (pending _).of_run ends
  have restart := pending_iff.mp (lost rfl rfl)
  simp at restart

end SmartScale.Wifi
