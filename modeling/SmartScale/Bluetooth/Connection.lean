import SmartScale.Base.Schedule
import SmartScale.Bluetooth.CommGatt

/-!
Advertising and connections (`bluetooth/bluetooth.c`,
`bluetooth_comm_gatt/bluetooth_comm_gatt.c`), on the host's side and on the
application's.

The host tells of a connection through the callback given when advertising was
started. Both calls of `ble_gap_adv_start` give `NULL`, so that `ble_gap_event` is
never called.

* `tracked_iff`: the state is tracked as long as nobody tries to connect.
* `no_notification`: no notification is ever sent.
* `bleGapEvent_disconnect`: if it were called, `ble_gap_event` would restart advertising
  in a mode that admits no connection.
-/

namespace SmartScale.Bluetooth

open SmartScale.Schedule

/-- `BLE_GAP_CONN_MODE_NON`, `_DIR` and `_UND`: 0, 1 and 2 -/
inductive ConnMode where
  | non
  | dir
  | und
deriving DecidableEq, Repr

/-- `BLE_GAP_DISC_MODE_NON`, `_LTD` and `_GEN`: 0, 1 and 2 -/
inductive DiscMode where
  | non
  | ltd
  | gen
deriving DecidableEq, Repr

/-- `struct ble_gap_adv_params`, the fields that are set. -/
structure AdvParams where
  connMode : ConnMode
  discMode : DiscMode
deriving DecidableEq, Repr

/-- `= {0}` -/
def AdvParams.zero : AdvParams := ⟨.non, .non⟩

/-- The callbacks the program has for GAP events. -/
inductive GapCallback where
  | bleGapEvent
deriving DecidableEq, Repr

/-- A client, and the callback of the advertising it answered. -/
structure Connection where
  connHandle : UInt16
  callback : Option GapCallback
deriving DecidableEq, Repr

/-- Advertising: its parameters, and the callback for its events. -/
structure Advertising where
  params : AdvParams
  callback : Option GapCallback
deriving DecidableEq, Repr

/-- The application's globals and the host's state. -/
structure Ble where
  gatt : CommGatt
  advertising : Option Advertising
  connections : List Connection

/-- `struct ble_gap_event`. -/
inductive GapEvent where
  | connect (status : Nat) (connHandle : UInt16)
  | disconnect (connHandle : UInt16)
  | other
deriving DecidableEq, Repr

/-- `BLE_HS_EALREADY` -/
def bleHsEAlready : Nat := 2

/-- `ble_gap_adv_start`, which is refused while advertising: the state and the code
returned. -/
def bleGapAdvStart (s : Ble) (params : AdvParams) (callback : Option GapCallback) : Ble × Nat :=
  match s.advertising with
  | some _ => (s, bleHsEAlready)
  | none => ({ s with advertising := some ⟨params, callback⟩ }, 0)

def bleAppOnSync (s : Ble) : Ble := (bleGapAdvStart s ⟨.und, .gen⟩ none).1

def bleGapEvent (s : Ble) : GapEvent → Ble
  | .connect status connHandle =>
      if status = 0 then { s with gatt.currentConnHandle := connHandle } else s
  | .disconnect _ =>
      (bleGapAdvStart { s with gatt.currentConnHandle := connHandleNone } .zero none).1
  | .other => s

/-- The host delivers an event to a callback. -/
def deliver (s : Ble) (event : GapEvent) : Option GapCallback → Ble
  | some .bleGapEvent => bleGapEvent s event
  | none => s

/-- The advertising that a client can answer. -/
def Ble.connectable (s : Ble) : Option Advertising :=
  s.advertising.filter fun adv => adv.params.connMode ≠ .non

/-- A synchronisation of the host, a connection attempt that succeeds under a new handle
or that fails, and the end of a connection. -/
inductive BleAction where
  | sync
  | connects (connHandle : UInt16)
  | failsToConnect (status : Nat)
  | disconnects (connHandle : UInt16)
deriving DecidableEq, Repr

/-- One step, where it is enabled. A connection attempt ends advertising. -/
def bleStep (s : Ble) : BleAction → Option Ble
  | .sync => some (bleAppOnSync s)
  | .connects connHandle =>
      match s.connectable with
      | some adv =>
          if connHandle ≠ connHandleNone ∧ connHandle ∉ s.connections.map Connection.connHandle then
            some (deliver { s with
              advertising := none
              connections := ⟨connHandle, adv.callback⟩ :: s.connections }
              (.connect 0 connHandle) adv.callback)
          else none
      | none => none
  | .failsToConnect status =>
      match s.connectable with
      | some adv =>
          if status ≠ 0 then
            some (deliver { s with advertising := none } (.connect status connHandleNone)
              adv.callback)
          else none
      | none => none
  | .disconnects connHandle =>
      match s.connections.find? fun c => c.connHandle = connHandle with
      | some c =>
          some (deliver { s with connections := s.connections.erase c } (.disconnect connHandle)
            c.callback)
      | none => none

/-- After `ble_app_on_sync`. -/
def Ble.start (past : Nat → UInt8) : Ble := bleAppOnSync ⟨.start past, none, []⟩

/-- A client is connected and `current_conn_handle` is its handle, or none is and the
device can be connected to. -/
def Tracked (s : Ble) : Prop :=
  (∃ c ∈ s.connections, s.gatt.currentConnHandle = c.connHandle) ∨
    (s.connections = [] ∧ s.gatt.currentConnHandle = connHandleNone ∧
      s.connectable.isSome = true)

/-- The steps that are no connection attempt. -/
def NoAttempt (_ : Ble) : BleAction → Prop
  | .connects _ | .failsToConnect _ => False
  | .sync | .disconnects _ => True

/-! ### No callback is ever given -/

/-- What holds in every run: nobody hears of connections. -/
structure Ble.Deaf (s : Ble) : Prop where
  handle : s.gatt.currentConnHandle = connHandleNone
  advertising : ∀ adv ∈ s.advertising, adv.callback = none
  connections : ∀ c ∈ s.connections, c.callback = none ∧ c.connHandle ≠ connHandleNone

section Steps

variable {s t : Ble}

theorem connectable_eq_some_iff {adv : Advertising} :
    s.connectable = some adv ↔ s.advertising = some adv ∧ adv.params.connMode ≠ .non := by
  rw [Ble.connectable, Option.filter_eq_some_iff, decide_eq_true_eq]

theorem bleAppOnSync_cases :
    (s.advertising = none ∧
        bleAppOnSync s = { s with advertising := some ⟨⟨.und, .gen⟩, none⟩ }) ∨
      ((∃ adv, s.advertising = some adv) ∧ bleAppOnSync s = s) := by
  cases now : s.advertising with
  | none => exact .inl ⟨rfl, by simp only [bleAppOnSync, bleGapAdvStart, now]⟩
  | some adv => exact .inr ⟨⟨adv, rfl⟩, by simp only [bleAppOnSync, bleGapAdvStart, now]⟩

/-- What a step does when nobody hears of it. -/
theorem bleStep_cases (deaf : s.Deaf) {a : BleAction} (enabled : bleStep s a = some t) :
    (a = .sync ∧ t = bleAppOnSync s) ∨
      (∃ connHandle, a = .connects connHandle ∧ connHandle ≠ connHandleNone ∧
        t = { s with advertising := none, connections := ⟨connHandle, none⟩ :: s.connections }) ∨
      (∃ status, a = .failsToConnect status ∧ t = { s with advertising := none }) ∨
      (∃ connHandle, ∃ c ∈ s.connections, a = .disconnects connHandle ∧
        t = { s with connections := s.connections.erase c }) := by
  cases a with
  | sync => exact .inl ⟨rfl, (Option.some.inj enabled).symm⟩
  | connects connHandle =>
      cases answered : s.connectable with
      | none => simp [bleStep, answered] at enabled
      | some adv =>
          have silent := deaf.advertising adv (connectable_eq_some_iff.mp answered).1
          simp only [bleStep, answered, silent, deliver, Option.ite_none_right_eq_some,
            Option.some.injEq] at enabled
          exact .inr (.inl ⟨connHandle, rfl, enabled.1.1, enabled.2.symm⟩)
  | failsToConnect status =>
      cases answered : s.connectable with
      | none => simp [bleStep, answered] at enabled
      | some adv =>
          have silent := deaf.advertising adv (connectable_eq_some_iff.mp answered).1
          simp only [bleStep, answered, silent, deliver, Option.ite_none_right_eq_some,
            Option.some.injEq] at enabled
          exact .inr (.inr (.inl ⟨status, rfl, enabled.2.symm⟩))
  | disconnects connHandle =>
      cases found : s.connections.find? fun c => c.connHandle = connHandle with
      | none => simp [bleStep, found] at enabled
      | some c =>
          have here := List.mem_of_find?_eq_some found
          have silent := (deaf.connections c here).1
          simp only [bleStep, found, silent, deliver, Option.some.injEq] at enabled
          exact .inr (.inr (.inr ⟨connHandle, c, here, rfl, enabled.symm⟩))

theorem deaf_start (past : Nat → UInt8) : (Ble.start past).Deaf where
  handle := rfl
  advertising adv here := by
    cases here
    rfl
  connections c here := by cases here

theorem deaf_step (a : BleAction) (deaf : s.Deaf) (enabled : bleStep s a = some t) : t.Deaf := by
  rcases bleStep_cases deaf enabled with
    ⟨_, rfl⟩ | ⟨connHandle, _, valid, rfl⟩ | ⟨_, _, rfl⟩ | ⟨_, c, _, _, rfl⟩
  · rcases bleAppOnSync_cases (s := s) with ⟨_, same⟩ | ⟨_, same⟩
    · rw [same]
      refine ⟨deaf.handle, ?_, deaf.connections⟩
      intro adv here
      cases here
      rfl
    · rw [same]
      exact deaf
  · exact ⟨deaf.handle, by simp, List.forall_mem_cons.mpr ⟨⟨rfl, valid⟩, deaf.connections⟩⟩
  · exact ⟨deaf.handle, by simp, deaf.connections⟩
  · exact ⟨deaf.handle, deaf.advertising, fun d hd => deaf.connections d (List.mem_of_mem_erase hd)⟩

/-- Deaf, the state is tracked only without clients. -/
theorem tracked_iff_of_deaf (deaf : s.Deaf) :
    Tracked s ↔ s.connections = [] ∧ s.connectable.isSome = true := by
  constructor
  · rintro (⟨c, here, same⟩ | ⟨none, _, open_⟩)
    · exact absurd (same.symm.trans deaf.handle) (deaf.connections c here).2
    · exact ⟨none, open_⟩
  · rintro ⟨none, open_⟩
    exact .inr ⟨none, deaf.handle, open_⟩

/-- **One step** leaves the state tracked exactly when it is no connection attempt. -/
theorem tracked_step (s : Ble) (a : BleAction) (t : Ble) (deaf : s.Deaf) (tracked : Tracked s)
    (enabled : bleStep s a = some t) : t.Deaf ∧ (NoAttempt s a ↔ Tracked t) := by
  have next := deaf_step a deaf enabled
  refine ⟨next, ?_⟩
  obtain ⟨alone, open_⟩ := (tracked_iff_of_deaf deaf).mp tracked
  rw [tracked_iff_of_deaf next]
  rcases bleStep_cases deaf enabled with
    ⟨rfl, rfl⟩ | ⟨connHandle, rfl, _, rfl⟩ | ⟨status, rfl, rfl⟩ | ⟨_, c, here, _, _⟩
  · rcases bleAppOnSync_cases (s := s) with ⟨_, same⟩ | ⟨_, same⟩
    · rw [same]
      exact iff_of_true trivial ⟨alone, rfl⟩
    · rw [same]
      exact iff_of_true trivial ⟨alone, open_⟩
  · exact iff_of_false id (by simp)
  · exact iff_of_false id (by simp [Ble.connectable])
  · rw [alone] at here
    cases here

end Steps

/-! ### Every run -/

/-- **The connection state is tracked** in every state of a run exactly when the run has
no connection attempt. -/
theorem tracked_iff (past : Nat → UInt8) (actions : List BleAction) :
    AllSteps bleStep NoAttempt (Ble.start past) actions ↔
      AllStates bleStep Tracked (Ble.start past) actions := by
  have deaf := deaf_start past
  have tracked : Tracked (Ble.start past) := (tracked_iff_of_deaf deaf).mpr ⟨rfl, rfl⟩
  exact allSteps_iff_allStates tracked_step deaf tracked actions

/-- No notification is sent in any run: `current_conn_handle` stays
`BLE_HS_CONN_HANDLE_NONE`. -/
theorem no_notification (past : Nat → UInt8) (data : List UInt8) (allocated : Bool)
    (actions : List BleAction) :
    AllStates bleStep (fun s => ∀ call, customSendNotification s.gatt data allocated ≠ .notify call)
      (Ble.start past) actions := by
  have silent (s : Ble) (deaf : s.Deaf) (call : Notify) :
      customSendNotification s.gatt data allocated ≠ .notify call := by
    rw [customSendNotification, deaf.handle]
    split <;> simp
  exact (allStates_of_invariant (fun s a t deaf enabled => deaf_step a deaf enabled)
    (deaf_start past) actions).mono silent

/-- If `ble_gap_event` were told of the end of the only connection, advertising would
restart so that nobody can connect. -/
theorem bleGapEvent_disconnect {s : Ble} {connHandle : UInt16} (alone : s.connections = [])
    (quiet : s.advertising = none) : ¬ Tracked (bleGapEvent s (.disconnect connHandle)) := by
  have after : bleGapEvent s (.disconnect connHandle) =
      { s with
        gatt.currentConnHandle := connHandleNone
        advertising := some ⟨.zero, none⟩ } := by
    simp only [bleGapEvent, bleGapAdvStart, quiet]
  rw [after]
  rintro (⟨c, here, _⟩ | ⟨_, _, open_⟩)
  · rw [alone] at here
    cases here
  · cases open_

/-- A client connects, and `current_conn_handle` is still `BLE_HS_CONN_HANDLE_NONE`. -/
theorem client_is_not_tracked :
    ¬ ∀ (past : Nat → UInt8) (actions : List BleAction),
      AllStates bleStep Tracked (Ble.start past) actions := by
  intro tracked
  have states := tracked (fun _ => 0) [.connects 1]
  have last := states.of_run rfl
  rcases last with ⟨c, here, same⟩ | ⟨alone, _⟩
  · rw [List.mem_singleton.mp here] at same
    exact absurd same (by decide)
  · cases alone

end SmartScale.Bluetooth
