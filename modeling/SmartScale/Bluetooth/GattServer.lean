import SmartScale.Bluetooth.Characteristic
import SmartScale.Bluetooth.Connection

/-!
The GATT server as a whole: clients that come and go, their accesses to the characteristic, and
the application, which sends notifications and switches them on and off.

`Service` is what a client can tell of it: one register, which all clients share and which
outlasts them, and no notification to anyone. `server_refines_iff`: on writes that fit the buffer,
and on no others, every run answers like that.
-/

namespace SmartScale.Bluetooth

open SmartScale.Transducer

/-! ### The server -/

/-- What the host, a client or the application does. -/
inductive ServerAction where
  | host (a : BleAction)
  | access (connHandle : UInt16) (access : Access)
  | setNotificationsEnabled (enabled : Bool)
  | sendNotification (data : List UInt8) (allocated : Bool)
deriving DecidableEq, Repr

/-- What comes of it: the response of `custom_access_cb`, or what `custom_send_notification` did. -/
inductive ServerOutput where
  | nothing
  | response (r : Response)
  | sent (s : Sent)
deriving DecidableEq, Repr

/-- `set_notifications_enabled` -/
def setNotificationsEnabled (g : CommGatt) (enabled : Bool) : CommGatt :=
  { g with enableNotifications := enabled }

/-- One step, where it is enabled: an access is that of a client. -/
def serverStep (s : Ble) : ServerAction → Option (Ble × ServerOutput)
  | .host a => (bleStep s a).map fun t => (t, .nothing)
  | .access connHandle access =>
      if connHandle ∈ s.connections.map Connection.connHandle then
        some ({ s with gatt := (customAccessCb s.gatt access).1 },
          .response (customAccessCb s.gatt access).2)
      else none
  | .setNotificationsEnabled enabled =>
      some ({ s with gatt := setNotificationsEnabled s.gatt enabled }, .nothing)
  | .sendNotification data allocated =>
      some (s, .sent (customSendNotification s.gatt data allocated))

/-! ### What it is to its clients -/

/-- A register for all of them, and the switch for the notifications. -/
structure Service where
  stored : List UInt8
  enabled : Bool

/-- `.answer none` is an access rejected. -/
inductive ServiceOutput where
  | nothing
  | answer (bytes : Option (List UInt8))
  | sent (s : Sent)

/-- Who is connected makes no difference, and no notification is sent. -/
def serviceStep (s : Service) : ServerAction → Service × ServiceOutput
  | .host _ => (s, .nothing)
  | .access _ access =>
      ({ s with stored := (registerAccess s.stored access).1 },
        .answer (registerAccess s.stored access).2)
  | .setNotificationsEnabled enabled => ({ s with enabled := enabled }, .nothing)
  | .sendNotification _ _ => (s, .sent (if s.enabled then .failed else .skipped))

/-- What the server does is what the service says. -/
def ServerOutput.Shows : ServerOutput → ServiceOutput → Prop
  | .nothing, .nothing => True
  | .response r, .answer bytes => r.Answers bytes ∧ ∀ call, r.notification ≠ .notify call
  | .sent s, .sent s' => s = s'
  | _, _ => False

/-- An access of the action fits the buffer. -/
def ServerAction.Fits : ServerAction → Prop
  | .access _ request => request.Fits
  | _ => True

/-- The server nobody tells of connections, with what the register stores. -/
structure Ble.Serves (past : Nat → UInt8) (s : Ble) (service : Service) : Prop where
  deaf : s.Deaf
  holds : s.gatt.Holds past service.stored
  enabled : s.gatt.enableNotifications = service.enabled

section Steps

variable {past : Nat → UInt8} {s : Ble} {service : Service}

theorem serves_start : (Ble.start past).Serves past ⟨[], true⟩ where
  deaf := deaf_start past
  holds := holds_start
  enabled := rfl

/-- What `custom_send_notification` does while it knows of no client. -/
theorem customSendNotification_deaf {g : CommGatt} (deaf : g.currentConnHandle = connHandleNone)
    (data : List UInt8) (allocated : Bool) :
    customSendNotification g data allocated =
      if g.enableNotifications then .failed else .skipped := by
  rw [customSendNotification, if_pos deaf]
  cases g.enableNotifications <;> rfl

theorem customAccessCb_currentConnHandle (g : CommGatt) (access : Access) :
    (customAccessCb g access).1.currentConnHandle = g.currentConnHandle ∧
      (customAccessCb g access).1.enableNotifications = g.enableNotifications := by
  cases access <;> exact ⟨rfl, rfl⟩

/-- No access makes a notification. -/
theorem customAccessCb_silent {g : CommGatt} (deaf : g.currentConnHandle = connHandleNone)
    (access : Access) (call : Notify) :
    (customAccessCb g access).2.notification ≠ .notify call := by
  cases access with
  | readChr => simp [customAccessCb]
  | other => simp [customAccessCb]
  | writeChr packet allocated =>
      simp only [customAccessCb]
      rw [customSendNotification_deaf]
      · split_ifs <;> simp
      · exact deaf

/-- The host's steps do not touch the characteristic. -/
theorem bleStep_gatt (deaf : s.Deaf) {a : BleAction} {t : Ble} (enabled : bleStep s a = some t) :
    t.gatt = s.gatt := by
  rcases bleStep_cases deaf enabled with
    ⟨-, rfl⟩ | ⟨_, -, -, rfl⟩ | ⟨_, -, rfl⟩ | ⟨_, _, -, -, rfl⟩
  · rcases bleAppOnSync_cases (s := s) with ⟨-, same⟩ | ⟨-, same⟩
    · rw [same]
    · rw [same]
  · rfl
  · rfl
  · rfl

/-- **Step lemma.** -/
theorem serverStep_shows {action : ServerAction} (fits : action.Fits) (h : s.Serves past service)
    {next : Ble × ServerOutput} (taken : serverStep s action = some next) :
    next.1.Serves past (serviceStep service action).1 ∧
      next.2.Shows (serviceStep service action).2 := by
  cases action with
  | host a =>
      obtain ⟨t, enabled, rfl⟩ := Option.map_eq_some_iff.mp taken
      have same := bleStep_gatt h.deaf enabled
      refine ⟨⟨deaf_step a h.deaf enabled, ?_, ?_⟩, trivial⟩
      · rw [same]
        exact h.holds
      · rw [same]
        exact h.enabled
  | access connHandle access =>
      obtain ⟨-, stepped⟩ := Option.ite_none_right_eq_some.mp taken
      obtain rfl := Option.some.inj stepped
      obtain ⟨handle, switch⟩ := customAccessCb_currentConnHandle s.gatt access
      obtain ⟨holds, answers⟩ := characteristic_step fits h.holds
      exact ⟨⟨⟨handle.trans h.deaf.handle, h.deaf.advertising, h.deaf.connections⟩, holds,
        switch.trans h.enabled⟩, answers, customAccessCb_silent h.deaf.handle access⟩
  | setNotificationsEnabled enabled =>
      obtain rfl := Option.some.inj taken
      exact ⟨⟨⟨h.deaf.handle, h.deaf.advertising, h.deaf.connections⟩,
        ⟨⟨h.holds.len, h.holds.untouched⟩, h.holds.bytes⟩, rfl⟩, trivial⟩
  | sendNotification data allocated =>
      obtain rfl := Option.some.inj taken
      refine ⟨h, ?_⟩
      show customSendNotification s.gatt data allocated = _
      rw [customSendNotification_deaf h.deaf.handle, h.enabled]

/-- A write that does not fit is accepted, in whatever state, and the register rejects it. -/
theorem fits_of_shows {action : ServerAction} {next : Ble × ServerOutput}
    (taken : serverStep s action = some next)
    (matching : next.2.Shows (serviceStep service action).2) : action.Fits := by
  cases action with
  | access connHandle access =>
      obtain ⟨-, stepped⟩ := Option.ite_none_right_eq_some.mp taken
      obtain rfl := Option.some.inj stepped
      cases access with
      | writeChr packet allocated =>
          by_contra long
          have rejected : registerAccess service.stored (.writeChr packet allocated) =
              (service.stored, none) := if_neg long
          have answers := matching.1
          rw [rejected] at answers
          exact answers rfl
      | readChr => trivial
      | other => trivial
  | host a => trivial
  | setNotificationsEnabled enabled => trivial
  | sendNotification data allocated => trivial

end Steps

/-! ### Every run -/

/-- **The server is a shared register**, in exactly the runs whose writes fit the buffer: who is
connected makes no difference to the answers, what a client wrote is read by those after it, and
no notification is sent, enabled or not. -/
theorem server_refines_iff (past : Nat → UInt8) {actions : List ServerAction} {t : Ble}
    {os : List ServerOutput}
    (ran : faultingRun serverStep (Ble.start past) actions = some (t, os)) :
    List.Forall₂ ServerOutput.Shows os (outputs serviceStep ⟨[], true⟩ actions) ↔
      ∀ action ∈ actions, action.Fits := by
  constructor
  · exact forall_of_faultingRun (fun _ _ _ _ taken matching => fits_of_shows taken matching) ran
  · intro fits
    exact (faultingRun_simulation (R := Ble.Serves past)
      (fun _ _ action here h _ taken => serverStep_shows (fits action here) h taken)
      serves_start ran).2

/-- A client reads what the one before it wrote. -/
theorem server_refines_iff_two_clients :
    let actions : List ServerAction :=
      [.host (.connects 1), .access 1 (.writeChr [7, 8] true), .host (.disconnects 1), .host .sync,
        .host (.connects 2), .access 2 .readChr, .sendNotification [9] true]
    ∃ t os, faultingRun serverStep (Ble.start fun _ => 0) actions = some (t, os) ∧
      List.Forall₂ ServerOutput.Shows os (outputs serviceStep ⟨[], true⟩ actions) := by
  intro actions
  have enabled : (faultingRun serverStep (Ble.start fun _ => 0) actions).isSome = true := by
    decide +kernel
  obtain ⟨⟨t, os⟩, ran⟩ := Option.isSome_iff_exists.mp enabled
  refine ⟨t, os, ran, (server_refines_iff (fun _ => 0) ran).mpr ?_⟩
  simp [actions, ServerAction.Fits, Access.Fits, sizeofReceivedData]

end SmartScale.Bluetooth
