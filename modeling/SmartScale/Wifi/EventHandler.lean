import SmartScale.Base.EventGroup
import SmartScale.Base.History

/-!
`wifi_event_handler` and `wifi_is_connected` (`wifi/wifi_comm.c`).

`wifi_is_connected` is documented to be true once the station has an address, and
`app_main` starts SNTP and the HTTPS server on it. It reads `WIFI_CONNECTED_BIT`,
which the association sets; the address comes with a later event.

* `wifiIsConnected_iff`: what the bit tells.
* `connected_addressed_iff`: where it tells of an address.
-/

namespace SmartScale.Wifi

open SmartScale.EventGroup SmartScale.History SmartScale.Transducer

/-- `WIFI_CONNECTED_BIT`, `WIFI_STA_START_BIT` and `WIFI_SCAN_DONE_BIT` -/
inductive WifiBit where
  | connected
  | staStart
  | scanDone
deriving DecidableEq, Repr

/-- The waits on `s_wifi_event_group`: of `wifi_comm_start` and `wifi_scan_task` for the
start, of `wifi_scan_task` for the scan, and of `wifi_connect_task`. -/
inductive WifiWaiter where
  | start
  | scan
  | connect
deriving DecidableEq, Repr

def WifiWaiter.wait : WifiWaiter → Wait WifiBit
  | .start => ⟨{.staStart}, false, true⟩
  | .scan => ⟨{.scanDone}, true, true⟩
  | .connect => ⟨{.connected}, false, true⟩

/-- The events `wifi_event_handler` is registered for. -/
inductive WifiEvent where
  | staStart
  | scanDone
  | staConnected
  | staDisconnected
  | otherWifi
  | gotIp
deriving DecidableEq, Repr

/-- The functions it calls. -/
inductive HandlerCall where
  | espWifiConnect
  | sntpSyncStart
  | sntpTimeAvailable (ms : Nat)
  | espWifiSetPs
  | startHttpsServer
  | weightManagerInit
deriving DecidableEq, Repr

/-- An event, with the waits blocked on the group when it is handled. -/
structure Delivery where
  event : WifiEvent
  blocked : List WifiWaiter
deriving DecidableEq, Repr

/-- `xEventGroupSetBits(s_wifi_event_group, …)` -/
def setWifiBit (bits : Finset WifiBit) (bit : WifiBit) (blocked : List WifiWaiter) :
    Finset WifiBit :=
  setBits bits {bit} (blocked.map WifiWaiter.wait)

/-- `wifi_event_handler`: the bits it leaves, and what it calls. -/
def wifiEventHandler (bits : Finset WifiBit) (d : Delivery) : Finset WifiBit × List HandlerCall :=
  match d.event with
  | .staStart => (setWifiBit bits .staStart d.blocked, [])
  | .scanDone => (setWifiBit bits .scanDone d.blocked, [])
  | .staConnected => (setWifiBit bits .connected d.blocked, [])
  | .staDisconnected => (bits \ {.connected}, [.espWifiConnect])
  | .otherWifi => (bits, [])
  | .gotIp =>
      (bits, [.sntpSyncStart, .sntpTimeAvailable 10000, .espWifiSetPs, .startHttpsServer,
        .weightManagerInit])

/-- `wifi_is_connected` -/
def wifiIsConnected (bits : Finset WifiBit) : Bool := decide (.connected ∈ bits)

/-- The bits after a history of events, from the creation of the group. -/
def wifiBits (history : List Delivery) : Finset WifiBit := after wifiEventHandler ∅ history

/-- A `GOT_IP` has been handled since the last `STA_DISCONNECTED`. -/
def Addressed (history : List Delivery) : Prop :=
  Since (fun d => d.event = .gotIp) (fun d => d.event = .staDisconnected) history

/-- The station is associated: `STA_CONNECTED` since the last `STA_DISCONNECTED`. -/
def Associated (history : List Delivery) : Prop :=
  Since (fun d => d.event = .staConnected) (fun d => d.event = .staDisconnected) history

/-- The driver delivers `GOT_IP` only after `STA_CONNECTED`. -/
def Delivered (events : List Delivery) : Prop :=
  ∀ history d, history ++ [d] <+: events → d.event = .gotIp →
    ∃ c ∈ history, c.event = .staConnected

/-- Whenever `wifi_is_connected` is true, there is an address. -/
def ConnectedAddressed (events : List Delivery) : Prop :=
  ∀ history, history <+: events → wifiIsConnected (wifiBits history) = true → Addressed history

section Handler

variable {bits : Finset WifiBit} {history events : List Delivery} {d : Delivery}

theorem mem_setWifiBit_of_ne {b bit : WifiBit} {blocked : List WifiWaiter}
    (kept : ∀ w ∈ blocked, b ∉ w.wait.clears) :
    b ∈ setWifiBit bits bit blocked ↔ b ∈ bits ∨ b = bit := by
  rw [setWifiBit, mem_setBits, Finset.mem_singleton]
  apply and_iff_left
  intro w hw _
  obtain ⟨waiter, here, rfl⟩ := List.mem_map.mp hw
  exact kept waiter here

theorem wifiIsConnected_eq_true : wifiIsConnected bits = true ↔ .connected ∈ bits :=
  decide_eq_true_iff

/-- No wait clears `WIFI_CONNECTED_BIT`. -/
theorem connected_notMem_clears (w : WifiWaiter) : .connected ∉ w.wait.clears := by
  cases w <;> decide

/-- The bit is a latch. -/
theorem connected_step :
    wifiIsConnected (wifiEventHandler bits d).1 = true ↔
      d.event = .staConnected ∨
        (¬ d.event = .staDisconnected ∧ wifiIsConnected bits = true) := by
  have set (bit : WifiBit) : .connected ∈ setWifiBit bits bit d.blocked ↔
      .connected ∈ bits ∨ .connected = bit :=
    mem_setWifiBit_of_ne fun w _ => connected_notMem_clears w
  obtain ⟨event, blocked⟩ := d
  rw [wifiIsConnected_eq_true, wifiIsConnected_eq_true]
  cases event <;> simp [wifiEventHandler, set]

/-- `wifi_is_connected` tells whether the station is associated. -/
theorem wifiIsConnected_iff : wifiIsConnected (wifiBits history) = true ↔ Associated history := by
  have clear : ¬ wifiIsConnected ∅ = true := by decide
  refine after_latch (fun bits => wifiIsConnected bits = true) clear ?_ history
  intro bits d
  exact connected_step

/-- The handler starts the server and the weight manager at `GOT_IP`, not before. -/
theorem startHttpsServer_mem_iff :
    .startHttpsServer ∈ (wifiEventHandler bits d).2 ↔ d.event = .gotIp := by
  obtain ⟨event, blocked⟩ := d
  cases event <;> simp [wifiEventHandler]

/-! ### Where it tells of an address -/

/-- An association is not an address: it needs one, handled since the last
disconnection, before it. -/
theorem addressed_of_connected (all : ConnectedAddressed (history ++ [d]))
    (connects : d.event = .staConnected) : Addressed history := by
  have associated : Associated (history ++ [d]) := since_concat.mpr (.inl connects)
  have addressed := all _ List.prefix_rfl (wifiIsConnected_iff.mpr associated)
  rcases since_concat.mp addressed with gotIp | ⟨_, before⟩
  · rw [connects] at gotIp
    cases gotIp
  · exact before

/-- **Connected means an address** exactly in the runs in which the station never
associates: between an association and its address, `wifi_is_connected` is true. -/
theorem connected_addressed_iff (events : List Delivery) (delivered : Delivered events) :
    ConnectedAddressed events ↔ ∀ d ∈ events, d.event ≠ .staConnected := by
  constructor
  · intro all
    induction events using List.reverseRecOn with
    | nil => simp
    | append_singleton history d ih =>
        have before : ∀ c ∈ history, c.event ≠ .staConnected := by
          apply ih
          · intro h c pre
            exact delivered h c (pre.trans (List.prefix_append _ _))
          · intro h pre
            exact all h (pre.trans (List.prefix_append _ _))
        have last : d.event ≠ .staConnected := by
          intro connects
          obtain ⟨earlier, ip, later, rfl, gotIp, _⟩ := addressed_of_connected all connects
          have pre : earlier ++ [ip] <+: earlier ++ ip :: later ++ [d] :=
            ⟨later ++ [d], by simp⟩
          obtain ⟨c, here, associates⟩ := delivered earlier ip pre gotIp
          exact before c (List.mem_append_left _ here) associates
        simpa [or_imp, forall_and] using ⟨before, last⟩
  · intro never history pre connected
    obtain ⟨d, here, associates⟩ := (wifiIsConnected_iff.mp connected).exists_mem
    exact absurd associates (never d (pre.subset here))

/-- An association and then its address: the driver's order, and `wifi_is_connected` is
true in between. -/
theorem connected_addressed_iff_association :
    ¬ ConnectedAddressed [⟨.staConnected, []⟩, ⟨.gotIp, []⟩] := by
  have delivered : Delivered [⟨.staConnected, []⟩, ⟨.gotIp, []⟩] := by
    rintro history d ⟨rest, split⟩ gotIp
    cases history with
    | nil =>
        obtain ⟨rfl, _⟩ := List.cons.inj split
        cases gotIp
    | cons c history =>
        obtain ⟨rfl, _⟩ := List.cons.inj split
        exact ⟨_, List.mem_cons_self, rfl⟩
  rw [connected_addressed_iff _ delivered]
  intro never
  exact never _ List.mem_cons_self rfl

/-- After `STA_CONNECTED`, before any address. -/
theorem connected_without_address :
    ¬ ∀ events, Delivered events → ConnectedAddressed events := by
  intro all
  have delivered : Delivered [⟨.staConnected, [.connect]⟩] := by
    rintro history d ⟨rest, split⟩ gotIp
    cases history with
    | nil =>
        obtain ⟨rfl, _⟩ := List.cons.inj split
        cases gotIp
    | cons c history => simp at split
  have addressed := all _ delivered _ List.prefix_rfl (by decide)
  obtain ⟨d, here, gotIp⟩ := addressed.exists_mem
  rw [List.mem_singleton.mp here] at gotIp
  cases gotIp

end Handler

end SmartScale.Wifi
