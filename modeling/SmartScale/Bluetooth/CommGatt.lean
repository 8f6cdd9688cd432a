import Mathlib.Data.List.Basic

/-!
The custom GATT service (`bluetooth_comm_gatt/bluetooth_comm_gatt.c`): its globals,
the access callback of its characteristic, and notifications.

The bytes of a write go to `received_data` without a look at its size, so the buffer
is modelled with the memory that follows it.
-/

namespace SmartScale.Bluetooth

/-- `BLE_HS_CONN_HANDLE_NONE` -/
def connHandleNone : UInt16 := 0xFFFF

/-- `sizeof(received_data)` -/
def sizeofReceivedData : Nat := 128

/-- `BLE_ATT_ERR_UNLIKELY` -/
def bleAttErrUnlikely : Nat := 0x0E

/-- The globals. `memory` is the memory from `received_data` on: its first
`sizeofReceivedData` bytes are the buffer. -/
structure CommGatt where
  currentConnHandle : UInt16
  customChrHandle : UInt16
  memory : Nat → UInt8
  receivedDataLen : Nat
  enableNotifications : Bool

/-- As the program starts, with `past` in the memory that follows the buffer. -/
def CommGatt.start (past : Nat → UInt8) : CommGatt where
  currentConnHandle := connHandleNone
  customChrHandle := 4
  memory i := if i < sizeofReceivedData then 0 else past (i - sizeofReceivedData)
  receivedDataLen := 0
  enableNotifications := true

/-! ### Notifications -/

/-- The arguments of `ble_gatts_notify_custom`. -/
structure Notify where
  connHandle : UInt16
  attrHandle : UInt16
  data : List UInt8
deriving DecidableEq, Repr

/-- What `custom_send_notification` does: nothing and returns 0, nothing and returns
-1, or the call of `ble_gatts_notify_custom`, whose code it returns. -/
inductive Sent where
  | skipped
  | failed
  | notify (call : Notify)
deriving DecidableEq, Repr

/-- `allocated`: `ble_hs_mbuf_from_flat` returns an mbuf. -/
def customSendNotification (g : CommGatt) (data : List UInt8) (allocated : Bool) : Sent :=
  if !g.enableNotifications then .skipped
  else if g.currentConnHandle = connHandleNone then .failed
  else if !allocated then .failed
  else .notify ⟨g.currentConnHandle, g.customChrHandle, data⟩

/-- `notify_msg` -/
def notifyMsg : List UInt8 := "Data received".toList.map fun c => .ofNat c.toNat

/-! ### The characteristic -/

/-- `os_mbuf_copydata` of a whole packet to `memory`. -/
def osMbufCopydata (packet : List UInt8) (memory : Nat → UInt8) : Nat → UInt8 :=
  fun i => packet.getD i (memory i)

/-- What `os_mbuf_append` takes from `memory`. -/
def osMbufAppend (memory : Nat → UInt8) (len : Nat) : List UInt8 := (List.range len).map memory

/-- `ctxt->op`, with the packet of a write and whether there is an mbuf for the
notification. -/
inductive Access where
  | readChr
  | writeChr (packet : List UInt8) (allocated : Bool)
  | other
deriving DecidableEq, Repr

/-- The code `custom_access_cb` returns, what it appends to the packet of a read, and
the notification it sends. -/
structure Response where
  rc : Nat
  appended : List UInt8
  notification : Sent
deriving DecidableEq, Repr

def customAccessCb (g : CommGatt) : Access → CommGatt × Response
  | .readChr => (g, ⟨0, osMbufAppend g.memory g.receivedDataLen, .skipped⟩)
  | .writeChr packet allocated =>
      let stored := { g with
        receivedDataLen := packet.length
        memory := osMbufCopydata packet g.memory }
      let sent :=
        if stored.enableNotifications then customSendNotification stored notifyMsg allocated
        else .skipped
      (stored, ⟨0, [], sent⟩)
  | .other => (g, ⟨bleAttErrUnlikely, [], .skipped⟩)

section Copy

variable {packet : List UInt8} {memory : Nat → UInt8} {i : Nat}

theorem osMbufCopydata_past (past : packet.length ≤ i) :
    osMbufCopydata packet memory i = memory i := by
  simp [osMbufCopydata, past]

/-- What a write copies is what a read of its length takes. -/
theorem osMbufAppend_copydata :
    osMbufAppend (osMbufCopydata packet memory) packet.length = packet := by
  apply List.ext_getElem
  · simp [osMbufAppend]
  · intro i _ inside
    simp [osMbufAppend, osMbufCopydata, inside]

end Copy

end SmartScale.Bluetooth
