import SmartScale.Base.Transducer
import SmartScale.Bluetooth.CommGatt

/-!
The characteristic as a register: a client reads back what it last wrote, and a
write that does not fit the buffer is rejected.

`custom_access_cb` accepts every write.

* `characteristic_simulates`: on writes that fit, it implements the register, inside
  its buffer.
* `conforms_iff`: on no others.
-/

namespace SmartScale.Bluetooth

open SmartScale.Transducer

/-! ### The register -/

/-- One access to a register of `sizeofReceivedData` bytes: what it stores then, and
the bytes of its answer; `none` if it is rejected. -/
def registerAccess (stored : List UInt8) : Access → List UInt8 × Option (List UInt8)
  | .readChr => (stored, some stored)
  | .writeChr packet _ =>
      if packet.length ≤ sizeofReceivedData then (packet, some []) else (stored, none)
  | .other => (stored, none)

/-- A response says what the register answers. -/
def Response.Answers (r : Response) : Option (List UInt8) → Prop
  | some bytes => r.rc = 0 ∧ r.appended = bytes
  | none => r.rc ≠ 0

/-- The state stays inside `received_data`: its length does, and the memory after the
buffer is what it was. -/
structure CommGatt.Within (past : Nat → UInt8) (g : CommGatt) : Prop where
  len : g.receivedDataLen ≤ sizeofReceivedData
  untouched : ∀ i, g.memory (sizeofReceivedData + i) = past i

/-- After every access the state stays inside the buffer, and all responses are those of
the register. -/
def Conforms (past : Nat → UInt8) (accesses : List Access) : Prop :=
  (∀ n, (after customAccessCb (.start past) (accesses.take n)).Within past) ∧
    List.Forall₂ Response.Answers (outputs customAccessCb (.start past) accesses)
      (outputs registerAccess [] accesses)

/-- An access whose packet fits the buffer. -/
def Access.Fits : Access → Prop
  | .writeChr packet _ => packet.length ≤ sizeofReceivedData
  | _ => True

/-! ### On writes that fit -/

/-- `received_data` holds what the register stores. -/
structure CommGatt.Holds (past : Nat → UInt8) (g : CommGatt) (stored : List UInt8) : Prop
    extends g.Within past where
  bytes : osMbufAppend g.memory g.receivedDataLen = stored

section Accesses

variable {past : Nat → UInt8} {g : CommGatt} {stored : List UInt8} {accesses : List Access}

theorem holds_start : (CommGatt.start past).Holds past [] where
  len := Nat.zero_le _
  untouched i := by
    have above : ¬ sizeofReceivedData + i < sizeofReceivedData := by omega
    simp only [CommGatt.start, if_neg above, Nat.add_sub_cancel_left]
  bytes := rfl

/-- One access that fits: the buffer goes on holding what the register stores, and the
response is the register's. -/
theorem characteristic_step {access : Access} (fits : access.Fits) (h : g.Holds past stored) :
    (customAccessCb g access).1.Holds past (registerAccess stored access).1 ∧
      (customAccessCb g access).2.Answers (registerAccess stored access).2 := by
  cases access with
  | readChr => exact ⟨h, rfl, h.bytes⟩
  | other =>
      have error : bleAttErrUnlikely ≠ 0 := by decide
      exact ⟨h, error⟩
  | writeChr packet allocated =>
      have accepted : registerAccess stored (.writeChr packet allocated) = (packet, some []) :=
        if_pos fits
      rw [accepted]
      refine ⟨⟨⟨fits, ?_⟩, osMbufAppend_copydata⟩, rfl, rfl⟩
      intro i
      have above : packet.length ≤ sizeofReceivedData + i := Nat.le_add_right_of_le fits
      exact (osMbufCopydata_past above).trans (h.untouched i)

/-- **The characteristic implements the register** on writes that fit. -/
theorem characteristic_simulates (fits : ∀ access ∈ accesses, access.Fits) :
    (after customAccessCb (.start past) accesses).Holds past
        (after registerAccess [] accesses) ∧
      List.Forall₂ Response.Answers (outputs customAccessCb (.start past) accesses)
        (outputs registerAccess [] accesses) := by
  apply simulation_of_mem (R := CommGatt.Holds past) _ holds_start
  intro g stored access here h
  exact characteristic_step (fits access here) h

/-! ### On others -/

/-- A write that does not fit leaves a length that does not, whatever came before. -/
theorem fits_of_within {access : Access} (h : (customAccessCb g access).1.Within past) :
    access.Fits := by
  cases access with
  | writeChr packet allocated => exact h.len
  | readChr => trivial
  | other => trivial

/-- **The characteristic stores what was written, within its buffer**, exactly when
every write fits the buffer. -/
theorem conforms_iff (past : Nat → UInt8) (accesses : List Access) :
    Conforms past accesses ↔ ∀ access ∈ accesses, access.Fits := by
  constructor
  · rintro ⟨within, _⟩ access here
    obtain ⟨before, rest, split⟩ := List.append_of_mem here
    rw [List.append_cons] at split
    subst split
    have inside := within (before ++ [access]).length
    rw [List.take_left, after_append] at inside
    exact fits_of_within inside
  · intro fits
    refine ⟨?_, (characteristic_simulates fits).2⟩
    intro n
    have early : ∀ access ∈ accesses.take n, access.Fits := fun access here =>
      fits access (List.mem_of_mem_take here)
    exact (characteristic_simulates early).1.toWithin

/-- A write of 129 bytes is accepted, and `received_data_len` is 129. -/
theorem long_write_is_stored :
    ¬ ∀ (past : Nat → UInt8) (accesses : List Access), Conforms past accesses := by
  intro conforms
  have within := (conforms (fun _ => 0) [.writeChr (List.replicate 129 0) true]).1 1
  have len := within.len
  simp [customAccessCb, sizeofReceivedData] at len

end Accesses

end SmartScale.Bluetooth
