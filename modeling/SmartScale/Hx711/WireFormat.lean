import SmartScale.Base.Binary32
import SmartScale.Hx711.Hull

/-!
The items of `hx711_q`: four raw bytes, written by two producers and read by two
consumers in other files.

`hx711_rtos_task` stores the bytes of a `float`, `hx711_rtos_median_task` the bytes
of an `int32_t`; `weight_manager_task` and `weight_get_handler` both load a
`float`. The float round trip is exact (`hx711RtosTask_wire`); an integer survives
only if it is 0 (`hx711RtosMedianTask_wire_iff`), a positive one arriving as a
subnormal and a negative one as an infinity or NaN. `median_value_is24Bit` says
which integers there are.
-/

namespace SmartScale.Hx711

open SmartScale.Binary32 SmartScale.Transducer

/-- `xQueueSend(scale->data_queue, &filtered_value, 0)`, with the bit pattern of the
`float`. -/
def hx711RtosTaskItem (filteredValue : BitVec 32) : Bytes := toBytes filteredValue

/-- `xQueueSend(scale->data_queue, &val, 0)`, with an `int32_t`. -/
def hx711RtosMedianTaskItem (val : Int) : Bytes := toBytes (BitVec.ofInt 32 val)

/-- `float raw_count` after `xQueueReceive(wm_queue, &raw_count, portMAX_DELAY)`. -/
def weightManagerTaskReads (item : Bytes) : Value := decode (ofBytes item)

/-- `float weight` after `xQueueReceive(hx711_get_queue(), &weight, 0)`. -/
def weightGetHandlerReads (item : Bytes) : Value := decode (ofBytes item)

/-- A value a sampling task computed, in the type it sends. -/
inductive Produced where
  | float (filteredValue : BitVec 32)
  | int32 (val : Int)

namespace Produced

/-- The number the task computed. -/
def number : Produced → Value
  | float filteredValue => decode filteredValue
  | int32 val => .finite val

/-- The item the task sends for it. -/
def item : Produced → Bytes
  | float filteredValue => hx711RtosTaskItem filteredValue
  | int32 val => hx711RtosMedianTaskItem val

/-- Integers come from a 24-bit converter. -/
def WellFormed : Produced → Prop
  | float _ => True
  | int32 val => Is24Bit val

/-- Both consumers read the number the producer computed. -/
def Survives (p : Produced) : Prop :=
  weightManagerTaskReads p.item = p.number ∧ weightGetHandlerReads p.item = p.number

end Produced

/-- The float producer and the consumers agree on every bit pattern. -/
theorem hx711RtosTask_wire (filteredValue : BitVec 32) :
    (Produced.float filteredValue).Survives := by
  have loaded : decode (ofBytes (toBytes filteredValue)) = decode filteredValue := by
    rw [ofBytes_toBytes]
  exact ⟨loaded, loaded⟩

/-- The integer producer and the consumers agree on 0 only. -/
theorem hx711RtosMedianTask_wire_iff {val : Int} (h : Is24Bit val) :
    (Produced.int32 val).Survives ↔ val = 0 := by
  have loaded : decode (ofBytes (toBytes (BitVec.ofInt 32 val))) = .finite val ↔ val = 0 := by
    rw [ofBytes_toBytes]
    exact decode_ofInt_eq_iff h.1 h.2
  constructor
  · intro survives
    exact loaded.mp survives.1
  · intro zero
    exact ⟨loaded.mpr zero, loaded.mpr zero⟩

/-- Every value the median read computes, in any run on 24-bit readings, is a
24-bit integer. -/
theorem median_value_is24Bit (s : Driver) (sMaBuf : Option (List ℚ)) {cfg : Config} (raw0 : Int)
    (calls : List Call) (lock : Bool) (samples : Nat → Int) (hq : 0 < cfg.qInit)
    (hr : 0 < cfg.rInit)
    (bits : ∀ x ∈ rawsSinceInit s sMaBuf cfg raw0 (calls ++ [.median lock samples]), Is24Bit x) :
    Is24Bit (hx711ReadMedianRtos (after callStep (hx711Init s sMaBuf cfg raw0) calls)
      lock samples).2.value := by
  obtain ⟨_, returned⟩ := callRun_withinHull s sMaBuf raw0 (calls ++ [.median lock samples]) hq hr
  have last := returned _ (by
    rw [callResults, outputs_append]
    exact List.mem_append_right _ List.mem_cons_self)
  exact is24Bit_of_mem_hull bits last

/-- **When the wire format agrees.** The consumers read the number a sampling task
computed exactly when it was sent as a float, or is the integer 0. -/
theorem wire_format_agrees_iff (p : Produced) (h : p.WellFormed) :
    p.Survives ↔ ∀ val, p = .int32 val → val = 0 := by
  cases p with
  | float filteredValue =>
      apply iff_of_true (hx711RtosTask_wire filteredValue)
      intro val eq
      cases eq
  | int32 val =>
      rw [hx711RtosMedianTask_wire_iff h]
      constructor
      · rintro zero val' eq
        cases eq
        exact zero
      · intro zero
        exact zero val rfl

/-- The largest reading of the converter, sent by the median task, is well formed
and does not survive. -/
theorem wire_format_agrees_iff_max :
    ¬ (Produced.int32 8388607).Survives := by
  intro survives
  have wellFormed : (Produced.int32 8388607).WellFormed := ⟨by norm_num, by norm_num⟩
  exact absurd ((wire_format_agrees_iff (.int32 8388607) wellFormed).mp survives 8388607 rfl)
    (by norm_num)

/-- A median of 1000 arrives as something else. -/
theorem wire_format_disagrees :
    ¬ ∀ p : Produced, p.WellFormed → p.Survives := by
  intro claimed
  have wellFormed : Is24Bit 1000 := ⟨by norm_num, by norm_num⟩
  have survives := claimed (.int32 1000) wellFormed
  exact absurd ((hx711RtosMedianTask_wire_iff wellFormed).mp survives) (by norm_num)

end SmartScale.Hx711
