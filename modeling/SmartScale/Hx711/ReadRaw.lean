import Mathlib.Logic.Function.Iterate
import SmartScale.Base.BitSerial
import SmartScale.Hx711.Hull

/-!
The bit-serial read `hx711_read_raw` (`hx711/hx711.c`), against a converter.

`Converter` is the device as the driver relies on it: DOUT is high while a conversion is under
way, then low until the first pulse, and shows one bit for each rising edge of SCK; after
`24 + gain` pulses the next conversion begins. `World` adds the SCK line and a log of its edges.

`hx711ReadRaw_eq` is the spec lemma of a call: the value of the conversion, a whole number of
pulses, and a converter at the start of its next conversion. `hx711ReadRaw_in_step` is the run.
-/

namespace SmartScale.Hx711

open SmartScale.BitSerial

/-- `hx711_gain_t` -/
inductive Gain where
  | gain128
  | gain32
  | gain64
deriving DecidableEq, Repr

/-- Its value, the number of extra pulses. -/
def Gain.extraPulses : Gain → Nat
  | gain128 => 1
  | gain32 => 2
  | gain64 => 3

/-! ### The converter -/

/-- How long a conversion takes, and what it measures. -/
structure Conversion where
  busy : Nat
  value : Int
  is24Bit : Is24Bit value

/-- All its conversions, and the number of pulses that ends each of them. -/
structure Device where
  conversions : Nat → Conversion
  cycle : Nat

/-- A converter in one of its conversions: the time it still takes, and the pulses so far. -/
structure Converter where
  device : Device
  index : Nat
  busy : Nat
  pulses : Nat

/-- The level of DOUT. -/
def Converter.dout (c : Converter) : Bool :=
  if 0 < c.busy then true
  else if c.pulses = 0 then false
  else if c.pulses ≤ 24 then
    (pattern 24 (c.device.conversions c.index).value).testBit (24 - c.pulses)
  else true

def Converter.rise (c : Converter) : Converter := { c with pulses := c.pulses + 1 }

/-- The end of a pulse; the last one starts the next conversion. -/
def Converter.fall (c : Converter) : Converter :=
  if c.pulses = c.device.cycle then
    { c with
      index := c.index + 1
      busy := (c.device.conversions (c.index + 1)).busy
      pulses := 0 }
  else c

def Converter.wait (c : Converter) (us : Nat) : Converter := { c with busy := c.busy - us }

/-- An edge of SCK. -/
inductive Edge where
  | rising
  | falling
deriving DecidableEq, Repr

/-- The converter, the SCK line and its edges so far. -/
structure World where
  converter : Converter
  sck : Bool
  edges : List Edge

/-- `gpio_get_level` of DOUT. -/
def World.gpioGetLevel (w : World) : Bool := w.converter.dout

/-- `gpio_set_level` of SCK: an edge, where the level changes. -/
def World.gpioSetLevel (w : World) (level : Bool) : World :=
  if level = w.sck then w
  else if level then ⟨w.converter.rise, true, w.edges ++ [.rising]⟩
  else ⟨w.converter.fall, false, w.edges ++ [.falling]⟩

/-- `ets_delay_us` -/
def World.etsDelayUs (w : World) (us : Nat) : World :=
  { w with converter := w.converter.wait us }

/-- SCK is low, and the converter is at the start of its first conversion. -/
def World.start (device : Device) : World :=
  ⟨⟨device, 0, (device.conversions 0).busy, 0⟩, false, []⟩

/-! ### The read -/

/-- The wait for DOUT to go low; `none` is out of fuel. -/
def waitReady : Nat → World → Option World
  | 0, _ => none
  | fuel + 1, w => if w.gpioGetLevel then waitReady fuel (w.etsDelayUs 1) else some w

/-- One of the 24 iterations that clock out a bit. -/
def clockBit (s : World × UInt32) : World × UInt32 :=
  let high := (s.1.gpioSetLevel true).etsDelayUs 1
  let val := (s.2 <<< 1) ||| (if high.gpioGetLevel then 1 else 0)
  ((high.gpioSetLevel false).etsDelayUs 1, val)

/-- One of the extra pulses. -/
def extraPulse (w : World) : World :=
  (((w.gpioSetLevel true).etsDelayUs 1).gpioSetLevel false).etsDelayUs 1

/-- The return expression. -/
def signExtend (val : UInt32) : Int32 :=
  if val &&& 0x800000 ≠ 0 then (val ||| 0xFF000000).toInt32 else val.toInt32

/-- `hx711_read_raw` -/
def hx711ReadRaw (gain : Gain) (fuel : Nat) (w : World) : Option (World × Int32) :=
  (waitReady fuel w).map fun ready =>
    let clocked := clockBit^[24] (ready, 0)
    (extraPulse^[gain.extraPulses] clocked.1, signExtend clocked.2)

/-- Calls one after another, each some time after the one before. -/
def readCalls (gain : Gain) (fuel : Nat) : List Nat → World → Option (World × List Int32)
  | [], w => some (w, [])
  | idle :: idles, w => do
      let call ← hx711ReadRaw gain fuel (w.etsDelayUs idle)
      let rest ← readCalls gain fuel idles call.1
      return (rest.1, call.2 :: rest.2)

/-! ### The accumulator -/

theorem toNat_shift_or {val : UInt32} (small : val.toNat < 2 ^ 31) (bit : Bool) :
    ((val <<< 1) ||| (if bit then 1 else 0)).toNat = shiftIn val.toNat bit := by
  have one : (1 : UInt32).toNat % 32 = 1 := rfl
  have shifted : (val <<< 1).toNat = val.toNat <<< 1 := by
    rw [UInt32.toNat_shiftLeft, one, Nat.mod_eq_of_lt]
    rw [Nat.shiftLeft_eq]
    omega
  have disjoint := Nat.shiftLeft_add_eq_or_of_lt (i := 1) (b := bit.toNat) bit.toNat_lt val.toNat
  rw [UInt32.toNat_or, shifted, shiftIn]
  cases bit with
  | true =>
      rw [if_pos rfl, UInt32.toNat_one]
      rw [Bool.toNat_true] at disjoint ⊢
      rw [← disjoint, Nat.shiftLeft_eq]
      omega
  | false =>
      rw [if_neg Bool.false_ne_true, UInt32.toNat_zero, Nat.or_zero, Nat.shiftLeft_eq,
        Bool.toNat_false]
      omega

theorem toNat_extend {val : UInt32} (small : val.toNat < 2 ^ 24) :
    (val ||| 0xFF000000).toNat = val.toNat + 0xFF000000 := by
  have disjoint := Nat.shiftLeft_add_eq_or_of_lt (i := 24) small 0xFF
  have mask : (0xFF000000 : UInt32).toNat = 0xFF <<< 24 := rfl
  rw [UInt32.toNat_or, Nat.or_comm, mask, ← disjoint, Nat.add_comm]
  rfl

theorem and_signBit_iff (val : UInt32) :
    val &&& 0x800000 ≠ 0 ↔ val.toNat.testBit 23 = true := by
  have mask : (0x800000 : UInt32).toNat = 2 ^ 23 := rfl
  rw [ne_eq, ← UInt32.toNat_inj, UInt32.toNat_and, mask, Nat.and_two_pow, UInt32.toNat_zero]
  cases val.toNat.testBit 23 <;> simp

theorem toInt_toInt32 (val : UInt32) : val.toInt32.toInt = (val.toNat : Int).bmod (2 ^ 32) := by
  rw [← Int32.toInt_toBitVec, UInt32.toBitVec_toInt32, BitVec.toInt_eq_toNat_bmod,
    UInt32.toNat_toBitVec]

/-- **Sign extension**: the 24 bits are read as two's complement. -/
theorem signExtend_toInt {val : UInt32} (small : val.toNat < 2 ^ 24) :
    (signExtend val).toInt = (val.toNat : Int).bmod (2 ^ 24) := by
  have sign := bmod_eq_of_testBit small
  rw [sign, signExtend]
  by_cases negative : val.toNat.testBit 23 = true
  · have large : 2 ^ 23 ≤ val.toNat := Nat.ge_two_pow_of_testBit negative
    rw [if_pos ((and_signBit_iff val).mpr negative), if_pos negative, toInt_toInt32,
      toNat_extend small, ← Int.sub_bmod_right _ (2 ^ 32)]
    push_cast
    rw [Int.bmod_eq_of_le (by omega) (by omega)]
    omega
  · rw [if_neg ((and_signBit_iff val).not.mpr negative), if_neg negative, toInt_toInt32]
    exact Int.bmod_eq_of_le (by omega) (by omega)

/-! ### One call -/

/-- The edges of `n` pulses: each rises and falls. -/
def pulseEdges (n : Nat) : List Edge := (List.replicate n [Edge.rising, Edge.falling]).flatten

theorem pulseEdges_succ (n : Nat) :
    pulseEdges (n + 1) = pulseEdges n ++ [Edge.rising, Edge.falling] := by
  simp [pulseEdges, List.replicate_succ']

theorem pulseEdges_add (m n : Nat) : pulseEdges (m + n) = pulseEdges m ++ pulseEdges n := by
  rw [pulseEdges, List.replicate_add, List.flatten_append]
  rfl

section Call

variable {device : Device} {k p : Nat} {edges : List Edge} {val : UInt32}

/-- Before its last pulse, a converter that is ready counts the pulse. -/
theorem extraPulse_eq (more : p + 1 ≠ device.cycle) :
    extraPulse ⟨⟨device, k, 0, p⟩, false, edges⟩ =
      ⟨⟨device, k, 0, p + 1⟩, false, edges ++ [.rising, .falling]⟩ := by
  simp [extraPulse, World.gpioSetLevel, World.etsDelayUs, Converter.rise, Converter.wait,
    Converter.fall, more]

/-- The last pulse starts the next conversion, and the delay after it is part of that. -/
theorem extraPulse_last (last : p + 1 = device.cycle) :
    extraPulse ⟨⟨device, k, 0, p⟩, false, edges⟩ =
      ⟨⟨device, k + 1, (device.conversions (k + 1)).busy - 1, 0⟩, false,
        edges ++ [.rising, .falling]⟩ := by
  simp [extraPulse, World.gpioSetLevel, World.etsDelayUs, Converter.rise, Converter.wait,
    Converter.fall, last]

/-- A pulse that clocks out a bit is a pulse, and the bit is the one it raised. -/
theorem clockBit_eq (more : p + 1 ≠ device.cycle) (data : p < 24) :
    clockBit (⟨⟨device, k, 0, p⟩, false, edges⟩, val) =
      (⟨⟨device, k, 0, p + 1⟩, false, edges ++ [.rising, .falling]⟩,
        (val <<< 1) ||| (if (pattern 24 (device.conversions k).value).testBit (23 - p) then 1
          else 0)) := by
  have index : 24 - (p + 1) = 23 - p := by omega
  have bit : p + 1 ≤ 24 := data
  simp [clockBit, World.gpioSetLevel, World.etsDelayUs, World.gpioGetLevel, Converter.rise,
    Converter.wait, Converter.fall, Converter.dout, more, bit, index]

/-- **Loop invariant**: after `p` bits the accumulator holds the `p` leading bits. -/
theorem clockBit_iterate (k : Nat) (edges : List Edge) (long : 24 < device.cycle)
    (data : p ≤ 24) : ∃ val : UInt32, clockBit^[p] (⟨⟨device, k, 0, 0⟩, false, edges⟩, 0) =
        (⟨⟨device, k, 0, p⟩, false, edges ++ pulseEdges p⟩, val) ∧
      val.toNat = pattern 24 (device.conversions k).value / 2 ^ (24 - p) := by
  induction p with
  | zero =>
      refine ⟨0, by simp [pulseEdges], ?_⟩
      rw [Nat.div_eq_of_lt (pattern_lt 24 _)]
      rfl
  | succ p ih =>
      obtain ⟨val, state, leading⟩ := ih (by omega)
      refine ⟨(val <<< 1) ||| (if (pattern 24 (device.conversions k).value).testBit (23 - p) then 1
        else 0), ?_, ?_⟩
      · rw [Function.iterate_succ_apply', state, clockBit_eq (by omega) (by omega),
          List.append_assoc, ← pulseEdges_succ]
      · have small : val.toNat < 2 ^ 31 := by
          have bound := pattern_lt 24 (device.conversions k).value
          have below := Nat.div_le_self (pattern 24 (device.conversions k).value) (2 ^ (24 - p))
          omega
        have position : 24 - p = 23 - p + 1 := by omega
        have next : 24 - (p + 1) = 23 - p := by omega
        rw [toNat_shift_or small, leading, position, shiftIn_div, next]

/-- The extra pulses but the last. -/
theorem extraPulse_iterate (n : Nat) (short : p + n < device.cycle) :
    extraPulse^[n] ⟨⟨device, k, 0, p⟩, false, edges⟩ =
      ⟨⟨device, k, 0, p + n⟩, false, edges ++ pulseEdges n⟩ := by
  induction n with
  | zero => simp [pulseEdges]
  | succ n ih =>
      rw [Function.iterate_succ_apply', ih (by omega), extraPulse_eq (by omega), List.append_assoc,
        ← pulseEdges_succ, Nat.add_assoc]

/-- The wait ends with the conversion. -/
theorem waitReady_eq (edges : List Edge) {busy fuel : Nat} (enough : busy < fuel) :
    waitReady fuel ⟨⟨device, k, busy, 0⟩, false, edges⟩ =
      some ⟨⟨device, k, 0, 0⟩, false, edges⟩ := by
  induction fuel generalizing busy with
  | zero => omega
  | succ fuel ih =>
      cases busy with
      | zero => simp [waitReady, World.gpioGetLevel, Converter.dout]
      | succ busy =>
          have high : World.gpioGetLevel ⟨⟨device, k, busy + 1, 0⟩, false, edges⟩ = true := by
            simp [World.gpioGetLevel, Converter.dout]
          rw [waitReady, if_pos high]
          exact ih (show busy < fuel by omega)

/-- **Spec of a call** at the start of a conversion: it returns the value, issues `24 + gain`
pulses, and leaves the converter at the start of the next one. -/
theorem hx711ReadRaw_eq (gain : Gain) (edges : List Edge) {busy fuel : Nat}
    (cycle : device.cycle = 24 + gain.extraPulses) (enough : busy < fuel) :
    ∃ value : Int32, hx711ReadRaw gain fuel ⟨⟨device, k, busy, 0⟩, false, edges⟩ =
        some (⟨⟨device, k + 1, (device.conversions (k + 1)).busy - 1, 0⟩, false,
          edges ++ pulseEdges (24 + gain.extraPulses)⟩, value) ∧
      value.toInt = (device.conversions k).value := by
  have extra : ∃ n, gain.extraPulses = n + 1 := by
    cases gain <;> exact ⟨_, rfl⟩
  obtain ⟨n, count⟩ := extra
  have long : 24 < device.cycle := by omega
  obtain ⟨val, clocked, bits⟩ := clockBit_iterate k edges long le_rfl
  refine ⟨signExtend val, ?_, ?_⟩
  · rw [hx711ReadRaw, waitReady_eq edges enough, Option.map_some]
    dsimp only
    rw [clocked, count, Function.iterate_succ_apply', extraPulse_iterate n (by omega),
      extraPulse_last (by omega), List.append_assoc, List.append_assoc, ← pulseEdges_succ,
      ← pulseEdges_add]
  · rw [Nat.sub_self, pow_zero, Nat.div_one] at bits
    have range := (device.conversions k).is24Bit
    rw [signExtend_toInt (by rw [bits]; exact pattern_lt 24 _), bits]
    exact bmod_pattern range.1 (Int.lt_of_le_sub_one range.2)

end Call

/-! ### Calls one after another -/

/-- **Run lemma**, from the start of any conversion. -/
theorem readCalls_eq (gain : Gain) (device : Device)
    (cycle : device.cycle = 24 + gain.extraPulses) (idles : List Nat) (k busy : Nat)
    (edges : List Edge) : ∃ enough, ∀ fuel ≥ enough, ∃ left values,
      readCalls gain fuel idles ⟨⟨device, k, busy, 0⟩, false, edges⟩ =
        some (⟨⟨device, k + idles.length, left, 0⟩, false,
          edges ++ pulseEdges (idles.length * (24 + gain.extraPulses))⟩, values) ∧
      values.map Int32.toInt =
        (List.range' k idles.length).map fun i => (device.conversions i).value := by
  induction idles generalizing k busy edges with
  | nil => exact ⟨0, fun fuel _ => ⟨busy, [], by simp [readCalls, pulseEdges], rfl⟩⟩
  | cons idle idles ih =>
      obtain ⟨enough, rest⟩ := ih (k + 1) ((device.conversions (k + 1)).busy - 1)
        (edges ++ pulseEdges (24 + gain.extraPulses))
      refine ⟨max enough (busy + 1), fun fuel large => ?_⟩
      obtain ⟨value, call, read⟩ := hx711ReadRaw_eq (k := k) gain edges cycle
        (show busy - idle < fuel by omega)
      obtain ⟨left, values, calls, reads⟩ := rest fuel (by omega)
      refine ⟨left, value :: values, ?_, ?_⟩
      · have first : World.etsDelayUs ⟨⟨device, k, busy, 0⟩, false, edges⟩ idle =
            ⟨⟨device, k, busy - idle, 0⟩, false, edges⟩ := rfl
        have index : k + 1 + idles.length = k + (idle :: idles).length := by
          rw [List.length_cons]
          omega
        have pulses : 24 + gain.extraPulses + idles.length * (24 + gain.extraPulses) =
            (idle :: idles).length * (24 + gain.extraPulses) := by
          rw [List.length_cons, Nat.succ_mul, Nat.add_comm]
        rw [readCalls, first, call]
        show (readCalls gain fuel idles _).bind (fun rest => some (rest.1, value :: rest.2)) = _
        rw [calls, List.append_assoc, ← pulseEdges_add, index, pulses]
        rfl
      · rw [List.map_cons, read, reads]
        rfl

/-- **The read decodes two's complement and stays in step**: on a converter whose cycle is
`24 + gain` pulses, any number of calls returns, each with the value of its own conversion, and
together they leave that many pulses on SCK, which ends low. -/
theorem hx711ReadRaw_in_step (gain : Gain) (conversions : Nat → Conversion) (idles : List Nat) :
    ∃ enough, ∀ fuel ≥ enough, ∃ w values,
      readCalls gain fuel idles (.start ⟨conversions, 24 + gain.extraPulses⟩) = some (w, values) ∧
      values.map Int32.toInt = (List.range idles.length).map (fun i => (conversions i).value) ∧
      w.edges = pulseEdges (idles.length * (24 + gain.extraPulses)) ∧ w.sck = false ∧
      w.converter.index = idles.length ∧ w.converter.pulses = 0 := by
  obtain ⟨enough, runs⟩ := readCalls_eq gain ⟨conversions, 24 + gain.extraPulses⟩ rfl idles 0
    (conversions 0).busy []
  refine ⟨enough, fun fuel large => ?_⟩
  obtain ⟨left, values, calls, reads⟩ := runs fuel large
  refine ⟨_, values, calls, ?_, rfl, rfl, Nat.zero_add _, rfl⟩
  rw [reads, List.range_eq_range']

/-! ### Any converter -/

theorem clockBit_iterate_lt (w : World) (n : Nat) (fits : n ≤ 31) :
    (clockBit^[n] (w, 0)).2.toNat < 2 ^ n := by
  induction n with
  | zero => exact Nat.one_pos
  | succ n ih =>
      have small := ih (by omega)
      have word : (clockBit^[n] (w, 0)).2.toNat < 2 ^ 31 :=
        small.trans_le (Nat.pow_le_pow_right Nat.two_pos (by omega))
      rw [Function.iterate_succ_apply', clockBit]
      dsimp only
      rw [toNat_shift_or word]
      exact shiftIn_lt small _

/-- Whatever is on the line, the driver gets a 24-bit reading. -/
theorem hx711ReadRaw_is24Bit {gain : Gain} {fuel : Nat} {w after : World} {value : Int32}
    (returned : hx711ReadRaw gain fuel w = some (after, value)) : Is24Bit value.toInt := by
  obtain ⟨ready, _, result⟩ := Option.map_eq_some_iff.mp returned
  obtain ⟨-, rfl⟩ := Prod.mk.inj result
  have low := Int.le_bmod (x := ((clockBit^[24] (ready, 0)).2.toNat : Int)) (Nat.two_pow_pos 24)
  have high := Int.bmod_lt (x := ((clockBit^[24] (ready, 0)).2.toNat : Int)) (Nat.two_pow_pos 24)
  rw [signExtend_toInt (clockBit_iterate_lt ready 24 (by omega))]
  exact ⟨by omega, by omega⟩

end SmartScale.Hx711
