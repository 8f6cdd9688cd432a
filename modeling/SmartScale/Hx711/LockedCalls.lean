import SmartScale.Base.CriticalSection
import SmartScale.Hx711.ReadRaw

/-!
The functions of `hx711/hx711.c` that take `scale->mutex`, which `hx711_init_rtos` created, called
by any number of tasks: `hx711_read_raw_rtos`, `hx711_read_filtered_rtos`, `hx711_rtos_task` and
`hx711_read_median_rtos`. A task goes on by one statement of `hx711_read_raw`, or by one stage of
the filters; in between, any time may pass and any other task may go on.

* `readStep` is `hx711_read_raw` one statement at a time; `readStep_atPlace` says where the
  converter is at each of them.
* `sectionStep` is what a task does while it holds the mutex. Its sections are the calls of
  `Hx711.Driver` (`section_serves`), each on the conversions that come next (`serve`).
* `locked_calls_sequential`: in every interleaving, the tasks' calls are such calls one after
  another. `locked_calls_within_hull` carries the hull over to all of them.

The converter is the one of `Hx711.ReadRaw`, which does not power down while SCK is high.
-/

namespace SmartScale.Hx711

open SmartScale.BitSerial SmartScale.CriticalSection SmartScale.Transducer SmartScale.Schedule
open SmartScale.Binary32 SmartScale.MovingAverage

/-! ### The read, statement by statement -/

/-- Where `hx711_read_raw` goes on: its waiting loop, iteration `i` of the loop over the bits, and
iteration `i` of the loop over the extra pulses. -/
inductive ReadPc where
  | poll
  | pollDelay
  | rise (i : Nat) (val : UInt32)
  | riseDelay (i : Nat) (val : UInt32)
  | sample (i : Nat) (val : UInt32)
  | fall (i : Nat) (val : UInt32)
  | fallDelay (i : Nat) (val : UInt32)
  | extraRise (i : Nat) (val : UInt32)
  | extraRiseDelay (i : Nat) (val : UInt32)
  | extraFall (i : Nat) (val : UInt32)
  | extraFallDelay (i : Nat) (val : UInt32)

/-- One statement of `hx711_read_raw`. -/
def readStep (gain : Gain) (w : World) : ReadPc → World × (ReadPc ⊕ Int32)
  | .poll => (w, .inl (if w.gpioGetLevel then .pollDelay else .rise 0 0))
  | .pollDelay => (w.etsDelayUs 1, .inl .poll)
  | .rise i val => (w.gpioSetLevel true, .inl (.riseDelay i val))
  | .riseDelay i val => (w.etsDelayUs 1, .inl (.sample i val))
  | .sample i val => (w, .inl (.fall i ((val <<< 1) ||| (if w.gpioGetLevel then 1 else 0))))
  | .fall i val => (w.gpioSetLevel false, .inl (.fallDelay i val))
  | .fallDelay i val =>
      (w.etsDelayUs 1, .inl (if i + 1 < 24 then .rise (i + 1) val else .extraRise 0 val))
  | .extraRise i val => (w.gpioSetLevel true, .inl (.extraRiseDelay i val))
  | .extraRiseDelay i val => (w.etsDelayUs 1, .inl (.extraFall i val))
  | .extraFall i val => (w.gpioSetLevel false, .inl (.extraFallDelay i val))
  | .extraFallDelay i val =>
      (w.etsDelayUs 1,
        if i + 1 < gain.extraPulses then .inl (.extraRise (i + 1) val) else .inr (signExtend val))

/-! ### The sections -/

/-- The functions that take the mutex; `filtered` is `hx711_read_filtered_rtos`, and what
`hx711_rtos_task` does under the mutex. -/
inductive Request where
  | raw
  | filtered
  | median
deriving DecidableEq, Repr

/-- Where a task goes on while it holds the mutex. -/
inductive SectionPc where
  | raw (pc : ReadPc)
  | filtered (pc : ReadPc)
  | average (w : ℚ)
  | estimate (w : ℚ)
  | track (w : ℚ)
  | window
  | sampling (size : Nat) (samples : List Int) (pc : ReadPc)
  | cascade (size : Nat) (samples : List Int)
  | medianAverage (w : ℚ)
  | medianTrack (w : ℚ)

/-- The converter with its lines, and the static variables of `hx711.c`. -/
abbrev Guarded := World × Driver

/-- What follows a sample of the median read: the next one, or the cascade. -/
def afterSample (size : Nat) (samples : List Int) : SectionPc :=
  if samples.length < size then .sampling size samples .poll else .cascade size samples

/-- One statement under the mutex. -/
def sectionStatement (gain : Gain) (s : Guarded) : SectionPc → Guarded × (SectionPc ⊕ ℚ)
  | .raw pc =>
      let next := readStep gain s.1 pc
      ((next.1, s.2), next.2.elim (.inl ∘ .raw) fun raw => .inr (raw.toInt : ℚ))
  | .filtered pc =>
      let next := readStep gain s.1 pc
      ((next.1, s.2), .inl (next.2.elim .filtered fun raw => .average raw.toInt))
  | .average w =>
      let averaged := stepAwareMovingAverage s.2 w
      ((s.1, { s.2 with sMa := averaged.1 }), .inl (.estimate averaged.2))
  | .estimate w =>
      let estimated := stepAwareKalman s.2 w
      ((s.1, { s.2 with sKf := estimated.1, sBoostCount := estimated.2.1 }),
        .inl (.track estimated.2.2))
  | .track w => ((s.1, { s.2 with sLastOutput := w }), .inr w)
  | .window =>
      let size := nextAdaptiveWindow s.2
      ((s.1, { s.2 with adaptiveWindow := size }), .inl (afterSample size []))
  | .sampling size samples pc =>
      let next := readStep gain s.1 pc
      ((next.1, s.2),
        .inl (next.2.elim (.sampling size samples) fun raw =>
          afterSample size (samples ++ [raw.toInt])))
  | .cascade size samples =>
      (s, .inl (.medianAverage ((medianCascade samples).getD (size - 1) 0 : Int)))
  | .medianAverage w =>
      let averaged := medianMovingAverage s.2 w
      ((s.1, { s.2 with sMa := averaged.1 }), .inl (.medianTrack averaged.2))
  | .medianTrack w => ((s.1, { s.2 with sLastOutput := w }), .inr (truncate w))

/-- A statement, and the time until the task goes on. -/
def sectionStep (gain : Gain) (s : Guarded) (pc : SectionPc) (us : Nat) :
    Guarded × (SectionPc ⊕ ℚ) :=
  let next := sectionStatement gain s pc
  ((next.1.1.etsDelayUs us, next.1.2), next.2)

/-- The sections of the tasks. -/
def sections (gain : Gain) : Sections Guarded Request SectionPc ℚ Nat where
  enter
    | .raw => .raw .poll
    | .filtered => .filtered .poll
    | .median => .window
  step := sectionStep gain

/-! ### What the sections are for -/

/-- A call, served as a whole with the conversions from the `k`-th on. -/
def serve (device : Device) (s : Nat × Driver) : Request → (Nat × Driver) × CallResult
  | .raw => ((s.1 + 1, s.2), ⟨(device.conversions s.1).value, [(device.conversions s.1).value]⟩)
  | .filtered =>
      let call := callStep s.2 (.filtered (device.conversions s.1).value)
      ((s.1 + 1, call.1), call.2)
  | .median =>
      let call := callStep s.2 (.median true fun i => (device.conversions (s.1 + i)).value)
      ((s.1 + nextAdaptiveWindow s.2, call.1), call.2)

/-! ### Where the converter is -/

/-- SCK is low, `p` pulses into conversion `k`. -/
def low (device : Device) (k busy p : Nat) : World :=
  ⟨⟨device, k, busy, p⟩, false, pulseEdges (k * device.cycle + p)⟩

/-- SCK is high, in the pulse after `p` of them. -/
def high (device : Device) (k p : Nat) : World :=
  ⟨⟨device, k, 0, p + 1⟩, true, pulseEdges (k * device.cycle + p) ++ [.rising]⟩

section Lines

variable {device : Device} {k busy p us : Nat}

theorem low_rise : (low device k 0 p).gpioSetLevel true = high device k p := rfl

theorem low_wait : (low device k busy p).etsDelayUs us = low device k (busy - us) p := rfl

theorem high_wait : (high device k p).etsDelayUs us = high device k p := by
  simp [high, World.etsDelayUs, Converter.wait]

theorem pulse_ends (n : Nat) :
    pulseEdges n ++ [Edge.rising] ++ [.falling] = pulseEdges (n + 1) := by
  rw [pulseEdges_succ, List.append_assoc]
  rfl

theorem high_fall (more : p + 1 ≠ device.cycle) :
    (high device k p).gpioSetLevel false = low device k 0 (p + 1) := by
  simp [high, low, World.gpioSetLevel, Converter.fall, more, ← pulse_ends, ← Nat.add_assoc]

/-- The last pulse begins the next conversion. -/
theorem high_fall_last (last : p + 1 = device.cycle) :
    (high device k p).gpioSetLevel false =
      low device (k + 1) (device.conversions (k + 1)).busy 0 := by
  have count : (k + 1) * device.cycle = k * device.cycle + p + 1 := by
    rw [Nat.succ_mul, ← last]
    rfl
  simp [high, low, World.gpioSetLevel, Converter.fall, last, ← pulse_ends, count]

/-- The bit DOUT shows in the pulse after `p` of them. -/
theorem high_gpioGetLevel (data : p < 24) : (high device k p).gpioGetLevel =
    (pattern 24 (device.conversions k).value).testBit (23 - p) := by
  have bit : p + 1 ≤ 24 := data
  have index : 24 - (p + 1) = 23 - p := by omega
  simp [high, World.gpioGetLevel, Converter.dout, bit, index]

theorem low_gpioGetLevel : (low device k busy 0).gpioGetLevel = decide (0 < busy) := by
  cases busy <;> simp [low, World.gpioGetLevel, Converter.dout]

end Lines

/-! ### The read under the mutex -/

/-- `val` holds the first `i` bits of conversion `k`. -/
def Leading (device : Device) (k i : Nat) (val : UInt32) : Prop :=
  val.toNat = pattern 24 (device.conversions k).value / 2 ^ (24 - i)

/-- The converter, at a statement of `hx711_read_raw` in conversion `k`. -/
def AtPlace (gain : Gain) (device : Device) (k : Nat) (w : World) : ReadPc → Prop
  | .poll | .pollDelay => ∃ busy, w = low device k busy 0
  | .rise i val => i < 24 ∧ Leading device k i val ∧ w = low device k 0 i
  | .riseDelay i val | .sample i val => i < 24 ∧ Leading device k i val ∧ w = high device k i
  | .fall i val => i < 24 ∧ Leading device k (i + 1) val ∧ w = high device k i
  | .fallDelay i val => i < 24 ∧ Leading device k (i + 1) val ∧ w = low device k 0 (i + 1)
  | .extraRise i val =>
      i < gain.extraPulses ∧ Leading device k 24 val ∧ w = low device k 0 (24 + i)
  | .extraRiseDelay i val | .extraFall i val =>
      i < gain.extraPulses ∧ Leading device k 24 val ∧ w = high device k (24 + i)
  | .extraFallDelay i val =>
      i < gain.extraPulses ∧ Leading device k 24 val ∧
        (i + 1 = gain.extraPulses ∧ (∃ busy, w = low device (k + 1) busy 0) ∨
          i + 1 ≠ gain.extraPulses ∧ w = low device k 0 (24 + (i + 1)))

section Read

variable {gain : Gain} {device : Device} {k : Nat} {w : World} {pc : ReadPc}

theorem Gain.extraPulses_pos (gain : Gain) : 0 < gain.extraPulses := by
  cases gain <;> decide

/-- Time passes everywhere in a read. -/
theorem AtPlace.wait (h : AtPlace gain device k w pc) (us : Nat) :
    AtPlace gain device k (w.etsDelayUs us) pc := by
  cases pc with
  | poll | pollDelay =>
      obtain ⟨busy, rfl⟩ := h
      exact ⟨_, low_wait⟩
  | rise | fallDelay | extraRise =>
      obtain ⟨inside, bits, rfl⟩ := h
      exact ⟨inside, bits, by rw [low_wait, Nat.zero_sub]⟩
  | riseDelay | sample | fall | extraRiseDelay | extraFall =>
      obtain ⟨inside, bits, rfl⟩ := h
      exact ⟨inside, bits, high_wait⟩
  | extraFallDelay i val =>
      obtain ⟨inside, bits, there⟩ := h
      refine ⟨inside, bits, there.imp ?_ ?_⟩
      · rintro ⟨last, busy, rfl⟩
        exact ⟨last, _, low_wait⟩
      · rintro ⟨more, rfl⟩
        exact ⟨more, by rw [low_wait, Nat.zero_sub]⟩

theorem Leading.next {i : Nat} {val : UInt32} (bits : Leading device k i val) (data : i < 24) :
    Leading device k (i + 1) ((val <<< 1) |||
      (if (pattern 24 (device.conversions k).value).testBit (23 - i) then 1 else 0)) := by
  have small : val.toNat < 2 ^ 31 := by
    have bound := pattern_lt 24 (device.conversions k).value
    have below := Nat.div_le_self (pattern 24 (device.conversions k).value) (2 ^ (24 - i))
    rw [Leading] at bits
    omega
  have position : 24 - i = 23 - i + 1 := by omega
  have next : 24 - (i + 1) = 23 - i := by omega
  rw [Leading, toNat_shift_or small, bits, position, shiftIn_div, next]

/-- All 24 bits are the value. -/
theorem Leading.value {val : UInt32} (bits : Leading device k 24 val) :
    (signExtend val).toInt = (device.conversions k).value := by
  rw [Leading, Nat.sub_self, pow_zero, Nat.div_one] at bits
  have range := (device.conversions k).is24Bit
  rw [signExtend_toInt (by rw [bits]; exact pattern_lt 24 _), bits]
  exact bmod_pattern range.1 (Int.lt_of_le_sub_one range.2)

/-- **A statement of the read** leads to the next one, or ends with the value of the conversion
at the start of the next. -/
theorem readStep_atPlace (cycle : device.cycle = 24 + gain.extraPulses)
    (h : AtPlace gain device k w pc) :
    Sum.elim (AtPlace gain device k (readStep gain w pc).1)
      (fun raw => raw.toInt = (device.conversions k).value ∧
        ∃ busy, (readStep gain w pc).1 = low device (k + 1) busy 0)
      (readStep gain w pc).2 := by
  cases pc with
  | poll =>
      obtain ⟨busy, rfl⟩ := h
      simp only [readStep, Sum.elim_inl, low_gpioGetLevel]
      by_cases converting : 0 < busy
      · rw [if_pos (decide_eq_true converting)]
        exact ⟨busy, rfl⟩
      · obtain rfl : busy = 0 := by omega
        rw [if_neg (by simp)]
        refine ⟨by omega, ?_, rfl⟩
        have empty := Nat.div_eq_of_lt (pattern_lt 24 (device.conversions k).value)
        exact empty.symm
  | pollDelay =>
      obtain ⟨busy, rfl⟩ := h
      exact ⟨_, low_wait⟩
  | rise i val =>
      obtain ⟨inside, bits, rfl⟩ := h
      exact ⟨inside, bits, low_rise⟩
  | riseDelay i val =>
      obtain ⟨inside, bits, rfl⟩ := h
      exact ⟨inside, bits, high_wait⟩
  | sample i val =>
      obtain ⟨inside, bits, rfl⟩ := h
      refine ⟨inside, ?_, rfl⟩
      rw [high_gpioGetLevel inside]
      exact bits.next inside
  | fall i val =>
      obtain ⟨inside, bits, rfl⟩ := h
      have more : i + 1 ≠ device.cycle := by
        have extra := gain.extraPulses_pos
        omega
      exact ⟨inside, bits, high_fall more⟩
  | fallDelay i val =>
      obtain ⟨inside, bits, rfl⟩ := h
      have here : (low device k 0 (i + 1)).etsDelayUs 1 = low device k 0 (i + 1) := low_wait
      simp only [readStep, Sum.elim_inl, here]
      split
      · rename_i more
        exact ⟨more, bits, rfl⟩
      · have all : i + 1 = 24 := by omega
        rw [all] at bits
        exact ⟨gain.extraPulses_pos, bits, by rw [all]⟩
  | extraRise i val =>
      obtain ⟨inside, bits, rfl⟩ := h
      exact ⟨inside, bits, low_rise⟩
  | extraRiseDelay i val =>
      obtain ⟨inside, bits, rfl⟩ := h
      exact ⟨inside, bits, high_wait⟩
  | extraFall i val =>
      obtain ⟨inside, bits, rfl⟩ := h
      refine ⟨inside, bits, ?_⟩
      by_cases last : i + 1 = gain.extraPulses
      · have ends : 24 + i + 1 = device.cycle := by omega
        exact .inl ⟨last, _, high_fall_last ends⟩
      · have more : 24 + i + 1 ≠ device.cycle := by omega
        exact .inr ⟨last, high_fall more⟩
  | extraFallDelay i val =>
      have waited := (h.wait 1).2.2
      obtain ⟨inside, bits, _⟩ := h
      simp only [readStep]
      rcases waited with ⟨last, waited⟩ | ⟨more, waited⟩
      · rw [if_neg last.not_lt]
        exact ⟨bits.value, waited⟩
      · have next : i + 1 < gain.extraPulses := by omega
        rw [if_pos next]
        exact ⟨next, bits, waited⟩

end Read

/-! ### The sections are calls -/

/-- The converter is at the start of conversion `k`, or waits there to be read. -/
def Idle (device : Device) (k : Nat) (w : World) : Prop := ∃ busy, w = low device k busy 0

/-- The values of `n` conversions from the `k`-th on. -/
def Device.values (device : Device) (k n : Nat) : List Int :=
  (List.range n).map fun i => (device.conversions (k + i)).value

@[simp] theorem Device.length_values {device : Device} {k n : Nat} :
    (device.values k n).length = n := by
  simp [Device.values]

theorem Device.values_succ {device : Device} {k n : Nat} :
    device.values k (n + 1) = device.values k n ++ [(device.conversions (k + n)).value] := by
  simp [Device.values, List.range_succ]

theorem Device.values_add {device : Device} {k m n : Nat} :
    device.values k (m + n) = device.values k m ++ device.values (k + m) n := by
  simp [Device.values, List.range_add, Nat.add_assoc, Function.comp_def]

/-- The moving-average stage of the median read, on the conversions from the `k`-th on. -/
def medianStage (device : Device) (k : Nat) (d : Driver) : MovingAvg × ℚ :=
  medianMovingAverage d
    ((medianCascade (device.values k (nextAdaptiveWindow d))).getD (nextAdaptiveWindow d - 1) 0 :
      Int)

/-- How far a section has come that began in conversion `k` with the driver `d`. -/
def AtSection (gain : Gain) (device : Device) (k : Nat) (d : Driver) (s : Guarded) :
    Request → SectionPc → Prop
  | .raw, .raw pc | .filtered, .filtered pc => AtPlace gain device k s.1 pc ∧ s.2 = d
  | .filtered, .average w =>
      Idle device (k + 1) s.1 ∧ s.2 = d ∧ w = (device.conversions k).value
  | .filtered, .estimate w =>
      Idle device (k + 1) s.1 ∧
        s.2 = { d with sMa := (stepAwareMovingAverage d (device.conversions k).value).1 } ∧
        w = (stepAwareMovingAverage d (device.conversions k).value).2
  | .filtered, .track w =>
      Idle device (k + 1) s.1 ∧
        ({ s.2 with sLastOutput := w }, w) = hx711ReadFiltered d (device.conversions k).value
  | .median, .window => Idle device k s.1 ∧ s.2 = d
  | .median, .sampling size samples pc =>
      size = nextAdaptiveWindow d ∧ samples.length < size ∧
        samples = device.values k samples.length ∧
        AtPlace gain device (k + samples.length) s.1 pc ∧ s.2 = { d with adaptiveWindow := size }
  | .median, .cascade size samples =>
      size = nextAdaptiveWindow d ∧ samples = device.values k size ∧
        Idle device (k + size) s.1 ∧ s.2 = { d with adaptiveWindow := size }
  | .median, .medianAverage w =>
      Idle device (k + nextAdaptiveWindow d) s.1 ∧
        s.2 = { d with adaptiveWindow := nextAdaptiveWindow d } ∧
        w = ((medianCascade (device.values k (nextAdaptiveWindow d))).getD
          (nextAdaptiveWindow d - 1) 0 : Int)
  | .median, .medianTrack w =>
      Idle device (k + nextAdaptiveWindow d) s.1 ∧
        s.2 = { d with
          adaptiveWindow := nextAdaptiveWindow d
          sMa := (medianStage device k d).1 } ∧
        w = (medianStage device k d).2
  | _, _ => False

/-- A section that is over is the call it serves. -/
def Served (device : Device) (k : Nat) (d : Driver) (a : Request) (s : Guarded) (r : ℚ) : Prop :=
  Idle device (serve device (k, d) a).1.1 s.1 ∧
    (s.2, r) = ((serve device (k, d) a).1.2, (serve device (k, d) a).2.returned)

section Sections

variable {gain : Gain} {device : Device} {k : Nat} {d : Driver} {s : Guarded} {a : Request}
  {pc : SectionPc}

theorem Idle.wait {w : World} (idle : Idle device k w) (us : Nat) :
    Idle device k (w.etsDelayUs us) := by
  obtain ⟨busy, rfl⟩ := idle
  exact ⟨_, low_wait⟩

theorem AtSection.wait (h : AtSection gain device k d s a pc) (us : Nat) :
    AtSection gain device k d (s.1.etsDelayUs us, s.2) a pc := by
  cases a <;> cases pc <;> first | exact h.elim | skip
  case raw.raw | filtered.filtered => exact ⟨h.1.wait us, h.2⟩
  case median.sampling => exact ⟨h.1, h.2.1, h.2.2.1, h.2.2.2.1.wait us, h.2.2.2.2⟩
  case median.cascade => exact ⟨h.1, h.2.1, h.2.2.1.wait us, h.2.2.2⟩
  all_goals exact ⟨h.1.wait us, h.2⟩

theorem Served.wait {r : ℚ} (h : Served device k d a s r) (us : Nat) :
    Served device k d a (s.1.etsDelayUs us, s.2) r :=
  ⟨h.1.wait us, h.2⟩

/-- After `n` of the samples, the next one is read, or all are there. -/
theorem afterSample_atSection {n : Nat} (more : n ≤ nextAdaptiveWindow d)
    (idle : Idle device (k + n) s.1)
    (same : s.2 = { d with adaptiveWindow := nextAdaptiveWindow d }) :
    AtSection gain device k d s .median
      (afterSample (nextAdaptiveWindow d) (device.values k n)) := by
  rw [afterSample, Device.length_values]
  split
  · rename_i fewer
    refine ⟨rfl, ?_, ?_, ?_, same⟩
    · rwa [Device.length_values]
    · rw [Device.length_values]
    · rw [Device.length_values]
      exact idle
  · have all : n = nextAdaptiveWindow d := by omega
    subst all
    exact ⟨rfl, rfl, idle, same⟩

/-- **A statement of a section** leads to the next one, or ends the call. -/
theorem sectionStatement_atSection (cycle : device.cycle = 24 + gain.extraPulses)
    (h : AtSection gain device k d s a pc) :
    Sum.elim (AtSection gain device k d (sectionStatement gain s pc).1 a)
      (Served device k d a (sectionStatement gain s pc).1) (sectionStatement gain s pc).2 := by
  cases a <;> cases pc <;> first | exact h.elim | skip
  case raw.raw pc =>
    obtain ⟨place, same⟩ := h
    have read := readStep_atPlace cycle place
    simp only [sectionStatement]
    generalize readStep gain s.1 pc = next at read ⊢
    obtain ⟨w, next | raw⟩ := next
    · exact ⟨read, same⟩
    · refine ⟨read.2, ?_⟩
      simp only [Sum.elim_inr] at read
      simp [serve, same, read.1]
  case filtered.filtered pc =>
    obtain ⟨place, same⟩ := h
    have read := readStep_atPlace cycle place
    simp only [sectionStatement]
    generalize readStep gain s.1 pc = next at read ⊢
    obtain ⟨w, next | raw⟩ := next
    · exact ⟨read, same⟩
    · refine ⟨read.2, same, ?_⟩
      simp only [Sum.elim_inr] at read
      rw [read.1]
  case filtered.average w =>
    obtain ⟨idle, rfl, rfl⟩ := h
    exact ⟨idle, rfl, rfl⟩
  case filtered.estimate w =>
    obtain ⟨idle, same, rfl⟩ := h
    refine ⟨idle, ?_⟩
    simp only [sectionStatement, same]
    rfl
  case filtered.track w =>
    obtain ⟨idle, same⟩ := h
    exact ⟨idle, same⟩
  case median.window =>
    obtain ⟨idle, same⟩ := h
    subst same
    exact afterSample_atSection (n := 0) (Nat.zero_le _) idle rfl
  case median.sampling size samples pc =>
    obtain ⟨rfl, fewer, values, place, same⟩ := h
    have read := readStep_atPlace cycle place
    simp only [sectionStatement]
    generalize readStep gain s.1 pc = next at read ⊢
    obtain ⟨w, next | raw⟩ := next
    · exact ⟨rfl, fewer, values, read, same⟩
    · obtain ⟨value, idle⟩ := read
      have grown : samples ++ [raw.toInt] = device.values k (samples.length + 1) := by
        rw [Device.values_succ, ← values, value]
      simp only [Sum.elim_inr, Sum.elim_inl, grown]
      exact afterSample_atSection fewer idle same
  case median.cascade size samples =>
    obtain ⟨rfl, rfl, idle, same⟩ := h
    exact ⟨idle, same, rfl⟩
  case median.medianAverage w =>
    obtain ⟨idle, same, rfl⟩ := h
    refine ⟨idle, ?_⟩
    simp only [sectionStatement, same]
    exact ⟨rfl, rfl⟩
  case median.medianTrack w =>
    obtain ⟨idle, same, rfl⟩ := h
    refine ⟨idle, ?_⟩
    simp only [sectionStatement, same]
    rfl

/-- A section that nobody disturbs serves its request. -/
theorem section_serves (cycle : device.cycle = 24 + gain.extraPulses) {t : Guarded} {r : ℚ}
    (idle : Idle device k s.1)
    (completes : Completes (sections gain) s ((sections gain).enter a) t r) :
    Served device k s.2 a t r := by
  refine completes.rule (P := fun t pc => AtSection gain device k s.2 t a pc) ?_ ?_
  · cases a <;> exact ⟨idle, rfl⟩
  · intro t pc us h
    have next := sectionStatement_atSection cycle h
    show Sum.elim (AtSection gain device k s.2 (sectionStep gain t pc us).1 a)
      (Served device k s.2 a (sectionStep gain t pc us).1) (sectionStep gain t pc us).2
    rw [sectionStep]
    generalize sectionStatement gain t pc = result at next ⊢
    obtain ⟨u, pc' | r⟩ := result
    · exact next.wait us
    · exact next.wait us

end Sections

/-! ### Calls one after another -/

section Serve

variable {device : Device} {requests : List Request}

/-- A call takes the conversions that come next. -/
theorem serve_raws (device : Device) (v : Nat × Driver) (a : Request) :
    ∃ n, (serve device v a).1.1 = v.1 + n ∧ (serve device v a).2.raws = device.values v.1 n := by
  cases a with
  | raw | filtered => exact ⟨1, rfl, rfl⟩
  | median => exact ⟨_, rfl, rfl⟩

/-- **Run lemma.** Calls one after another take the conversions one after another. -/
theorem serve_run_raws (v : Nat × Driver) :
    ∃ n, (after (serve device) v requests).1 = v.1 + n ∧
      (outputs (serve device) v requests).flatMap CallResult.raws = device.values v.1 n := by
  induction requests generalizing v with
  | nil => exact ⟨0, rfl, rfl⟩
  | cons a requests ih =>
      obtain ⟨m, first, raws⟩ := serve_raws device v a
      obtain ⟨n, last, rest⟩ := ih (serve device v a).1
      refine ⟨m + n, ?_, ?_⟩
      · rw [after_cons, last, first, Nat.add_assoc]
      · rw [outputs_cons, List.flatMap_cons, raws, rest, first, Device.values_add]

/-- **Step lemma.** A call keeps the driver within bounds its conversions respect, and returns a
value within them. -/
theorem serve_withinHull {lo hi : ℚ} (zero : (0 : ℚ) ∈ Set.Icc lo hi) {v : Nat × Driver}
    {a : Request} (within : WithinHull lo hi v.2)
    (raws : ∀ x ∈ (serve device v a).2.raws, (x : ℚ) ∈ Set.Icc lo hi) :
    WithinHull lo hi (serve device v a).1.2 ∧ (serve device v a).2.returned ∈ Set.Icc lo hi := by
  cases a with
  | raw => exact ⟨within, raws _ List.mem_cons_self⟩
  | filtered => exact hx711ReadFiltered_withinHull within (raws _ List.mem_cons_self)
  | median => exact hx711ReadMedianRtos_withinHull zero within fun _ => raws

end Serve

/-! ### Any interleaving -/

section Interleaving

variable {τ : Type} {gain : Gain} {device : Device} {k : Nat} {d : Driver}
  {s : CriticalSection.State τ Guarded Request SectionPc ℚ}

/-- The calls served so far, one after another from conversion `k` and the driver `d` on. -/
def servedResults (device : Device) (k : Nat) (d : Driver)
    (s : CriticalSection.State τ Guarded Request SectionPc ℚ) : List CallResult :=
  outputs (serve device) (k, d) (s.finished.map Prod.fst)

/-- Where they leave the converter and the driver. -/
def servedState (device : Device) (k : Nat) (d : Driver)
    (s : CriticalSection.State τ Guarded Request SectionPc ℚ) : Nat × Driver :=
  after (serve device) (k, d) (s.finished.map Prod.fst)

/-- The tasks have been served as by calls one after another: with the results of these calls, on
consecutive conversions, and the next one starts where they end. -/
structure Sequential (device : Device) (k : Nat) (d : Driver)
    (s : CriticalSection.State τ Guarded Request SectionPc ℚ) : Prop where
  results : s.finished.map Prod.snd = (servedResults device k d s).map CallResult.returned
  conversions : ∃ n, (servedState device k d s).1 = k + n ∧
    (servedResults device k d s).flatMap CallResult.raws = device.values k n
  free : s.free = true →
    Idle device (servedState device k d s).1 s.shared.1 ∧ s.shared.2 = (servedState device k d s).2

/-- What the calls handed back, 0 where they timed out, lies in the hull of 0 and the conversions
read so far, and fits the converter's 24 bits. -/
def HandsBackWithinHull (device : Device) (primed : Driver)
    (s : CriticalSection.State τ Guarded Request SectionPc ℚ) : Prop :=
  ∀ call ∈ s.returns,
    call.result.getD 0 ∈ hull (device.values 0 (servedState device 1 primed s).1) ∧
      Is24Bit (truncate (call.result.getD 0))

theorem Sequential.of_serialised (cycle : device.cycle = 24 + gain.extraPulses) {busy : Nat}
    (serialised : Serialised (sections gain) (low device k busy 0, d) s) :
    Sequential device k d s := by
  have refined : Refined (serve device) (fun s v => Idle device v.1 s.1 ∧ s.2 = v.2)
      (fun r o => r = o.returned) (k, d) s := by
    refine serialised.refines ⟨⟨busy, rfl⟩, rfl⟩ ?_
    rintro ⟨w, _⟩ ⟨k, d⟩ a t r ⟨idle, rfl⟩ completes
    obtain ⟨next, result⟩ := section_serves cycle idle completes
    exact ⟨⟨next, (Prod.mk.inj result).1⟩, (Prod.mk.inj result).2⟩
  refine ⟨?_, serve_run_raws (k, d), refined.free⟩
  exact List.forall₂_eq_eq_eq ▸ List.forall₂_map_right_iff.mpr refined.results

variable [DecidableEq τ]

/-- **Reads under the mutex are never torn, lost or repeated**: however the statements of any
number of tasks interleave, whoever times out and however long anything takes, the calls served so
far return what calls one after another return, on consecutive conversions of the converter. -/
theorem locked_calls_sequential (gain : Gain) (conversions : Nat → Conversion) (k busy : Nat)
    (d : Driver) (actions : List (Action τ Request Nat)) :
    AllStates (step (sections gain)) (Sequential ⟨conversions, 24 + gain.extraPulses⟩ k d)
      (.start (low ⟨conversions, 24 + gain.extraPulses⟩ k busy 0, d)) actions :=
  (serial_states _ _ actions).mono fun _ => .of_serialised rfl

/-- **No task ever sees an overshoot**: after `hx711_init` on the first conversion, whatever the
tasks call and however they interleave, all they are handed back stays within the hull. -/
theorem locked_calls_within_hull (gain : Gain) (conversions : Nat → Conversion) (busy : Nat)
    (d : Driver) (sMaBuf : Option (List ℚ)) (cfg : Config) (hq : 0 < cfg.qInit)
    (hr : 0 < cfg.rInit) (actions : List (Action τ Request Nat)) :
    let device : Device := ⟨conversions, 24 + gain.extraPulses⟩
    let primed := hx711Init d sMaBuf cfg (conversions 0).value
    AllStates (step (sections gain)) (HandsBackWithinHull device primed)
      (.start (low device 1 busy 0, primed)) actions := by
  intro device primed
  refine (serial_states _ _ actions).mono ?_
  intro s serialised call mem
  obtain ⟨results, ⟨n, count, raws⟩, _⟩ := Sequential.of_serialised rfl serialised
  set read := hull (device.values 0 (servedState device 1 primed s).1)
  have zero : (0 : ℚ) ∈ read := zero_mem_hull _
  have all : device.values 0 (servedState device 1 primed s).1 =
      (conversions 0).value :: device.values 1 n := by
    rw [count, Device.values_add]
    rfl
  have start : WithinHull _ _ primed :=
    hx711Init_withinHull zero d sMaBuf hq hr (cast_mem_hull (by simp [all]))
  have consumed : ∀ o ∈ servedResults device 1 primed s, ∀ x ∈ o.raws, (x : ℚ) ∈ read := by
    intro o ho x hx
    refine cast_mem_hull ?_
    rw [all, ← raws]
    exact List.mem_cons_of_mem _ (List.mem_flatMap.mpr ⟨o, ho, hx⟩)
  have returned := (outputs_guarded (I := fun v : Nat × Driver => WithinHull _ _ v.2)
    (P := fun o => o.returned ∈ read) start consumed
    fun _ _ within => serve_withinHull zero within).2
  have member : call.result.getD 0 ∈ read := by
    refine State.forall_returns (P := (· ∈ read)) zero ?_ call mem
    rw [results]
    exact List.forall_mem_map.mpr returned
  refine ⟨member, is24Bit_of_mem_hull ?_ (truncate_mem_Icc zero member)⟩
  intro x hx
  obtain ⟨i, _, rfl⟩ := List.mem_map.mp hx
  exact (conversions _).is24Bit

theorem is24Bit_neg_five : Is24Bit (-5) := ⟨by norm_num, by norm_num⟩

/-- One task holds the mutex while another times out. -/
theorem locked_calls_within_hull_timeout :
    let device : Device := ⟨fun _ => ⟨2, -5, is24Bit_neg_five⟩, 25⟩
    let primed := hx711Init .boot none ⟨0, true, 1 / 2, 1⟩ (-5)
    AllStates (step (sections .gain128)) (HandsBackWithinHull device primed)
      (.start (low device 1 0 0, primed))
      [.call true .filtered, .call false .median, .take true, .go true 3, .timeOut false] :=
  locked_calls_within_hull .gain128 (fun _ => ⟨2, -5, is24Bit_neg_five⟩) 0 .boot none
    ⟨0, true, 1 / 2, 1⟩ (by norm_num) (by norm_num)
    [.call true .filtered, .call false .median, .take true, .go true 3, .timeOut false]

end Interleaving

end SmartScale.Hx711
