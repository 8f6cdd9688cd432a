import SmartScale.Base.Decimal
import SmartScale.WeightManager.RemoteWeight
import SmartScale.WeightManager.Scale

/-!
The text of a response to `GET /weight` (`wifi/wifi_comm.c`): `weight_get_handler` prints the
weight into `char json[64]` and sends as many bytes as `snprintf` returned, which is the length the
text would have had in a buffer large enough.

* `weightGetHandlerSend_eq`: every finite `float` fits, so that what is sent is the whole text and
  nothing of the buffer beyond it.
* `served_text_read`: what a client reads in a response of the scale is, to half a hundredth, the
  filtered value that was taken, and it lies between readings taken until then.

A `float` is less than `2 ^ 128`, and `%.2f` rounds its exact value to the nearest hundredth.
-/

namespace SmartScale.WifiComm

open SmartScale.WeightManager SmartScale.Calibration SmartScale.Transducer SmartScale.Decimal
open SmartScale.Rounding SmartScale.Hx711

/-! ### Printing -/

/-- `snprintf` of `text` into a buffer of `size` characters: the buffer, `none` where nothing was
written, and the value returned. -/
def snprintf (size : Nat) (text : List Char) : List (Option Char) × Nat :=
  let written := (text.take (size - 1)).map some ++ [some (Char.ofNat 0)]
  (written ++ List.replicate (size - written.length) none, text.length)

/-- `httpd_resp_send`: the characters sent, if it reads none that was not written. -/
def httpdRespSend (buffer : List (Option Char)) (len : Nat) : Option (List Char) :=
  if len ≤ buffer.length then (buffer.take len).mapM id else none

/-- `%.2f` -/
def twoPlaces (v : ℚ) : List Char := fixed 2 (decide (v < 0)) (hundredths v).natAbs

/-- What stands before the number. -/
def weightKey : List Char := "\x7b\"weight\":".toList

/-- `"\x7b\"weight\":%.2f\x7d"` -/
def weightJson (weight : ℚ) : List Char := weightKey ++ twoPlaces weight ++ ['}']

/-- What `weight_get_handler` sends for a weight it took off the queue. -/
def weightGetHandlerSend (weight : ℚ) : Option (List Char) :=
  let json := snprintf 64 (weightJson weight)
  httpdRespSend json.1 json.2

/-- The number in an object with one member `weight`, as a client reads it. -/
def readWeight? (text : List Char) : Option ℚ :=
  if weightKey <+: text ∧ text.getLast? = some '}' then
    readNumber? (text.drop weightKey.length).dropLast
  else none

section Printing

variable {v : ℚ}

/-- A text that leaves room for the NUL is sent as it is. -/
theorem httpdRespSend_snprintf {size : Nat} {text : List Char} (room : text.length < size) :
    httpdRespSend (snprintf size text).1 (snprintf size text).2 = some text := by
  have whole : text.take (size - 1) = text := List.take_of_length_le (by omega)
  have sent : ((snprintf size text).1).take text.length = text.map some := by
    simp only [snprintf, whole, List.append_assoc]
    rw [List.take_append_of_le_length (List.length_map _).ge, ← List.length_map (f := some),
      List.take_length]
  have enough : (snprintf size text).2 ≤ (snprintf size text).1.length := by
    simp only [snprintf, whole, List.length_append, List.length_map]
    omega
  rw [httpdRespSend, if_pos enough]
  show ((snprintf size text).1.take text.length).mapM id = some text
  rw [sent, List.mapM_map]
  exact (List.mapM_pure (m := Option) (f := id)).trans (congrArg some (List.map_id text))

theorem abs_hundredths_sub_le (v : ℚ) : |100 * v - hundredths v| ≤ 1 / 2 :=
  (roundsTo_roundHalfEven (100 * v)).elim le_of_lt fun tie => tie.1.le

/-- The room the text takes. -/
theorem length_weightJson_lt (finite : |v| < 2 ^ 128) : (weightJson v).length < 64 := by
  have near := abs_hundredths_sub_le v
  have bound : |(hundredths v : ℚ)| ≤ 100 * 2 ^ 128 + 1 / 2 := by
    have split : (hundredths v : ℚ) = 100 * v - (100 * v - hundredths v) := by ring
    rw [split]
    refine (abs_sub _ _).trans ?_
    rw [abs_mul, abs_of_nonneg (by norm_num : (0 : ℚ) ≤ 100)]
    linarith
  have small : (hundredths v).natAbs / 10 ^ 2 < 10 ^ 39 := by
    have cast : (((hundredths v).natAbs : ℕ) : ℚ) = |(hundredths v : ℚ)| := by
      rw [Nat.cast_natAbs, Int.cast_abs]
    have below : (((hundredths v).natAbs : ℕ) : ℚ) < ((10 ^ 2 * 10 ^ 39 : ℕ) : ℚ) := by
      rw [cast]
      refine bound.trans_lt ?_
      norm_num
    rw [Nat.div_lt_iff_lt_mul (by norm_num), Nat.mul_comm]
    exact_mod_cast below
  have number : (twoPlaces v).length ≤ 39 + 2 + 2 :=
    length_fixed_le (by norm_num) small
  have key : weightKey.length = 10 := rfl
  simp only [weightJson, List.length_append, List.length_singleton, key]
  omega

/-- **The whole text is sent**, and nothing else. -/
theorem weightGetHandlerSend_eq (finite : |v| < 2 ^ 128) :
    weightGetHandlerSend v = some (weightJson v) :=
  httpdRespSend_snprintf (length_weightJson_lt finite)

/-- The sign printed is that of the hundredths, or there are none. -/
theorem readNumber?_twoPlaces (v : ℚ) :
    readNumber? (twoPlaces v) = some ((hundredths v : ℚ) / 100) := by
  have near := abs_le.mp (abs_hundredths_sub_le v)
  rw [twoPlaces, readNumber?_fixed (by norm_num)]
  by_cases negative : v < 0
  · have sign : hundredths v ≤ 0 := by
      have below : (hundredths v : ℚ) < 1 := by linarith
      have : hundredths v < 1 := by exact_mod_cast below
      omega
    have cast : (((hundredths v).natAbs : ℕ) : ℚ) = -(hundredths v : ℚ) := by
      rw [Nat.cast_natAbs, Int.cast_abs, abs_of_nonpos (by exact_mod_cast sign)]
    simp only [negative, decide_true, if_true, cast]
    norm_num
    ring
  · have sign : 0 ≤ hundredths v := by
      have above : -1 < (hundredths v : ℚ) := by linarith [not_lt.mp negative]
      have : -1 < hundredths v := by exact_mod_cast above
      omega
    have cast : (((hundredths v).natAbs : ℕ) : ℚ) = (hundredths v : ℚ) := by
      rw [Nat.cast_natAbs, Int.cast_abs, abs_of_nonneg (by exact_mod_cast sign)]
    simp only [negative, decide_false, Bool.false_eq_true, if_false, cast]
    norm_num

/-- **Round trip**: a client reads the hundredths printed. -/
theorem readWeight?_weightJson (v : ℚ) :
    readWeight? (weightJson v) = some ((hundredths v : ℚ) / 100) := by
  have keyed : weightKey <+: weightJson v := by
    rw [weightJson, List.append_assoc]
    exact List.prefix_append ..
  have closed : (weightJson v).getLast? = some '}' := List.getLast?_concat
  have number : ((weightJson v).drop weightKey.length).dropLast = twoPlaces v := by
    rw [weightJson, List.append_assoc, List.drop_left, List.dropLast_concat]
  rw [readWeight?, if_pos ⟨keyed, closed⟩, number]
  exact readNumber?_twoPlaces v

/-- Rounding to hundredths does not pass a whole number. -/
theorem hundredths_between {lo hi : Int} (inside : v ∈ Set.Icc (lo : ℚ) hi) :
    (hundredths v : ℚ) / 100 ∈ Set.Icc (lo : ℚ) hi := by
  have near := abs_le.mp (abs_hundredths_sub_le v)
  have lower : 100 * lo ≤ hundredths v := by
    have above : ((100 * lo - 1 : ℤ) : ℚ) < hundredths v := by
      push_cast
      linarith [inside.1]
    have : 100 * lo - 1 < hundredths v := by exact_mod_cast above
    omega
  have upper : hundredths v ≤ 100 * hi := by
    have below : (hundredths v : ℚ) < ((100 * hi + 1 : ℤ) : ℚ) := by
      push_cast
      linarith [inside.2]
    have : hundredths v < 100 * hi + 1 := by exact_mod_cast below
    omega
  have lower' : (100 : ℚ) * lo ≤ hundredths v := by exact_mod_cast lower
  have upper' : (hundredths v : ℚ) ≤ 100 * hi := by exact_mod_cast upper
  constructor <;> linarith

end Printing

/-! ### What a client reads -/

/-- A value between 24-bit readings is a finite `float`. -/
theorem abs_lt_of_mem_hull {raws : List Int} (bits : ∀ x ∈ raws, Is24Bit x) {v : ℚ}
    (inside : v ∈ hull raws) : |v| < 2 ^ 128 := by
  obtain ⟨lower, upper⟩ := hull_bounds (by norm_num) (by norm_num) bits
  have lower' : ((-2 ^ 23 : ℤ) : ℚ) ≤ lowest raws := by exact_mod_cast lower
  have upper' : (highest raws : ℚ) ≤ ((2 ^ 23 - 1 : ℤ) : ℚ) := by exact_mod_cast upper
  push_cast at lower' upper'
  refine lt_of_le_of_lt (abs_le.mpr ⟨?_, ?_⟩) (by norm_num : (2 ^ 23 : ℚ) < 2 ^ 128)
  · exact lower'.trans inside.1
  · linarith [inside.2]

/-- **From the converter to the client**: whatever the tasks do in a run, a request that is
answered with a weight is sent a whole JSON text, and the number in it is, to half a hundredth,
the filtered value taken, and lies between readings taken until then. The estimate starts from
0, so that 0 counts as one. -/
theorem served_text_read (s : Driver) (sMaBuf : Option (List ℚ)) (cfg : Config) (raw0 : Int)
    (cal : CalibrationT) (turns : List Turn) (hq : 0 < cfg.qInit) (hr : 0 < cfg.rInit)
    (bits : ∀ x ∈ raw0 :: readings turns, Is24Bit x) (i : Nat) (e : Event)
    (emitted : (outputs (scaleTurn cal) (.start (hx711Init s sMaBuf cfg raw0)) turns)[i]? =
      some (some e))
    (v : ℚ) (served : e.response = some (.weight v)) :
    ∃ text q, weightGetHandlerSend v = some text ∧ readWeight? text = some q ∧
      |q - v| ≤ 1 / 200 ∧ (∃ x ∈ 0 :: raw0 :: readings (turns.take (i + 1)), (x : ℚ) ≤ q) ∧
      ∃ y ∈ 0 :: raw0 :: readings (turns.take (i + 1)), q ≤ (y : ℚ) := by
  set raws := raw0 :: readings (turns.take (i + 1)) with taken
  have inside : v ∈ hull raws :=
    (emitted_from s sMaBuf cfg raw0 cal turns hq hr i e emitted).served v served
  have bits' : ∀ x ∈ raws, Is24Bit x := by
    intro x member
    refine bits x ?_
    rcases List.mem_cons.mp member with rfl | read
    · exact List.mem_cons_self
    · obtain ⟨turn, mem, reading⟩ := List.mem_filterMap.mp read
      exact List.mem_cons_of_mem _
        (List.mem_filterMap.mpr ⟨turn, List.mem_of_mem_take mem, reading⟩)
  have near := abs_le.mp (abs_hundredths_sub_le v)
  obtain ⟨lower, upper⟩ := hundredths_between inside
  refine ⟨_, _, weightGetHandlerSend_eq (abs_lt_of_mem_hull bits' inside), readWeight?_weightJson v,
    abs_le.mpr ⟨by linarith, by linarith⟩, ⟨_, lowest_mem raws, lower⟩, _, highest_mem raws, upper⟩

theorem is24Bit_readings_40 :
    ∀ x ∈ -5 :: readings [.hx711RtosTask true 40, .weightGetHandler], Is24Bit x := by
  simp [readings, Turn.reading, Is24Bit]

/-- A priming read of -5 and a reading of 40, which is served. -/
theorem served_text_read_40 :
    ∃ e v text q,
      (outputs (scaleTurn ⟨1, 0⟩)
        (.start (hx711Init .boot (some (List.replicate 8 0)) ⟨8, false, 1 / 2, 1⟩ (-5)))
        [.hx711RtosTask true 40, .weightGetHandler])[1]? = some (some e) ∧
      e.response = some (.weight v) ∧
      weightGetHandlerSend v = some text ∧ readWeight? text = some q ∧ |q - v| ≤ 1 / 200 ∧
      (∃ x ∈ ([0, -5, 40] : List Int), (x : ℚ) ≤ q) ∧
      ∃ y ∈ ([0, -5, 40] : List Int), q ≤ (y : ℚ) := by
  obtain ⟨text, q, read⟩ := served_text_read .boot (some (List.replicate 8 0))
    ⟨8, false, 1 / 2, 1⟩ (-5) ⟨1, 0⟩ [.hx711RtosTask true 40, .weightGetHandler] (by norm_num)
    (by norm_num) is24Bit_readings_40 1 _ rfl _ rfl
  exact ⟨_, _, text, q, rfl, rfl, read⟩

end SmartScale.WifiComm
