import Mathlib.Data.String.Basic
import SmartScale.Base.Decimal
import SmartScale.SpiffsManager.TimeLog

/-!
The order of the time log (`spiffs_manager/spiffs_manager.c`). A timestamp writes the fields of the
time from the largest to the smallest, each with a fixed width, so that timestamps compare as text
the way the times do (`strftime_lt_iff`).

* `log_sorted`: while the clock does not go back, the log stays sorted, whichever steps of an
  iteration fail.
-/

namespace SmartScale.SpiffsManager

open SmartScale.Decimal

/-- What `localtime_r` leaves, up to the year 9999. -/
structure Tm.Valid (tm : Tm) : Prop where
  year : tm.tmYear + 1900 ≤ 9999
  mon : tm.tmMon ≤ 11
  mday : tm.tmMday ≤ 31
  hour : tm.tmHour ≤ 23
  min : tm.tmMin ≤ 59
  sec : tm.tmSec ≤ 60

/-- The time as it is printed, the largest unit first. -/
def Tm.key (tm : Tm) : List Nat :=
  [(tm.tmYear + 1900).toNat, tm.tmMon + 1, tm.tmMday, tm.tmHour, tm.tmMin, tm.tmSec]

/-- `"%Y-%m-%d %H:%M:%S"` -/
def timestampFormat : List (Nat × List Char) :=
  [(4, ['-']), (2, ['-']), (2, [' ']), (2, [':']), (2, [':']), (2, [])]

section Timestamps

variable {tm tm' : Tm} {now now' : String}

theorem toList_twoDigits {n : Nat} (small : n < 100) : (twoDigits n).toList = padded 2 n := by
  rw [twoDigits]
  split
  · rename_i one
    have tens : n / 10 = 0 := by omega
    have digit : n % 10 = n := by omega
    simp [padded, tens, digit, Nat.toDigits_of_lt_base one]
  · rename_i two
    have digits : (toString n).toList = Nat.toDigits 10 n := by simp
    rw [digits, toDigits_eq_padded (by omega : 10 ^ 1 ≤ n) (by omega)]

theorem toList_year {y : Int} (lower : 1000 ≤ y) (upper : y ≤ 9999) :
    (toString y).toList = padded 4 y.toNat := by
  obtain ⟨n, rfl⟩ := Int.eq_ofNat_of_zero_le (by omega : 0 ≤ y)
  have digits : (toString (n : Int)).toList = Nat.toDigits 10 n := Nat.toList_repr
  rw [digits, Int.toNat_natCast, toDigits_eq_padded (by omega : 10 ^ 3 ≤ n) (by omega)]

theorem toList_strftime (valid : tm.Valid) (year : 2020 - 1900 ≤ tm.tmYear) :
    (strftime tm).toList = fields timestampFormat tm.key := by
  obtain ⟨upper, mon, mday, hour, min, sec⟩ := valid
  simp only [strftime, String.toList_append, toList_year (by omega) upper,
    toList_twoDigits (by omega : tm.tmMon + 1 < 100), toList_twoDigits (by omega : tm.tmMday < 100),
    toList_twoDigits (by omega : tm.tmHour < 100), toList_twoDigits (by omega : tm.tmMin < 100),
    toList_twoDigits (by omega : tm.tmSec < 100)]
  simp [fields, timestampFormat, Tm.key]

theorem fit_key (valid : tm.Valid) : Fit timestampFormat tm.key := by
  obtain ⟨upper, mon, mday, hour, min, sec⟩ := valid
  simp only [Fit, timestampFormat, Tm.key, List.forall₂_cons, List.Forall₂.nil, and_true]
  omega

/-- A timestamp and its NUL fit `char timestamp[32]`. -/
theorem length_strftime (valid : tm.Valid) (year : 2020 - 1900 ≤ tm.tmYear) :
    (strftime tm).length = 19 := by
  rw [← String.length_toList, toList_strftime valid year, length_fields (fit_key valid)]
  rfl

/-- **Timestamps compare as text the way the times do.** -/
theorem strftime_lt_iff (valid : tm.Valid) (valid' : tm'.Valid) (year : 2020 - 1900 ≤ tm.tmYear)
    (year' : 2020 - 1900 ≤ tm'.tmYear) : strftime tm < strftime tm' ↔ tm.key < tm'.key := by
  rw [String.lt_iff_toList_lt, toList_strftime valid year, toList_strftime valid' year']
  exact fields_lt_iff (fit_key valid) (fit_key valid')

theorem spiffsGetCurrentTimestamp_eq_some_iff :
    spiffsGetCurrentTimestamp tm = some now ↔ 2020 - 1900 ≤ tm.tmYear ∧ strftime tm = now := by
  rw [spiffsGetCurrentTimestamp]
  split
  · rename_i early
    exact iff_of_false (by simp) fun both => absurd both.1 (not_le.mpr early)
  · rename_i late
    rw [Option.some_inj, and_iff_right (not_lt.mp late)]

/-- Timestamps taken one after the other. -/
theorem timestamp_le (valid : tm.Valid) (valid' : tm'.Valid) (forward : ¬ tm'.key < tm.key)
    (taken : spiffsGetCurrentTimestamp tm = some now)
    (taken' : spiffsGetCurrentTimestamp tm' = some now') : now ≤ now' := by
  obtain ⟨year, rfl⟩ := spiffsGetCurrentTimestamp_eq_some_iff.mp taken
  obtain ⟨year', rfl⟩ := spiffsGetCurrentTimestamp_eq_some_iff.mp taken'
  rw [← not_lt, strftime_lt_iff valid' valid year' year]
  exact forward

end Timestamps

/-! ### The log -/

section Log

variable {parse : String → Option Json} {print : Json → String} {file : Option String}
  {it : Iteration}

theorem timestamps_newRoot : timestamps newRoot = [] := rfl

/-- The document an iteration works on has the timestamps of the file, or none. -/
theorem timestamps_loadRoot :
    timestamps (loadRoot parse file it) = heldTimestamps parse file ∨
      timestamps (loadRoot parse file it) = [] := by
  by_cases read : (it.openForReading && it.malloc) = true
  · rw [loadRoot_of_read read, heldTimestamps]
    cases file.bind parse with
    | none => exact .inr timestamps_newRoot
    | some root => exact .inl rfl
  · rw [loadRoot_of_not_read read]
    exact .inr timestamps_newRoot

/-- What an iteration makes of the timestamps in the file: it leaves or loses them, or adds one
to what it leaves. -/
theorem heldTimestamps_step (correct : PrintsBack parse print file it) :
    heldTimestamps parse (timeLoggingTask parse print file it) = heldTimestamps parse file ∨
      heldTimestamps parse (timeLoggingTask parse print file it) = [] ∨
      ∃ now kept, spiffsGetCurrentTimestamp it.clock = some now ∧
        heldTimestamps parse (timeLoggingTask parse print file it) =
          kept ++ [.string now] ∧
        (kept = heldTimestamps parse file ∨ kept = []) := by
  by_cases write : ∃ now, spiffsGetCurrentTimestamp it.clock = some now ∧
      it.print = true ∧ it.openForWriting = true
  · obtain ⟨now, clock, printed, opened⟩ := write
    rw [timeLoggingTask_of_write clock printed opened, heldTimestamps_some (correct now clock)]
    by_cases absent : Json.getItem? timestampsKey (loadRoot parse file it) = none
    · exact .inr (.inl (timestamps_logTimestamp_of_none absent))
    · exact .inr (.inr ⟨now, _, clock, timestamps_logTimestamp absent, timestamps_loadRoot⟩)
  · refine .inl (congrArg _ (timeLoggingTask_of_not_write ?_))
    intro now clock both
    exact write ⟨now, clock, both⟩

end Log

/-- **The log stays sorted.** As long as the clock does not go back, and the file is read back as
it was printed, the timestamps in it are in order, whichever files cannot be opened and whatever
memory there is not: an iteration may lose the timestamps it found, but never puts one before
them. -/
theorem log_sorted (parse : String → Option Json) (print : Json → String) (file : Option String)
    (its : List Iteration) (texts : List String)
    (correct : ∀ before it after, its = before ++ it :: after →
      PrintsBack parse print (fileAfter parse print file before) it)
    (valid : ∀ it ∈ its, it.clock.Valid)
    (forward : its.Pairwise fun it later => ¬ later.clock.key < it.clock.key)
    (held : heldTimestamps parse file = texts.map .string) (sorted : texts.Pairwise (· ≤ ·))
    (earlier : ∀ text ∈ texts, ∀ it ∈ its, ∀ now,
      spiffsGetCurrentTimestamp it.clock = some now → text ≤ now) :
    ∃ texts' : List String,
      heldTimestamps parse (fileAfter parse print file its) = texts'.map .string ∧
        texts'.Pairwise (· ≤ ·) := by
  induction its generalizing file texts with
  | nil => exact ⟨texts, held, sorted⟩
  | cons it its ih =>
      obtain ⟨first, rest⟩ := List.pairwise_cons.mp forward
      have valid' : ∀ it ∈ its, it.clock.Valid := fun it member =>
        valid it (List.mem_cons_of_mem _ member)
      have correct' : ∀ before it' after, its = before ++ it' :: after →
          PrintsBack parse print
            (fileAfter parse print (timeLoggingTask parse print file it) before) it' := by
        rintro before it' after rfl
        exact correct (it :: before) it' after rfl
      have earlier' : ∀ text ∈ texts, ∀ it' ∈ its, ∀ now,
          spiffsGetCurrentTimestamp it'.clock = some now → text ≤ now :=
        fun text there it' member => earlier text there it' (List.mem_cons_of_mem _ member)
      have here : PrintsBack parse print file it := correct [] it its rfl
      rcases heldTimestamps_step here with same | lost | ⟨now, kept, taken, added, old⟩
      · exact ih _ texts correct' valid' rest (same.trans held) sorted earlier'
      · exact ih _ [] correct' valid' rest lost .nil (by simp)
      · -- the timestamps kept are those of the file or none, and sorted either way
        obtain ⟨texts', keeps, sorted', before⟩ : ∃ texts' : List String,
            kept = texts'.map Json.string ∧ texts'.Pairwise (· ≤ ·) ∧
              ∀ text ∈ texts', text ≤ now := by
          rcases old with same | none_kept
          · exact ⟨texts, same.trans held, sorted,
              fun text there => earlier text there it List.mem_cons_self now taken⟩
          · exact ⟨[], none_kept, .nil, by simp⟩
        refine ih _ (texts' ++ [now]) correct' valid' rest ?_ ?_ ?_
        · rw [added, keeps, List.map_append]
          rfl
        · rw [List.pairwise_append]
          refine ⟨sorted', List.pairwise_singleton _ _, ?_⟩
          intro text there last member
          rw [List.mem_singleton.mp member]
          exact before text there
        · intro text there it' member now' taken'
          have next : now ≤ now' := timestamp_le (valid it List.mem_cons_self) (valid' it' member)
            (first it' member) taken taken'
          rcases List.mem_append.mp there with older | last
          · exact (before text older).trans next
          · rw [List.mem_singleton.mp last]
            exact next

/-- Five seconds after `nextIteration`. -/
def laterIteration : Iteration := ⟨true, true, true, true, ⟨124, 0, 1, 8, 0, 10⟩⟩

/-- The log before, between and after two iterations. -/
def growingLog : List Json :=
  [logOf ["2024-01-01 08:00:00"], logOf ["2024-01-01 08:00:00", "2024-01-01 08:00:05"],
    logOf ["2024-01-01 08:00:00", "2024-01-01 08:00:05", "2024-01-01 08:00:10"]]

/-- Two iterations after the one entry of the file. -/
theorem log_sorted_oneEntry :
    ∃ texts' : List String,
      heldTimestamps (parseAmong growingLog)
          (fileAfter (parseAmong growingLog) printLog oneEntry
            [nextIteration true, laterIteration]) = texts'.map .string ∧
        texts'.Pairwise (· ≤ ·) := by
  refine log_sorted _ _ oneEntry [nextIteration true, laterIteration] ["2024-01-01 08:00:00"]
    ?_ ?_ ?_ rfl (List.pairwise_singleton _ _) ?_
  · intro before it after split now clock
    rcases before with _ | ⟨first, _ | ⟨second, rest⟩⟩
    · obtain ⟨rfl, -⟩ := List.cons.inj split
      cases clock
      rfl
    · obtain ⟨rfl, tail⟩ := List.cons.inj split
      obtain ⟨rfl, -⟩ := List.cons.inj tail
      cases clock
      rfl
    · simp at split
  · intro it member
    rcases List.mem_pair.mp member with rfl | rfl <;> constructor <;> decide
  · exact List.pairwise_pair.mpr (by decide)
  · intro text there it member now clock
    rw [List.mem_singleton.mp there]
    rcases List.mem_pair.mp member with rfl | rfl <;> cases clock <;> decide

end SmartScale.SpiffsManager
