import Mathlib.Data.List.Induction
import SmartScale.Base.Json

/-!
The time log (`spiffs_manager/spiffs_manager.c`): every iteration of
`time_logging_task` reads `/spiffs/time_log.json`, appends the time, and writes the
file again.

A file that cannot be read is treated like one that is not there, and overwritten. A
document without timestamps is written back without the new one, which goes to an array
that is not part of it.

* `timestamps_logTimestamp`: what appending does to a document.
* `log_kept_iff`: the iterations that lose nothing.

The text format is a parameter: `parse` is `cJSON_Parse`, and `print` the text of
`cJSON_Print`.
-/

namespace SmartScale.SpiffsManager

open SmartScale.Json

/-! ### The time -/

/-- `struct tm`, the fields that are printed. -/
structure Tm where
  tmYear : Int
  tmMon : Nat
  tmMday : Nat
  tmHour : Nat
  tmMin : Nat
  tmSec : Nat
deriving DecidableEq, Repr

/-- `%m` and its like: at least two digits. -/
def twoDigits (n : Nat) : String := if n < 10 then "0" ++ toString n else toString n

/-- `strftime` with `"%Y-%m-%d %H:%M:%S"`. -/
def strftime (tm : Tm) : String :=
  toString (tm.tmYear + 1900) ++ "-" ++ twoDigits (tm.tmMon + 1) ++ "-" ++ twoDigits tm.tmMday ++
    " " ++ twoDigits tm.tmHour ++ ":" ++ twoDigits tm.tmMin ++ ":" ++ twoDigits tm.tmSec

def spiffsGetCurrentTimestamp (now : Tm) : Option String :=
  if now.tmYear < 2020 - 1900 then none else some (strftime now)

/-! ### The document -/

/-- `"timestamps"` -/
def timestampsKey : String := "timestamps"

/-- The document that is a log of the given entries. -/
def logOf (entries : List String) : Json :=
  .object [(timestampsKey, .array (entries.map Json.string))]

/-- The document for a file that could not be read or parsed. -/
def newRoot : Json := addItem timestampsKey (.array []) (.object [])

/-- `cJSON_AddItemToArray(array, …)` -/
def addToArray (item : Json) : Json → Json
  | .array items => .array (items ++ [item])
  | json => json

/-- An array takes the place of a member that is none. -/
def repairRoot (root : Json) : Json :=
  match getItem? timestampsKey root with
  | some (.array _) => root
  | _ => replaceItem timestampsKey (.array []) root

/-- The document with the new timestamp. Where `repairRoot` found nothing to replace, the
array it made is not part of the document, and nor is the timestamp. -/
def logTimestamp (timestamp : String) (root : Json) : Json :=
  mapItem timestampsKey (addToArray (.string timestamp)) (repairRoot root)

/-- The timestamps a document holds. -/
def timestamps (root : Json) : List Json :=
  match getItem? timestampsKey root with
  | some (.array items) => items
  | _ => []

/-! ### One iteration -/

/-- What succeeds in an iteration, and the clock. Opening a file that is not there fails
in any case. -/
structure Iteration where
  openForReading : Bool
  malloc : Bool
  print : Bool
  openForWriting : Bool
  clock : Tm
deriving DecidableEq, Repr

section Iterations

variable (parse : String → Option Json) (print : Json → String)

/-- The document read from the file, if it is there and could be read. -/
def loadRoot (file : Option String) (it : Iteration) : Json :=
  let buffer := if it.openForReading && it.malloc then file else none
  (buffer.bind parse).getD newRoot

/-- One iteration of `time_logging_task`: the file it leaves. -/
def timeLoggingTask (file : Option String) (it : Iteration) : Option String :=
  match spiffsGetCurrentTimestamp it.clock with
  | some timestamp =>
      if it.print && it.openForWriting then
        some (print (logTimestamp timestamp (loadRoot parse file it)))
      else file
  | none => file

/-- The timestamps a file holds; none if it is not there or is no document. -/
def heldTimestamps (file : Option String) : List Json :=
  ((file.bind parse).map timestamps).getD []

/-- The file is unchanged or has the new timestamp after all it had; and it has the new
one if no step failed. -/
structure LogKept (file : Option String) (it : Iteration) : Prop where
  kept : timeLoggingTask parse print file it = file ∨
    ∃ timestamp, spiffsGetCurrentTimestamp it.clock = some timestamp ∧
      heldTimestamps parse (timeLoggingTask parse print file it) =
        heldTimestamps parse file ++ [.string timestamp]
  logged : ∀ timestamp, spiffsGetCurrentTimestamp it.clock = some timestamp →
    it.openForReading = true → it.malloc = true → it.print = true → it.openForWriting = true →
      .string timestamp ∈ heldTimestamps parse (timeLoggingTask parse print file it)

/-- `cJSON_Parse` reads the text that the iteration prints as the document printed. -/
def PrintsBack (file : Option String) (it : Iteration) : Prop :=
  ∀ timestamp, spiffsGetCurrentTimestamp it.clock = some timestamp →
    parse (print (logTimestamp timestamp (loadRoot parse file it))) =
      some (logTimestamp timestamp (loadRoot parse file it))

/-- If an iteration that writes could not read the file, the file held no timestamp, or was the
log of the clock's timestamp alone; if it could, the file has a member for the timestamps or is
no document. -/
def KeepsLog (file : Option String) (it : Iteration) : Prop :=
  ∀ timestamp, spiffsGetCurrentTimestamp it.clock = some timestamp →
    it.print = true → it.openForWriting = true →
      if it.openForReading && it.malloc then
        ∀ root, file.bind parse = some root → getItem? timestampsKey root ≠ none
      else
        heldTimestamps parse file = [] ∨ file = some (print (logOf [timestamp]))

end Iterations

/-! ### Appending -/

section Documents

variable {timestamp : String} {root : Json}

theorem getItem?_repairRoot (there : getItem? timestampsKey root ≠ none) :
    getItem? timestampsKey (repairRoot root) = some (.array (timestamps root)) := by
  obtain ⟨item, found⟩ := Option.ne_none_iff_exists'.mp there
  rw [repairRoot, timestamps, found]
  cases item with
  | array items => exact found
  | _ => exact getItem?_replaceItem.trans (by rw [found]; rfl)

/-- A document with a member for the timestamps has the new one after those it had. -/
theorem timestamps_logTimestamp (there : getItem? timestampsKey root ≠ none) :
    timestamps (logTimestamp timestamp root) = timestamps root ++ [.string timestamp] := by
  rw [timestamps, logTimestamp, getItem?_mapItem, getItem?_repairRoot there]
  rfl

/-- One without still has none. -/
theorem timestamps_logTimestamp_of_none (absent : getItem? timestampsKey root = none) :
    timestamps (logTimestamp timestamp root) = [] := by
  have repaired : getItem? timestampsKey (repairRoot root) = none := by
    rw [repairRoot, absent]
    exact getItem?_replaceItem.trans (by rw [absent]; rfl)
  rw [timestamps, logTimestamp, getItem?_mapItem, repaired]
  rfl

theorem getItem?_newRoot : getItem? timestampsKey newRoot = some (.array []) := by
  simp only [newRoot, addItem, getItem?, List.nil_append]
  rw [List.find?_cons_of_pos hasKey_self]
  rfl

/-- A new document becomes the log of the new one alone. -/
theorem logTimestamp_newRoot : logTimestamp timestamp newRoot = logOf [timestamp] := by
  have whole : repairRoot newRoot = newRoot := by
    rw [repairRoot, getItem?_newRoot]
  rw [logTimestamp, whole]
  simp only [newRoot, addItem, mapItem, List.nil_append, mapMember, hasKey_self, if_true]
  rfl

theorem timestamps_logTimestamp_newRoot :
    timestamps (logTimestamp timestamp newRoot) = [.string timestamp] := by
  have there : getItem? timestampsKey newRoot ≠ none := by
    rw [getItem?_newRoot]
    exact Option.some_ne_none _
  rw [timestamps_logTimestamp there, timestamps, getItem?_newRoot]
  rfl

end Documents

/-! ### One iteration -/

section OneIteration

variable {parse : String → Option Json} {print : Json → String} {file : Option String}
  {it : Iteration} {timestamp : String} {root : Json}

theorem heldTimestamps_some {text : String} (parsed : parse text = some root) :
    heldTimestamps parse (some text) = timestamps root := by
  rw [heldTimestamps, Option.bind_some, parsed]
  rfl

/-- An iteration that writes. -/
theorem timeLoggingTask_of_write (clock : spiffsGetCurrentTimestamp it.clock = some timestamp)
    (printed : it.print = true) (opened : it.openForWriting = true) :
    timeLoggingTask parse print file it =
      some (print (logTimestamp timestamp (loadRoot parse file it))) := by
  simp only [timeLoggingTask, clock, printed, opened, Bool.and_self, if_true]

/-- One that does not leaves the file. -/
theorem timeLoggingTask_of_not_write
    (idle : ∀ timestamp, spiffsGetCurrentTimestamp it.clock = some timestamp →
      ¬ (it.print = true ∧ it.openForWriting = true)) :
    timeLoggingTask parse print file it = file := by
  unfold timeLoggingTask
  cases clock : spiffsGetCurrentTimestamp it.clock with
  | none => rfl
  | some timestamp =>
      have not : ¬ (it.print && it.openForWriting) = true := by
        rw [Bool.and_eq_true]
        exact idle timestamp clock
      exact if_neg not

theorem loadRoot_of_not_read (unread : ¬ (it.openForReading && it.malloc) = true) :
    loadRoot parse file it = newRoot := by
  simp only [loadRoot, if_neg unread, Option.bind_none, Option.getD_none]

theorem loadRoot_of_read (read : (it.openForReading && it.malloc) = true) :
    loadRoot parse file it = (file.bind parse).getD newRoot := by
  simp only [loadRoot, if_pos read]

/-- A written file is `LogKept` exactly when it holds what it held and the new timestamp,
or, not having been read, was just what is written. -/
theorem logKept_iff_of_write (clock : spiffsGetCurrentTimestamp it.clock = some timestamp)
    (printed : it.print = true) (opened : it.openForWriting = true) {written : Option String}
    (writes : timeLoggingTask parse print file it = written) :
    LogKept parse print file it ↔
      heldTimestamps parse written = heldTimestamps parse file ++ [.string timestamp] ∨
        (written = file ∧ ((it.openForReading && it.malloc) = true →
          .string timestamp ∈ heldTimestamps parse written)) := by
  constructor
  · rintro ⟨kept, logged⟩
    rw [writes] at kept logged
    rcases kept with same | ⟨timestamp', clock', appended⟩
    · refine .inr ⟨same, ?_⟩
      intro read
      obtain ⟨reads, allocates⟩ := (Bool.and_eq_true _ _).mp read
      exact logged timestamp clock reads allocates printed opened
    · cases clock.symm.trans clock'
      exact .inl appended
  · intro outcome
    refine ⟨?_, ?_⟩ <;> rw [writes]
    · rcases outcome with appended | ⟨same, _⟩
      · exact .inr ⟨timestamp, clock, appended⟩
      · exact .inl same
    · intro timestamp' clock' reads allocates _ _
      cases clock.symm.trans clock'
      rcases outcome with appended | ⟨_, logged⟩
      · rw [appended]
        exact List.mem_append_right _ (List.mem_singleton.mpr rfl)
      · exact logged ((Bool.and_eq_true _ _).mpr ⟨reads, allocates⟩)

theorem keepsLog_iff_of_write (clock : spiffsGetCurrentTimestamp it.clock = some timestamp)
    (printed : it.print = true) (opened : it.openForWriting = true) :
    KeepsLog parse print file it ↔
      if it.openForReading && it.malloc then
        ∀ root, file.bind parse = some root → getItem? timestampsKey root ≠ none
      else
        heldTimestamps parse file = [] ∨ file = some (print (logOf [timestamp])) := by
  constructor
  · intro keeps
    exact keeps timestamp clock printed opened
  · intro keeps timestamp' clock' _ _
    cases clock.symm.trans clock'
    exact keeps

/-- What appending to the document of the file makes of its timestamps. -/
theorem timestamps_loadRoot_iff (read : (it.openForReading && it.malloc) = true) :
    timestamps (logTimestamp timestamp (loadRoot parse file it)) =
        heldTimestamps parse file ++ [.string timestamp] ↔
      ∀ root, file.bind parse = some root → getItem? timestampsKey root ≠ none := by
  rw [loadRoot_of_read read, heldTimestamps]
  cases parsed : file.bind parse with
  | none => exact iff_of_true timestamps_logTimestamp_newRoot (by simp)
  | some root =>
      simp only [Option.getD_some, Option.map_some, Option.some.injEq, forall_eq']
      by_cases there : getItem? timestampsKey root = none
      · rw [timestamps_logTimestamp_of_none there]
        exact iff_of_false (by simp) (not_not_intro there)
      · exact iff_of_true (timestamps_logTimestamp there) there

/-- Read, a document that gets the new timestamp gets it after those it had. -/
theorem mem_timestamps_loadRoot (read : (it.openForReading && it.malloc) = true)
    (logged : .string timestamp ∈ timestamps (logTimestamp timestamp (loadRoot parse file it))) :
    ∀ root, file.bind parse = some root → getItem? timestampsKey root ≠ none := by
  intro root parsed absent
  rw [loadRoot_of_read read, parsed, Option.getD_some,
    timestamps_logTimestamp_of_none absent] at logged
  cases logged

/-- **The time log loses nothing** in an iteration exactly when, if it writes, an unread
file held no timestamps or what is written, and a document that was read has a member for
them. -/
theorem log_kept_iff (parse : String → Option Json) (print : Json → String)
    (file : Option String) (it : Iteration) (correct : PrintsBack parse print file it) :
    LogKept parse print file it ↔ KeepsLog parse print file it := by
  by_cases write : ∃ timestamp, spiffsGetCurrentTimestamp it.clock = some timestamp ∧
      it.print = true ∧ it.openForWriting = true
  · obtain ⟨timestamp, clock, printed, opened⟩ := write
    have writes : timeLoggingTask parse print file it =
        some (print (logTimestamp timestamp (loadRoot parse file it))) :=
      timeLoggingTask_of_write clock printed opened
    rw [logKept_iff_of_write clock printed opened writes,
      heldTimestamps_some (correct timestamp clock), keepsLog_iff_of_write clock printed opened]
    by_cases read : (it.openForReading && it.malloc) = true
    · rw [if_pos read, timestamps_loadRoot_iff read]
      apply or_iff_left_of_imp
      rintro ⟨_, logged⟩
      exact mem_timestamps_loadRoot read (logged read)
    · rw [if_neg read, loadRoot_of_not_read read, timestamps_logTimestamp_newRoot,
        logTimestamp_newRoot]
      constructor
      · rintro (appended | ⟨same, _⟩)
        · exact .inl (List.self_eq_append_left.mp appended)
        · exact .inr same.symm
      · rintro (empty | same)
        · exact .inl (List.self_eq_append_left.mpr empty)
        · exact .inr ⟨same.symm, fun reads => absurd reads read⟩
  · have idle (timestamp : String)
        (clock : spiffsGetCurrentTimestamp it.clock = some timestamp) :
        ¬ (it.print = true ∧ it.openForWriting = true) := fun both =>
      write ⟨timestamp, clock, both⟩
    refine iff_of_true ⟨.inl (timeLoggingTask_of_not_write idle), ?_⟩ ?_
    · intro timestamp clock _ _ printed opened
      exact absurd ⟨printed, opened⟩ (idle timestamp clock)
    · intro timestamp clock printed opened
      exact absurd ⟨printed, opened⟩ (idle timestamp clock)

end OneIteration

/-! ### Whole runs -/

/-- The file after a number of iterations. -/
def fileAfter (parse : String → Option Json) (print : Json → String) (file : Option String)
    (its : List Iteration) : Option String :=
  its.foldl (timeLoggingTask parse print) file

/-- **No entry is lost** in a run of iterations that each lose nothing. -/
theorem heldTimestamps_prefix {parse : String → Option Json} {print : Json → String}
    {file : Option String} {its : List Iteration}
    (kept : ∀ before it after, its = before ++ it :: after →
      LogKept parse print (fileAfter parse print file before) it) :
    heldTimestamps parse file <+: heldTimestamps parse (fileAfter parse print file its) := by
  induction its using List.reverseRecOn with
  | nil => exact List.prefix_rfl
  | append_singleton its it ih =>
      have earlier : heldTimestamps parse file <+:
          heldTimestamps parse (fileAfter parse print file its) := by
        apply ih
        rintro before it' after rfl
        exact kept before it' (after ++ [it]) (by simp)
      rw [fileAfter, List.foldl_concat, ← fileAfter]
      rcases (kept its it [] rfl).kept with same | ⟨timestamp, _, appended⟩
      · rw [same]
        exact earlier
      · rw [appended]
        exact earlier.trans (List.prefix_append _ _)

/-! ### A log of one entry -/

/-- The text of a document that is an object with strings for timestamps. -/
def printLog (root : Json) : String :=
  let entry : Json → String
    | .string s => "\"" ++ s ++ "\""
    | _ => "null"
  "\x7b\n\t\"timestamps\":\t[" ++ ", ".intercalate ((timestamps root).map entry) ++ "]\n\x7d"

/-- One of some documents, by its text. -/
def parseAmong (docs : List Json) (text : String) : Option Json :=
  docs.find? fun doc => printLog doc == text

/-- `time_log.json` with one entry. -/
def oneEntry : Option String := some (printLog (logOf ["2024-01-01 08:00:00"]))

/-- Five seconds later; whether the file is read depends on `malloc`. -/
def nextIteration (malloc : Bool) : Iteration := ⟨true, malloc, true, true, ⟨124, 0, 1, 8, 0, 5⟩⟩

/-- The file is read, and the new timestamp comes after the old one. -/
theorem log_kept_iff_oneEntry :
    LogKept (parseAmong [logOf ["2024-01-01 08:00:00"],
      logOf ["2024-01-01 08:00:00", "2024-01-01 08:00:05"]]) printLog oneEntry
      (nextIteration true) := by
  rw [log_kept_iff]
  · intro timestamp clock _ _ root parsed
    cases parsed
    exact Option.some_ne_none (Json.array [.string "2024-01-01 08:00:00"])
  · intro timestamp clock
    cases clock
    rfl

/-- Without memory for the text, the file is overwritten. -/
theorem log_is_overwritten :
    ¬ ∀ (parse : String → Option Json) (print : Json → String) (file : Option String)
      (it : Iteration), PrintsBack parse print file it → LogKept parse print file it := by
  intro all
  have correct : PrintsBack (parseAmong [logOf ["2024-01-01 08:00:00"],
      logOf ["2024-01-01 08:00:05"]]) printLog oneEntry (nextIteration false) := by
    intro timestamp clock
    cases clock
    rfl
  have kept := (all _ _ _ _ correct).kept
  rcases kept with same | ⟨timestamp, _, appended⟩
  · exact absurd (Option.some_inj.mp same) (by decide)
  · have lengths := congrArg List.length appended
    rw [List.length_append] at lengths
    cases lengths

end SmartScale.SpiffsManager
