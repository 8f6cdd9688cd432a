import Mathlib.Data.Fintype.Basic
import SmartScale.Base.LazyInit
import SmartScale.Base.Schedule

/-!
The SNTP client (`sntp_synch/sntp_synch.c`): `sntp_sync_start` creates the event group once, the
callback sets a bit in it whenever the time was synchronised, and `sntp_time_available` waits for
that bit. All three go through `s_time_event`, which nothing protects and nothing checks after
`xEventGroupCreate`.

Both `app_main` and `wifi_event_handler` start the client, the latter with the event that can come
while the former is between its two looks at `s_time_event`. Any task may call any function here,
and they interleave between any two accesses to shared memory. A call of the kernel on NULL is
recorded as a misuse and does not return.

* `sntp_never_null`: in every interleaving, the time is not reported as available before it was
  synchronised; as long as creations succeed, no event group that does not exist is used.
  `null_after_failure`: after one that fails, NULL can be used.
* `sntp_answers_exact`: as long as creations succeed and no two calls of `sntp_sync_start` find no
  event group, `sntp_time_available` answers exactly whether the callback has returned, unless
  there was no event group when it was called.
* `sync_lost`: when two have found none, the time can be synchronised, the callback return, and
  `sntp_time_available` time out.
-/

namespace SmartScale.SntpSynch

open SmartScale.Schedule SmartScale.LazyInit

/-- Where `time_sync_notification_cb` is: it logs, and then calls `xEventGroupSetBits` with what it
read from `s_time_event`. -/
inductive CallbackPc where
  | idle
  | logging
  | setting (timeEvent : Option Nat)
deriving DecidableEq, Repr

/-- Where a call of `sntp_time_available` is: after its check, or in `xEventGroupWaitBits` with
what it read from `s_time_event`. -/
inductive AvailablePc where
  | idle
  | checked
  | waiting (timeEvent : Option Nat)
deriving DecidableEq, Repr

/-- What a call of `sntp_time_available` returned, and whether it found an event group, the time
was synchronised by then, and the callback had returned. -/
structure Answer where
  returned : Bool
  found : Bool
  synced : Bool
  announced : Bool
deriving DecidableEq, Repr

/-- `s_time_event` and the event groups, as `TIME_SYNC_BIT` is set in them; whether the client is
polling; the callback and the waiting tasks; whether the time was synchronised, and whether a
callback has returned. -/
structure Sntp (τ : Type*) where
  timeEvent : LazyInit.State τ Bool
  polling : Bool
  callback : CallbackPc
  available : τ → AvailablePc
  synced : Bool
  announced : Bool
  answers : List Answer
  misused : Bool

/-- As the program starts. -/
def Sntp.boot (τ : Type*) : Sntp τ where
  timeEvent := ⟨none, .empty, fun _ => .idle⟩
  polling := false
  callback := .idle
  available _ := .idle
  synced := false
  announced := false
  answers := []
  misused := false

inductive Action (τ : Type*) where
  | syncStart (a : LazyInit.Action τ)
  | notify
  | loadEvent
  | setBits
  | check (i : τ)
  | waitBits (i : τ)
  | answer (i : τ)
deriving DecidableEq

/-- The last statements of `sntp_sync_start` register the callback and start polling. -/
def startsPolling {τ : Type*} : LazyInit.Action τ → Bool
  | .setUp _ => true
  | _ => false

variable {τ : Type*} [DecidableEq τ]

/-- One access to shared memory. -/
def step (s : Sntp τ) : Action τ → Option (Sntp τ)
  | .syncStart a =>
      (LazyInit.step false s.timeEvent a).map fun timeEvent =>
        { s with timeEvent := timeEvent, polling := s.polling || startsPolling a }
  -- the client sets the time, and calls `time_sync_notification_cb`
  | .notify =>
      if s.polling = true ∧ s.callback = .idle then
        some { s with callback := .logging, synced := true }
      else none
  | .loadEvent =>
      if s.callback = .logging then some { s with callback := .setting s.timeEvent.pointer }
      else none
  | .setBits =>
      match s.callback with
      | .setting none => some { s with misused := true }
      | .setting (some h) =>
          some
            { s with
              callback := .idle
              announced := true
              timeEvent :=
                { s.timeEvent with objects := s.timeEvent.objects.update h true } }
      | _ => none
  -- `sntp_time_available` reads `s_time_event` twice; the bit stays set when the wait ends
  | .check i =>
      if s.available i = .idle then
        if s.timeEvent.pointer.isSome then
          some { s with available := Function.update s.available i .checked }
        else some { s with answers := s.answers ++ [⟨false, false, s.synced, s.announced⟩] }
      else none
  | .waitBits i =>
      if s.available i = .checked then
        some { s with available := Function.update s.available i (.waiting s.timeEvent.pointer) }
      else none
  | .answer i =>
      match s.available i with
      | .waiting none => some { s with misused := true }
      | .waiting (some h) =>
          some
            { s with
              available := Function.update s.available i .idle
              answers := s.answers ++
                [⟨(s.timeEvent.objects.get? h).getD false, true, s.synced, s.announced⟩] }
      | _ => none

/-- No creation fails. -/
def Creates : Action τ → Prop
  | .syncStart a => LazyInit.Creates a
  | _ => True

/-- No creation fails, and no second call of `sntp_sync_start` finds no event group while one is
creating it. -/
def StartsOnce (s : Sntp τ) : Action τ → Prop
  | .syncStart a => LazyInit.Creates a ∧ Alone s.timeEvent a
  | _ => True

section Steps

variable {s t : Sntp τ} {i : τ}

theorem syncStart_iff {a : LazyInit.Action τ} :
    step s (.syncStart a) = some t ↔ ∃ timeEvent,
      LazyInit.step false s.timeEvent a = some timeEvent ∧
        t = { s with timeEvent := timeEvent, polling := s.polling || startsPolling a } := by
  rw [step, Option.map_eq_some_iff]
  simp only [eq_comm (b := t)]

theorem notify_iff :
    step s .notify = some t ↔ (s.polling = true ∧ s.callback = .idle) ∧
      t = { s with callback := .logging, synced := true } := by
  rw [step, Option.ite_none_right_eq_some, Option.some_inj, eq_comm (a := t)]

theorem loadEvent_iff :
    step s .loadEvent = some t ↔ s.callback = .logging ∧
      t = { s with callback := .setting s.timeEvent.pointer } := by
  rw [step, Option.ite_none_right_eq_some, Option.some_inj, eq_comm (a := t)]

theorem setBits_iff :
    step s .setBits = some t ↔ s.callback = .setting none ∧ t = { s with misused := true } ∨
      ∃ h, s.callback = .setting (some h) ∧
        t = { s with
          callback := .idle
          announced := true
          timeEvent := { s.timeEvent with objects := s.timeEvent.objects.update h true } } := by
  rw [step]
  cases s.callback with
  | idle | logging => simp
  | setting event => cases event <;> simp [eq_comm]

theorem waitBits_iff :
    step s (.waitBits i) = some t ↔ s.available i = .checked ∧
      t = { s with
        available := Function.update s.available i (.waiting s.timeEvent.pointer) } := by
  rw [step, Option.ite_none_right_eq_some, Option.some_inj, eq_comm (a := t)]

theorem check_iff :
    step s (.check i) = some t ↔ s.available i = .idle ∧
      t = if s.timeEvent.pointer.isSome then
          { s with available := Function.update s.available i .checked }
        else { s with answers := s.answers ++ [⟨false, false, s.synced, s.announced⟩] } := by
  rw [step, Option.ite_none_right_eq_some]
  split <;> rw [Option.some_inj, eq_comm (a := t)]

theorem answer_iff :
    step s (.answer i) = some t ↔
      s.available i = .waiting none ∧ t = { s with misused := true } ∨
      ∃ h, s.available i = .waiting (some h) ∧
        t = { s with
          available := Function.update s.available i .idle
          answers := s.answers ++
            [⟨(s.timeEvent.objects.get? h).getD false, true, s.synced, s.announced⟩] } := by
  rw [step]
  cases s.available i with
  | idle | checked => simp
  | waiting event => cases event <;> simp [eq_comm]

/-- The task at an index after the index `i` was set. -/
theorem update_cases (available : τ → AvailablePc) (i j : τ) (pc : AvailablePc) :
    j = i ∧ Function.update available i pc j = pc ∨
      j ≠ i ∧ Function.update available i pc j = available j := by
  rcases eq_or_ne j i with rfl | differ
  · exact .inl ⟨rfl, Function.update_self ..⟩
  · exact .inr ⟨differ, Function.update_of_ne differ ..⟩

end Steps

/-! ### Every interleaving -/

/-- An answer is not ahead of the callback, nor the callback of the time. -/
structure Answer.Sound (a : Answer) : Prop where
  announced : a.returned = true → a.announced = true
  synced : a.announced = true → a.synced = true

/-- What holds in every interleaving. -/
structure Inv (s : Sntp τ) : Prop where
  timeEvent : LazyInit.Inv s.timeEvent
  setting : ∀ h, s.callback = .setting (some h) →
    s.timeEvent.objects.Live h ∧ ∀ i, s.timeEvent.pcs i ≠ .store (some h)
  called : s.callback ≠ .idle → s.synced = true
  announced : s.announced = true → s.synced = true
  returned : s.synced = true → s.callback = .idle → s.announced = true
  bits : ∀ h, s.timeEvent.objects.get? h = some true → s.announced = true
  made : ∀ i h, s.timeEvent.pcs i = .store (some h) → s.timeEvent.objects.get? h = some false
  starts : s.timeEvent.pointer.isSome = true →
    s.polling = true ∨ ∃ i, s.timeEvent.pcs i = .setUp
  answers : ∀ a ∈ s.answers, a.Sound

omit [DecidableEq τ] in
theorem inv_boot : Inv (.boot τ) where
  timeEvent := ⟨by simp [Sntp.boot], by simp [Sntp.boot], by simp [Sntp.boot], by simp [Sntp.boot]⟩
  setting := by simp [Sntp.boot]
  called := by simp [Sntp.boot]
  announced := by simp [Sntp.boot]
  returned := by simp [Sntp.boot]
  bits := by simp [Sntp.boot, Objects.get?, Objects.empty]
  made := by simp [Sntp.boot]
  starts := by simp [Sntp.boot]
  answers := by simp [Sntp.boot]

section Invariant

variable {s t : Sntp τ}

theorem Inv.syncStart (inv : Inv s) {a : LazyInit.Action τ}
    (taken : step s (.syncStart a) = some t) : Inv t := by
  obtain ⟨timeEvent, stepped, rfl⟩ := syncStart_iff.mp taken
  refine ⟨inv.timeEvent.step stepped, ?_, inv.called, inv.announced, inv.returned, ?_, ?_, ?_,
    inv.answers⟩
  · intro h called
    obtain ⟨live, unstored⟩ := inv.setting h called
    refine ⟨live_of_step stepped live, ?_⟩
    intro i storing
    rcases store_of_step stepped storing with before | ⟨new, -⟩
    · exact unstored i before
    · exact live.lt_next.ne new
  · intro h set
    rcases get?_of_step stepped h with same | ⟨-, new⟩
    · exact inv.bits h (same ▸ set)
    · rw [set] at new
      cases new
  · intro i h storing
    rcases store_of_step stepped storing with before | ⟨-, new⟩
    · rcases get?_of_step stepped h with same | ⟨-, new⟩
      · exact same.trans (inv.made i h before)
      · exact new
    · exact new
  · intro stored
    rcases pointer_of_step stepped with same | ⟨i, h, -, setting, -⟩
    · rw [same] at stored
      rcases inv.starts stored with polling | ⟨i, setting⟩
      · exact .inl (Bool.or_eq_true_iff.mpr (.inl polling))
      · rcases setUp_stays stepped setting with rfl | still
        · exact .inl (Bool.or_eq_true_iff.mpr (.inr rfl))
        · exact .inr ⟨i, still⟩
    · exact .inr ⟨i, setting⟩

theorem Inv.loadEvent (inv : Inv s) (taken : step s .loadEvent = some t) : Inv t := by
  obtain ⟨logging, rfl⟩ := loadEvent_iff.mp taken
  have synced := inv.called (by simp [logging])
  refine ⟨inv.timeEvent, ?_, fun _ => synced, inv.announced, by simp, inv.bits, inv.made,
    inv.starts, inv.answers⟩
  intro h read
  have stored : s.timeEvent.pointer = some h := CallbackPc.setting.inj read
  exact ⟨inv.timeEvent.stored h stored,
    fun i storing => inv.timeEvent.unstored i h storing stored⟩

theorem Inv.setBits (inv : Inv s) (taken : step s .setBits = some t) : Inv t := by
  rcases setBits_iff.mp taken with ⟨-, rfl⟩ | ⟨h, called, rfl⟩
  · exact ⟨inv.timeEvent, inv.setting, inv.called, inv.announced, inv.returned, inv.bits, inv.made,
      inv.starts, inv.answers⟩
  · obtain ⟨live, unstored⟩ := inv.setting h called
    refine ⟨?_, by simp, by simp, fun _ => inv.called (by simp [called]), fun _ _ => rfl,
      fun _ _ => rfl, ?_, inv.starts, inv.answers⟩
    · exact
        { stored := fun k stored => Objects.live_update_iff.mpr (inv.timeEvent.stored k stored)
          made := fun i k storing => Objects.live_update_iff.mpr (inv.timeEvent.made i k storing)
          unstored := inv.timeEvent.unstored
          owner := inv.timeEvent.owner }
    · intro i k storing
      have other : k ≠ h := by
        rintro rfl
        exact unstored i storing
      exact (Objects.get?_update.trans (if_neg other)).trans (inv.made i k storing)

omit [DecidableEq τ] in
/-- A task of `sntp_time_available` goes on. -/
theorem Inv.goto (inv : Inv s) {available : τ → AvailablePc} {answers : List Answer}
    {misused : Bool} (sound : ∀ a ∈ answers, a.Sound) :
    Inv { s with available := available, answers := answers, misused := misused } :=
  ⟨inv.timeEvent, inv.setting, inv.called, inv.announced, inv.returned, inv.bits, inv.made,
    inv.starts, sound⟩

omit [DecidableEq τ] in
/-- One more answer. -/
theorem Inv.answered (inv : Inv s) {a : Answer} (sound : a.Sound) :
    ∀ b ∈ s.answers ++ [a], b.Sound :=
  List.forall_mem_append.mpr ⟨inv.answers, List.forall_mem_singleton.mpr sound⟩

theorem Inv.step (inv : Inv s) (a : Action τ) (taken : step s a = some t) : Inv t := by
  cases a with
  | syncStart a => exact inv.syncStart taken
  | notify =>
      obtain ⟨-, rfl⟩ := notify_iff.mp taken
      exact ⟨inv.timeEvent, by simp, fun _ => rfl, fun _ => rfl, by simp, inv.bits, inv.made,
        inv.starts, inv.answers⟩
  | loadEvent => exact inv.loadEvent taken
  | setBits => exact inv.setBits taken
  | check i =>
      obtain ⟨-, rfl⟩ := check_iff.mp taken
      split
      · exact inv.goto inv.answers
      · exact inv.goto (inv.answered ⟨by simp, inv.announced⟩)
  | waitBits i =>
      obtain ⟨-, rfl⟩ := waitBits_iff.mp taken
      exact inv.goto inv.answers
  | answer i =>
      rcases answer_iff.mp taken with ⟨-, rfl⟩ | ⟨h, -, rfl⟩
      · exact inv.goto inv.answers
      · refine inv.goto (inv.answered ⟨?_, inv.announced⟩)
        intro returned
        have set : s.timeEvent.objects.get? h = some true := by
          cases bit : s.timeEvent.objects.get? h with
          | none => simp [bit] at returned
          | some b => simpa [bit] using returned
        exact inv.bits h set

end Invariant

/-! ### While creations succeed -/

/-- What holds as long as creations succeed. -/
structure Safe (s : Sntp τ) : Prop where
  timeEvent : Present s.timeEvent
  polling : s.polling = true → s.timeEvent.pointer.isSome = true
  logging : s.callback = .logging → s.timeEvent.pointer.isSome = true
  setting : s.callback ≠ .setting none
  checked : ∀ i, s.available i = .checked → s.timeEvent.pointer.isSome = true
  waiting : ∀ i, s.available i ≠ .waiting none
  misused : s.misused = false

omit [DecidableEq τ] in
theorem safe_boot : Safe (.boot τ) where
  timeEvent := ⟨by simp [Sntp.boot], by simp [Sntp.boot]⟩
  polling := by simp [Sntp.boot]
  logging := by simp [Sntp.boot]
  setting := by simp [Sntp.boot]
  checked := by simp [Sntp.boot]
  waiting := by simp [Sntp.boot]
  misused := rfl

section Safety

variable {s t : Sntp τ}

/-- A task of `sntp_time_available` goes on. -/
theorem Safe.goto (safe : Safe s) (i : τ) {pc : AvailablePc} {answers : List Answer}
    (checked : pc = .checked → s.timeEvent.pointer.isSome = true) (waiting : pc ≠ .waiting none) :
    Safe { s with available := Function.update s.available i pc, answers := answers } := by
  refine ⟨safe.timeEvent, safe.polling, safe.logging, safe.setting, ?_, ?_, safe.misused⟩
  · intro j there
    rcases update_cases s.available i j pc with ⟨-, here⟩ | ⟨-, other⟩
    · exact checked (here.symm.trans there)
    · exact safe.checked j (other.symm.trans there)
  · intro j there
    rcases update_cases s.available i j pc with ⟨-, here⟩ | ⟨-, other⟩
    · exact waiting (here.symm.trans there)
    · exact safe.waiting j (other.symm.trans there)

theorem Safe.syncStart (safe : Safe s) {a : LazyInit.Action τ} (creates : LazyInit.Creates a)
    (taken : step s (.syncStart a) = some t) : Safe t := by
  obtain ⟨timeEvent, stepped, rfl⟩ := syncStart_iff.mp taken
  have stays := safe.timeEvent.pointer_isSome stepped
  refine ⟨(present_step safe.timeEvent stepped).mp creates, ?_,
    fun logging => stays (safe.logging logging), safe.setting,
    fun i checked => stays (safe.checked i checked), safe.waiting, safe.misused⟩
  intro polling
  rcases Bool.or_eq_true_iff.mp polling with before | now
  · exact stays (safe.polling before)
  · cases a with
    | setUp i => exact stays (safe.timeEvent.settingUp i (setUp_iff.mp stepped).1)
    | _ => cases now

/-- **Step lemma.** -/
theorem Safe.step (safe : Safe s) (a : Action τ) (creates : Creates a)
    (taken : step s a = some t) : Safe t := by
  cases a with
  | syncStart a => exact safe.syncStart creates taken
  | notify =>
      obtain ⟨⟨polling, -⟩, rfl⟩ := notify_iff.mp taken
      exact ⟨safe.timeEvent, safe.polling, fun _ => safe.polling polling, by simp, safe.checked,
        safe.waiting, safe.misused⟩
  | loadEvent =>
      obtain ⟨logging, rfl⟩ := loadEvent_iff.mp taken
      refine ⟨safe.timeEvent, safe.polling, by simp, ?_, safe.checked, safe.waiting, safe.misused⟩
      intro read
      have stored := safe.logging logging
      rw [CallbackPc.setting.inj read] at stored
      cases stored
  | setBits =>
      rcases setBits_iff.mp taken with ⟨called, -⟩ | ⟨h, called, rfl⟩
      · exact absurd called safe.setting
      · exact ⟨⟨safe.timeEvent.made, safe.timeEvent.settingUp⟩, safe.polling, by simp, by simp,
          safe.checked, safe.waiting, safe.misused⟩
  | check i =>
      obtain ⟨-, rfl⟩ := check_iff.mp taken
      split
      · rename_i found
        exact safe.goto i (fun _ => found) (by simp)
      · exact ⟨safe.timeEvent, safe.polling, safe.logging, safe.setting, safe.checked, safe.waiting,
          safe.misused⟩
  | waitBits i =>
      obtain ⟨checked, rfl⟩ := waitBits_iff.mp taken
      refine safe.goto i (by simp) ?_
      intro read
      have stored := safe.checked i checked
      rw [AvailablePc.waiting.inj read] at stored
      cases stored
  | answer i =>
      rcases answer_iff.mp taken with ⟨waiting, -⟩ | ⟨h, -, rfl⟩
      · exact absurd waiting (safe.waiting i)
      · exact safe.goto i (by simp) (by simp)

/-- Only a creation that fails ends it. -/
theorem safe_step (safe : Safe s) (a : Action τ) (taken : step s a = some t) :
    Creates a ↔ Safe t := by
  refine ⟨fun creates => safe.step a creates taken, fun safe' => ?_⟩
  cases a with
  | syncStart a =>
      obtain ⟨timeEvent, stepped, rfl⟩ := syncStart_iff.mp taken
      exact (present_step safe.timeEvent stepped).mpr safe'.timeEvent
  | notify | loadEvent | setBits | check | waitBits | answer => trivial

end Safety

theorem safe_states {actions : List (Action τ)}
    (creates : AllSteps step (fun _ => Creates) (.boot τ) actions) :
    AllStates step Safe (.boot τ) actions :=
  (allSteps_iff_allStates (fun _ a _ (_ : True) safe taken => ⟨trivial, safe_step safe a taken⟩)
    trivial safe_boot actions).mp creates

/-- **No early answer, no NULL**: in every interleaving, `sntp_time_available` returns true only
after the time was synchronised; and as long as creations succeed, `xEventGroupSetBits` and
`xEventGroupWaitBits` get an event group. -/
theorem sntp_never_null (actions : List (Action τ)) :
    AllStates step (fun s => ∀ a ∈ s.answers, a.returned = true → a.synced = true) (.boot τ)
        actions ∧
      (AllSteps step (fun _ => Creates) (.boot τ) actions →
        AllStates step (fun s => s.misused = false) (.boot τ) actions) := by
  constructor
  · refine (allStates_of_invariant (fun _ a _ inv taken => inv.step a taken) inv_boot
      actions).mono ?_
    intro s inv a member returned
    exact (inv.answers a member).synced ((inv.answers a member).announced returned)
  · intro creates
    exact (safe_states creates).mono fun _ safe => safe.misused

/-! ### One event group -/

/-- What holds as long as one call creates the event group. -/
structure Exact (s : Sntp τ) : Prop where
  bit : ∀ h, s.timeEvent.pointer = some h → s.timeEvent.objects.get? h = some s.announced
  unannounced : s.timeEvent.pointer = none → s.announced = false
  setting : ∀ h, s.callback = .setting (some h) → s.timeEvent.pointer = some h
  waiting : ∀ i h, s.available i = .waiting (some h) → s.timeEvent.pointer = some h
  answers : ∀ a ∈ s.answers, a.returned = (a.found && a.announced)

section OneGroup

variable {s t : Sntp τ}

omit [DecidableEq τ] in
theorem exact_boot : Exact (.boot τ) where
  bit := by simp [Sntp.boot]
  unannounced _ := rfl
  setting := by simp [Sntp.boot]
  waiting := by simp [Sntp.boot]
  answers := by simp [Sntp.boot]

theorem Exact.syncStart (exact : Exact s) (inv : Inv s) (safe : Safe s) (sole : Sole s.timeEvent)
    {a : LazyInit.Action τ} (taken : step s (.syncStart a) = some t) : Exact t := by
  obtain ⟨timeEvent, stepped, rfl⟩ := syncStart_iff.mp taken
  refine ⟨?_, ?_, fun h called => sole.pointer_stays stepped (exact.setting h called),
    fun i h waiting => sole.pointer_stays stepped (exact.waiting i h waiting), exact.answers⟩
  · intro h stored
    rcases pointer_of_step stepped with same | ⟨i, k, storing, -, stored', objects⟩
    · have before : s.timeEvent.pointer = some h := same ▸ stored
      rcases get?_of_step stepped h with old | ⟨next, -⟩
      · exact old.trans (exact.bit h before)
      · exact absurd next (inv.timeEvent.stored h before).lt_next.ne
    · -- the group just made, which nobody knows yet
      obtain rfl : k = some h := stored'.symm.trans stored
      have absent : s.timeEvent.pointer = none := sole.absent i (by rw [storing]; rfl)
      rw [objects, exact.unannounced absent]
      exact inv.made i h storing
  · intro absent
    refine exact.unannounced ?_
    by_contra stored
    have still := safe.timeEvent.pointer_isSome stepped (Option.isSome_iff_ne_none.mpr stored)
    rw [absent] at still
    cases still

theorem Exact.setBits (exact : Exact s) (inv : Inv s) (safe : Safe s)
    (taken : step s .setBits = some t) : Exact t := by
  rcases setBits_iff.mp taken with ⟨called, -⟩ | ⟨h, called, rfl⟩
  · exact absurd called safe.setting
  · obtain ⟨live, -⟩ := inv.setting h called
    have stored := exact.setting h called
    refine ⟨?_, ?_, by simp, exact.waiting, exact.answers⟩
    · intro k stored'
      obtain rfl := Option.some.inj (stored.symm.trans stored')
      obtain ⟨bit, there⟩ := Objects.live_iff.mp live
      show (s.timeEvent.objects.update h true).get? h = some true
      rw [Objects.get?_update, if_pos rfl, there]
      rfl
    · intro absent
      exact absurd (stored.symm.trans absent) (by simp)

/-- A task of `sntp_time_available` goes on. -/
theorem Exact.goto (exact : Exact s) (i : τ) {pc : AvailablePc} {answers : List Answer}
    (waiting : ∀ h, pc = .waiting (some h) → s.timeEvent.pointer = some h)
    (same : ∀ a ∈ answers, a.returned = (a.found && a.announced)) :
    Exact { s with available := Function.update s.available i pc, answers := answers } := by
  refine ⟨exact.bit, exact.unannounced, exact.setting, ?_, same⟩
  intro j h there
  rcases update_cases s.available i j pc with ⟨-, here⟩ | ⟨-, other⟩
  · exact waiting h (here.symm.trans there)
  · exact exact.waiting j h (other.symm.trans there)

/-- **As long as one call creates the event group**, its bit says whether the callback has
returned. -/
theorem Exact.step (exact : Exact s) (inv : Inv s) (safe : Safe s) (sole : Sole s.timeEvent)
    (a : Action τ) (taken : step s a = some t) : Exact t := by
  have answered {a : Answer} (same : a.returned = (a.found && a.announced)) :
      ∀ b ∈ s.answers ++ [a], b.returned = (b.found && b.announced) :=
    List.forall_mem_append.mpr ⟨exact.answers, List.forall_mem_singleton.mpr same⟩
  cases a with
  | syncStart a => exact exact.syncStart inv safe sole taken
  | notify =>
      obtain ⟨-, rfl⟩ := notify_iff.mp taken
      exact ⟨exact.bit, exact.unannounced, by simp, exact.waiting, exact.answers⟩
  | loadEvent =>
      obtain ⟨-, rfl⟩ := loadEvent_iff.mp taken
      exact ⟨exact.bit, exact.unannounced, fun h read => CallbackPc.setting.inj read, exact.waiting,
        exact.answers⟩
  | setBits => exact exact.setBits inv safe taken
  | check i =>
      obtain ⟨-, rfl⟩ := check_iff.mp taken
      split
      · exact exact.goto i (by simp) exact.answers
      · exact ⟨exact.bit, exact.unannounced, exact.setting, exact.waiting, answered rfl⟩
  | waitBits i =>
      obtain ⟨-, rfl⟩ := waitBits_iff.mp taken
      exact exact.goto i (fun h read => AvailablePc.waiting.inj read) exact.answers
  | answer i =>
      rcases answer_iff.mp taken with ⟨waiting, -⟩ | ⟨h, waiting, rfl⟩
      · exact absurd waiting (safe.waiting i)
      · refine exact.goto i (by simp) (answered ?_)
        rw [exact.bit h (exact.waiting i h waiting)]
        rfl

/-- Only `sntp_sync_start` creates and stores. -/
theorem sole_of_other (sole : Sole s.timeEvent) {a : Action τ} (other : ∀ b, a ≠ .syncStart b)
    (taken : step s a = some t) : Sole t.timeEvent := by
  have same : t.timeEvent.pcs = s.timeEvent.pcs ∧
      t.timeEvent.pointer = s.timeEvent.pointer := by
    cases a with
    | syncStart b => exact absurd rfl (other b)
    | notify =>
        obtain ⟨-, rfl⟩ := notify_iff.mp taken
        exact ⟨rfl, rfl⟩
    | loadEvent =>
        obtain ⟨-, rfl⟩ := loadEvent_iff.mp taken
        exact ⟨rfl, rfl⟩
    | setBits =>
        rcases setBits_iff.mp taken with ⟨-, rfl⟩ | ⟨h, -, rfl⟩ <;> exact ⟨rfl, rfl⟩
    | check i =>
        obtain ⟨-, rfl⟩ := check_iff.mp taken
        split <;> exact ⟨rfl, rfl⟩
    | waitBits i =>
        obtain ⟨-, rfl⟩ := waitBits_iff.mp taken
        exact ⟨rfl, rfl⟩
    | answer i =>
        rcases answer_iff.mp taken with ⟨-, rfl⟩ | ⟨h, -, rfl⟩ <;> exact ⟨rfl, rfl⟩
  refine sole.of_creating (fun j creating => ?_) same.2
  rw [same.1] at creating
  exact creating

/-- What starting once keeps, and nothing else does. -/
structure Once (s : Sntp τ) : Prop where
  safe : Safe s
  sole : Sole s.timeEvent
  exact : Exact s

omit [DecidableEq τ] in
theorem once_boot : Once (.boot τ) :=
  ⟨safe_boot, ⟨by simp [Sntp.boot, Pc.creating], by simp [Sntp.boot, Pc.creating]⟩, exact_boot⟩

/-- **Step lemma.** -/
theorem once_step (inv : Inv s) (once : Once s) (a : Action τ) (taken : step s a = some t) :
    StartsOnce s a ↔ Once t := by
  have exact' := once.exact.step inv once.safe once.sole a taken
  have safe' := safe_step once.safe a taken
  have other (others : ∀ b, a ≠ .syncStart b) (creates : Creates a) : Once t :=
    ⟨safe'.mp creates, sole_of_other once.sole others taken, exact'⟩
  cases a with
  | syncStart a =>
      obtain ⟨timeEvent, stepped, rfl⟩ := syncStart_iff.mp taken
      have sole' := sole_step once.sole stepped
      exact ⟨fun starts => ⟨safe'.mp starts.1, sole'.mp starts.2, exact'⟩,
        fun once' => ⟨safe'.mpr once'.safe, sole'.mpr once'.sole⟩⟩
  | notify | loadEvent | setBits | check | waitBits | answer =>
      exact iff_of_true trivial (other (by simp) trivial)

end OneGroup

/-- What `sntp_time_available` has answered, and what it has to go by: after the time was
synchronised, a callback has returned once none is running. -/
structure AnswersExactly (s : Sntp τ) : Prop where
  answers : ∀ a ∈ s.answers, a.returned = (a.found && a.announced)
  synced : ∀ a ∈ s.answers, a.announced = true → a.synced = true
  announced : s.synced = true → s.callback = .idle → s.announced = true

/-- **Exact answers**: as long as creations succeed and no second call of `sntp_sync_start` finds no
event group while one is creating it, `sntp_time_available` returns whether the callback has
returned after a synchronisation, and false if it finds no event group. -/
theorem sntp_answers_exact (actions : List (Action τ))
    (once : AllSteps step StartsOnce (.boot τ) actions) :
    AllStates step AnswersExactly (.boot τ) actions := by
  have kept : ∀ (s : Sntp τ) (a : Action τ) (t : Sntp τ), Inv s → Inv s ∧ Once s →
      step s a = some t → Inv t ∧ (StartsOnce s a ↔ Inv t ∧ Once t) := by
    rintro s a t inv ⟨-, once⟩ taken
    have next := inv.step a taken
    exact ⟨next, (once_step inv once a taken).trans (and_iff_right next).symm⟩
  have states := (allSteps_iff_allStates kept inv_boot ⟨inv_boot, once_boot⟩ actions).mp once
  refine states.mono ?_
  rintro s ⟨inv, once⟩
  exact ⟨once.exact.answers, fun a member => (inv.answers a member).synced, inv.returned⟩

/-- The tasks that use the client. -/
inductive Task where
  | appMain
  | wifiEventHandler
  | weightManagerTask
deriving DecidableEq, Repr

instance : Fintype Task where
  elems := {.appMain, .wifiEventHandler, .weightManagerTask}
  complete task := by cases task <;> decide

instance (a : LazyInit.Action Task) : Decidable (LazyInit.Creates a) :=
  match a with
  | .create _ made => inferInstanceAs (Decidable (made = true))
  | .call _ => .isTrue trivial
  | .check _ => .isTrue trivial
  | .store _ => .isTrue trivial
  | .setUp _ => .isTrue trivial

instance (s : LazyInit.State Task Bool) (a : LazyInit.Action Task) : Decidable (Alone s a) :=
  match a with
  | .check _ => inferInstanceAs (Decidable (_ = none → ∀ j, (s.pcs j).creating = false))
  | .call _ => .isTrue trivial
  | .create _ _ => .isTrue trivial
  | .store _ => .isTrue trivial
  | .setUp _ => .isTrue trivial

instance (s : Sntp Task) (a : Action Task) : Decidable (StartsOnce s a) :=
  match a with
  | .syncStart b => inferInstanceAs (Decidable (LazyInit.Creates b ∧ Alone s.timeEvent b))
  | .notify => .isTrue trivial
  | .loadEvent => .isTrue trivial
  | .setBits => .isTrue trivial
  | .check _ => .isTrue trivial
  | .waitBits _ => .isTrue trivial
  | .answer _ => .isTrue trivial

/-- `app_main` starts the client first, and `wifi_event_handler` finds the event group. The weight
manager asks before the time is synchronised, while the callback is running, and after. -/
def startedOnce : List (Action Task) :=
  [.syncStart (.call .appMain), .syncStart (.call .wifiEventHandler),
    .syncStart (.check .appMain), .syncStart (.create .appMain true), .syncStart (.store .appMain),
    .syncStart (.check .wifiEventHandler), .syncStart (.setUp .appMain),
    .check .weightManagerTask, .waitBits .weightManagerTask, .answer .weightManagerTask,
    .notify, .check .weightManagerTask, .waitBits .weightManagerTask, .answer .weightManagerTask,
    .loadEvent, .check .weightManagerTask, .waitBits .weightManagerTask, .setBits,
    .answer .weightManagerTask]

theorem sntp_answers_exact_startedOnce :
    AllStates step AnswersExactly (.boot Task) startedOnce :=
  sntp_answers_exact startedOnce (by decide)

/-! ### What goes wrong otherwise -/

/-- Some steps lead from `s` to `t`, none of them in `sntp_time_available`. -/
def Later (s t : Sntp τ) : Prop :=
  Leads step s t ∧ t.available = s.available ∧ t.answers = s.answers

section Later

variable {s t u : Sntp τ} {i j : τ}

theorem Later.refl : Later s s := ⟨.refl, rfl, rfl⟩

theorem Later.trans (first : Later s t) (second : Later t u) : Later s u :=
  ⟨first.1.trans second.1, second.2.1.trans first.2.1, second.2.2.trans first.2.2⟩

theorem Later.step {a : Action τ} (taken : step s a = some t)
    (available : t.available = s.available) (answers : t.answers = s.answers) : Later s t :=
  ⟨.of_step taken, available, answers⟩

/-- A step of `sntp_sync_start`. -/
theorem syncStart_later {a : LazyInit.Action τ} {timeEvent : LazyInit.State τ Bool}
    (stepped : LazyInit.step false s.timeEvent a = some timeEvent) :
    ∃ t, Later s t ∧ step s (.syncStart a) = some t ∧ t.timeEvent = timeEvent ∧
      t.callback = s.callback ∧ t.announced = s.announced ∧
      t.polling = (s.polling || startsPolling a) := by
  have taken := syncStart_iff.mpr ⟨timeEvent, stepped, rfl⟩
  exact ⟨_, .step taken rfl rfl, taken, rfl, rfl, rfl, rfl⟩

end Later

/-! ### A creation that fails -/

section Failure

variable {s : Sntp τ} {j : τ}

/-- Polling with no event group, the client uses NULL when it synchronises the time. -/
theorem misused_of_idle (polling : s.polling = true) (absent : s.timeEvent.pointer = none)
    (idle : s.callback = .idle) : ∃ t, Leads step s t ∧ t.misused = true := by
  have notified := Leads.of_step (notify_iff.mpr ⟨⟨polling, idle⟩, rfl⟩)
  have loaded := notified.trans (.of_step (loadEvent_iff.mpr ⟨rfl, rfl⟩))
  exact ⟨_, loaded.trans (.of_step (setBits_iff.mpr
    (.inl ⟨congrArg CallbackPc.setting absent, rfl⟩))), rfl⟩

/-- **A creation that fails**: the client can come to use NULL. -/
theorem null_after_failure (failed : s.timeEvent.pcs j = .store none) :
    ∃ t, Leads step s t ∧ t.misused = true := by
  obtain ⟨t, stored, -, timeEvent, callback, -⟩ :=
    syncStart_later (store_iff.mpr ⟨none, failed, rfl⟩)
  have setting : t.timeEvent.pcs j = .setUp := by
    rw [timeEvent, goto_self]
  obtain ⟨u, setUp, -, timeEvent', callback', -, polling⟩ :=
    syncStart_later (setUp_iff.mpr ⟨setting, rfl⟩)
  have polls : u.polling = true := polling.trans (Bool.or_true _)
  have absent : u.timeEvent.pointer = none := by
    rw [timeEvent', State.goto, timeEvent]
    rfl
  have there := stored.1.trans setUp.1
  cases called : u.callback with
  | idle =>
      obtain ⟨v, misuse, misused⟩ := misused_of_idle polls absent called
      exact ⟨v, there.trans misuse, misused⟩
  | logging =>
      have loaded := there.trans (.of_step (loadEvent_iff.mpr ⟨called, rfl⟩))
      exact ⟨_, loaded.trans (.of_step (setBits_iff.mpr
        (.inl ⟨congrArg CallbackPc.setting absent, rfl⟩))), rfl⟩
  | setting event =>
      cases event with
      | none => exact ⟨_, there.trans (.of_step (setBits_iff.mpr (.inl ⟨called, rfl⟩))), rfl⟩
      | some h =>
          obtain ⟨v, misuse, misused⟩ := misused_of_idle
            (s := { u with callback := .idle, announced := true,
                           timeEvent := { u.timeEvent with
                             objects := u.timeEvent.objects.update h true } }) polls absent rfl
          exact ⟨v, there.trans (.trans
            (.of_step (setBits_iff.mpr (.inr ⟨h, called, rfl⟩))) misuse), misused⟩

end Failure

/-! ### Two event groups -/

section Lost

variable {s t : Sntp τ} {i j : τ}

/-- A caller stores the event group it has created. -/
theorem store_later_of_store (inv : Inv s) {h : Nat}
    (storing : s.timeEvent.pcs j = .store (some h)) :
    ∃ t, Later s t ∧ Inv t ∧ t.timeEvent.pointer = some h ∧
      t.timeEvent.objects.get? h = some false ∧ t.announced = s.announced ∧ (Safe s → Safe t) ∧
      ∀ i, i ≠ j → t.timeEvent.pcs i = s.timeEvent.pcs i := by
  obtain ⟨t, later, taken, timeEvent, -, announced, -⟩ :=
    syncStart_later (store_iff.mpr ⟨some h, storing, rfl⟩)
  refine ⟨t, later, inv.step _ taken, ?_, ?_, announced,
    fun safe => safe.step (.syncStart (.store j)) trivial taken, ?_⟩
  · rw [timeEvent]
    rfl
  · rw [timeEvent]
    exact inv.made j h storing
  · intro i differ
    rw [timeEvent, goto_of_ne differ]

/-- A caller that has found no event group stores one, whatever is stored already. -/
theorem store_later (inv : Inv s) (safe : Safe s)
    (creating : (s.timeEvent.pcs j).creating = true) :
    ∃ t h, Later s t ∧ Inv t ∧ t.timeEvent.pointer = some h ∧
      t.timeEvent.objects.get? h = some false ∧ t.announced = s.announced ∧ Safe t ∧
      ∀ i, i ≠ j → t.timeEvent.pcs i = s.timeEvent.pcs i := by
  cases pc : s.timeEvent.pcs j with
  | create =>
      obtain ⟨t, later, taken, timeEvent, -, announced, -⟩ :=
        syncStart_later (create_iff.mpr ⟨pc, rfl⟩) (a := .create j true)
      have storing : t.timeEvent.pcs j = .store (some s.timeEvent.objects.next) := by
        rw [timeEvent, if_pos rfl, goto_self]
      obtain ⟨u, later', inv', stored, clear, announced', safe', others⟩ :=
        store_later_of_store (inv.step _ taken) storing
      refine ⟨u, _, later.trans later', inv', stored, clear, announced'.trans announced,
        safe' (safe.step (.syncStart (.create j true)) rfl taken), ?_⟩
      intro i differ
      rw [others i differ, timeEvent, if_pos rfl, goto_of_ne differ]
  | store event =>
      cases event with
      | none => exact absurd pc (safe.timeEvent.made j)
      | some h =>
          obtain ⟨t, later, inv', stored, clear, announced, safe', others⟩ :=
            store_later_of_store inv pc
          exact ⟨t, h, later, inv', stored, clear, announced, safe' safe, others⟩
  | idle => simp [pc, Pc.creating] at creating
  | check => simp [pc, Pc.creating] at creating
  | setUp => simp [pc, Pc.creating] at creating

/-- Once there is an event group, the client gets to poll. -/
theorem polling_later (inv : Inv s) (safe : Safe s)
    (stored : s.timeEvent.pointer.isSome = true) :
    ∃ t, Later s t ∧ Inv t ∧ Safe t ∧ t.polling = true ∧
      ∀ j, (s.timeEvent.pcs j).creating = true → (t.timeEvent.pcs j).creating = true := by
  rcases inv.starts stored with polling | ⟨k, setting⟩
  · exact ⟨s, .refl, inv, safe, polling, fun j creating => creating⟩
  · obtain ⟨t, later, taken, timeEvent, -, -, polling⟩ :=
      syncStart_later (setUp_iff.mpr ⟨setting, rfl⟩)
    refine ⟨t, later, inv.step _ taken, safe.step (.syncStart (.setUp k)) trivial taken,
      polling.trans (Bool.or_true _), ?_⟩
    intro j creating
    have differ : j ≠ k := by
      rintro rfl
      simp [setting, Pc.creating] at creating
    rw [timeEvent, goto_of_ne differ]
    exact creating

/-- What a step of the callback leaves. -/
theorem callback_step {a : Action τ} (inv : Inv s) (safe : Safe s) (taken : step s a = some t)
    (creates : Creates a) (available : t.available = s.available) (answers : t.answers = s.answers)
    (pcs : t.timeEvent.pcs = s.timeEvent.pcs) :
    Later s t ∧ Inv t ∧ Safe t ∧ t.timeEvent.pcs = s.timeEvent.pcs :=
  ⟨.step taken available answers, inv.step a taken, safe.step a creates taken, pcs⟩

/-- The callback sets the bit and returns. -/
theorem announced_of_setting (inv : Inv s) (safe : Safe s) {event : Option Nat}
    (called : s.callback = .setting event) :
    ∃ t, (Later s t ∧ Inv t ∧ Safe t ∧ t.timeEvent.pcs = s.timeEvent.pcs) ∧
      t.announced = true := by
  cases event with
  | none => exact absurd called safe.setting
  | some h =>
      have taken := setBits_iff.mpr (.inr ⟨h, called, rfl⟩)
      exact ⟨_, callback_step inv safe taken trivial rfl rfl rfl, rfl⟩

theorem announced_of_logging (inv : Inv s) (safe : Safe s) (called : s.callback = .logging) :
    ∃ t, (Later s t ∧ Inv t ∧ Safe t ∧ t.timeEvent.pcs = s.timeEvent.pcs) ∧
      t.announced = true := by
  obtain ⟨later, inv', safe', pcs⟩ :=
    callback_step inv safe (loadEvent_iff.mpr ⟨called, rfl⟩) trivial rfl rfl rfl
  obtain ⟨t, ⟨later', inv'', safe'', pcs'⟩, announced⟩ := announced_of_setting inv' safe' rfl
  exact ⟨t, ⟨later.trans later', inv'', safe'', pcs'.trans pcs⟩, announced⟩

/-- Polling, the client gets to synchronise the time and the callback to return. -/
theorem announced_later (inv : Inv s) (safe : Safe s) (polling : s.polling = true) :
    ∃ t, (Later s t ∧ Inv t ∧ Safe t ∧ t.timeEvent.pcs = s.timeEvent.pcs) ∧
      t.announced = true := by
  cases called : s.callback with
  | setting event => exact announced_of_setting inv safe called
  | logging => exact announced_of_logging inv safe called
  | idle =>
      obtain ⟨later, inv', safe', pcs⟩ :=
        callback_step inv safe (notify_iff.mpr ⟨⟨polling, called⟩, rfl⟩) trivial rfl rfl rfl
      obtain ⟨t, ⟨later', inv'', safe'', pcs'⟩, announced⟩ := announced_of_logging inv' safe' rfl
      exact ⟨t, ⟨later.trans later', inv'', safe'', pcs'.trans pcs⟩, announced⟩

/-- A call of `sntp_time_available` that times out. -/
theorem answer_later (inv : Inv s) {h : Nat} (stored : s.timeEvent.pointer = some h)
    (clear : s.timeEvent.objects.get? h = some false) (announced : s.announced = true)
    (idle : s.available i = .idle) :
    ∃ t, run step s [.check i, .waitBits i, .answer i] = some t ∧
      t.answers = s.answers ++ [⟨false, true, true, true⟩] := by
  have checked := check_iff.mpr ⟨idle, rfl⟩
  rw [if_pos (by rw [stored]; rfl)] at checked
  have waits : step { s with available := Function.update s.available i .checked } (.waitBits i) =
      some { s with
        available := Function.update (Function.update s.available i .checked) i
          (.waiting s.timeEvent.pointer) } :=
    waitBits_iff.mpr ⟨Function.update_self .., rfl⟩
  have synced := inv.announced announced
  rw [run, checked, Option.bind_some, run, waits, Option.bind_some, run]
  simp only [step, Function.update_self, stored, clear, announced, synced, Option.bind_some, run]
  exact ⟨_, rfl, rfl⟩

end Lost

/-- **A lost synchronisation**: when two calls of `sntp_sync_start` have found no event group, or
one still has and there is one by now, the time may be synchronised and the callback return, and
then task `i` call `sntp_time_available`, find an event group and time out. -/
theorem sync_lost (actions : List (Action τ)) (s : Sntp τ) (i : τ)
    (reached : run step (.boot τ) actions = some s)
    (creates : AllSteps step (fun _ => Creates) (.boot τ) actions)
    (second : ¬ Sole s.timeEvent) (idle : s.available i = .idle) :
    ∃ more t u, run step s more = some t ∧ t.synced = true ∧ t.announced = true ∧
      t.answers = s.answers ∧ run step t [.check i, .waitBits i, .answer i] = some u ∧
      u.answers = s.answers ++ [⟨false, true, true, true⟩] := by
  have inv : Inv s :=
    (allStates_of_invariant (fun _ a _ inv taken => inv.step a taken) inv_boot actions).of_run
      reached
  have safe : Safe s := (safe_states creates).of_run reached
  -- one caller has stored its event group, and another one is still creating
  have apart : ∃ t j, Later s t ∧ Inv t ∧ Safe t ∧ t.timeEvent.pointer.isSome = true ∧
      (t.timeEvent.pcs j).creating = true := by
    by_contra never
    refine second ⟨?_, ?_⟩
    · intro j k hj hk
      by_contra differ
      obtain ⟨t, h, later, inv', stored, -, -, safe', others⟩ := store_later inv safe hj
      refine never ⟨t, k, later, inv', safe', by rw [stored]; rfl, ?_⟩
      rw [others k (Ne.symm differ)]
      exact hk
    · intro j creating
      by_contra stored
      exact never ⟨s, j, .refl, inv, safe, Option.isSome_iff_ne_none.mpr stored, creating⟩
  obtain ⟨t, j, later, inv, safe, stored, creating⟩ := apart
  obtain ⟨t, later₁, inv, safe, polling, still⟩ := polling_later inv safe stored
  obtain ⟨t, ⟨later₂, inv, safe, same⟩, announced⟩ := announced_later inv safe polling
  have creating' : (t.timeEvent.pcs j).creating = true := by
    rw [same]
    exact still j creating
  obtain ⟨t, h, later₃, inv, stored, clear, kept, -⟩ := store_later inv safe creating'
  obtain ⟨⟨more, ran⟩, available, answers⟩ :=
    ((later.trans later₁).trans later₂).trans later₃
  have announced' : t.announced = true := kept.trans announced
  obtain ⟨u, ran', answered⟩ := answer_later inv stored clear announced'
    ((congrFun available i).trans idle)
  exact ⟨more, t, u, ran, inv.announced announced', announced', answers, ran',
    answers ▸ answered⟩

/-- Both tasks look at `s_time_event` before either has stored an event group. -/
def startedTwice : List (Action Task) :=
  [.syncStart (.call .appMain), .syncStart (.call .wifiEventHandler),
    .syncStart (.check .appMain), .syncStart (.check .wifiEventHandler)]

def afterStartedTwice : Sntp Task := (run step (.boot Task) startedTwice).getD (.boot Task)

instance (a : Action Task) : Decidable (Creates a) :=
  match a with
  | .syncStart b => inferInstanceAs (Decidable (LazyInit.Creates b))
  | .notify => .isTrue trivial
  | .loadEvent => .isTrue trivial
  | .setBits => .isTrue trivial
  | .check _ => .isTrue trivial
  | .waitBits _ => .isTrue trivial
  | .answer _ => .isTrue trivial

theorem sync_lost_startedTwice :
    ∃ more t u, run step afterStartedTwice more = some t ∧ t.synced = true ∧ t.announced = true ∧
      t.answers = afterStartedTwice.answers ∧
      run step t [.check .weightManagerTask, .waitBits .weightManagerTask,
        .answer .weightManagerTask] = some u ∧
      u.answers = afterStartedTwice.answers ++ [⟨false, true, true, true⟩] := by
  refine sync_lost startedTwice afterStartedTwice .weightManagerTask rfl (by decide) ?_ rfl
  intro sole
  cases sole.unique .appMain .wifiEventHandler rfl rfl

end SmartScale.SntpSynch
