import Mathlib.Logic.Function.Basic
import SmartScale.Base.Objects

/-!
An object that its first caller makes: `if (p) return; p = create(); …`, with no lock around it.
Each caller checks, creates, stores and then sets up what it stored, and between any two of these
the others may run. A creation may fail; the caller does not look, and stores NULL.

* `sole_step`: a caller that finds nothing while another one is still creating, and only such a
  caller, ends the time of at most one creator.
* `Sole.pointer_stays`: until then what is stored stays.
* `Inv.step`: an object that is not stored yet belongs to one caller.
* `present_step`: as long as creations succeed, and no longer, who sets up has something to.
* `get?_of_step`, `store_of_step`: which objects there are, and which are about to be stored.
-/

namespace SmartScale.LazyInit

/-- What a caller does next; NULL is `none`. -/
inductive Pc where
  | idle
  | check
  | create
  | store (h : Option Nat)
  | setUp
deriving DecidableEq, Repr

/-- The caller has found nothing and not stored anything yet. -/
def Pc.creating : Pc → Bool
  | .create => true
  | .store _ => true
  | _ => false

structure State (τ α : Type*) where
  pointer : Option Nat
  objects : Objects α
  pcs : τ → Pc

inductive Action (τ : Type*) where
  | call (i : τ)
  | check (i : τ)
  | create (i : τ) (made : Bool)
  | store (i : τ)
  | setUp (i : τ)
deriving DecidableEq

variable {τ α : Type*} [DecidableEq τ]

def State.goto (s : State τ α) (i : τ) (pc : Pc) : State τ α :=
  { s with pcs := Function.update s.pcs i pc }

/-- One step of a caller, where it is the next one. -/
def step (new : α) (s : State τ α) : Action τ → Option (State τ α)
  | .call i => if s.pcs i = .idle then some (s.goto i .check) else none
  | .check i =>
      if s.pcs i = .check then some (s.goto i (if s.pointer.isSome then .idle else .create))
      else none
  | .create i made =>
      if s.pcs i = .create then
        some (if made then
          State.goto { s with objects := s.objects.create new } i (.store (some s.objects.next))
        else s.goto i (.store none))
      else none
  | .store i =>
      match s.pcs i with
      | .store h => some (State.goto { s with pointer := h } i .setUp)
      | _ => none
  | .setUp i => if s.pcs i = .setUp then some (s.goto i .idle) else none

/-- At most one caller is creating, and only while nothing is stored. -/
structure Sole (s : State τ α) : Prop where
  unique : ∀ i j, (s.pcs i).creating = true → (s.pcs j).creating = true → i = j
  absent : ∀ i, (s.pcs i).creating = true → s.pointer = none

/-- The action is not a check that finds nothing while another caller is creating. -/
def Alone (s : State τ α) : Action τ → Prop
  | .check _ => s.pointer = none → ∀ j, (s.pcs j).creating = false
  | _ => True

/-- The creation succeeds. -/
def Creates : Action τ → Prop
  | .create _ made => made = true
  | _ => True

/-- What holds in every interleaving. -/
structure Inv (s : State τ α) : Prop where
  stored : ∀ h, s.pointer = some h → s.objects.Live h
  made : ∀ i h, s.pcs i = .store (some h) → s.objects.Live h
  unstored : ∀ i h, s.pcs i = .store (some h) → s.pointer ≠ some h
  owner : ∀ i j h, s.pcs i = .store (some h) → s.pcs j = .store (some h) → i = j

/-- No creation has failed: nobody is about to store NULL, and who sets up has something to. -/
structure Present (s : State τ α) : Prop where
  made : ∀ i, s.pcs i ≠ .store none
  settingUp : ∀ i, s.pcs i = .setUp → s.pointer.isSome = true

section Steps

variable {new : α} {s t : State τ α} {i j : τ} {p : Pc}

@[simp] theorem goto_self : (s.goto i p).pcs i = p := Function.update_self ..

theorem goto_of_ne (differ : j ≠ i) : (s.goto i p).pcs j = s.pcs j :=
  Function.update_of_ne differ ..

/-- What a caller is at after a step of caller `i`. -/
theorem goto_cases (j : τ) :
    j = i ∧ (s.goto i p).pcs j = p ∨ j ≠ i ∧ (s.goto i p).pcs j = s.pcs j := by
  rcases eq_or_ne j i with rfl | differ
  · exact .inl ⟨rfl, goto_self⟩
  · exact .inr ⟨differ, goto_of_ne differ⟩

/-- What the caller that moved is not at, another one was at already. -/
theorem of_goto {P : Pc → Prop} (away : ¬ P p) (there : P ((s.goto i p).pcs j)) :
    j ≠ i ∧ P (s.pcs j) := by
  rcases goto_cases (s := s) (i := i) (p := p) j with ⟨-, here⟩ | ⟨differ, other⟩
  · exact absurd (here ▸ there) away
  · exact ⟨differ, other ▸ there⟩

theorem call_iff :
    step new s (.call i) = some t ↔ s.pcs i = .idle ∧ t = s.goto i .check := by
  rw [step, Option.ite_none_right_eq_some, Option.some_inj, eq_comm (a := t)]

theorem check_iff :
    step new s (.check i) = some t ↔
      s.pcs i = .check ∧ t = s.goto i (if s.pointer.isSome then .idle else .create) := by
  rw [step, Option.ite_none_right_eq_some, Option.some_inj, eq_comm (a := t)]

theorem create_iff {made : Bool} :
    step new s (.create i made) = some t ↔ s.pcs i = .create ∧
      t = if made then
        State.goto { s with objects := s.objects.create new } i (.store (some s.objects.next))
      else s.goto i (.store none) := by
  rw [step, Option.ite_none_right_eq_some, Option.some_inj, eq_comm (a := t)]

theorem store_iff :
    step new s (.store i) = some t ↔
      ∃ h, s.pcs i = .store h ∧ t = State.goto { s with pointer := h } i .setUp := by
  rw [step]
  cases s.pcs i <;> simp [eq_comm]

theorem setUp_iff :
    step new s (.setUp i) = some t ↔ s.pcs i = .setUp ∧ t = s.goto i .idle := by
  rw [step, Option.ite_none_right_eq_some, Option.some_inj, eq_comm (a := t)]

/-- No caller starts creating. -/
theorem creating_of_goto (kept : p.creating = true → (s.pcs i).creating = true)
    (creating : ((s.goto i p).pcs j).creating = true) : (s.pcs j).creating = true := by
  rcases goto_cases (s := s) (i := i) (p := p) j with ⟨rfl, here⟩ | ⟨-, there⟩
  · exact kept (here ▸ creating)
  · exact there ▸ creating

omit [DecidableEq τ] in
theorem Sole.of_creating (sole : Sole s)
    (kept : ∀ j, (t.pcs j).creating = true → (s.pcs j).creating = true)
    (pointer : t.pointer = s.pointer) : Sole t where
  unique j k hj hk := sole.unique j k (kept j hj) (kept k hk)
  absent j hj := pointer.trans (sole.absent j (kept j hj))

/-- A check that finds nothing, by a caller that is the only one to create then or is not. -/
theorem sole_check (checking : s.pcs i = .check) (absent : s.pointer = none) :
    (∀ j, (s.pcs j).creating = false) ↔ Sole (s.goto i .create) := by
  constructor
  · intro alone
    have only (j : τ) (creating : ((s.goto i .create).pcs j).creating = true) : j = i := by
      by_contra differ
      rw [goto_of_ne differ, alone j] at creating
      cases creating
    exact ⟨fun j k hj hk => (only j hj).trans (only k hk).symm, fun _ _ => absent⟩
  · intro sole j
    by_contra creating
    have here : ((s.goto i .create).pcs i).creating = true := by
      rw [goto_self]
      rfl
    have differ : j ≠ i := by
      rintro rfl
      exact creating (by rw [checking]; rfl)
    refine differ (sole.unique j i ?_ here)
    simpa [goto_of_ne differ] using creating

/-- **One creator.** A step keeps it so exactly if it is not the check of a second one. -/
theorem sole_step (sole : Sole s) {a : Action τ} (taken : step new s a = some t) :
    Alone s a ↔ Sole t := by
  cases a with
  | call i =>
      obtain ⟨-, rfl⟩ := call_iff.mp taken
      exact iff_of_true trivial
        (sole.of_creating (fun j => creating_of_goto (by simp [Pc.creating])) rfl)
  | check i =>
      obtain ⟨checking, rfl⟩ := check_iff.mp taken
      cases pointer : s.pointer with
      | some h =>
          refine iff_of_true (fun absent => ?_) ?_
          · rw [pointer] at absent
            cases absent
          · exact sole.of_creating (fun j => creating_of_goto (by simp [Pc.creating])) rfl
      | none => exact (forall_prop_of_true pointer).trans (sole_check checking pointer)
  | create i made =>
      obtain ⟨creating, rfl⟩ := create_iff.mp taken
      have here : (s.pcs i).creating = true := by
        rw [creating]
        rfl
      refine iff_of_true trivial ?_
      cases made with
      | true =>
          refine sole.of_creating (fun j => ?_) rfl
          exact creating_of_goto (s := { s with objects := s.objects.create new }) fun _ => here
      | false => exact sole.of_creating (fun j => creating_of_goto fun _ => here) rfl
  | store i =>
      obtain ⟨h, storing, rfl⟩ := store_iff.mp taken
      have none_left (j : τ)
          (creating : ((State.goto { s with pointer := h } i .setUp).pcs j).creating = true) :
          False := by
        obtain ⟨differ, before⟩ := of_goto (s := { s with pointer := h })
          (P := fun p => p.creating = true) (by simp [Pc.creating]) creating
        exact differ (sole.unique j i before (by rw [storing]; rfl))
      exact iff_of_true trivial ⟨fun j k hj _ => (none_left j hj).elim,
        fun j hj => (none_left j hj).elim⟩
  | setUp i =>
      obtain ⟨-, rfl⟩ := setUp_iff.mp taken
      exact iff_of_true trivial
        (sole.of_creating (fun j => creating_of_goto (by simp [Pc.creating])) rfl)

/-- Only a store changes what is stored. -/
theorem pointer_of_step {a : Action τ} (taken : step new s a = some t) :
    t.pointer = s.pointer ∨ ∃ i h, s.pcs i = .store h ∧ t.pcs i = .setUp ∧
      t.pointer = h ∧ t.objects = s.objects := by
  cases a with
  | call i =>
      obtain ⟨-, rfl⟩ := call_iff.mp taken
      exact .inl rfl
  | check i =>
      obtain ⟨-, rfl⟩ := check_iff.mp taken
      exact .inl rfl
  | create i made =>
      obtain ⟨-, rfl⟩ := create_iff.mp taken
      cases made <;> exact .inl rfl
  | store i =>
      obtain ⟨h, storing, rfl⟩ := store_iff.mp taken
      exact .inr ⟨i, h, storing, goto_self, rfl, rfl⟩
  | setUp i =>
      obtain ⟨-, rfl⟩ := setUp_iff.mp taken
      exact .inl rfl

/-- Until a second caller creates, what is stored stays. -/
theorem Sole.pointer_stays (sole : Sole s) {a : Action τ} (taken : step new s a = some t) {h : Nat}
    (stored : s.pointer = some h) : t.pointer = some h := by
  rcases pointer_of_step taken with same | ⟨i, k, storing, -⟩
  · exact same.trans stored
  · have absent := sole.absent i (by rw [storing]; rfl)
    rw [stored] at absent
    cases absent

/-- What is stored is not taken back, unless a creation fails. -/
theorem Present.pointer_isSome (present : Present s) {a : Action τ} (taken : step new s a = some t)
    (stored : s.pointer.isSome = true) : t.pointer.isSome = true := by
  rcases pointer_of_step taken with same | ⟨i, h, storing, -, stored', -⟩
  · rw [same]
    exact stored
  · rw [stored', Option.isSome_iff_ne_none]
    rintro rfl
    exact present.made i storing

/-- A caller with the object to set up waits for its own step. -/
theorem setUp_stays {a : Action τ} (taken : step new s a = some t) (setting : s.pcs j = .setUp) :
    a = .setUp j ∨ t.pcs j = .setUp := by
  have other {i : τ} {s' : State τ α} {p : Pc} (pcs : s'.pcs = s.pcs) (at_ : s.pcs i ≠ .setUp) :
      (s'.goto i p).pcs j = .setUp := by
    have differ : j ≠ i := by
      rintro rfl
      exact at_ setting
    rw [goto_of_ne differ, pcs]
    exact setting
  cases a with
  | call i =>
      obtain ⟨idle, rfl⟩ := call_iff.mp taken
      exact .inr (other rfl (by simp [idle]))
  | check i =>
      obtain ⟨checking, rfl⟩ := check_iff.mp taken
      exact .inr (other rfl (by simp [checking]))
  | create i made =>
      obtain ⟨creating, rfl⟩ := create_iff.mp taken
      cases made <;> exact .inr (other rfl (by simp [creating]))
  | store i =>
      obtain ⟨h, storing, rfl⟩ := store_iff.mp taken
      exact .inr (other rfl (by simp [storing]))
  | setUp i =>
      rcases eq_or_ne i j with rfl | differ
      · exact .inl rfl
      · obtain ⟨-, rfl⟩ := setUp_iff.mp taken
        refine .inr ?_
        rw [goto_of_ne differ.symm]
        exact setting

/-- A step makes no objects but the one of a `create`. -/
theorem get?_of_step {a : Action τ} (taken : step new s a = some t) (h : Nat) :
    t.objects.get? h = s.objects.get? h ∨
      h = s.objects.next ∧ t.objects.get? h = some new := by
  cases a with
  | call i =>
      obtain ⟨-, rfl⟩ := call_iff.mp taken
      exact .inl rfl
  | check i =>
      obtain ⟨-, rfl⟩ := check_iff.mp taken
      exact .inl rfl
  | create i made =>
      obtain ⟨-, rfl⟩ := create_iff.mp taken
      cases made with
      | false => exact .inl rfl
      | true =>
          have made : (s.objects.create new).get? h =
              if h = s.objects.next then some new else s.objects.get? h := Objects.get?_create
          by_cases next : h = s.objects.next
          · rw [if_pos next] at made
            exact .inr ⟨next, made⟩
          · rw [if_neg next] at made
            exact .inl made
  | store i =>
      obtain ⟨k, -, rfl⟩ := store_iff.mp taken
      exact .inl rfl
  | setUp i =>
      obtain ⟨-, rfl⟩ := setUp_iff.mp taken
      exact .inl rfl

theorem live_of_step {a : Action τ} (taken : step new s a = some t) {h : Nat}
    (live : s.objects.Live h) : t.objects.Live h := by
  obtain ⟨object, there⟩ := Objects.live_iff.mp live
  rcases get?_of_step taken h with same | ⟨-, made⟩
  · exact Objects.live_iff.mpr ⟨object, same.trans there⟩
  · exact Objects.live_iff.mpr ⟨new, made⟩

/-- An object that is about to be stored after a creation is the new one, or was so before. -/
theorem store_of_create {h : Nat}
    (storing : (State.goto { s with objects := s.objects.create new } i
      (.store (some s.objects.next))).pcs j = .store (some h)) :
    j = i ∧ h = s.objects.next ∨ s.pcs j = .store (some h) := by
  rcases goto_cases (s := { s with objects := s.objects.create new }) (i := i)
    (p := .store (some s.objects.next)) j with ⟨same, here⟩ | ⟨-, there⟩
  · exact .inl ⟨same, (Option.some.inj (Pc.store.inj (here.symm.trans storing))).symm⟩
  · exact .inr (there.symm.trans storing)

/-- An object that is about to be stored was so before, or is new. -/
theorem store_of_step {a : Action τ} (taken : step new s a = some t) {h : Nat}
    (storing : t.pcs j = .store (some h)) :
    s.pcs j = .store (some h) ∨ h = s.objects.next ∧ t.objects.get? h = some new := by
  cases a with
  | call i =>
      obtain ⟨-, rfl⟩ := call_iff.mp taken
      exact .inl (of_goto (P := (· = .store (some h))) (by simp) storing).2
  | check i =>
      obtain ⟨-, rfl⟩ := check_iff.mp taken
      exact .inl (of_goto (P := (· = .store (some h))) (by split <;> simp) storing).2
  | create i made =>
      obtain ⟨-, rfl⟩ := create_iff.mp taken
      cases made with
      | false => exact .inl (of_goto (P := (· = .store (some h))) (by simp) storing).2
      | true =>
          rcases store_of_create storing with ⟨-, rfl⟩ | before
          · exact .inr ⟨rfl, Objects.get?_create.trans (if_pos rfl)⟩
          · exact .inl before
  | store i =>
      obtain ⟨k, -, rfl⟩ := store_iff.mp taken
      exact .inl (of_goto (s := { s with pointer := k }) (P := (· = .store (some h))) (by simp)
        storing).2
  | setUp i =>
      obtain ⟨-, rfl⟩ := setUp_iff.mp taken
      exact .inl (of_goto (P := (· = .store (some h))) (by simp) storing).2

/-- A caller that goes anywhere but to a store of an object. -/
theorem Inv.goto (inv : Inv s) (away : ∀ h, p ≠ .store (some h)) : Inv (s.goto i p) := by
  have before {j : τ} {h : Nat} (storing : (s.goto i p).pcs j = .store (some h)) :
      s.pcs j = .store (some h) :=
    (of_goto (P := (· = .store (some h))) (away h) storing).2
  exact ⟨inv.stored, fun j h storing => inv.made j h (before storing),
    fun j h storing => inv.unstored j h (before storing),
    fun j k h hj hk => inv.owner j k h (before hj) (before hk)⟩

/-- A new object is known to its creator only. -/
theorem Inv.create (inv : Inv s) : Inv (State.goto { s with objects := s.objects.create new } i
    (.store (some s.objects.next))) := by
  have other {j : τ} (storing : s.pcs j = .store (some s.objects.next)) : False :=
    (inv.made j _ storing).lt_next.ne rfl
  refine ⟨fun h stored => (inv.stored h stored).create, ?_, ?_, ?_⟩
  · intro j h storing
    rcases store_of_create storing with ⟨-, rfl⟩ | before
    · exact Objects.live_create_self
    · exact (inv.made j h before).create
  · intro j h storing
    rcases store_of_create storing with ⟨-, rfl⟩ | before
    · exact fun stored => (inv.stored _ stored).lt_next.ne rfl
    · exact inv.unstored j h before
  · intro j k h hj hk
    rcases store_of_create hj with ⟨rfl, rfl⟩ | before
    · rcases store_of_create hk with ⟨same, -⟩ | before'
      · exact same.symm
      · exact (other before').elim
    · rcases store_of_create hk with ⟨-, rfl⟩ | before'
      · exact (other before).elim
      · exact inv.owner j k h before before'

/-- **Ownership**: in every interleaving, an object that is not stored yet is known to its
creator only. -/
theorem Inv.step (inv : Inv s) {a : Action τ} (taken : step new s a = some t) : Inv t := by
  cases a with
  | call i =>
      obtain ⟨-, rfl⟩ := call_iff.mp taken
      exact inv.goto (by simp)
  | check i =>
      obtain ⟨-, rfl⟩ := check_iff.mp taken
      cases s.pointer.isSome with
      | true => exact inv.goto (by simp)
      | false => exact inv.goto (by simp)
  | create i made =>
      obtain ⟨-, rfl⟩ := create_iff.mp taken
      cases made with
      | false => exact inv.goto (by simp)
      | true => exact inv.create
  | store i =>
      obtain ⟨h, storing, rfl⟩ := store_iff.mp taken
      have before {j : τ} {k : Nat}
          (other : (State.goto { s with pointer := h } i .setUp).pcs j = .store (some k)) :
          j ≠ i ∧ s.pcs j = .store (some k) :=
        of_goto (s := { s with pointer := h }) (P := (· = .store (some k))) (by simp) other
      refine ⟨?_, fun j k other => inv.made j k (before other).2, ?_,
        fun j k l hj hk => inv.owner j k l (before hj).2 (before hk).2⟩
      · intro k stored
        obtain rfl : h = some k := stored
        exact inv.made i k storing
      · intro j k other stored
        obtain rfl : h = some k := stored
        exact (before other).1 (inv.owner j i k (before other).2 storing)
  | setUp i =>
      obtain ⟨-, rfl⟩ := setUp_iff.mp taken
      exact inv.goto (by simp)

/-- A caller that goes anywhere but to a store of NULL. -/
theorem Present.goto (present : Present s) (away : p ≠ .store none)
    (ready : p = .setUp → s.pointer.isSome = true) : Present (s.goto i p) where
  made j storing := present.made j (of_goto (P := (· = .store none)) away storing).2
  settingUp j setting := by
    rcases goto_cases (s := s) (i := i) (p := p) j with ⟨-, here⟩ | ⟨-, there⟩
    · exact ready (here.symm.trans setting)
    · exact present.settingUp j (there.symm.trans setting)

/-- **Presence**: a step keeps it so exactly if it is not a creation that fails. -/
theorem present_step (present : Present s) {a : Action τ} (taken : step new s a = some t) :
    Creates a ↔ Present t := by
  cases a with
  | call i =>
      obtain ⟨-, rfl⟩ := call_iff.mp taken
      exact iff_of_true trivial (present.goto (by simp) (by simp))
  | check i =>
      obtain ⟨-, rfl⟩ := check_iff.mp taken
      refine iff_of_true trivial ?_
      cases s.pointer.isSome with
      | true => exact present.goto (by simp) (by simp)
      | false => exact present.goto (by simp) (by simp)
  | create i made =>
      obtain ⟨-, rfl⟩ := create_iff.mp taken
      cases made with
      | true =>
          have same : Present { s with objects := s.objects.create new } :=
            ⟨present.made, present.settingUp⟩
          exact iff_of_true rfl (same.goto (by simp) (by simp))
      | false =>
          refine iff_of_false Bool.false_ne_true fun present' => present'.made i ?_
          exact goto_self
  | store i =>
      obtain ⟨h, storing, rfl⟩ := store_iff.mp taken
      have there : h.isSome = true := by
        rw [Option.isSome_iff_ne_none]
        rintro rfl
        exact present.made i storing
      have same : Present { s with pointer := h } := ⟨present.made, fun _ _ => there⟩
      exact iff_of_true trivial (same.goto (by simp) fun _ => there)
  | setUp i =>
      obtain ⟨-, rfl⟩ := setUp_iff.mp taken
      exact iff_of_true trivial (present.goto (by simp) (by simp))

end Steps

end SmartScale.LazyInit
