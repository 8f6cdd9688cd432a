import Mathlib.Data.List.GetD
import Mathlib.Order.Nat

/-!
Tables of dynamically created objects. A handle is the number of objects created
before; deleting an object leaves its entry empty, so that its handle is never given
out again.

* `get?_create`, `get?_delete`, `get?_update`, `get?_map`: what each operation leaves.
* `Live` handles refer to an object; `Usable` ones are nullable and do.
-/

namespace SmartScale

/-- The objects created so far, `none` where deleted. -/
structure Objects (α : Type*) where
  entries : List (Option α)
deriving DecidableEq

namespace Objects

variable {α : Type*}

def empty : Objects α := ⟨[]⟩

/-- The handle of the object created next. -/
def next (os : Objects α) : Nat := os.entries.length

/-- The object a handle refers to, unless it is deleted. -/
def get? (os : Objects α) (h : Nat) : Option α := os.entries.getD h none

def create (os : Objects α) (a : α) : Objects α := ⟨os.entries ++ [some a]⟩

def delete (os : Objects α) (h : Nat) : Objects α := ⟨os.entries.set h none⟩

/-- Replace an object that is there. -/
def update (os : Objects α) (h : Nat) (a : α) : Objects α :=
  ⟨os.entries.modify h fun entry => entry.map fun _ => a⟩

/-- The handle refers to an object. -/
def Live (os : Objects α) (h : Nat) : Prop := (os.get? h).isSome = true

/-- Change every object that is there. -/
def map (os : Objects α) (f : α → α) : Objects α := ⟨os.entries.map fun entry => entry.map f⟩

instance (os : Objects α) (h : Nat) : Decidable (os.Live h) :=
  inferInstanceAs (Decidable (_ = true))

/-- A nullable handle that refers to an object. -/
def Usable (os : Objects α) (h : Option Nat) : Prop := ∃ k ∈ h, os.Live k

instance (os : Objects α) (h : Option Nat) : Decidable (os.Usable h) :=
  inferInstanceAs (Decidable (∃ k ∈ h, os.Live k))

section Laws

variable {os : Objects α} {a b : α} {h k : Nat}

theorem live_iff : os.Live h ↔ ∃ a, os.get? h = some a := Option.isSome_iff_exists

theorem get?_eq_some_iff : os.get? h = some a ↔ os.entries[h]? = some (some a) := by
  rw [get?, List.getD_eq_getElem?_getD]
  cases os.entries[h]? <;> simp

theorem mem_of_get? (there : os.get? h = some a) : some a ∈ os.entries :=
  List.mem_of_getElem? (get?_eq_some_iff.mp there)

@[simp] theorem not_live_empty : ¬ (empty : Objects α).Live h := by simp [Live, get?, empty]

theorem Live.lt_next (live : os.Live h) : h < os.next := by
  by_contra beyond
  have nothing : os.entries.length ≤ h := not_lt.mp beyond
  simp [Live, get?, List.getElem?_eq_none nothing] at live

theorem get?_create : (os.create a).get? k = if k = os.next then some a else os.get? k := by
  rcases lt_trichotomy k os.next with below | rfl | above
  · have there : k < os.entries.length := below
    rw [if_neg below.ne]
    simp [get?, create, List.getElem?_append_left there]
  · simp [get?, create, next]
  · have beyond : os.entries.length ≤ k := above.le
    have beyond' : (os.entries ++ [some a]).length ≤ k := by
      rw [List.length_append]
      exact above
    rw [if_neg above.ne', get?, get?, create, List.getD_eq_default _ _ beyond,
      List.getD_eq_default _ _ beyond']

theorem get?_delete : (os.delete h).get? k = if k = h then none else os.get? k := by
  rcases eq_or_ne k h with rfl | differ
  · rw [if_pos rfl]
    by_cases inside : k < os.entries.length
    · simp [get?, delete, inside]
    · simp [get?, delete, not_lt.mp inside]
  · rw [if_neg differ]
    simp [get?, delete, List.getElem?_set_ne differ.symm]

theorem get?_update : (os.update h a).get? k =
    if k = h then (os.get? h).map fun _ => a else os.get? k := by
  rcases eq_or_ne k h with rfl | differ
  · rw [if_pos rfl]
    cases entry : os.entries[k]? <;> simp [get?, update, entry]
  · rw [if_neg differ]
    simp [get?, update, differ.symm]

theorem get?_map {f : α → α} : (os.map f).get? k = (os.get? k).map f := by
  cases entry : os.entries[k]? <;> simp [get?, map, entry]

theorem live_create_iff : (os.create a).Live k ↔ k = os.next ∨ os.Live k := by
  rw [Live, get?_create]
  split
  · rename_i new
    exact iff_of_true rfl (.inl new)
  · rename_i old
    exact (or_iff_right old).symm

theorem live_delete_iff : (os.delete h).Live k ↔ k ≠ h ∧ os.Live k := by
  rw [Live, get?_delete]
  split
  · rename_i gone
    exact iff_of_false (by simp) fun live => live.1 gone
  · rename_i other
    exact (and_iff_right other).symm

theorem live_update_iff : (os.update h a).Live k ↔ os.Live k := by
  rw [Live, get?_update]
  split
  · rename_i same
    rw [Option.isSome_map, same]
    rfl
  · rfl

@[simp] theorem next_create : (os.create a).next = os.next + 1 := List.length_append ..

@[simp] theorem next_delete : (os.delete h).next = os.next := List.length_set ..

@[simp] theorem next_update : (os.update h a).next = os.next := List.length_modify ..

theorem live_create_self : (os.create a).Live os.next := live_create_iff.mpr (.inl rfl)

theorem Live.create (live : os.Live k) : (os.create a).Live k := live_create_iff.mpr (.inr live)

end Laws

end Objects

end SmartScale
