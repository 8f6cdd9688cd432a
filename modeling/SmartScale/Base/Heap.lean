import Mathlib.Data.List.GetD
import SmartScale.Base.Objects

/-!
Arrays in dynamic memory. An access either succeeds or faults (`none`): it faults on an array
that was freed, outside of the array, and when it reads a cell that nothing was written to.

* `Stores`: an array holds a list, all of its cells written.
* `load_of_stores`, `store_of_stores`, `fill_of_get?`, `free_of_stores`: what each access needs
  to succeed, and what it leaves.
* `SameArrays`: the same arrays have been allocated, and the same freed.
-/

namespace SmartScale

/-- The arrays allocated so far; a cell is `none` until it is written. -/
abbrev Heap (α : Type*) := Objects (List (Option α))

namespace Heap

variable {α : Type*}

/-- `malloc` of an array of `cells` cells, to be found at `heap.next`. -/
def malloc (heap : Heap α) (cells : Nat) : Heap α := heap.create (List.replicate cells none)

/-- Read the cell `i` of the array `p`. -/
def load (heap : Heap α) (p : Nat) (i : Int) : Option α :=
  if i < 0 then none else ((heap.get? p).bind fun cells => cells[i.toNat]?).join

/-- Write the cell `i` of the array `p`. -/
def store (heap : Heap α) (p : Nat) (i : Int) (a : α) : Option (Heap α) :=
  match heap.get? p with
  | none => none
  | some cells =>
      if 0 ≤ i ∧ i.toNat < cells.length then
        some (heap.update p (cells.set i.toNat (some a)))
      else none

/-- Write the first `n` cells of the array `p`. -/
def fill (heap : Heap α) (p n : Nat) (a : α) : Option (Heap α) :=
  match heap.get? p with
  | none => none
  | some cells =>
      if n ≤ cells.length then
        some (heap.update p (List.replicate n (some a) ++ cells.drop n))
      else none

/-- `free`. -/
def free (heap : Heap α) (p : Nat) : Option (Heap α) :=
  if heap.Live p then some (heap.delete p) else none

/-- The array `p` holds `xs`. -/
def Stores (heap : Heap α) (p : Nat) (xs : List α) : Prop := heap.get? p = some (xs.map some)

/-- Nothing was allocated or freed in between. -/
structure SameArrays (heap heap' : Heap α) : Prop where
  next : heap'.next = heap.next
  live : ∀ p, heap'.Live p ↔ heap.Live p

/-! ### Accesses -/

section Accesses

variable {heap : Heap α} {p : Nat} {xs : List α}

theorem Stores.live (h : heap.Stores p xs) : heap.Live p :=
  Objects.live_iff.mpr ⟨_, h⟩

theorem load_of_stores (h : heap.Stores p xs) {i : Nat} (inside : i < xs.length) (d : α) :
    heap.load p i = some (xs.getD i d) := by
  have there : (i : Int) < 0 ↔ False := iff_of_false (by omega) id
  have cell : heap.get? p = some (xs.map some) := h
  simp [load, there, cell, inside]

theorem stores_update (live : heap.Live p) (ys : List α) :
    Stores (heap.update p (ys.map some)) p ys := by
  obtain ⟨cells, there⟩ := Objects.live_iff.mp live
  rw [Stores, Objects.get?_update, if_pos rfl, there, Option.map_some]

theorem store_of_stores (h : heap.Stores p xs) {i : Nat} (inside : i < xs.length) (a : α) :
    heap.store p i a = some (heap.update p ((xs.set i a).map some)) := by
  have there : heap.get? p = some (xs.map some) := h
  have bounds : (0 : Int) ≤ i ∧ (i : Int).toNat < (xs.map some).length := by
    simpa using inside
  simp only [store, there]
  rw [if_pos bounds, Int.toNat_natCast, List.map_set]

/-- `memset` of a whole array. -/
theorem fill_of_get? {cells : List (Option α)} (there : heap.get? p = some cells) (a : α) :
    heap.fill p cells.length a =
      some (heap.update p ((List.replicate cells.length a).map some)) := by
  simp only [fill, there]
  rw [if_pos le_rfl, List.drop_length, List.append_nil, List.map_replicate]

theorem get?_malloc (heap : Heap α) (n : Nat) :
    (heap.malloc n).get? heap.next = some (List.replicate n none) := by
  rw [malloc, Objects.get?_create, if_pos rfl]

theorem free_of_stores (h : heap.Stores p xs) : heap.free p = some (heap.delete p) :=
  if_pos h.live

end Accesses

/-! ### Which arrays there are -/

section Arrays

variable {heap heap' heap'' : Heap α} {p q : Nat}

theorem SameArrays.refl (heap : Heap α) : SameArrays heap heap := ⟨rfl, fun _ => Iff.rfl⟩

theorem SameArrays.trans (first : SameArrays heap heap') (second : SameArrays heap' heap'') :
    SameArrays heap heap'' :=
  ⟨second.next.trans first.next, fun p => (second.live p).trans (first.live p)⟩

theorem sameArrays_update (cells : List (Option α)) : SameArrays heap (heap.update p cells) :=
  ⟨Objects.next_update, fun _ => Objects.live_update_iff⟩

theorem live_malloc_iff {cells : Nat} : (heap.malloc cells).Live q ↔ q = heap.next ∨ heap.Live q :=
  Objects.live_create_iff

end Arrays

end Heap

end SmartScale
