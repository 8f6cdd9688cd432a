import Mathlib.Data.Finset.SDiff
import Mathlib.Data.Finset.Disjoint

/-!
Event groups: a set of flags that tasks wait for and set. A wait asks for any or
for all of its bits, and may clear them when it is satisfied. Setting flags first
releases every blocked task whose wait the raised flags satisfy, and then clears
what these waits clear.

`mem_setBits` says which flags are left after a set.
-/

namespace SmartScale.EventGroup

variable {β : Type*} [DecidableEq β]

/-- What a task waits for. -/
structure Wait (β : Type*) where
  bits : Finset β
  clearOnExit : Bool
  waitForAllBits : Bool

/-- Whether the flags satisfy a wait. -/
def Wait.satisfied (w : Wait β) (flags : Finset β) : Bool :=
  if w.waitForAllBits then decide (w.bits ⊆ flags) else decide (¬ Disjoint w.bits flags)

/-- The flags a satisfied wait clears. -/
def Wait.clears (w : Wait β) : Finset β := if w.clearOnExit then w.bits else ∅

/-- A task starts a wait: the flags it leaves if it is satisfied at once, `none` if it
blocks. -/
def waitBits (flags : Finset β) (w : Wait β) : Option (Finset β) :=
  if w.satisfied flags then some (flags \ w.clears) else none

/-- A task sets `bits` while others are blocked: the flags left. -/
def setBits (flags bits : Finset β) (blocked : List (Wait β)) : Finset β :=
  (blocked.filter fun w => w.satisfied (flags ∪ bits)).foldl (fun left w => left \ w.clears)
    (flags ∪ bits)

section Flags

variable {flags flags' bits : Finset β} {w : Wait β} {blocked : List (Wait β)} {b : β}

theorem satisfied_any (any : w.waitForAllBits = false) :
    w.satisfied flags = true ↔ ∃ b ∈ w.bits, b ∈ flags := by
  simp [Wait.satisfied, any, Finset.not_disjoint_iff]

theorem waitBits_eq_some_iff :
    waitBits flags w = some flags' ↔ w.satisfied flags = true ∧ flags' = flags \ w.clears := by
  rw [waitBits]
  split <;> simp [*, eq_comm]

theorem waitBits_eq_none_iff : waitBits flags w = none ↔ w.satisfied flags = false := by
  rw [waitBits]
  split <;> simp [*]

theorem mem_foldl_clears {released : List (Wait β)} {left : Finset β} :
    b ∈ released.foldl (fun left w => left \ w.clears) left ↔
      b ∈ left ∧ ∀ w ∈ released, b ∉ w.clears := by
  induction released generalizing left with
  | nil => simp
  | cons w released ih =>
      rw [List.foldl_cons, ih, Finset.mem_sdiff, List.forall_mem_cons, and_assoc]

/-- A flag is left after a set if it is raised and no released task clears it. -/
theorem mem_setBits :
    b ∈ setBits flags bits blocked ↔ (b ∈ flags ∨ b ∈ bits) ∧
      ∀ w ∈ blocked, w.satisfied (flags ∪ bits) = true → b ∉ w.clears := by
  rw [setBits, mem_foldl_clears, Finset.mem_union]
  simp only [List.mem_filter, and_imp]

@[simp] theorem setBits_nil : setBits flags bits [] = flags ∪ bits := rfl

end Flags

end SmartScale.EventGroup
