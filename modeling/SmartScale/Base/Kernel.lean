import SmartScale.Base.EventGroup
import SmartScale.Base.Objects

/-!
A kernel with event groups and tasks. A task is at a place of its program, and may be
blocked in a wait on a group, after which it goes on at that place. Setting flags
releases the tasks whose waits they satisfy; deleting a group releases all that wait on
it.

* `pc?_goto`, `pc?_waitBits`, …: where the tasks are after each operation. Only the
  operations on a task move one.
* `live_setBits`, `live_deleteGroup`, …: which groups there are.
-/

namespace SmartScale

open EventGroup

variable {β π : Type*}

/-- A task goes on at `pc`, once it is not blocked. -/
structure KernelTask (β π : Type*) where
  pc : π
  blockedOn : Option (Nat × Wait β)

namespace KernelTask

/-- A task is released if it is blocked on a group by one of some waits. -/
def released (g : Nat) (satisfied : Wait β → Bool) (task : KernelTask β π) : KernelTask β π :=
  match task.blockedOn with
  | some (h, w) => if h = g ∧ satisfied w then { task with blockedOn := none } else task
  | none => task

/-- The wait of a task that is blocked on a group. -/
def waitOn (g : Nat) (task : KernelTask β π) : Option (Wait β) :=
  task.blockedOn.bind fun (h, w) => if h = g then some w else none

theorem pc_released {g : Nat} {satisfied : Wait β → Bool} (task : KernelTask β π) :
    (task.released g satisfied).pc = task.pc := by
  rw [released]
  split
  · split <;> rfl
  · rfl

end KernelTask

structure Kernel (β π : Type*) where
  groups : Objects (Finset β)
  tasks : Objects (KernelTask β π)

namespace Kernel

/-- Neither groups nor tasks. -/
def empty : Kernel β π := ⟨.empty, .empty⟩

/-- Where a task goes on. -/
def pc? (k : Kernel β π) (i : Nat) : Option π := (k.tasks.get? i).map KernelTask.pc

/-- The same for a task that is not blocked. -/
def ready? (k : Kernel β π) (i : Nat) : Option π :=
  match k.tasks.get? i with
  | some ⟨pc, none⟩ => some pc
  | _ => none

/-- Where all the tasks go on. -/
def pcs (k : Kernel β π) : List π :=
  k.tasks.entries.filterMap fun entry => entry.map KernelTask.pc

/-- A call on a group through a nullable handle; `none` where there is no group. -/
def onGroup (k : Kernel β π) (h : Option Nat) (call : Nat → Kernel β π) : Option (Kernel β π) :=
  match h with
  | some g => if k.groups.Live g then some (call g) else none
  | none => none

/-- Some task is at a place with `P`. -/
def Any (k : Kernel β π) (P : π → Prop) : Prop := ∃ i p, k.pc? i = some p ∧ P p

/-! ### Operations -/

def createGroup (k : Kernel β π) : Kernel β π := { k with groups := k.groups.create ∅ }

def createTask (k : Kernel β π) (pc : π) : Kernel β π :=
  { k with tasks := k.tasks.create ⟨pc, none⟩ }

def deleteTask (k : Kernel β π) (i : Nat) : Kernel β π := { k with tasks := k.tasks.delete i }

/-- A task goes on elsewhere. -/
def goto (k : Kernel β π) (i : Nat) (pc : π) : Kernel β π :=
  { k with tasks := k.tasks.update i ⟨pc, none⟩ }

def release (k : Kernel β π) (g : Nat) (satisfied : Wait β → Bool) : Kernel β π :=
  { k with tasks := k.tasks.map (KernelTask.released g satisfied) }

def deleteGroup (k : Kernel β π) (g : Nat) : Kernel β π :=
  { k.release g fun _ => true with groups := k.groups.delete g }

/-- The waits of the tasks blocked on a group. -/
def blockedWaits (k : Kernel β π) (g : Nat) : List (Wait β) :=
  k.tasks.entries.filterMap fun entry => entry.bind (KernelTask.waitOn g)

section Bits

variable [DecidableEq β]

/-- A task waits on a group, to go on at `pc`. -/
def waitBits (k : Kernel β π) (i g : Nat) (w : Wait β) (pc : π) : Kernel β π :=
  match (k.groups.get? g).bind fun flags => EventGroup.waitBits flags w with
  | some left => { k.goto i pc with groups := k.groups.update g left }
  | none => { k with tasks := k.tasks.update i ⟨pc, some (g, w)⟩ }

def setBits (k : Kernel β π) (g : Nat) (bits : Finset β) : Kernel β π :=
  match k.groups.get? g with
  | some flags =>
      { k.release g fun w => w.satisfied (flags ∪ bits) with
        groups := k.groups.update g (EventGroup.setBits flags bits (k.blockedWaits g)) }
  | none => k

def clearBits (k : Kernel β π) (g : Nat) (bits : Finset β) : Kernel β π :=
  { k with groups := k.groups.update g (((k.groups.get? g).getD ∅) \ bits) }

end Bits

/-! ### Where the tasks are -/

section Tasks

variable {k : Kernel β π} {i j g h : Nat} {pc : π} {w : Wait β} {bits : Finset β}

theorem pc?_of_ready? (ready : k.ready? i = some pc) : k.pc? i = some pc := by
  rw [ready?] at ready
  split at ready
  · rename_i pc' task
    rw [pc?, task]
    exact ready
  · cases ready

theorem mem_pcs : pc ∈ k.pcs ↔ ∃ i, k.pc? i = some pc := by
  simp only [pcs, List.mem_filterMap, Option.map_eq_some_iff, pc?]
  constructor
  · rintro ⟨entry, there, task, rfl, same⟩
    obtain ⟨i, inside⟩ := List.mem_iff_getElem?.mp there
    exact ⟨i, task, Objects.get?_eq_some_iff.mpr inside, same⟩
  · rintro ⟨i, task, there, same⟩
    exact ⟨some task, Objects.mem_of_get? there, task, rfl, same⟩

instance (P : π → Prop) [DecidablePred P] : Decidable (k.Any P) :=
  decidable_of_iff (∃ p ∈ k.pcs, P p) <| by
    simp only [mem_pcs, Any]
    exact ⟨fun ⟨p, ⟨i, here⟩, holds⟩ => ⟨i, p, here, holds⟩,
      fun ⟨i, p, here, holds⟩ => ⟨p, ⟨i, here⟩, holds⟩⟩

theorem Any.of_pc? {k' : Kernel β π} {P : π → Prop} (any : k'.Any P)
    (pcs : ∀ j p, k'.pc? j = some p → k.pc? j = some p) : k.Any P := by
  obtain ⟨i, p, here, holds⟩ := any
  exact ⟨i, p, pcs i p here, holds⟩

theorem pc?_update (task : KernelTask β π) :
    ((k.tasks.update i task).get? j).map KernelTask.pc =
      if j = i then (k.pc? i).map fun _ => task.pc else k.pc? j := by
  rw [Objects.get?_update, pc?, pc?]
  split
  · rw [Option.map_map, Option.map_map]
    rfl
  · rfl

theorem pc?_goto :
    (k.goto i pc).pc? j = if j = i then (k.pc? i).map fun _ => pc else k.pc? j :=
  pc?_update _

theorem pc?_release {satisfied : Wait β → Bool} : (k.release g satisfied).pc? j = k.pc? j := by
  rw [pc?, release, Objects.get?_map, Option.map_map, pc?]
  exact congrArg (fun f => (k.tasks.get? j).map f) (funext KernelTask.pc_released)

theorem pc?_deleteGroup : (k.deleteGroup g).pc? j = k.pc? j := pc?_release

@[simp] theorem pc?_createGroup : (k.createGroup).pc? j = k.pc? j := rfl

theorem pc?_createTask :
    (k.createTask pc).pc? j = if j = k.tasks.next then some pc else k.pc? j := by
  rw [pc?, createTask, Objects.get?_create]
  split <;> rfl

theorem pc?_deleteTask : (k.deleteTask i).pc? j = if j = i then none else k.pc? j := by
  rw [pc?, deleteTask, Objects.get?_delete]
  split <;> rfl

/-- The handle of the next task is not in use. -/
theorem pc?_next : k.pc? k.tasks.next = none := by
  rw [pc?, Option.map_eq_none_iff]
  by_contra there
  have live : k.tasks.Live k.tasks.next := Option.isSome_iff_ne_none.mpr there
  exact absurd live.lt_next (lt_irrefl _)

variable [DecidableEq β]

theorem pc?_waitBits :
    (k.waitBits i g w pc).pc? j = if j = i then (k.pc? i).map fun _ => pc else k.pc? j := by
  rw [waitBits]
  split <;> exact pc?_update _

theorem pc?_setBits : (k.setBits g bits).pc? j = k.pc? j := by
  rw [setBits]
  split
  · exact pc?_release
  · rfl

end Tasks

/-! ### Which groups there are -/

section Groups

variable {k : Kernel β π} {i g h : Nat} {pc : π} {w : Wait β} {bits : Finset β}

theorem onGroup_of_usable {handle : Option Nat} (usable : k.groups.Usable handle)
    (call : Nat → Kernel β π) :
    ∃ g, handle = some g ∧ k.groups.Live g ∧ k.onGroup handle call = some (call g) := by
  obtain ⟨g, here, live⟩ := usable
  obtain rfl : handle = some g := here
  exact ⟨g, rfl, live, if_pos live⟩

theorem onGroup_of_not_usable {handle : Option Nat} (unusable : ¬ k.groups.Usable handle)
    (call : Nat → Kernel β π) : k.onGroup handle call = none := by
  cases handle with
  | none => rfl
  | some g => exact if_neg fun live => unusable ⟨g, rfl, live⟩

theorem live_deleteGroup : (k.deleteGroup g).groups.Live h ↔ h ≠ g ∧ k.groups.Live h :=
  Objects.live_delete_iff

variable [DecidableEq β]

@[simp] theorem live_waitBits : (k.waitBits i g w pc).groups.Live h ↔ k.groups.Live h := by
  rw [waitBits]
  split
  · exact Objects.live_update_iff
  · rfl

@[simp] theorem live_setBits : (k.setBits g bits).groups.Live h ↔ k.groups.Live h := by
  rw [setBits]
  split
  · exact Objects.live_update_iff
  · rfl

@[simp] theorem live_clearBits : (k.clearBits g bits).groups.Live h ↔ k.groups.Live h :=
  Objects.live_update_iff

theorem get?_setBits {flags : Finset β} (here : k.groups.get? g = some flags) :
    (k.setBits g bits).groups.get? g =
      some (EventGroup.setBits flags bits (k.blockedWaits g)) := by
  rw [setBits, here]
  dsimp only
  rw [Objects.get?_update, if_pos rfl, here]
  rfl

theorem get?_clearBits {flags : Finset β} (here : k.groups.get? g = some flags) :
    (k.clearBits g bits).groups.get? g = some (flags \ bits) := by
  rw [clearBits, Objects.get?_update, if_pos rfl, here]
  rfl

end Groups

end Kernel

end SmartScale
