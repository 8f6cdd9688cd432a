import SmartScale.Base.Transducer

/-!
A bounded first-in first-out queue with non-blocking operations: sending to a
full queue drops the item, and receiving from an empty one yields nothing. The
bound is a field, so that no queue is longer than its capacity.

A run is a list of accesses by a sender and by several receivers.

* `run_conserves`: what was in the queue, followed by what entered, is what left,
  followed by what is still there.
* `receivedBy_run_iff`: one receiver gets everything that leaves exactly when the
  others never find the queue non-empty.
* `receivedBy_run_sublist`: whatever the others do, it gets in order some of what was in the
  queue and what was sent.
-/

namespace SmartScale

/-- A queue of at most `capacity` items, oldest first. -/
structure BoundedQueue (α : Type*) (capacity : Nat) where
  items : List α
  bounded : items.length ≤ capacity

namespace BoundedQueue

open Transducer

variable {α : Type*} {capacity : Nat}

/-- The queue as created. -/
def empty : BoundedQueue α capacity := ⟨[], Nat.zero_le _⟩

/-- Whether a send would be accepted. -/
def hasRoom (q : BoundedQueue α capacity) : Bool := decide (q.items.length < capacity)

/-- Send without blocking: the queue afterwards, and the item where it was
accepted. -/
def send (q : BoundedQueue α capacity) (a : α) : BoundedQueue α capacity × Option α :=
  if room : q.items.length < capacity then
    (⟨q.items ++ [a], by simpa using Nat.succ_le_of_lt room⟩, some a)
  else (q, none)

/-- Receive without blocking: the queue afterwards, and the item where there was
one. -/
def receive (q : BoundedQueue α capacity) : BoundedQueue α capacity × Option α :=
  match h : q.items with
  | [] => (q, none)
  | a :: rest =>
      (⟨rest, by
        have bound := q.bounded
        rw [h, List.length_cons] at bound
        omega⟩, some a)

section Operations

variable {q : BoundedQueue α capacity}

theorem send_of_room (room : q.hasRoom = true) (a : α) :
    (q.send a).1.items = q.items ++ [a] ∧ (q.send a).2 = some a := by
  have inside : q.items.length < capacity := by simpa [hasRoom] using room
  simp [send, inside]

theorem send_of_full (full : q.hasRoom = false) (a : α) : q.send a = (q, none) := by
  have outside : ¬ q.items.length < capacity := by simpa [hasRoom] using full
  simp [send, outside]

/-- An accepted item is the one sent, and it is at the end. -/
theorem send_conserves (q : BoundedQueue α capacity) (a : α) :
    (q.send a).1.items = q.items ++ (q.send a).2.toList := by
  cases room : q.hasRoom with
  | true =>
      obtain ⟨items, accepted⟩ := send_of_room room a
      rw [items, accepted]
      rfl
  | false => simp [send_of_full room a]

theorem receive_nil (h : q.items = []) : q.receive = (q, none) := by
  unfold receive
  split
  · rfl
  · rename_i a rest cons
    rw [h] at cons
    cases cons

theorem receive_cons {a : α} {rest : List α} (h : q.items = a :: rest) :
    q.receive.1.items = rest ∧ q.receive.2 = some a := by
  unfold receive
  split
  · rename_i nil
    rw [h] at nil
    cases nil
  · rename_i b tail cons
    rw [h] at cons
    cases cons
    exact ⟨rfl, rfl⟩

/-- A received item was the oldest. -/
theorem receive_conserves (q : BoundedQueue α capacity) :
    q.receive.2.toList ++ q.receive.1.items = q.items := by
  cases h : q.items with
  | nil => simp [receive_nil h, h]
  | cons a rest =>
      obtain ⟨items, received⟩ := receive_cons h
      rw [items, received]
      rfl

/-- A receive leaves an empty queue as it is, and takes an item off any other. -/
theorem receive_cases (q : BoundedQueue α capacity) :
    q.receive = (q, none) ∨ ∃ rest a, q.receive = (rest, some a) := by
  cases h : q.items with
  | nil => exact .inl (receive_nil h)
  | cons a items => exact .inr ⟨q.receive.1, a, Prod.ext rfl (receive_cons h).2⟩

end Operations

/-! ### Runs with several receivers -/

variable {κ : Type*}

/-- One access, by the sender or by one of the receivers `κ`. -/
inductive Access (α κ : Type*) where
  | send (a : α)
  | receive (who : κ)

/-- What one access moved: the item accepted, and the item received with its
receiver. -/
structure Moved (α κ : Type*) where
  accepted : Option α
  received : Option (κ × α)

/-- Perform one access. -/
def operate (q : BoundedQueue α capacity) : Access α κ → BoundedQueue α capacity × Moved α κ
  | .send a => ((q.send a).1, ⟨(q.send a).2, none⟩)
  | .receive who => (q.receive.1, ⟨none, q.receive.2.map fun a => (who, a)⟩)

/-- The item that left the queue. -/
def Moved.item (m : Moved α κ) : Option α := m.received.map Prod.snd

/-- The item `who` received. -/
def Moved.itemOf [DecidableEq κ] (who : κ) (m : Moved α κ) : Option α :=
  m.received.bind fun r => if r.1 = who then some r.2 else none

/-- The items that entered the queue, in order. -/
def entered (ms : List (Moved α κ)) : List α := ms.filterMap Moved.accepted

/-- The items that left the queue, in order. -/
def left (ms : List (Moved α κ)) : List α := ms.filterMap Moved.item

/-- The items `who` received, in order. -/
def receivedBy [DecidableEq κ] (who : κ) (ms : List (Moved α κ)) : List α :=
  ms.filterMap (Moved.itemOf who)

theorem operate_conserves (q : BoundedQueue α capacity) (op : Access α κ) :
    q.items ++ (q.operate op).2.accepted.toList =
      (q.operate op).2.item.toList ++ (q.operate op).1.items := by
  cases op with
  | send a => simpa [operate, Moved.item] using (send_conserves q a).symm
  | receive who => simpa [operate, Moved.item, Function.comp_def] using (receive_conserves q).symm

/-- **Conservation.** Nothing accepted is lost, duplicated or reordered: what was
in the queue and what entered it is what left it and what is still there. -/
theorem run_conserves (q : BoundedQueue α capacity) (ops : List (Access α κ)) :
    q.items ++ entered (outputs operate q ops) =
      left (outputs operate q ops) ++ (after operate q ops).items := by
  induction ops generalizing q with
  | nil => simp [entered, left]
  | cons op ops ih =>
      have step := operate_conserves q op
      have rest := ih (q.operate op).1
      simp only [entered, left, List.filterMap_eq_flatMap_toList] at rest ⊢
      simp only [outputs_cons, after_cons, List.flatMap_cons]
      rw [← List.append_assoc, step, List.append_assoc, rest, List.append_assoc]

/-- The item an access sends, accepted or not. -/
def Access.sent : Access α κ → Option α
  | .send a => some a
  | .receive _ => none

/-- What holds of the items in the queue and of what is sent holds of all it ever holds. -/
theorem operate_forall {P : α → Prop} {q : BoundedQueue α capacity} {op : Access α κ}
    (held : ∀ a ∈ q.items, P a) (sent : ∀ a, op.sent = some a → P a) :
    (∀ a ∈ (q.operate op).1.items, P a) ∧ ∀ a, (q.operate op).2.item = some a → P a := by
  have all : ∀ a ∈ (q.operate op).2.item.toList ++ (q.operate op).1.items, P a := by
    intro a ha
    rw [← operate_conserves] at ha
    rcases List.mem_append.mp ha with old | new
    · exact held a old
    · refine sent a ?_
      cases op with
      | receive who => simp [operate] at new
      | send b =>
          cases room : q.hasRoom with
          | true =>
              rw [operate, (send_of_room room b).2] at new
              exact congrArg some (List.mem_singleton.mp new).symm
          | false => simp [operate, send_of_full room b] at new
  refine ⟨fun a ha => all a (List.mem_append_right _ ha), fun a ha => ?_⟩
  exact all a (List.mem_append_left _ (by simp [ha]))

theorem entered_run_sublist (q : BoundedQueue α capacity) (ops : List (Access α κ)) :
    (entered (outputs operate q ops)).Sublist (ops.filterMap Access.sent) := by
  induction ops generalizing q with
  | nil => exact List.Sublist.refl _
  | cons op ops ih =>
      have rest := ih (q.operate op).1
      rw [outputs_cons, entered, List.filterMap_cons, List.filterMap_cons]
      cases op with
      | receive who => exact rest
      | send a =>
          cases room : q.hasRoom with
          | true =>
              simp only [operate, (send_of_room room a).2, Access.sent]
              exact rest.cons_cons a
          | false =>
              simp only [operate, send_of_full room a, Access.sent] at rest ⊢
              exact rest.cons a

section Receivers

variable [DecidableEq κ] {who : κ}

/-- What `who` received of one access is all of it, or nothing. -/
theorem itemOf_eq_or_none (who : κ) (m : Moved α κ) :
    m.itemOf who = m.item ∨ m.itemOf who = none := by
  obtain ⟨accepted, received⟩ := m
  cases received with
  | none => exact .inl rfl
  | some r =>
      by_cases same : r.1 = who
      · exact .inl (by simp [Moved.itemOf, Moved.item, same])
      · exact .inr (by simp [Moved.itemOf, same])

theorem length_receivedBy_le (who : κ) (ms : List (Moved α κ)) :
    (receivedBy who ms).length ≤ (left ms).length := by
  induction ms with
  | nil => exact Nat.le_refl 0
  | cons m ms ih =>
      rw [receivedBy, left, List.filterMap_cons, List.filterMap_cons]
      rcases itemOf_eq_or_none who m with all | nothing
      · rw [all]
        cases m.item with
        | none => exact ih
        | some a => exact Nat.succ_le_succ ih
      · rw [nothing]
        cases m.item with
        | none => exact ih
        | some a => exact Nat.le_succ_of_le ih

/-- `who` received everything that left exactly when each access gave it what left. -/
theorem receivedBy_eq_left_iff (ms : List (Moved α κ)) :
    receivedBy who ms = left ms ↔ ∀ m ∈ ms, m.itemOf who = m.item := by
  constructor
  · intro same
    induction ms with
    | nil => simp
    | cons m ms ih =>
        rw [receivedBy, left, List.filterMap_cons, List.filterMap_cons] at same
        rcases itemOf_eq_or_none who m with all | nothing
        · have rest : receivedBy who ms = left ms := by
            rw [all] at same
            cases item : m.item with
            | none => simpa [item, receivedBy, left] using same
            | some a => simpa [item, receivedBy, left] using same
          exact List.forall_mem_cons.mpr ⟨all, ih rest⟩
        · cases item : m.item with
          | none =>
              rw [nothing, item] at same
              exact List.forall_mem_cons.mpr ⟨nothing.trans item.symm, ih same⟩
          | some a =>
              rw [nothing, item] at same
              have longer : (receivedBy who ms).length = (left ms).length + 1 :=
                congrArg List.length same
              have bound := length_receivedBy_le who ms
              omega
  · intro each
    exact List.filterMap_congr each

/-- An access gives `who` what leaves the queue, unless another receiver finds an
item. -/
theorem operate_itemOf_iff (q : BoundedQueue α capacity) (op : Access α κ) :
    (q.operate op).2.itemOf who = (q.operate op).2.item ↔
      ∀ other, op = .receive other → other ≠ who → q.items = [] := by
  cases op with
  | send a => simp [operate, Moved.itemOf, Moved.item]
  | receive other =>
      cases items : q.items with
      | nil => simp [operate, receive_nil items, Moved.itemOf, Moved.item]
      | cons a rest =>
          have received := (receive_cons items).2
          by_cases same : other = who
          · simp [operate, received, Moved.itemOf, Moved.item, same]
          · simp [operate, received, Moved.itemOf, Moved.item, same]

/-- **One receiver among several.** What `who` received in a run is all that left
the queue, in order, exactly when no other receiver ever found the queue non-empty. -/
theorem receivedBy_run_iff (q : BoundedQueue α capacity) (ops : List (Access α κ)) :
    receivedBy who (outputs operate q ops) = left (outputs operate q ops) ↔
      ∀ i other, ops[i]? = some (.receive other) → other ≠ who →
        (after operate q (ops.take i)).items = [] := by
  rw [receivedBy_eq_left_iff, forall_outputs_iff]
  constructor
  · intro each i other hi
    exact (operate_itemOf_iff _ _).mp (each i _ hi) other rfl
  · intro empty i op hi
    apply (operate_itemOf_iff _ _).mpr
    rintro other rfl different
    exact empty i other hi different

theorem receivedBy_sublist (who : κ) (ms : List (Moved α κ)) :
    (receivedBy who ms).Sublist (left ms) := by
  induction ms with
  | nil => exact List.Sublist.refl _
  | cons m ms ih =>
      rw [receivedBy, left, List.filterMap_cons, List.filterMap_cons]
      rcases itemOf_eq_or_none who m with all | nothing
      · rw [all]
        cases m.item with
        | none => exact ih
        | some a => exact ih.cons_cons a
      · rw [nothing]
        cases m.item with
        | none => exact ih
        | some a => exact ih.cons a

/-- **What one receiver gets** is, in order, some of what was in the queue and what was sent. -/
theorem receivedBy_run_sublist (who : κ) (q : BoundedQueue α capacity)
    (ops : List (Access α κ)) :
    (receivedBy who (outputs operate q ops)).Sublist
      (q.items ++ ops.filterMap Access.sent) := by
  have taken : (receivedBy who (outputs operate q ops)).Sublist
      (q.items ++ entered (outputs operate q ops)) := by
    rw [run_conserves]
    exact (receivedBy_sublist who _).trans (List.sublist_append_left _ _)
  exact taken.trans ((List.Sublist.refl _).append (entered_run_sublist q ops))

end Receivers

end BoundedQueue

end SmartScale
