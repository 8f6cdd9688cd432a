import SmartScale.Base.BoundedQueue
import SmartScale.Hx711.Driver
import Mathlib.Data.List.ReduceOption

/-!
The two sampling loops of `hx711.c`, `hx711_rtos_task` and
`hx711_rtos_median_task`, publishing into `scale->data_queue`.

One iteration runs against an environment that decides whether
`xSemaphoreTake` succeeds and what the converter delivers; between iterations
consumers take items off the queue. `hx711RtosTask` skips the queue when the lock
times out. `hx711RtosMedianTask` does not: the 0 that
`hx711_read_median_rtos` returns on a time-out is published like a measurement,
so its runs publish only measurements exactly when no time-out meets a queue
with room (`median_iteration_measured_iff`).
-/

namespace SmartScale.Hx711

open SmartScale.Transducer

/-- The driver and the queue a sampling task works on; `data_queue` may be NULL. -/
structure Sampler (α : Type) where
  driver : Driver
  dataQueue : Option (BoundedQueue α 8)

/-- `if (scale->data_queue) xQueueSend(scale->data_queue, &val, 0)`: the queue
afterwards, and the item where it was placed. -/
def publish {α : Type} (queue : Option (BoundedQueue α 8)) (val : α) :
    Option (BoundedQueue α 8) × Option α :=
  match queue with
  | none => (none, none)
  | some q => (some (q.send val).1, (q.send val).2)

/-- Whether an item published now would be placed. -/
def Sampler.hasRoom {α : Type} (s : Sampler α) : Bool :=
  s.dataQueue.any BoundedQueue.hasRoom

/-- One iteration of `hx711_rtos_task`. -/
def hx711RtosTask (s : Sampler ℚ) (lock : Bool) (raw : Int) : Sampler ℚ × Option ℚ :=
  if lock then
    let filtered := hx711ReadFiltered s.driver raw
    let published := publish s.dataQueue filtered.2
    (⟨filtered.1, published.1⟩, published.2)
  else (s, none)

/-- One iteration of `hx711_rtos_median_task`. -/
def hx711RtosMedianTask (s : Sampler Int) (lock : Bool) (samples : Nat → Int) :
    Sampler Int × Option Int :=
  let read := hx711ReadMedianRtos s.driver lock samples
  let published := publish s.dataQueue read.2.value
  (⟨read.1, published.1⟩, published.2)

/-! ### Runs of a sampling task -/

section Runs

variable {α ι : Type}

/-- A sampling loop: its iteration, and the filter update it completes when it
holds the lock. -/
structure SamplingTask (α ι : Type) where
  iterate : Sampler α → Bool → ι → Sampler α × Option α
  measure : Driver → ι → Driver × α

/-- `hx711_rtos_task` measures by `hx711_read_filtered`. -/
def rtosTask : SamplingTask ℚ Int where
  iterate := hx711RtosTask
  measure := hx711ReadFiltered

/-- `hx711_rtos_median_task` measures by a locked `hx711_read_median_rtos`. -/
def medianTask : SamplingTask Int (Nat → Int) where
  iterate := hx711RtosMedianTask
  measure := fun s samples =>
    ((hx711ReadMedianRtos s true samples).1, (hx711ReadMedianRtos s true samples).2.value)

/-- What happens next: an iteration of the task, or a consumer taking an item. -/
inductive Turn (ι : Type) where
  | iterate (lock : Bool) (input : ι)
  | take

/-- An iteration, observed: the state it started from, its lock and input, what it
left and what it placed in the queue. -/
structure Iteration (α ι : Type) where
  before : Sampler α
  lock : Bool
  input : ι
  after : Driver
  placed : Option α

/-- One turn; only iterations are observed. -/
def turn (task : SamplingTask α ι) (s : Sampler α) : Turn ι → Sampler α × Option (Iteration α ι)
  | .iterate lock input =>
      let next := task.iterate s lock input
      (next.1, some ⟨s, lock, input, next.1.driver, next.2⟩)
  | .take => ({ s with dataQueue := s.dataQueue.map fun q => q.receive.1 }, none)

/-- The iterations of a run, in order. -/
def iterations (task : SamplingTask α ι) (s : Sampler α) (turns : List (Turn ι)) :
    List (Iteration α ι) :=
  (outputs (turn task) s turns).reduceOption

/-- An iteration publishes nothing but the filter update it completed, and one
that times out changes nothing. -/
structure Iteration.Measured (task : SamplingTask α ι) (i : Iteration α ι) : Prop where
  real : ∀ v, i.placed = some v →
    i.lock = true ∧ task.measure i.before.driver i.input = (i.after, v)
  timeout : i.lock = false → i.placed = none ∧ i.after = i.before.driver

/-- Only real measurements are published in the run. -/
def PublishesMeasurements (task : SamplingTask α ι) (s : Sampler α) (turns : List (Turn ι)) :
    Prop :=
  ∀ i ∈ iterations task s turns, i.Measured task

/-- Every observed iteration is an iteration of the task on the state it records. -/
theorem iterations_spec (task : SamplingTask α ι) (s : Sampler α) (turns : List (Turn ι)) :
    ∀ i ∈ iterations task s turns, i.placed = (task.iterate i.before i.lock i.input).2 ∧
      i.after = (task.iterate i.before i.lock i.input).1.driver := by
  intro i hi
  have observed : ∀ o ∈ outputs (turn task) s turns, ∀ i ∈ o,
      i.placed = (task.iterate i.before i.lock i.input).2 ∧
        i.after = (task.iterate i.before i.lock i.input).1.driver := by
    refine forall_outputs_iff.mpr ?_
    intro j t _ i hi
    cases t with
    | iterate lock input =>
        cases hi
        exact ⟨rfl, rfl⟩
    | take => cases hi
  exact observed (some i) (List.reduceOption_mem_iff.mp hi) i rfl

end Runs

/-! ### Publishing -/

section Publish

variable {α : Type}

theorem publish_placed {queue : Option (BoundedQueue α 8)} {val v : α}
    (h : (publish queue val).2 = some v) : v = val := by
  cases queue with
  | none => cases h
  | some q =>
      cases room : q.hasRoom with
      | true =>
          have sent := (BoundedQueue.send_of_room room val).2
          exact Option.some.inj (h.symm.trans sent)
      | false =>
          have dropped := congrArg Prod.snd (BoundedQueue.send_of_full room val)
          cases h.symm.trans dropped

/-- An item is placed exactly where there is a queue with room. -/
theorem publish_eq_none_iff (s : Sampler α) (val : α) :
    (publish s.dataQueue val).2 = none ↔ s.hasRoom = false := by
  cases hq : s.dataQueue with
  | none => simp [publish, Sampler.hasRoom, hq]
  | some q =>
      cases room : q.hasRoom with
      | true => simp [publish, Sampler.hasRoom, hq, room, BoundedQueue.send_of_room room val]
      | false => simp [publish, Sampler.hasRoom, hq, room, BoundedQueue.send_of_full room val]

end Publish

/-! ### What each task publishes -/

/-- **`hx711_rtos_task` publishes measurements only**, in every run. -/
theorem rtos_task_publishes_measurements (s : Sampler ℚ) (turns : List (Turn Int)) :
    PublishesMeasurements rtosTask s turns := by
  intro i hi
  obtain ⟨placed, after⟩ := iterations_spec rtosTask s turns i hi
  cases lock : i.lock with
  | true =>
      rw [lock] at placed after
      refine ⟨?_, ?_⟩
      · intro v hv
        have value := publish_placed (placed.symm.trans hv)
        exact ⟨lock, Prod.ext after.symm value.symm⟩
      · intro off
        cases lock.symm.trans off
  | false =>
      rw [lock] at placed after
      refine ⟨?_, fun _ => ⟨placed, after⟩⟩
      intro v hv
      cases placed.symm.trans hv

/-- An iteration of `hx711_rtos_median_task` is as required exactly when it holds
the lock or finds no room to publish. -/
theorem median_iteration_measured_iff {i : Iteration Int (Nat → Int)}
    (placed : i.placed = (hx711RtosMedianTask i.before i.lock i.input).2)
    (after : i.after = (hx711RtosMedianTask i.before i.lock i.input).1.driver) :
    i.Measured medianTask ↔ (i.lock = false → i.before.hasRoom = false) := by
  constructor
  · intro measured off
    have nothing := (measured.timeout off).1
    rw [placed] at nothing
    exact (publish_eq_none_iff i.before _).mp nothing
  · intro condition
    cases lock : i.lock with
    | true =>
        rw [lock] at placed after
        refine ⟨?_, ?_⟩
        · intro v hv
          have value := publish_placed (placed.symm.trans hv)
          exact ⟨lock, Prod.ext after.symm value.symm⟩
        · intro off
          cases lock.symm.trans off
    | false =>
        have nothing : i.placed = none := by
          rw [placed]
          exact (publish_eq_none_iff i.before _).mpr (condition lock)
        rw [lock] at after
        refine ⟨?_, fun _ => ⟨nothing, after⟩⟩
        intro v hv
        cases nothing.symm.trans hv

/-- **What the sampling tasks publish.** Every run of `hx711_rtos_task` publishes
real measurements only; a run of `hx711_rtos_median_task` does so exactly when
each of its iterations that times out finds `data_queue` NULL or full. -/
theorem sampling_tasks_publish_measurements (rtos : Sampler ℚ) (rtosTurns : List (Turn Int))
    (median : Sampler Int) (medianTurns : List (Turn (Nat → Int))) :
    PublishesMeasurements rtosTask rtos rtosTurns ∧
      (PublishesMeasurements medianTask median medianTurns ↔
        ∀ i ∈ iterations medianTask median medianTurns,
          i.lock = false → i.before.hasRoom = false) := by
  refine ⟨rtos_task_publishes_measurements rtos rtosTurns, ?_⟩
  constructor
  · intro publishes i hi
    obtain ⟨placed, after⟩ := iterations_spec medianTask median medianTurns i hi
    exact (median_iteration_measured_iff placed after).mp (publishes i hi)
  · intro condition i hi
    obtain ⟨placed, after⟩ := iterations_spec medianTask median medianTurns i hi
    exact (median_iteration_measured_iff placed after).mpr (condition i hi)

/-- A median iteration that times out on an empty queue publishes a 0, where the
converter reads 4000. -/
theorem median_task_publishes_timeout :
    ¬ ∀ (s : Sampler Int) (turns : List (Turn (Nat → Int))),
      PublishesMeasurements medianTask s turns := by
  intro claimed
  have measured := claimed
    ⟨hx711Init .boot (some (List.replicate 8 0)) ⟨8, true, 1 / 2, 1⟩ 4000, some .empty⟩
    [.iterate false fun _ => 4000] _
    (List.reduceOption_mem_iff.mpr List.mem_cons_self)
  cases (measured.timeout rfl).1

end SmartScale.Hx711
