import Xylophone.Infra.BinaryHeap
import Xylophone.Infra.LinkedQueue
import Xylophone.Infra.Word

/-!
# `task.h`, `task-queue.c`, `sleep-queue.c`

Tasks live in a table and are named by their places in it. A task queue is intrusive: it links its
tasks through their `next` fields. The sleep queue is a binary heap of tasks, ordered by the tick
at which they are to be woken.

The spinlocks are left out here: on a single processor, with interrupts disabled, they are free.
-/

namespace Xylophone

open Infra

/-- `task_state_t`. -/
inductive TaskState where
  | stopped
  | running
  | created
  | blocked
  | sleeping
  | zombie
  | cleaning
deriving DecidableEq, Repr

/-- `task_mode_t`. -/
inductive TaskMode where
  | kthread
  | process
  | thread
deriving DecidableEq, Repr

/-- `allocation_table_entry_t`. -/
structure AllocationEntry where
  address : Nat
  size : Nat
deriving DecidableEq, Repr

/-- `allocation_table_t`. -/
structure AllocationTable where
  size : Nat
  data : Nat → AllocationEntry

/-- An argument vector: its address, and the addresses of its strings. -/
structure ArgVector where
  address : Nat
  strings : List Nat
deriving DecidableEq, Repr

/-- `task_t`. `argv` is `none` for `NULL`, and a task pointer is a place in the table. -/
structure Task where
  esp : Nat
  ebp : Nat
  eip : Nat
  args : Nat
  argv : Option ArgVector
  ds : Nat
  cs : Nat
  kesp : Nat
  kebp : Nat
  threadEip : Nat
  state : TaskState
  mode : TaskMode
  stackptr : Nat
  physicalCr3 : Nat
  pagingManager : Option Nat
  heapManager : Option Nat
  threadAllocationTable : AllocationTable
  wakeTick : Nat
  pid : Nat
  tgid : Nat
  parent : Option Nat
  next : Option Nat
  prev : Option Nat

/-- `task_table`. -/
abbrev TaskTable := Nat → Task

/-- `TASKS_MAX`. -/
def tasksMax : Nat := 256

/-- `(uint16_t)-1`, the `pid` of a free slot. -/
def noPid : Nat := 0xFFFF

/-- `memset((uint8_t *)task, 0, sizeof(task_t))`. -/
def clearedTask : Task where
  esp := 0
  ebp := 0
  eip := 0
  args := 0
  argv := none
  ds := 0
  cs := 0
  kesp := 0
  kebp := 0
  threadEip := 0
  state := .stopped
  mode := .kthread
  stackptr := 0
  physicalCr3 := 0
  pagingManager := none
  heapManager := none
  threadAllocationTable := ⟨0, fun _ => ⟨0, 0⟩⟩
  wakeTick := 0
  pid := 0
  tgid := 0
  parent := none
  next := none
  prev := none

/-- `task->next = next`. -/
def setNext (tasks : TaskTable) (task : Nat) (next : Option Nat) : TaskTable :=
  Function.update tasks task { tasks task with next := next }

/-- `task->state = state`. -/
def setState (tasks : TaskTable) (task : Nat) (state : TaskState) : TaskTable :=
  Function.update tasks task { tasks task with state := state }

/-- `task->wake_tick = tick`. -/
def setWakeTick (tasks : TaskTable) (task tick : Nat) : TaskTable :=
  Function.update tasks task { tasks task with wakeTick := tick }

/-! ## `task-queue.c` -/

/-- `task_queue_t`. -/
structure TaskQueue where
  head : Option Nat
  tail : Option Nat
  size : Nat
deriving DecidableEq, Repr

/-- `task_queue_init`. -/
def taskQueueInit : TaskQueue := ⟨none, none, 0⟩

/-- `task_queue_push`. -/
def taskQueuePush (tasks : TaskTable) (queue : TaskQueue) (task : Nat) : TaskTable × TaskQueue :=
  let tasks := setNext tasks task none
  match queue.tail with
  | some tail =>
    (setNext tasks tail (some task), ⟨queue.head, some task, wrap32 (queue.size + 1)⟩)
  | none => (tasks, ⟨some task, some task, wrap32 (queue.size + 1)⟩)

/-- `task_queue_peek`. -/
def taskQueuePeek (queue : TaskQueue) : Option Nat := if queue.size = 0 then none else queue.head

/-- `task_queue_pop`. -/
def taskQueuePop (tasks : TaskTable) (queue : TaskQueue) : TaskTable × TaskQueue × Option Nat :=
  match queue.head with
  | none => (tasks, queue, none)
  | some task =>
    let head := (tasks task).next
    (setNext tasks task none,
      ⟨head, if head = none then none else queue.tail, sub32 queue.size 1⟩, some task)

/-! ## `sleep-queue.c` -/

/-- `sleep_queue_t`. -/
structure SleepQueue where
  data : Nat → Nat
  size : Nat
  capacity : Nat

/-- `sleep_queue_init`. -/
def sleepQueueInit (data : Nat → Nat) (capacity : Nat) : SleepQueue := ⟨data, 0, capacity⟩

/-- `heapify_up`. -/
def heapifyUp (tasks : TaskTable) (data : Nat → Nat) (idx : Nat) : Nat → Nat :=
  siftUp (fun t => (tasks t).wakeTick) idx data idx

/-- `heapify_down`, with the size of the heap. -/
def heapifyDown (tasks : TaskTable) (size : Nat) (data : Nat → Nat) (idx : Nat) : Nat → Nat :=
  siftDown (fun t => (tasks t).wakeTick) size size data idx

/-- `sleep_queue_push`. -/
def sleepQueuePush (tasks : TaskTable) (heap : SleepQueue) (task : Nat) : SleepQueue :=
  if heap.size = heap.capacity then heap
  else
    { heap with
      data := heapifyUp tasks (Function.update heap.data heap.size task) heap.size
      size := heap.size + 1 }

/-- `sleep_queue_peek`. -/
def sleepQueuePeek (heap : SleepQueue) : Option Nat :=
  if heap.size = 0 then none else some (heap.data 0)

/-- `sleep_queue_pop`. -/
def sleepQueuePop (tasks : TaskTable) (heap : SleepQueue) : SleepQueue × Option Nat :=
  if heap.size = 0 then (heap, none)
  else
    let size := heap.size - 1
    let data :=
      if 0 < size then heapifyDown tasks size (Function.update heap.data 0 (heap.data size)) 0
      else heap.data
    ({ heap with data := data, size := size }, some (heap.data 0))

/-! ## What the queues hold -/

/-- The links of the tasks. -/
def links (tasks : TaskTable) (t : Nat) : Option Nat := (tasks t).next

/-- The first and the last task of a queue. -/
def TaskQueue.ends (queue : TaskQueue) : Ends Nat := ⟨queue.head, queue.tail⟩

/-- The tasks in the sleep queue. -/
def SleepQueue.tasks (heap : SleepQueue) : Multiset Nat := contents heap.data heap.size

section Links

variable (tasks : TaskTable) (queue : TaskQueue) (t : Nat)

@[simp] theorem links_setState (state : TaskState) : links (setState tasks t state) = links tasks := by
  funext u
  unfold links setState
  by_cases h : u = t
  · rw [h, Function.update_self]
  · rw [Function.update_of_ne h]

@[simp] theorem links_setWakeTick (tick : Nat) : links (setWakeTick tasks t tick) = links tasks := by
  funext u
  unfold links setWakeTick
  by_cases h : u = t
  · rw [h, Function.update_self]
  · rw [Function.update_of_ne h]

@[simp] theorem links_setNext (next : Option Nat) :
    links (setNext tasks t next) = Function.update (links tasks) t next := by
  funext u
  unfold links setNext
  by_cases h : u = t
  · rw [h, Function.update_self, Function.update_self]
  · rw [Function.update_of_ne h, Function.update_of_ne h]

/-- A push of the queue is a push of the links. -/
theorem links_push :
    links (taskQueuePush tasks queue t).1 = pushNext (links tasks) queue.ends t := by
  unfold taskQueuePush pushNext TaskQueue.ends
  cases queue.tail with
  | none => exact links_setNext ..
  | some tail => simp only [links_setNext]

theorem ends_push : (taskQueuePush tasks queue t).2.ends = pushEnds queue.ends t := by
  unfold taskQueuePush pushEnds TaskQueue.ends
  cases queue.tail with
  | none => rfl
  | some tail => rfl

/-- A pop of a queue that is not empty. -/
theorem pop_some (h : queue.head = some t) :
    taskQueuePop tasks queue = (setNext tasks t none,
      ⟨(tasks t).next, if (tasks t).next = none then none else queue.tail, sub32 queue.size 1⟩,
      some t) := by
  unfold taskQueuePop
  rw [h]

theorem pop_none (h : queue.head = none) : taskQueuePop tasks queue = (tasks, queue, none) := by
  unfold taskQueuePop
  rw [h]

end Links

/-! ## Fields that an operation leaves alone -/

section Fields

variable (tasks : TaskTable) (queue : TaskQueue) (t u : Nat)

theorem setNext_fields (next : Option Nat) :
    setNext tasks t next u = { tasks u with next := (setNext tasks t next u).next } := by
  unfold setNext
  by_cases h : u = t
  · rw [h, Function.update_self]
  · rw [Function.update_of_ne h]

/-- A push changes links only. -/
theorem push_fields : (taskQueuePush tasks queue t).1 u =
    { tasks u with next := ((taskQueuePush tasks queue t).1 u).next } := by
  unfold taskQueuePush
  cases queue.tail with
  | none => exact setNext_fields ..
  | some tail =>
    have h := setNext_fields (setNext tasks t none) tail u (some t)
    rw [setNext_fields tasks t u] at h
    exact h

@[simp] theorem push_state : ((taskQueuePush tasks queue t).1 u).state = (tasks u).state := by
  rw [push_fields]

@[simp] theorem push_wakeTick : ((taskQueuePush tasks queue t).1 u).wakeTick = (tasks u).wakeTick := by
  rw [push_fields]

@[simp] theorem setNext_state (next : Option Nat) :
    (setNext tasks t next u).state = (tasks u).state := by
  rw [setNext_fields]

@[simp] theorem setNext_wakeTick (next : Option Nat) :
    (setNext tasks t next u).wakeTick = (tasks u).wakeTick := by
  rw [setNext_fields]

@[simp] theorem setState_self (state : TaskState) : (setState tasks t state t).state = state := by
  unfold setState
  rw [Function.update_self]

theorem setState_of_ne {t u : Nat} (state : TaskState) (h : u ≠ t) :
    setState tasks t state u = tasks u := Function.update_of_ne h _ _

@[simp] theorem setState_wakeTick (state : TaskState) :
    (setState tasks t state u).wakeTick = (tasks u).wakeTick := by
  unfold setState
  by_cases h : u = t
  · rw [h, Function.update_self]
  · rw [Function.update_of_ne h]

end Fields

/-! ## The sleep queue as a heap -/

section Sleep

variable {tasks : TaskTable} {heap : SleepQueue} {t : Nat}

/-- The sleep queue is ordered by the wake ticks. -/
def SleepQueue.Ordered (tasks : TaskTable) (heap : SleepQueue) : Prop :=
  HeapOrdered (fun t => (tasks t).wakeTick) heap.data heap.size

theorem sleepQueuePush_full (h : heap.size = heap.capacity) : sleepQueuePush tasks heap t = heap :=
  if_pos h

/-- **A push adds the task and keeps the order.** -/
theorem sleepQueuePush_spec (tasks : TaskTable) (t : Nat) (h : heap.size ≠ heap.capacity) :
    (sleepQueuePush tasks heap t).tasks = t ::ₘ heap.tasks ∧
      (sleepQueuePush tasks heap t).size = heap.size + 1 ∧
      (sleepQueuePush tasks heap t).capacity = heap.capacity ∧
      (heap.Ordered tasks → (sleepQueuePush tasks heap t).Ordered tasks) := by
  unfold sleepQueuePush
  rw [if_neg h]
  refine ⟨?_, rfl, rfl, fun hordered => ?_⟩
  · unfold SleepQueue.tasks heapifyUp
    rw [contents_siftUp heap.size (Nat.lt_succ_self _), contents_update_self]
  · refine siftUp_ordered (HeapOrdered.congr hordered (Nat.le_refl _) fun i hi => ?_)
    exact Function.update_of_ne (Nat.ne_of_lt hi) _ _

theorem sleepQueuePop_none (h : heap.size = 0) : sleepQueuePop tasks heap = (heap, none) := if_pos h

/-- **A pop takes out the root and keeps the order.** -/
theorem sleepQueuePop_spec (tasks : TaskTable) (h : heap.size ≠ 0) :
    (sleepQueuePop tasks heap).2 = some (heap.data 0) ∧
      heap.tasks = heap.data 0 ::ₘ (sleepQueuePop tasks heap).1.tasks ∧
      (sleepQueuePop tasks heap).1.size = heap.size - 1 ∧
      (sleepQueuePop tasks heap).1.capacity = heap.capacity ∧
      (heap.Ordered tasks → (sleepQueuePop tasks heap).1.Ordered tasks) := by
  obtain ⟨n, hn⟩ : ∃ n, heap.size = n + 1 := Nat.exists_eq_succ_of_ne_zero h
  have heq : sleepQueuePop tasks heap = ({ heap with
      data := if 0 < n then heapifyDown tasks n (Function.update heap.data 0 (heap.data n)) 0
        else heap.data
      size := n }, some (heap.data 0)) := by
    unfold sleepQueuePop
    rw [if_neg h]
    simp only [hn, Nat.add_sub_cancel]
  rw [heq]
  refine ⟨rfl, ?_, by rw [hn]; rfl, rfl, fun hordered => ?_⟩
  · unfold SleepQueue.tasks
    simp only [hn]
    by_cases hpos : 0 < n
    · rw [if_pos hpos, heapifyDown, contents_siftDown n hpos, contents_replaceRoot hpos]
    · obtain rfl : n = 0 := by omega
      rw [if_neg (Nat.lt_irrefl 0), contents_succ]
  · unfold SleepQueue.Ordered at *
    rw [hn] at hordered
    simp only []
    by_cases hpos : 0 < n
    · rw [if_pos hpos]
      refine siftDown_ordered fun j hj hjn hparent => ?_
      rw [Function.update_of_ne hparent, Function.update_of_ne (by omega)]
      exact hordered j hj (by omega)
    · intro j hj hjn
      omega

end Sleep

end Xylophone
