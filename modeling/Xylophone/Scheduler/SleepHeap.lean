import Xylophone.Infra.Run
import Xylophone.Scheduler.Structures

/-!
# Runs of `sleep-queue.c`

The sleep queue with the loops and the 32-bit indices of the source, and what holds of it in a run.

* `heapifyUpLoop_eq`, `heapifyDownLoop_eq` — the loops end, and move the task as `siftUp` and
  `siftDown` do
* `SleepRun.Sound.push`, `SleepRun.Sound.pop` — the operations keep the queue a heap and its ledger
* `drain_spec` — popping until the queue is empty sorts the tasks
* `sleep_queue_run` — all of it, over every run
-/

namespace Xylophone

open Infra

/-! ## The loops -/

/-- The loop of `heapify_up`. -/
def heapifyUpLoop (tasks : TaskTable) :
    (fuel : Nat) → (Nat → Nat) → (idx : Nat) → Option (Nat → Nat)
  | 0, _, _ => none
  | fuel + 1, data, idx =>
    if 0 < idx then
      let parent := sub32 idx 1 / 2
      if (tasks (data parent)).wakeTick ≤ (tasks (data idx)).wakeTick then some data
      else heapifyUpLoop tasks fuel (swapAt data parent idx) parent
    else some data

/-- The loop of `heapify_down`. -/
def heapifyDownLoop (tasks : TaskTable) (size : Nat) :
    (fuel : Nat) → (Nat → Nat) → (idx : Nat) → Option (Nat → Nat)
  | 0, _, _ => none
  | fuel + 1, data, idx =>
    let left := wrap32 (idx * 2 + 1)
    let right := wrap32 (idx * 2 + 2)
    let smallest :=
      if left < size ∧ (tasks (data left)).wakeTick < (tasks (data idx)).wakeTick then left else idx
    let smallest :=
      if right < size ∧ (tasks (data right)).wakeTick < (tasks (data smallest)).wakeTick then right
      else smallest
    if smallest = idx then some data
    else heapifyDownLoop tasks size fuel (swapAt data idx smallest) smallest

/-- `sleep_queue_push`, with the loop. -/
def sleepQueuePushLoop (fuel : Nat) (tasks : TaskTable) (heap : SleepQueue) (task : Nat) :
    Option SleepQueue :=
  if heap.size = heap.capacity then some heap
  else
    (heapifyUpLoop tasks fuel (Function.update heap.data heap.size task) heap.size).map fun data =>
      { heap with data := data, size := wrap32 (heap.size + 1) }

/-- `sleep_queue_pop`, with the loop. -/
def sleepQueuePopLoop (fuel : Nat) (tasks : TaskTable) (heap : SleepQueue) :
    Option (SleepQueue × Option Nat) :=
  if heap.size = 0 then some (heap, none)
  else
    let size := sub32 heap.size 1
    let data :=
      if 0 < size then
        heapifyDownLoop tasks size fuel (Function.update heap.data 0 (heap.data size)) 0
      else some heap.data
    data.map fun data => ({ heap with data := data, size := size }, some (heap.data 0))

section Loops

variable {tasks : TaskTable} {data : Nat → Nat} {heap : SleepQueue} {fuel fuel' idx size t : Nat}

/-- **`heapify_up` ends.** -/
theorem heapifyUpLoop_eq (hidx : idx < 0x100000000) (hfuel : idx < fuel) (hfuel' : idx ≤ fuel') :
    heapifyUpLoop tasks fuel data idx =
      some (siftUp (fun t => (tasks t).wakeTick) fuel' data idx) := by
  induction fuel generalizing data idx fuel' with
  | zero => omega
  | succ fuel ih =>
    by_cases hzero : idx = 0
    · subst hzero
      cases fuel' <;> simp [heapifyUpLoop, siftUp]
    · obtain ⟨fuel', rfl⟩ : ∃ n, fuel' = n + 1 := ⟨fuel' - 1, by omega⟩
      have hparent : sub32 idx 1 = idx - 1 := sub32_of_le (by omega) hidx
      unfold heapifyUpLoop siftUp
      simp only [hzero, if_false, Nat.pos_of_ne_zero hzero, if_true, hparent]
      split
      · rfl
      · exact ih (by omega) (by omega) (by omega)

/-- **`heapify_down` ends.** An index below 2³¹ has children with 32 bits. -/
theorem heapifyDownLoop_eq (hsize : size < 0x80000000) (hidx : idx < size)
    (hfuel : size ≤ idx + fuel) (hfuel' : size ≤ idx + fuel') :
    heapifyDownLoop tasks size fuel data idx =
      some (siftDown (fun t => (tasks t).wakeTick) size fuel' data idx) := by
  induction fuel generalizing data idx fuel' with
  | zero => omega
  | succ fuel ih =>
    obtain ⟨fuel', rfl⟩ : ∃ n, fuel' = n + 1 := ⟨fuel' - 1, by omega⟩
    have hleft : wrap32 (idx * 2 + 1) = idx * 2 + 1 := wrap32_of_lt (by omega)
    have hright : wrap32 (idx * 2 + 2) = idx * 2 + 2 := wrap32_of_lt (by omega)
    have hsmallest := (@smallestAt_spec _ _ _ (fun t => (tasks t).wakeTick) data size idx).1
    unfold heapifyDownLoop siftDown
    simp only [hleft, hright]
    change (if smallestAt (fun t => (tasks t).wakeTick) size data idx = idx then some data
      else heapifyDownLoop tasks size fuel _ (smallestAt (fun t => (tasks t).wakeTick) size data idx))
      = _
    split
    · rfl
    · next hne =>
      rcases hsmallest with he | ⟨hchild, hlt, -⟩
      · exact absurd he hne
      · exact ih hlt (by omega) (by omega)

theorem sleepQueuePushLoop_eq (hsize : heap.size < 0x80000000) (hfuel : heap.size < fuel) :
    sleepQueuePushLoop fuel tasks heap t = some (sleepQueuePush tasks heap t) := by
  unfold sleepQueuePushLoop sleepQueuePush
  split
  · rfl
  · rw [heapifyUpLoop_eq (by omega) hfuel (Nat.le_refl _), wrap32_of_lt (by omega)]
    rfl

theorem sleepQueuePopLoop_eq (hsize : heap.size < 0x80000000) (hfuel : heap.size < fuel) :
    sleepQueuePopLoop fuel tasks heap = some (sleepQueuePop tasks heap) := by
  unfold sleepQueuePopLoop sleepQueuePop
  split
  · rfl
  · next hne =>
    have hsub : sub32 heap.size 1 = heap.size - 1 := sub32_of_le (by omega) (by omega)
    simp only [hsub]
    by_cases hpos : 0 < heap.size - 1
    · rw [if_pos hpos, if_pos hpos,
        heapifyDownLoop_eq (by omega) hpos (by omega) (Nat.zero_add (heap.size - 1)).ge]
      rfl
    · rw [if_neg hpos, if_neg hpos]
      rfl

end Loops

/-! ## Runs -/

/-- A sleep queue in use: the task table, the queue, the tasks that were pushed while there was
room, and those that were popped. -/
structure SleepRun where
  tasks : TaskTable
  heap : SleepQueue
  pushed : Multiset Nat
  popped : Multiset Nat

/-- What may happen to a sleep queue. Between the calls the task table may change. -/
inductive SleepCall where
  | push (task : Nat)
  | pop
  | write (tasks : TaskTable)

/-- A new sleep queue. -/
def SleepRun.init (tasks : TaskTable) (data : Nat → Nat) (capacity : Nat) : SleepRun where
  tasks := tasks
  heap := sleepQueueInit data capacity
  pushed := 0
  popped := 0

/-- The next state. -/
def SleepRun.next (s : SleepRun) : SleepCall → SleepRun
  | .push task =>
    { s with
      heap := sleepQueuePush s.tasks s.heap task
      pushed := if s.heap.size = s.heap.capacity then s.pushed else task ::ₘ s.pushed }
  | .pop =>
    let r := sleepQueuePop s.tasks s.heap
    { s with
      heap := r.1
      popped := match r.2 with
        | none => s.popped
        | some task => task ::ₘ s.popped }
  | .write tasks => { s with tasks := tasks }

/-- The wake ticks of the tasks in the queue are not changed. -/
def SleepRun.Allows (s : SleepRun) : SleepCall → Prop
  | .write tasks => ∀ t ∈ s.heap.tasks, (tasks t).wakeTick = (s.tasks t).wakeTick
  | _ => True

/-- The task has the least wake tick, and there is none only if there is no task at all. -/
def Least (tasks : TaskTable) (m : Multiset Nat) : Option Nat → Prop
  | none => m = 0
  | some t => t ∈ m ∧ ∀ u ∈ m, (tasks t).wakeTick ≤ (tasks u).wakeTick

/-- A sleep queue that is a heap, with its ledger. -/
structure SleepRun.Sound (capacity : Nat) (s : SleepRun) : Prop where
  ordered : s.heap.Ordered s.tasks
  ledger : s.heap.tasks + s.popped = s.pushed
  capacity_eq : s.heap.capacity = capacity
  size_le : s.heap.size ≤ capacity

/-- A call ends, and it finds a task with the least wake tick. -/
def SleepRun.Answers (s : SleepRun) : SleepCall → Prop
  | .push task => ∀ fuel, s.heap.size < fuel →
      sleepQueuePushLoop fuel s.tasks s.heap task = some (sleepQueuePush s.tasks s.heap task)
  | .pop =>
    (∀ fuel, s.heap.size < fuel →
      sleepQueuePopLoop fuel s.tasks s.heap = some (sleepQueuePop s.tasks s.heap)) ∧
      (sleepQueuePop s.tasks s.heap).2 = sleepQueuePeek s.heap ∧
      Least s.tasks s.heap.tasks (sleepQueuePeek s.heap)
  | .write _ => True

/-- The tasks that are popped until the queue is empty. -/
def drain (tasks : TaskTable) : (fuel : Nat) → SleepQueue → Option (List Nat)
  | 0, _ => none
  | fuel + 1, heap =>
    match sleepQueuePop tasks heap with
    | (_, none) => some []
    | (heap, some t) => (drain tasks fuel heap).map (t :: ·)

section Runs

variable {tasks : TaskTable} {data : Nat → Nat} {heap : SleepQueue} {s : SleepRun}
  {capacity fuel t : Nat}

theorem SleepQueue.tasks_eq_zero : heap.tasks = 0 ↔ heap.size = 0 := by
  unfold SleepQueue.tasks contents
  rw [Multiset.map_eq_zero, ← Multiset.card_eq_zero, Multiset.card_range]

/-- The first task of a heap has the least wake tick. -/
theorem peek_least (h : heap.Ordered tasks) : Least tasks heap.tasks (sleepQueuePeek heap) := by
  unfold sleepQueuePeek
  split
  · next hzero => exact SleepQueue.tasks_eq_zero.mpr hzero
  · next hne =>
    refine ⟨mem_contents.mpr ⟨0, Nat.pos_of_ne_zero hne, rfl⟩, fun u hu => ?_⟩
    obtain ⟨i, hi, rfl⟩ := mem_contents.mp hu
    exact HeapOrdered.root_le h i hi

theorem pop_eq_peek : (sleepQueuePop tasks heap).2 = sleepQueuePeek heap := by
  unfold sleepQueuePop sleepQueuePeek
  split <;> rfl

theorem SleepRun.sound_init : (SleepRun.init tasks data capacity).Sound capacity where
  ordered := heapOrdered_zero
  ledger := rfl
  capacity_eq := rfl
  size_le := Nat.zero_le _

/-- A push keeps the heap and its ledger. -/
theorem SleepRun.Sound.push (h : s.Sound capacity) (t : Nat) :
    (s.next (.push t)).Sound capacity := by
  by_cases hfull : s.heap.size = s.heap.capacity
  · have hnext : s.next (.push t) = s := by
      unfold SleepRun.next
      simp only [hfull, if_true, sleepQueuePush_full hfull]
    rwa [hnext]
  · obtain ⟨htasks, hsize, hcapacity, hordered⟩ := sleepQueuePush_spec s.tasks t hfull
    have hlt := lt_of_le_of_ne h.size_le (h.capacity_eq ▸ hfull)
    refine ⟨hordered h.ordered, ?_, hcapacity.trans h.capacity_eq, ?_⟩
    · simp [SleepRun.next, hfull, htasks, ← h.ledger]
    · simp only [SleepRun.next, hsize]
      exact hlt

/-- A pop keeps the heap and its ledger. -/
theorem SleepRun.Sound.pop (h : s.Sound capacity) : (s.next .pop).Sound capacity := by
  by_cases hzero : s.heap.size = 0
  · have hnext : s.next .pop = s := by
      unfold SleepRun.next
      simp only [sleepQueuePop_none hzero]
    rwa [hnext]
  · obtain ⟨hresult, htasks, hsize, hcapacity, hordered⟩ := sleepQueuePop_spec s.tasks hzero
    refine ⟨hordered h.ordered, ?_, hcapacity.trans h.capacity_eq, ?_⟩
    · simp [SleepRun.next, hresult, ← h.ledger, htasks]
    · simp only [SleepRun.next, hsize]
      exact (Nat.sub_le _ _).trans h.size_le

/-- The task table changes, but not for the tasks in the queue. -/
theorem SleepRun.Sound.write (h : s.Sound capacity) {tasks : TaskTable}
    (hsame : ∀ t ∈ s.heap.tasks, (tasks t).wakeTick = (s.tasks t).wakeTick) :
    (s.next (.write tasks)).Sound capacity where
  ordered := h.ordered.congr_key fun i hi => hsame _ (mem_contents.mpr ⟨i, hi, rfl⟩)
  ledger := h.ledger
  capacity_eq := h.capacity_eq
  size_le := h.size_le

theorem SleepRun.Sound.step (h : s.Sound capacity) {call : SleepCall} (hallows : s.Allows call) :
    (s.next call).Sound capacity := by
  cases call with
  | push t => exact h.push t
  | pop => exact h.pop
  | write tasks => exact h.write hallows

theorem SleepRun.Sound.answers (h : s.Sound capacity) (hcapacity : capacity < 0x80000000)
    (call : SleepCall) : s.Answers call := by
  have hsize : s.heap.size < 0x80000000 := h.size_le.trans_lt hcapacity
  cases call with
  | push t => exact fun fuel hfuel => sleepQueuePushLoop_eq hsize hfuel
  | pop =>
    exact ⟨fun fuel hfuel => sleepQueuePopLoop_eq hsize hfuel, pop_eq_peek, peek_least h.ordered⟩
  | write tasks => trivial

/-! ## Draining -/

/-- **Popping until the queue is empty** gives its tasks in the order of their wake ticks. -/
theorem drain_spec (h : heap.Ordered tasks) (hfuel : heap.size < fuel) :
    ∃ l, drain tasks fuel heap = some l ∧ (l : Multiset Nat) = heap.tasks ∧
      l.Pairwise fun t u => (tasks t).wakeTick ≤ (tasks u).wakeTick := by
  induction fuel generalizing heap with
  | zero => omega
  | succ fuel ih =>
    by_cases hzero : heap.size = 0
    · refine ⟨[], ?_, (SleepQueue.tasks_eq_zero.mpr hzero).symm, List.Pairwise.nil⟩
      simp [drain, sleepQueuePop_none hzero]
    · obtain ⟨hresult, htasks, hsize, -, hordered⟩ := sleepQueuePop_spec tasks hzero
      obtain ⟨l, hl, hcontents, hsorted⟩ := ih (hordered h) (by omega)
      refine ⟨heap.data 0 :: l, ?_, ?_, List.pairwise_cons.mpr ⟨fun u hu => ?_, hsorted⟩⟩
      · unfold drain
        rw [← Prod.eta (sleepQueuePop tasks heap), hresult]
        simp [hl]
      · rw [← Multiset.cons_coe, hcontents, htasks]
      · have hmem : u ∈ heap.tasks := by
          rw [htasks, ← hcontents]
          exact Multiset.mem_cons_of_mem hu
        obtain ⟨i, hi, rfl⟩ := mem_contents.mp hmem
        exact HeapOrdered.root_le h i hi

/-! ## The sleep queue over a run -/

/-- **Runs of the sleep queue.** In every run from a new queue, after every call the queue is a heap
by the wake ticks and holds what was pushed while there was room and not popped; every call ends, a
pop returns a task with the least wake tick, and popping until the queue is empty sorts the
tasks. -/
theorem sleep_queue_run {capacity : Nat} (hcapacity : capacity < 0x80000000) (tasks : TaskTable)
    (data : Nat → Nat) {calls : List SleepCall}
    (hallows : EveryStep SleepRun.next SleepRun.Allows (SleepRun.init tasks data capacity) calls) :
    EveryStep SleepRun.next
        (fun s call => s.Sound capacity ∧ s.Answers call ∧ (s.next call).Sound capacity)
        (SleepRun.init tasks data capacity) calls ∧
      ∀ s, calls.foldl SleepRun.next (SleepRun.init tasks data capacity) = s →
        s.Sound capacity ∧ ∀ fuel, s.heap.size < fuel →
          ∃ l, drain s.tasks fuel s.heap = some l ∧ (l : Multiset Nat) = s.heap.tasks ∧
            l.Pairwise fun t u => (s.tasks t).wakeTick ≤ (s.tasks u).wakeTick := by
  have hstep : ∀ (s : SleepRun) (call : SleepCall), call ∈ calls → s.Sound capacity →
      s.Allows call → (s.next call).Sound capacity := fun _ _ _ h => h.step
  refine ⟨hallows.imp hstep (fun s call _ h ha => ⟨h, h.answers hcapacity call, h.step ha⟩)
    SleepRun.sound_init, ?_⟩
  rintro s rfl
  have hsound := hallows.invariant hstep SleepRun.sound_init
  exact ⟨hsound, fun fuel hfuel => drain_spec hsound.ordered hfuel⟩

/-- Task 5 wakes up at tick 50 and task 3 at tick 30. The wake tick of task 4 is written before it is
pushed. -/
theorem sleep_queue_run_threeTasks :
    let tasks : TaskTable := fun t => { clearedTask with wakeTick := 10 * t }
    let written : TaskTable := Function.update tasks 4 { clearedTask with wakeTick := 60 }
    let calls : List SleepCall := [.push 5, .push 3, .write written, .push 4, .pop]
    EveryStep SleepRun.next
        (fun s call => s.Sound 3 ∧ s.Answers call ∧ (s.next call).Sound 3)
        (SleepRun.init tasks id 3) calls ∧
      ∃ s, calls.foldl SleepRun.next (SleepRun.init tasks id 3) = s ∧ s.popped = {3} ∧
        s.Sound 3 ∧ ∃ l, drain s.tasks 3 s.heap = some l ∧ l = [5, 4] ∧
          l.Pairwise fun t u => (s.tasks t).wakeTick ≤ (s.tasks u).wakeTick := by
  intro tasks written calls
  have hwrite : ∀ t ∈ (((SleepRun.init tasks id 3).next (.push 5)).next (.push 3)).heap.tasks,
      (written t).wakeTick = (tasks t).wakeTick := by
    decide
  obtain ⟨hsteps, hend⟩ := @sleep_queue_run 3 (by decide) tasks id calls
    ⟨trivial, trivial, hwrite, trivial, trivial, trivial⟩
  obtain ⟨hsound, hdrain⟩ := hend _ rfl
  obtain ⟨l, hl, -, hsorted⟩ := hdrain 3 (by decide)
  exact ⟨hsteps, _, rfl, by decide, hsound, l, hl, Option.some.inj (hl.symm.trans (by decide)), hsorted⟩

end Runs

end Xylophone
