import Xylophone.Scheduler.Structures

/-!
# `scheduler.c`

The scheduler of a single processor: one current task, a ready queue, a sleep queue and a queue of
zombies. A timer tick and the calls of the current task end in `round_robin`, which wakes the
sleepers whose time has come, puts the current task back and picks the next one.

`task_start_impl` does not return, and `PANIC` loops with interrupts disabled. What came of a call
is therefore an `Outcome`. Saving and restoring a context resumes the task that is picked where it
last gave up the processor, so it has no counterpart here; nor have `cr3` and the stack of the task
state segment.
-/

namespace Xylophone

open Infra

/-- The variables of `scheduler.c`, the task table, and the tick and frequency of the timer. -/
structure Scheduler where
  tasks : TaskTable
  readyQueue : TaskQueue
  zombieQueue : TaskQueue
  sleepQueue : SleepQueue
  /-- `current_tasks[0]`. -/
  current : Option Nat
  ticks : Nat
  hz : Nat

/-- What a call of the scheduler comes to. -/
inductive Outcome where
  /-- `PANIC`: there is no task to run. -/
  | panic
  /-- A new task runs from its entry; the call does not return to its caller. -/
  | started (task : Nat)
  /-- A task continues where it last gave up the processor. -/
  | switched (task : Nat)
  /-- No switch was made. -/
  | returned
deriving DecidableEq, Repr

/-- `MAX_SLEEP_TASKS`. -/
def maxSleepTasks : Nat := 128

/-! ## Queues -/

/-- `enqueue_ready`. -/
def enqueueReady (s : Scheduler) (t : Nat) : Scheduler :=
  let tasks := if (s.tasks t).state ≠ .created then setState s.tasks t .running else s.tasks
  let r := taskQueuePush tasks s.readyQueue t
  { s with tasks := r.1, readyQueue := r.2 }

/-- `enqueue_zombie`. -/
def enqueueZombie (s : Scheduler) (t : Nat) : Scheduler :=
  let r := taskQueuePush (setState s.tasks t .zombie) s.zombieQueue t
  { s with tasks := r.1, zombieQueue := r.2 }

/-- `enqueue_sleeper`. -/
def enqueueSleeper (s : Scheduler) (t : Nat) : Scheduler :=
  let tasks := setState s.tasks t .sleeping
  { s with tasks := tasks, sleepQueue := sleepQueuePush tasks s.sleepQueue t }

/-- `task_queue_pop(&ready_queue)`. -/
def popReady (s : Scheduler) : Scheduler × Option Nat :=
  let r := taskQueuePop s.tasks s.readyQueue
  ({ s with tasks := r.1, readyQueue := r.2.1 }, r.2.2)

/-- `sleep_queue_pop(&sleep_queue)`. -/
def popSleeper (s : Scheduler) : Scheduler :=
  { s with sleepQueue := (sleepQueuePop s.tasks s.sleepQueue).1 }

/-! ## `round_robin` -/

/-- The loop that wakes sleepers. Every turn takes one out of the sleep queue, so its size is
enough fuel. -/
def wakeSleepers (tick : Nat) : (fuel : Nat) → Scheduler → Scheduler
  | 0, s => s
  | fuel + 1, s =>
    match sleepQueuePeek s.sleepQueue with
    | none => s
    | some t =>
      if tick < (s.tasks t).wakeTick then s
      else wakeSleepers tick fuel (enqueueReady (popSleeper s) t)

/-- The current task goes back to the ready queue if it is running. -/
def preempt (s : Scheduler) : Scheduler :=
  match s.current with
  | none => s
  | some c =>
    if (s.tasks c).state = .running then { enqueueReady s c with current := none } else s

/-- `set_current_task(next)` and `task_start_impl(next)`. -/
def startTask (s : Scheduler) (t : Nat) : Scheduler :=
  { s with tasks := setState s.tasks t .running, current := some t }

/-- The loop that picks the next task. Every turn takes a task out of the ready queue; one that is
put back is running then. So twice the size of the queue, and one, is enough fuel. -/
def pickNext : (fuel : Nat) → Scheduler → Option (Scheduler × Outcome)
  | 0, _ => none
  | fuel + 1, s =>
    match popReady s with
    | (s, none) => some (s, .panic)
    | (s, some t) =>
      match (s.tasks t).state with
      | .created => some (startTask s t, .started t)
      | .running => some ({ s with current := some t }, .switched t)
      | .zombie => pickNext fuel (enqueueZombie s t)
      | .sleeping => pickNext fuel (enqueueSleeper s t)
      | .stopped | .blocked | .cleaning => pickNext fuel (enqueueReady s t)

/-- `round_robin`. -/
def roundRobin (s : Scheduler) (tick : Nat) : Option (Scheduler × Outcome) :=
  let s := preempt (wakeSleepers tick s.sleepQueue.size s)
  pickNext (2 * s.readyQueue.size + 1) s

/-! ## The calls -/

/-- `set_current_task(task_queue_pop(&ready_queue))`, when there is no current task. -/
def ensureCurrent (s : Scheduler) : Scheduler :=
  if s.current = none then { (popReady s).1 with current := (popReady s).2 } else s

/-- `scheduler_schedule`. -/
def schedulerSchedule (s : Scheduler) (tick : Nat) : Option (Scheduler × Outcome) :=
  roundRobin (ensureCurrent s) tick

/-- `timer_handle` with `scheduler_schedule` as its handle. -/
def timerHandle (s : Scheduler) : Option (Scheduler × Outcome) :=
  let ticks := wrap32 (s.ticks + 1)
  schedulerSchedule { s with ticks := ticks } ticks

/-- `scheduler_add` of a task that is not `NULL`. -/
def schedulerAdd (s : Scheduler) (t : Nat) : Scheduler := enqueueReady s t

/-- The number of ticks `scheduler_sleep` waits for. -/
def ticksToSleep (ms hz : Nat) : Nat :=
  if wrap32 (ms * hz) / 1000 = 0 then 1 else wrap32 (ms * hz) / 1000

/-- The block of `scheduler_sleep` that runs with interrupts disabled. Without a current task it
has no meaning. -/
def sleepBlock (s : Scheduler) (ms : Nat) : Option Scheduler :=
  s.current.map fun c =>
    enqueueSleeper
      { s with tasks := setWakeTick s.tasks c (wrap32 (s.ticks + ticksToSleep ms s.hz)) } c

/-- What `scheduler_exit` does before its block: the current task becomes a zombie. -/
def exitMark (s : Scheduler) : Option Scheduler :=
  s.current.map fun c => { s with tasks := setState s.tasks c .zombie }

/-- The block of `scheduler_exit` that runs with interrupts disabled. -/
def exitBlock (s : Scheduler) : Option (Scheduler × Outcome) := roundRobin s s.ticks

/-! ## Creating and cleaning up -/

/-- `get_free_task`: the first slot that is not in use. -/
def freeTask (tasks : TaskTable) : Option Nat :=
  (List.range tasksMax).find? fun i => (tasks i).state = .stopped

/-- A task is created and added: the slot `get_free_task` returns holds `task` then, and
`scheduler_add` is called. Without a free slot nothing happens. -/
def createTask (s : Scheduler) (task : Task) : Scheduler :=
  match freeTask s.tasks with
  | none => s
  | some i =>
    schedulerAdd
      { s with tasks := Function.update s.tasks i { task with pid := i, state := .created } } i

/-- The first block of `task_cleanup`: the threads of the task become zombies. -/
def markThreads (tasks : TaskTable) (pid : Nat) : TaskTable := fun i =>
  if i < tasksMax ∧ (tasks i).parent = some pid ∧ (tasks i).mode = .thread then
    { tasks i with state := .zombie }
  else tasks i

/-- The last block of `task_cleanup`: the slot becomes free. -/
def resetSlot (tasks : TaskTable) (pid : Nat) : TaskTable :=
  Function.update tasks pid { clearedTask with pid := noPid }

/-- `task_cleanup`, as far as the scheduler can see it. -/
def taskCleanup (s : Scheduler) (pid : Nat) : Scheduler :=
  if pid = noPid ∨ tasksMax ≤ pid then s else { s with tasks := resetSlot (markThreads s.tasks pid) pid }

/-- A turn of the loop of `kthread_task_cleaner`, up to its call of `scheduler_yield`. -/
def cleanZombie (s : Scheduler) : Scheduler :=
  match taskQueuePeek s.zombieQueue with
  | none => s
  | some _ =>
    let r := taskQueuePop s.tasks s.zombieQueue
    match r.2.2 with
    | none => s
    | some t => taskCleanup { s with tasks := r.1, zombieQueue := r.2.1 } (r.1 t).pid

/-! ## Starting up -/

/-- A task table after `task_init`. -/
def taskInit (tasks : TaskTable) : TaskTable := fun i =>
  { tasks i with state := .stopped, pid := noPid, next := none, prev := none, parent := none }

/-- The scheduler after `scheduler_init`: the ready queue holds `kthread_task_cleaner` and
`kthread_idle`. `hz` is the frequency of the timer. -/
def schedulerInit (tasks : TaskTable) (data : Nat → Nat) (hz : Nat) (cleaner idle : Task) :
    Scheduler :=
  createTask
    (createTask
      { tasks := taskInit tasks, readyQueue := taskQueueInit, zombieQueue := taskQueueInit
        sleepQueue := sleepQueueInit data maxSleepTasks, current := none, ticks := 0, hz := hz }
      cleaner) idle

end Xylophone
