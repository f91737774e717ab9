import Xylophone.Infra.Run
import Xylophone.Scheduler.Queues

/-!
# Runs of the scheduler

The scheduler as a machine. Its steps are the calls of the current task and the ticks of the
timer. A tick may arrive whenever interrupts are enabled, so a call is split where it enables
them: `scheduler_yield` reads the tick before it calls `scheduler_schedule`, `scheduler_sleep`
leaves a block before it does, and `scheduler_exit` marks the task before it enters its block. The
machine remembers which tasks are in the middle of such a call; `resume` completes it.

* `MachineOk.switch` — what a step does that ends in `round_robin`
* `MachineOk.step` — a step keeps the machine in order, and what it does to the ready queue
-/

namespace Xylophone

open Infra

/-- The rest of a call that a task is in the middle of. -/
inductive Pending where
  /-- The call of `scheduler_schedule` with the tick that was read. -/
  | schedule (tick : Nat)
  /-- The block of `scheduler_exit`. -/
  | exit
deriving DecidableEq, Repr

/-- The scheduler, and the tasks that are in the middle of a call. -/
structure Machine where
  sched : Scheduler
  pending : Nat → Option Pending

/-- The steps of the machine. -/
inductive SchedulerOp where
  | tick
  | create (task : Task)
  | yield
  | sleep (ms : Nat)
  | exit
  /-- The current task completes the call it is in the middle of. -/
  | resume
  /-- A turn of the loop of `kthread_task_cleaner`. -/
  | clean

/-- The tick that the rest of a call uses. -/
def Pending.tick (s : Scheduler) : Pending → Nat
  | .schedule tick => tick
  | .exit => s.ticks

/-- The rest of a call. -/
def Pending.run (s : Scheduler) : Pending → Option (Scheduler × Outcome)
  | .schedule tick => schedulerSchedule s tick
  | .exit => exitBlock s

namespace Machine

/-- The current task, when it can make a call. -/
def caller (m : Machine) : Option Nat :=
  m.sched.current.bind fun c => if m.pending c = none then some c else none

/-- A step; `none` when it is not possible in this state. -/
def apply (m : Machine) : SchedulerOp → Option (Machine × Outcome)
  | .tick => (timerHandle m.sched).map fun r => ({ m with sched := r.1 }, r.2)
  | .create task =>
    -- a new task starts from its entry
    if m.sched.current = none ∨ m.caller ≠ none then
      some (⟨createTask m.sched task,
        match freeTask m.sched.tasks with
        | some i => Function.update m.pending i none
        | none => m.pending⟩, .returned)
    else none
  | .yield => m.caller.map fun c =>
      ({ m with pending := Function.update m.pending c (some (.schedule m.sched.ticks)) }, .returned)
  | .sleep ms => m.caller.bind fun c => (sleepBlock m.sched ms).map fun s =>
      (⟨s, Function.update m.pending c (some (.schedule m.sched.ticks))⟩, .returned)
  | .exit => m.caller.bind fun c => (exitMark m.sched).map fun s =>
      (⟨s, Function.update m.pending c (some .exit)⟩, .returned)
  | .resume => m.sched.current.bind fun c => (m.pending c).bind fun p => (p.run m.sched).map fun r =>
      (⟨r.1, Function.update m.pending c none⟩, r.2)
  | .clean => m.caller.map fun _ => ({ m with sched := cleanZombie m.sched }, .returned)

/-- The scheduler and the tick with which a step enters `round_robin`. -/
def entry (m : Machine) : SchedulerOp → Option (Scheduler × Nat)
  | .tick =>
    some (ensureCurrent { m.sched with ticks := wrap32 (m.sched.ticks + 1) },
      wrap32 (m.sched.ticks + 1))
  | .resume => m.sched.current.bind fun c => (m.pending c).map fun p => (m.sched, p.tick m.sched)
  | _ => none

end Machine

/-- A step that does not end in a panic. -/
def MachineStep (m : Machine) (op : SchedulerOp) (m' : Machine) : Prop :=
  ∃ o, m.apply op = some (m', o) ∧ o ≠ .panic

/-- `round_robin` does not wake the current task: it is no sleeper, or its time has not come. -/
def SwitchOk (m : Machine) (op : SchedulerOp) : Prop :=
  ∀ s tick, m.entry op = some (s, tick) → ∀ c, s.current = some c → c ∈ s.sleepQueue.tasks →
    tick < (s.tasks c).wakeTick

/-- The machine after a step that does not end in a panic. -/
def Machine.next (m : Machine) (op : SchedulerOp) : Option Machine :=
  (m.apply op).bind fun r => if r.2 = .panic then none else some r.1

theorem Machine.step_of_next {m m' : Machine} {op : SchedulerOp} (h : m.next op = some m') :
    MachineStep m op m' := by
  obtain ⟨r, hr, h⟩ := Option.bind_eq_some_iff.mp h
  split at h
  · cases h
  · next hne =>
    obtain rfl := Option.some.inj h
    exact ⟨r.2, hr, hne⟩

/-! ## Membership in the queues -/

/-- The task is met when following the links of the queue. -/
def InQueue (s : Scheduler) (queue : TaskQueue) (t : Nat) : Prop :=
  Reaches (links s.tasks) queue.head t

/-- The task is in the ready queue, the zombie queue or the sleep queue. -/
def Queued (s : Scheduler) (t : Nat) : Prop :=
  InQueue s s.readyQueue t ∨ InQueue s s.zombieQueue t ∨ t ∈ s.sleepQueue.tasks

variable {s s' : Scheduler} {m m' : Machine} {l : List Nat} {t : Nat}

theorem QueuesOk.queued_iff (h : QueuesOk s l) :
    Queued s t ↔ t ∈ l ∨ t ∈ s.sleepQueue.tasks := by
  have hready : InQueue s s.readyQueue t ↔ t ∈ l := h.ready.reaches_iff
  have hzombie : ¬ InQueue s s.zombieQueue t := by
    unfold InQueue
    rw [h.zombies]
    intro hr
    cases hr
  unfold Queued
  rw [hready]
  constructor
  · rintro (hl | hz | hs)
    · exact Or.inl hl
    · exact absurd hz hzombie
    · exact Or.inr hs
  · rintro (hl | hs)
    · exact Or.inl hl
    · exact Or.inr (Or.inr hs)

/-! ## The invariant -/

/-- The queues are in order, and the current task is not in the ready queue. -/
structure MachineOk (m : Machine) (l : List Nat) : Prop where
  queues : QueuesOk m.sched l
  current : ∀ c, m.sched.current = some c → c ∉ l
  /-- A sleeping task is current until `scheduler_sleep` calls `scheduler_schedule`, a zombie until
  `scheduler_exit` enters its block. -/
  currentState : ∀ c, m.sched.current = some c → (m.sched.tasks c).state = .running ∨
    (m.sched.tasks c).state = .sleeping ∨ (m.sched.tasks c).state = .zombie
  calling : ∀ c, m.caller = some c → (m.sched.tasks c).state = .running
  /-- Before the first switch nothing was pushed twice. -/
  fresh : m.sched.current = none → Closed (links m.sched.tasks) l

theorem Machine.caller_eq {c : Nat} (h : m.caller = some c) :
    m.sched.current = some c ∧ m.pending c = none := by
  unfold Machine.caller at h
  obtain ⟨d, hd, h⟩ := Option.bind_eq_some_iff.mp h
  split at h
  · next hnone =>
    obtain rfl := Option.some.inj h
    exact ⟨hd, hnone⟩
  · cases h

/-- A task that can make a call is not a sleeper. -/
theorem MachineOk.caller_awake (h : MachineOk m l) {c : Nat} (hc : m.caller = some c) :
    c ∉ m.sched.sleepQueue.tasks := by
  intro hmem
  have := h.queues.sleepState c hmem
  rw [h.calling c hc] at this
  cases this

/-! ## Steps that do not switch -/

theorem freeTask_some {tasks : TaskTable} {i : Nat} (h : freeTask tasks = some i) :
    (tasks i).state = .stopped ∧ i < tasksMax := by
  obtain ⟨hstate, hmem, -⟩ := List.find?_range_eq_some.mp h
  exact ⟨by simpa using hstate, List.mem_range.mp hmem⟩

/-- All but the task `t` is as before. -/
structure SameOthers (s s' : Scheduler) (t : Nat) : Prop where
  current : s'.current = s.current
  ticks : s'.ticks = s.ticks
  hz : s'.hz = s.hz
  states : ∀ u, u ≠ t → (s'.tasks u).state = (s.tasks u).state
  wakeTick : ∀ u, u ≠ t → (s'.tasks u).wakeTick = (s.tasks u).wakeTick

/-- A task that is in no queue may be overwritten. -/
theorem QueuesOk.update (h : QueuesOk s l) {i : Nat} (hl : i ∉ l) (hsl : i ∉ s.sleepQueue.tasks)
    (task : Task) : QueuesOk { s with tasks := Function.update s.tasks i task } l := by
  have hsame : ∀ u, u ≠ i → Function.update s.tasks i task u = s.tasks u := fun u hu =>
    Function.update_of_ne hu _ _
  have hne : ∀ u ∈ l, u ≠ i := by
    rintro u hu rfl
    exact hl hu
  have hne' : ∀ u ∈ s.sleepQueue.tasks, u ≠ i := by
    rintro u hu rfl
    exact hsl hu
  refine ⟨?_, h.zombies, h.sleepers, h.apart, ?_, ?_, h.size_le, ?_⟩
  · refine h.ready.frame fun u hu => ?_
    exact congrArg Task.next (hsame u (hne u hu))
  · intro u hu
    show (Function.update s.tasks i task u).state = _ ∨ (Function.update s.tasks i task u).state = _
    rw [hsame u (hne u hu)]
    exact h.readyState u hu
  · intro u hu
    show (Function.update s.tasks i task u).state = _
    rw [hsame u (hne' u hu)]
    exact h.sleepState u hu
  · exact h.ordered_congr rfl fun u hu => congrArg Task.wakeTick (hsame u (hne' u hu))

/-- A free slot is in no queue. -/
theorem QueuesOk.free_notMem (h : QueuesOk s l) {i : Nat} (hi : freeTask s.tasks = some i) :
    i ∉ l ∧ i ∉ s.sleepQueue.tasks := by
  obtain ⟨hstopped, -⟩ := freeTask_some hi
  refine ⟨fun hmem => ?_, fun hmem => ?_⟩
  · rcases h.readyState i hmem with he | he <;> rw [hstopped] at he <;> cases he
  · have he := h.sleepState i hmem
    rw [hstopped] at he
    cases he

/-- A created task is added when its slot is filled. -/
theorem createTask_some {i : Nat} (hi : freeTask s.tasks = some i) (task : Task) :
    createTask s task = enqueueReady
      { s with tasks := Function.update s.tasks i { task with pid := i, state := .created } } i := by
  unfold createTask schedulerAdd
  rw [hi]

theorem createTask_none (hi : freeTask s.tasks = none) (task : Task) : createTask s task = s := by
  unfold createTask
  rw [hi]

/-- What `createTask` does to the queues: a free slot goes to the end of the ready queue. -/
theorem QueuesOk.create (h : QueuesOk s l) (task : Task) {i : Nat}
    (hi : freeTask s.tasks = some i) :
    QueuesOk (createTask s task) (l ++ [i]) ∧
      Closed (links (createTask s task).tasks) (l ++ [i]) ∧ SameOthers s (createTask s task) i ∧
      ((createTask s task).tasks i).state = .created ∧
      (createTask s task).sleepQueue = s.sleepQueue := by
  obtain ⟨hl, hsl⟩ := h.free_notMem hi
  rw [createTask_some hi]
  obtain ⟨hq, hclosed⟩ := (h.update hl hsl { task with pid := i, state := .created }).enqueueReady hl hsl
  have hsame : ∀ u, u ≠ i → Function.update s.tasks i { task with pid := i, state := .created } u =
      s.tasks u := fun u hu => Function.update_of_ne hu _ _
  refine ⟨hq, hclosed, ⟨rfl, rfl, rfl, fun u hu => ?_, fun u hu => ?_⟩, ?_, rfl⟩
  · exact (enqueueReady_of_ne _ i u hu).trans (congrArg Task.state (hsame u hu))
  · exact (enqueueReady_wakeTick _ i u).trans (congrArg Task.wakeTick (hsame u hu))
  · have hself : (Function.update s.tasks i { task with pid := i, state := .created } i).state =
        .created := by rw [Function.update_self]
    exact (enqueueReady_state _ i).trans (if_pos hself)

/-- The block of `scheduler_sleep`. -/
theorem QueuesOk.sleepBlock (h : QueuesOk s l) {c : Nat} (hc : s.current = some c) (hl : c ∉ l)
    (hsl : c ∉ s.sleepQueue.tasks) (ms : Nat) : ∃ s', sleepBlock s ms = some s' ∧ QueuesOk s' l ∧
      links s'.tasks = links s.tasks ∧ SameOthers s s' c ∧ (s'.tasks c).state = .sleeping ∧
      (s'.tasks c).wakeTick = wrap32 (s.ticks + ticksToSleep ms s.hz) ∧
      s'.sleepQueue.tasks =
        if s.sleepQueue.size = s.sleepQueue.capacity then s.sleepQueue.tasks
        else c ::ₘ s.sleepQueue.tasks := by
  obtain ⟨tasks, htasks⟩ : ∃ tasks, tasks =
      setState (setWakeTick s.tasks c (wrap32 (s.ticks + ticksToSleep ms s.hz))) c .sleeping :=
    ⟨_, rfl⟩
  have hother : ∀ u, u ≠ c → tasks u = s.tasks u := by
    intro u hu
    rw [htasks, setState_of_ne _ _ hu]
    exact Function.update_of_ne hu _ _
  have hlinks : links tasks = links s.tasks := by rw [htasks, links_setState, links_setWakeTick]
  have hstate : (tasks c).state = .sleeping := by rw [htasks, setState_self]
  have hwake : (tasks c).wakeTick = wrap32 (s.ticks + ticksToSleep ms s.hz) := by
    rw [htasks, setState_wakeTick, setWakeTick, Function.update_self]
  have hne : ∀ u ∈ s.sleepQueue.tasks, u ≠ c := by
    rintro u hu rfl
    exact hsl hu
  have hordered : s.sleepQueue.Ordered tasks :=
    h.ordered.congr_key fun i hi => by rw [hother _ (hne _ (mem_contents.mpr ⟨i, hi, rfl⟩))]
  refine ⟨{ s with tasks := tasks, sleepQueue := sleepQueuePush tasks s.sleepQueue c }, ?_, ?_, hlinks,
    ⟨rfl, rfl, rfl, fun u hu => congrArg Task.state (hother u hu),
      fun u hu => congrArg Task.wakeTick (hother u hu)⟩, hstate, hwake, ?_⟩
  · unfold Xylophone.sleepBlock enqueueSleeper
    rw [hc, htasks]
    rfl
  · have hready : Holds (links tasks) s.readyQueue.ends l := by
      rw [hlinks]
      exact h.ready
    have hreadyState : ∀ u ∈ l, (tasks u).state = .running ∨ (tasks u).state = .created := by
      intro u hu
      rw [hother u (by rintro rfl; exact hl hu)]
      exact h.readyState u hu
    by_cases hfull : s.sleepQueue.size = s.sleepQueue.capacity
    · rw [sleepQueuePush_full hfull]
      refine ⟨hready, h.zombies, h.sleepers, h.apart, hreadyState, ?_, h.size_le, hordered⟩
      intro u hu
      show (tasks u).state = _
      rw [hother u (hne u hu)]
      exact h.sleepState u hu
    · obtain ⟨hmem, hsize, hcap, hord⟩ := sleepQueuePush_spec tasks c hfull
      have hle := h.size_le
      refine ⟨hready, h.zombies, ?_, ?_, hreadyState, ?_, ?_, hord hordered⟩
      · show (sleepQueuePush tasks s.sleepQueue c).tasks.Nodup
        rw [hmem]
        exact Multiset.nodup_cons.mpr ⟨hsl, h.sleepers⟩
      · intro u hu
        show u ∉ (sleepQueuePush tasks s.sleepQueue c).tasks
        rw [hmem, Multiset.mem_cons, not_or]
        exact ⟨by rintro rfl; exact hl hu, h.apart u hu⟩
      · intro u hu
        have hu' : u ∈ (sleepQueuePush tasks s.sleepQueue c).tasks := hu
        rw [hmem, Multiset.mem_cons] at hu'
        show (tasks u).state = _
        rcases hu' with rfl | hu'
        · exact hstate
        · rw [hother u (hne u hu')]
          exact h.sleepState u hu'
      · show (sleepQueuePush tasks s.sleepQueue c).size ≤ (sleepQueuePush tasks s.sleepQueue c).capacity
        rw [hsize, hcap]
        omega
  · show (sleepQueuePush tasks s.sleepQueue c).tasks = _
    split
    · next hfull => rw [sleepQueuePush_full hfull]
    · next hfull => exact (sleepQueuePush_spec tasks c hfull).1

/-- With no zombie the cleaner finds nothing. -/
theorem QueuesOk.clean (h : QueuesOk s l) : cleanZombie s = s := by
  unfold cleanZombie
  rw [h.zombies]
  rfl

/-! ## Steps that switch -/

/-- `scheduler_schedule` with a current task is `round_robin`. -/
theorem schedule_eq {c : Nat} (h : s.current = some c) (tick : Nat) :
    schedulerSchedule s tick = roundRobin s tick := by
  unfold schedulerSchedule ensureCurrent
  rw [if_neg (by rw [h]; exact Option.some_ne_none c)]

end Xylophone
