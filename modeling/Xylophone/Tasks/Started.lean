import Xylophone.Tasks.Failures
import Xylophone.Tasks.Start

/-!
# The start of every task

Between its creation and its start a task waits in the ready queue, while other tasks run, allocate
memory, sleep, exit and are cleaned up. A switch writes into the context of the current task. What
the start of a waiting task reads stays as its creation left it.

The first task that becomes current does so without a start, and it is forgotten here: the context
of whatever ran before is saved over its own.

* `roundRobin_calm` — the scheduler changes nothing that the start of a waiting task reads
* `WaitsOk.next` — neither does any other event
* `created_starts` — the start of every task, whenever it comes
-/

namespace Xylophone

open Infra

/-! ## The source -/

/-- What `_task_save_context` stores, as far as a start reads it. -/
structure SavedContext where
  esp : Nat
  ebp : Nat

/-- `_task_save_context(current_task())`. Without a current task it has no meaning. -/
def saveContext (s : Scheduler) (context : SavedContext) : Option Scheduler :=
  s.current.map fun c => { s with
    tasks := Function.update s.tasks c { s.tasks c with esp := context.esp, ebp := context.ebp } }

/-- The system, and the calls that created its tasks. -/
structure CreatedTasks where
  sys : TaskSystem
  calls : Nat → Option CreateCall

/-- What happens to tasks. -/
inductive TaskEvent where
  | create (c : CreateCall)
  | cleanup (pid : Nat)
  /-- `scheduler_schedule`, which saves this context. -/
  | schedule (tick : Nat) (context : SavedContext)
  /-- `timer_handle`. -/
  | timer (context : SavedContext)
  /-- The block of `scheduler_sleep`. -/
  | sleep (ms : Nat)
  /-- `scheduler_exit`, up to its block. -/
  | exitMark
  /-- The block of `scheduler_exit`. -/
  | exit (context : SavedContext)
  /-- `kthread_task_cleaner` takes a zombie out of its queue. -/
  | takeZombie
  | malloc (size : Int) (answer : Nat)
  | free (address : Nat)

namespace CreatedTasks

variable (x : CreatedTasks)

/-- The scheduler is changed. -/
def withSched (sched : Scheduler) : CreatedTasks := { x with sys := { x.sys with sched := sched } }

/-- The creation, which is noted if it does not fail. -/
def create (c : CreateCall) : CreatedTasks :=
  let r := x.sys.create c
  ⟨r.1, if r.2 = -1 then x.calls else Function.update x.calls r.2.toNat (some c)⟩

/-- `set_current_task(task_queue_pop(&ready_queue))`, when there is no current task. -/
def ensureCurrent : CreatedTasks where
  sys := { x.sys with sched := Xylophone.ensureCurrent x.sys.sched }
  calls t :=
    if x.sys.sched.current = none ∧ (popReady x.sys.sched).2 = some t then none else x.calls t

/-- The context of the current task is saved, and `round_robin` is entered. -/
def switch (tick : Nat) (context : SavedContext) : Option (CreatedTasks × Outcome) :=
  (saveContext x.sys.sched context).bind fun s =>
    (roundRobin s tick).map fun r => (x.withSched r.1, r.2)

/-- An event, and what it comes to. -/
def next : TaskEvent → Option (CreatedTasks × Outcome)
  | .create c => some (x.create c, .returned)
  | .cleanup pid =>
    some (⟨(x.sys.taskCleanup pid).1, Function.update x.calls pid none⟩, .returned)
  | .schedule tick context => x.ensureCurrent.switch tick context
  | .timer context =>
    let ticks := wrap32 (x.sys.sched.ticks + 1)
    (x.withSched { x.sys.sched with ticks := ticks }).ensureCurrent.switch ticks context
  | .sleep ms => (sleepBlock x.sys.sched ms).map fun s => (x.withSched s, .returned)
  | .exitMark => (Xylophone.exitMark x.sys.sched).map fun s => (x.withSched s, .returned)
  | .exit context => x.switch x.sys.sched.ticks context
  | .takeZombie =>
    let r := taskQueuePop x.sys.sched.tasks x.sys.sched.zombieQueue
    some (x.withSched { x.sys.sched with tasks := r.1, zombieQueue := r.2.1 }, .returned)
  | .malloc size answer => some ({ x with sys := (x.sys.syscallMalloc size answer).1 }, .returned)
  | .free address => some ({ x with sys := x.sys.syscallFree address }, .returned)

end CreatedTasks

/-- A step, as a relation. -/
def TaskEventStep (x : CreatedTasks) (e : TaskEvent) (x' : CreatedTasks) : Prop :=
  ∃ o, x.next e = some (x', o)

/-- The task that calls a creation is in use. -/
def CallerInUse (x : CreatedTasks) : TaskEvent → Prop
  | .create _ => x.sys.sched.current.all (fun c => (x.sys.task c).state ≠ .stopped) = true
  | _ => True

instance (x : CreatedTasks) : (e : TaskEvent) → Decidable (CallerInUse x e)
  | .create _ => inferInstanceAs (Decidable (_ = true))
  | .cleanup _ | .schedule .. | .timer _ | .sleep _ | .exitMark | .exit _ | .takeZombie
  | .malloc .. | .free _ => instDecidableTrue

/-- What comes of the start of a task that was created by the call. -/
def StartDoes (kthreadEntry : Nat) (cpu : TrapCpu) : CreateCall → Prop
  | .kthread _ _ _ answers => ∃ cpu', cpu.taskStart = some cpu' ∧
      EntersFunction cpu cpu' kthreadEntry (TaskSystem.stackTop answers.stack) 0x10
  | .thread .. => cpu.taskStart = none

variable {s s' s'' : Scheduler} {x x' : CreatedTasks} {e : TaskEvent} {t kthreadEntry : Nat}
  {tasks tasks' tasks'' : TaskTable} {c : CreateCall}

/-! ## What the scheduler leaves alone -/

/-- No task changes in what its start reads, and none becomes new or free. -/
structure CalmTasks (tasks tasks' : TaskTable) : Prop where
  fields : ∀ j, (tasks' j).startFields = (tasks j).startFields
  created : ∀ j, (tasks' j).state = .created → (tasks j).state = .created
  stopped : ∀ j, (tasks' j).state = .stopped → (tasks j).state = .stopped

namespace CalmTasks

theorem refl (tasks : TaskTable) : CalmTasks tasks tasks := ⟨fun _ => rfl, fun _ h => h, fun _ h => h⟩

theorem trans (h : CalmTasks tasks tasks') (h' : CalmTasks tasks' tasks'') :
    CalmTasks tasks tasks'' where
  fields j := (h'.fields j).trans (h.fields j)
  created j hj := h.created j (h'.created j hj)
  stopped j hj := h.stopped j (h'.stopped j hj)

/-- Links change. -/
theorem of_next (h : ∀ j, tasks' j = { tasks j with next := (tasks' j).next }) :
    CalmTasks tasks tasks' where
  fields j := by
    rw [h j]
    rfl
  created j hj := by
    rw [h j] at hj
    exact hj
  stopped j hj := by
    rw [h j] at hj
    exact hj

theorem push (tasks : TaskTable) (queue : TaskQueue) (t : Nat) :
    CalmTasks tasks (taskQueuePush tasks queue t).1 := .of_next fun j => push_fields tasks queue t j

theorem pop (tasks : TaskTable) (queue : TaskQueue) :
    CalmTasks tasks (taskQueuePop tasks queue).1 := by
  unfold taskQueuePop
  split
  · exact .refl tasks
  · exact .of_next fun j => setNext_fields tasks _ j none

/-- A task comes into a state in which it neither waits for its start nor is free. -/
theorem toState (tasks : TaskTable) (t : Nat) {state : TaskState} (hcreated : state ≠ .created)
    (hstopped : state ≠ .stopped) : CalmTasks tasks (setState tasks t state) where
  fields j := by
    by_cases hj : j = t
    · rw [hj, setState, Function.update_self]
      rfl
    · rw [setState_of_ne _ _ hj]
  created j hj := by
    by_cases hjt : j = t
    · rw [hjt, setState_self] at hj
      exact absurd hj hcreated
    · rwa [setState_of_ne _ _ hjt] at hj
  stopped j hj := by
    by_cases hjt : j = t
    · rw [hjt, setState_self] at hj
      exact absurd hj hstopped
    · rwa [setState_of_ne _ _ hjt] at hj

theorem toWake (tasks : TaskTable) (t tick : Nat) : CalmTasks tasks (setWakeTick tasks t tick) := by
  have hsame : ∀ j, setWakeTick tasks t tick j =
      { tasks j with wakeTick := (setWakeTick tasks t tick j).wakeTick } := by
    intro j
    unfold setWakeTick
    by_cases hj : j = t
    · rw [hj, Function.update_self]
    · rw [Function.update_of_ne hj]
  refine ⟨fun j => ?_, fun j hj => ?_, fun j hj => ?_⟩
  · rw [hsame j]
    rfl
  · rw [hsame j] at hj
    exact hj
  · rw [hsame j] at hj
    exact hj

end CalmTasks

/-- The scheduler changes nothing that the start of a waiting task reads, and makes no such task
current. -/
structure Calm (s s' : Scheduler) : Prop extends CalmTasks s.tasks s'.tasks where
  current : ∀ j, s'.current = some j → (s'.tasks j).state = .created → s.current = some j

namespace Calm

theorem trans (h : Calm s s') (h' : Calm s' s'') : Calm s s'' where
  toCalmTasks := h.toCalmTasks.trans h'.toCalmTasks
  current j hj hcreated := h.current j (h'.current j hj hcreated) (h'.created j hcreated)

/-- The same task is current. -/
theorem of_tasks (h : CalmTasks s.tasks s'.tasks) (hcurrent : s'.current = s.current) : Calm s s' where
  toCalmTasks := h
  current _ hj _ := hcurrent ▸ hj

theorem refl (s : Scheduler) : Calm s s := .of_tasks (.refl _) rfl

end Calm

theorem calm_enqueueReady (s : Scheduler) (t : Nat) : Calm s (enqueueReady s t) := by
  refine .of_tasks ?_ rfl
  unfold enqueueReady
  dsimp only
  split
  · exact (CalmTasks.toState s.tasks t TaskState.noConfusion TaskState.noConfusion).trans (.push ..)
  · exact .push ..

theorem calm_enqueueZombie (s : Scheduler) (t : Nat) : Calm s (enqueueZombie s t) :=
  .of_tasks ((CalmTasks.toState s.tasks t TaskState.noConfusion TaskState.noConfusion).trans
    (.push ..)) rfl

theorem calm_enqueueSleeper (s : Scheduler) (t : Nat) : Calm s (enqueueSleeper s t) :=
  .of_tasks (CalmTasks.toState s.tasks t TaskState.noConfusion TaskState.noConfusion) rfl

theorem calm_popReady (s : Scheduler) : Calm s (popReady s).1 := .of_tasks (.pop ..) rfl

theorem calm_wakeSleepers (tick fuel : Nat) (s : Scheduler) : Calm s (wakeSleepers tick fuel s) := by
  induction fuel generalizing s with
  | zero => exact .refl s
  | succ fuel ih =>
    unfold wakeSleepers
    split
    · exact .refl s
    · split
      · exact .refl s
      · have hpop : Calm s (popSleeper s) := .of_tasks (.refl _) rfl
        exact (hpop.trans (calm_enqueueReady _ _)).trans (ih _)

theorem calm_preempt (s : Scheduler) : Calm s (preempt s) := by
  unfold preempt
  split
  · exact .refl s
  · next c _ =>
    split
    · exact ⟨(calm_enqueueReady s c).toCalmTasks, fun _ hj => by cases hj⟩
    · exact .refl s

/-- What the loop that picks the next task leaves alone; and a task that it starts was waiting. -/
theorem pickNext_calm {o : Outcome} (fuel : Nat) (h : pickNext fuel s = some (s', o)) :
    Calm s s' ∧ ∀ t, o = .started t → (s.tasks t).state = .created := by
  induction fuel generalizing s with
  | zero => cases h
  | succ fuel ih =>
    unfold pickNext at h
    have hpop := calm_popReady s
    cases hpopped : popReady s with
    | mk s₁ popped =>
      rw [hpopped] at hpop h
      cases popped with
      | none =>
        obtain ⟨rfl, rfl⟩ := Prod.mk.inj (Option.some.inj h)
        exact ⟨hpop, fun t ht => by cases ht⟩
      | some t =>
        -- a task that is put back
        have hagain : ∀ {s₂}, Calm s₁ s₂ → pickNext fuel s₂ = some (s', o) →
            Calm s s' ∧ ∀ t, o = .started t → (s.tasks t).state = .created := by
          intro s₂ hcalm h₂
          obtain ⟨hrest, hstarted⟩ := ih h₂
          exact ⟨(hpop.trans hcalm).trans hrest,
            fun t ht => (hpop.trans hcalm).created t (hstarted t ht)⟩
        dsimp only at h
        cases hstate : (s₁.tasks t).state with
        | created =>
          rw [hstate] at h
          obtain ⟨rfl, rfl⟩ := Prod.mk.inj (Option.some.inj h)
          have hstart : Calm s₁ (startTask s₁ t) := by
            refine ⟨.toState s₁.tasks t TaskState.noConfusion TaskState.noConfusion,
              fun j hj hcreated => ?_⟩
            obtain rfl := Option.some.inj hj
            rw [startTask, setState_self] at hcreated
            cases hcreated
          refine ⟨hpop.trans hstart, fun u hu => ?_⟩
          obtain rfl := Outcome.started.inj hu
          exact hpop.created t hstate
        | running =>
          rw [hstate] at h
          obtain ⟨rfl, rfl⟩ := Prod.mk.inj (Option.some.inj h)
          have hswitch : Calm s₁ { s₁ with current := some t } := by
            refine ⟨.refl _, fun j hj hcreated => ?_⟩
            obtain rfl := Option.some.inj hj
            cases hstate.symm.trans hcreated
          exact ⟨hpop.trans hswitch, fun u hu => by cases hu⟩
        | zombie =>
          rw [hstate] at h
          exact hagain (calm_enqueueZombie s₁ t) h
        | sleeping =>
          rw [hstate] at h
          exact hagain (calm_enqueueSleeper s₁ t) h
        | stopped =>
          rw [hstate] at h
          exact hagain (calm_enqueueReady s₁ t) h
        | blocked =>
          rw [hstate] at h
          exact hagain (calm_enqueueReady s₁ t) h
        | cleaning =>
          rw [hstate] at h
          exact hagain (calm_enqueueReady s₁ t) h

/-- **What `round_robin` leaves alone**; and a task that it starts was waiting. -/
theorem roundRobin_calm {tick : Nat} {o : Outcome} (h : roundRobin s tick = some (s', o)) :
    Calm s s' ∧ ∀ t, o = .started t → (s.tasks t).state = .created := by
  have hbefore := (calm_wakeSleepers tick s.sleepQueue.size s).trans (calm_preempt _)
  obtain ⟨hpick, hstarted⟩ := pickNext_calm _ h
  exact ⟨hbefore.trans hpick, fun t ht => hbefore.created t (hstarted t ht)⟩

theorem calm_sleepBlock {ms : Nat} (h : sleepBlock s ms = some s') : Calm s s' := by
  obtain ⟨c, -, rfl⟩ := Option.map_eq_some_iff.mp h
  have hwake := CalmTasks.toWake s.tasks c (wrap32 (s.ticks + ticksToSleep ms s.hz))
  have hstate := @CalmTasks.toState (setWakeTick s.tasks c (wrap32 (s.ticks + ticksToSleep ms s.hz)))
    c .sleeping TaskState.noConfusion TaskState.noConfusion
  exact .of_tasks (hwake.trans hstate) rfl

theorem calm_exitMark (h : exitMark s = some s') : Calm s s' := by
  obtain ⟨c, -, rfl⟩ := Option.map_eq_some_iff.mp h
  exact .of_tasks (.toState s.tasks c TaskState.noConfusion TaskState.noConfusion) rfl

/-! ## The invariant -/

/-- What the start of the task that the call creates reads. -/
def StartsFrom (kthreadEntry : Nat) (f : StartFields) : CreateCall → Prop
  | .kthread _ _ _ answers => f = kthreadFields kthreadEntry answers.stack
  | .thread .. => f.ds = 0

theorem StartsFrom.startDoes {f : StartFields} {cpu : TrapCpu} {a : Nat}
    (h : StartsFrom kthreadEntry f c) (hstarting : Starting cpu a f) :
    StartDoes kthreadEntry cpu c := by
  cases c with
  | kthread name entry argc answers =>
    obtain rfl : f = kthreadFields kthreadEntry answers.stack := h
    have hroom : 20 ≤ TaskSystem.stackTop answers.stack := hstarting.room
    have hebp : (kthreadFields kthreadEntry answers.stack).ebp ≠ 0 :=
      fun hzero => absurd (hzero ▸ hroom : 20 ≤ 0) (by decide)
    exact taskStart_kthread hstarting hebp rfl rfl
  | thread name parent entry arg stack stackVariable => exact taskStart_noSegment hstarting h

/-- A slot that is free has no data segment, a task that waits for its start is as its creation left
it, and it is not current. -/
structure WaitsOk (entry : Nat) (x : CreatedTasks) : Prop where
  kthreadEntry : x.sys.kthreadEntry = entry
  free : ∀ j < tasksMax, (x.sys.task j).state = .stopped →
    x.calls j = none ∧ (x.sys.task j).ds = 0
  waiting : ∀ j c, x.calls j = some c → (x.sys.task j).state = .created →
    StartsFrom entry (x.sys.task j).startFields c
  current : ∀ j, x.sys.sched.current = some j → (x.sys.task j).state = .created → x.calls j = none

theorem createsStart {s : TaskSystem} {i : Nat} (hfree : freeTask s.sched.tasks = some i)
    (hserved : c.Served s) (hds : (s.task i).ds = 0) :
    StartsFrom s.kthreadEntry ((s.create c).1.task i).startFields c := by
  cases c with
  | kthread name entry argc answers => exact createKthread_startFields hfree hserved
  | thread name parent entry arg stack stackVariable => exact (createThreadProcess_ds hfree).trans hds

theorem calm_markThreads (tasks : TaskTable) (pid : Nat) :
    CalmTasks tasks (markThreads tasks pid) := by
  refine ⟨fun j => ?_, fun j hj => ?_, fun j hj => ?_⟩
  · rw [markThreads_fields]
    rfl
  · unfold markThreads at hj
    split at hj
    · cases hj
    · exact hj
  · unfold markThreads at hj
    split at hj
    · cases hj
    · exact hj

/-! The entry of kernel threads stays where it is. -/

section KthreadEntry

variable (s : TaskSystem)

theorem heapManagerFree_kthreadEntry (task : Nat) (heap : Option Nat) (address : Nat)
    (recorded : Bool) :
    (s.heapManagerFree task heap address recorded).kthreadEntry = s.kthreadEntry := by
  unfold TaskSystem.heapManagerFree
  split <;> rfl

theorem freeEntries_kthreadEntry (pid n : Nat) :
    (s.freeEntries pid n).kthreadEntry = s.kthreadEntry := by
  induction n with
  | zero => rfl
  | succ n ih =>
    rw [TaskSystem.freeEntries, TaskSystem.freeEntry]
    split
    · exact (heapManagerFree_kthreadEntry ..).trans ih
    · exact ih

theorem freeBlocks_kthreadEntry (pid : Nat) : (s.freeBlocks pid).kthreadEntry = s.kthreadEntry := by
  unfold TaskSystem.freeBlocks
  split
  · unfold TaskSystem.heapManagerFreeAll
    split <;> rfl
  · exact freeEntries_kthreadEntry ..
  · exact freeEntries_kthreadEntry ..

theorem taskCleanup_kthreadEntry (pid : Nat) :
    (s.taskCleanup pid).1.kthreadEntry = s.kthreadEntry := by
  unfold TaskSystem.taskCleanup
  split
  · rfl
  · have hblocks := freeBlocks_kthreadEntry (s.setTasks (markThreads s.sched.tasks pid)) pid
    show (TaskSystem.freeStackptr _ pid).kthreadEntry = s.kthreadEntry
    unfold TaskSystem.freeStackptr
    split
    · exact (heapManagerFree_kthreadEntry ..).trans hblocks
    · exact hblocks

theorem syscallMalloc_kthreadEntry (size : Int) (answer : Nat) :
    (s.syscallMalloc size answer).1.kthreadEntry = s.kthreadEntry := by
  unfold TaskSystem.syscallMalloc
  split
  · rfl
  · split
    · rfl
    · exact (s.heapManagerMalloc_rest ..).2.2.2.2

theorem syscallFree_kthreadEntry (address : Nat) :
    (s.syscallFree address).kthreadEntry = s.kthreadEntry := by
  unfold TaskSystem.syscallFree
  split
  · rfl
  · exact heapManagerFree_kthreadEntry ..

end KthreadEntry

theorem syscallMalloc_current (s : TaskSystem) (size : Int) (answer : Nat) :
    (s.syscallMalloc size answer).1.sched.current = s.sched.current := by
  unfold TaskSystem.syscallMalloc
  split
  · rfl
  · split
    · rfl
    · next t _ =>
      show (s.heapManagerMalloc (s.task t).heapManager answer).sched.current = s.sched.current
      rw [(s.heapManagerMalloc_rest ..).1]

theorem syscallFree_current (s : TaskSystem) (address : Nat) :
    (s.syscallFree address).sched.current = s.sched.current := by
  unfold TaskSystem.syscallFree
  split
  · rfl
  · show (TaskSystem.heapManagerFree ..).sched.current = s.sched.current
    unfold TaskSystem.heapManagerFree
    split <;> rfl

namespace WaitsOk

/-- The scheduler does something. -/
theorem calm (h : WaitsOk kthreadEntry x) (hcalm : Calm x.sys.sched s) :
    WaitsOk kthreadEntry (x.withSched s) where
  kthreadEntry := h.kthreadEntry
  free j hj hstopped := by
    obtain ⟨hnone, hds⟩ := h.free j hj (hcalm.stopped j hstopped)
    exact ⟨hnone, (congrArg StartFields.ds (hcalm.fields j)).trans hds⟩
  waiting j c hc hcreated := by
    show StartsFrom kthreadEntry (s.tasks j).startFields c
    rw [hcalm.fields j]
    exact h.waiting j c hc (hcalm.created j hcreated)
  current j hj hcreated := h.current j (hcalm.current j hj hcreated) (hcalm.created j hcreated)

/-- A system call. -/
theorem syscall {sys : TaskSystem} (h : WaitsOk kthreadEntry x)
    (hentry : sys.kthreadEntry = x.sys.kthreadEntry)
    (htasks : ∀ j, sys.task j =
      { x.sys.task j with threadAllocationTable := (sys.task j).threadAllocationTable })
    (hcurrent : sys.sched.current = x.sys.sched.current) :
    WaitsOk kthreadEntry { x with sys := sys } where
  kthreadEntry := hentry.trans h.kthreadEntry
  free j hj hstopped := by
    replace hstopped : (sys.task j).state = .stopped := hstopped
    show x.calls j = none ∧ (sys.task j).ds = 0
    rw [htasks j] at hstopped ⊢
    exact h.free j hj hstopped
  waiting j c hc hcreated := by
    replace hcreated : (sys.task j).state = .created := hcreated
    show StartsFrom kthreadEntry (sys.task j).startFields c
    rw [htasks j] at hcreated ⊢
    exact h.waiting j c hc hcreated
  current j hj hcreated := by
    replace hcreated : (sys.task j).state = .created := hcreated
    rw [htasks j] at hcreated
    exact h.current j (hcurrent ▸ hj) hcreated

/-- The context of the current task, which does not wait, is saved. -/
theorem saveContext {context : SavedContext} (h : WaitsOk kthreadEntry x)
    (hs : saveContext x.sys.sched context = some s) : WaitsOk kthreadEntry (x.withSched s) := by
  obtain ⟨d, hd, rfl⟩ := Option.map_eq_some_iff.mp hs
  generalize htasks : Function.update x.sys.sched.tasks d _ = tasks
  have hself : (tasks d).state = (x.sys.task d).state ∧ (tasks d).ds = (x.sys.task d).ds := by
    rw [← htasks, Function.update_self]
    exact ⟨rfl, rfl⟩
  have hother : ∀ j, j ≠ d → tasks j = x.sys.task j := by
    intro j hj
    rw [← htasks]
    exact Function.update_of_ne hj ..
  have hsame : ∀ j, (tasks j).state = (x.sys.task j).state ∧ (tasks j).ds = (x.sys.task j).ds := by
    intro j
    by_cases hj : j = d
    · rw [hj]
      exact hself
    · rw [hother j hj]
      exact ⟨rfl, rfl⟩
  refine ⟨h.kthreadEntry, fun j hj hstopped => ?_, fun j c hc hcreated => ?_,
    fun j hj hcreated => h.current j hj ((hsame j).1.symm.trans hcreated)⟩
  · obtain ⟨hnone, hds⟩ := h.free j hj ((hsame j).1.symm.trans hstopped)
    exact ⟨hnone, (hsame j).2.trans hds⟩
  · have hwaits : (x.sys.task j).state = .created := (hsame j).1.symm.trans hcreated
    have hj : j ≠ d := by
      rintro rfl
      cases hc.symm.trans (h.current j hd hwaits)
    have hkept := h.waiting j c hc hwaits
    rw [← hother j hj] at hkept
    exact hkept

theorem ensureCurrent (h : WaitsOk kthreadEntry x) : WaitsOk kthreadEntry x.ensureCurrent := by
  have htasks : CalmTasks x.sys.sched.tasks (Xylophone.ensureCurrent x.sys.sched).tasks := by
    unfold Xylophone.ensureCurrent
    split
    · exact (calm_popReady _).toCalmTasks
    · exact .refl _
  have hcalls : ∀ j c, x.ensureCurrent.calls j = some c → x.calls j = some c := by
    intro j c hc
    replace hc : (if _ then none else x.calls j) = some c := hc
    split at hc
    · cases hc
    · exact hc
  refine ⟨h.kthreadEntry, fun j hj hstopped => ?_, fun j c hc hcreated => ?_,
    fun j hj hcreated => ?_⟩
  · obtain ⟨hnone, hds⟩ := h.free j hj (htasks.stopped j hstopped)
    refine ⟨Option.eq_none_iff_forall_ne_some.mpr fun c hc => ?_,
      (congrArg StartFields.ds (htasks.fields j)).trans hds⟩
    cases (hcalls j c hc).symm.trans hnone
  · have hkept := h.waiting j c (hcalls j c hc) (htasks.created j hcreated)
    rw [← show (x.ensureCurrent.sys.task j).startFields = (x.sys.task j).startFields from
      htasks.fields j] at hkept
    exact hkept
  · refine Option.eq_none_iff_forall_ne_some.mpr fun c hc => ?_
    by_cases hnone : x.sys.sched.current = none
    · -- the first task that is current is forgotten
      have hpopped : (popReady x.sys.sched).2 = some j := by
        rw [CreatedTasks.ensureCurrent, Xylophone.ensureCurrent, if_pos hnone] at hj
        exact hj
      replace hc : (if _ then none else x.calls j) = some c := hc
      rw [if_pos ⟨hnone, hpopped⟩] at hc
      cases hc
    · have hsame : Xylophone.ensureCurrent x.sys.sched = x.sys.sched := if_neg hnone
      rw [CreatedTasks.ensureCurrent, hsame] at hj
      cases (hcalls j c hc).symm.trans (h.current j hj (htasks.created j hcreated))

/-- A free slot is taken. -/
theorem taken {s' : TaskSystem} {i : Nat} {b : Multiset Nat} {calls : Nat → Option CreateCall}
    (h : WaitsOk kthreadEntry x) (htouches : Touches x.sys s' i b)
    (hstate : (s'.task i).state = .created) (hcalls : ∀ j, j ≠ i → calls j = x.calls j)
    (hstarts : ∀ c, calls i = some c → StartsFrom kthreadEntry (s'.task i).startFields c)
    (hcurrent : x.sys.sched.current = some i → calls i = none) :
    WaitsOk kthreadEntry ⟨s', calls⟩ where
  kthreadEntry := htouches.kthreadEntry.trans h.kthreadEntry
  free j hj hstopped := by
    have hji : j ≠ i := by
      rintro rfl
      cases hstate.symm.trans hstopped
    replace hstopped : (s'.task j).state = .stopped := hstopped
    show calls j = none ∧ (s'.task j).ds = 0
    rw [hcalls j hji]
    rw [htouches.others j hji] at hstopped ⊢
    exact h.free j hj hstopped
  waiting j c hc hcreated := by
    replace hc : calls j = some c := hc
    replace hcreated : (s'.task j).state = .created := hcreated
    show StartsFrom kthreadEntry (s'.task j).startFields c
    by_cases hji : j = i
    · rw [hji] at hc ⊢
      exact hstarts c hc
    · rw [hcalls j hji] at hc
      rw [htouches.others j hji] at hcreated ⊢
      exact h.waiting j c hc hcreated
  current j hj hcreated := by
    have hold : x.sys.sched.current = some j := htouches.current ▸ hj
    replace hcreated : (s'.task j).state = .created := hcreated
    show calls j = none
    by_cases hji : j = i
    · rw [hji] at hold ⊢
      exact hcurrent hold
    · rw [hcalls j hji]
      rw [htouches.others j hji] at hcreated
      exact h.current j hold hcreated

/-- **A creation.** -/
theorem create (h : WaitsOk kthreadEntry x) (hcaller : CallerInUse x (.create c)) :
    WaitsOk kthreadEntry (x.create c) := by
  cases create_cases x.sys c with
  | full hfull hresult =>
    have hsame : x.create c = x := by
      unfold CreatedTasks.create
      rw [hresult]
      rfl
    rw [hsame]
    exact h
  | failed i s' hfree hrefused hfailed hresult =>
    obtain ⟨hstopped, hi⟩ := freeTask_some hfree
    obtain ⟨hnone, -⟩ := h.free i hi hstopped
    obtain ⟨b, htouches⟩ := hfailed.touches
    have hsame : x.create c = ⟨s', x.calls⟩ := by
      unfold CreatedTasks.create
      rw [hresult]
      rfl
    rw [hsame]
    exact h.taken htouches hfailed.state (fun _ _ => rfl)
      (fun d hd => by cases hd.symm.trans hnone) fun _ => hnone
  | created i s' hfree hserved hcreated hresult =>
    obtain ⟨hstopped, hi⟩ := freeTask_some hfree
    obtain ⟨-, hds⟩ := h.free i hi hstopped
    have hsame : x.create c = ⟨s', Function.update x.calls i (some c)⟩ := by
      have hne : (i : Int) ≠ -1 := by omega
      unfold CreatedTasks.create
      rw [hresult]
      simp only [if_neg hne, Int.toNat_natCast]
    rw [hsame]
    refine h.taken hcreated.touches hcreated.state (fun j hj => Function.update_of_ne hj ..)
      (fun d hd => ?_) fun hcurrent => ?_
    · rw [Function.update_self] at hd
      obtain rfl := Option.some.inj hd
      have hstart := createsStart hfree hserved hds
      rw [hresult, h.kthreadEntry] at hstart
      exact hstart
    · -- the caller is in use, and the slot is not
      rw [CallerInUse, hcurrent, Option.all_some, decide_eq_true_eq] at hcaller
      exact absurd hstopped hcaller

/-- **A cleanup.** -/
theorem cleanup (h : WaitsOk kthreadEntry x) (pid : Nat) :
    WaitsOk kthreadEntry ⟨(x.sys.taskCleanup pid).1, Function.update x.calls pid none⟩ := by
  have hcalls : ∀ j c, Function.update x.calls pid none j = some c → j ≠ pid ∧ x.calls j = some c := by
    intro j c hc
    by_cases hj : j = pid
    · rw [hj, Function.update_self] at hc
      cases hc
    · rw [Function.update_of_ne hj] at hc
      exact ⟨hj, hc⟩
  have hnone : ∀ j, x.calls j = none → Function.update x.calls pid none j = none := by
    intro j hj
    by_cases hjp : j = pid
    · rw [hjp, Function.update_self]
    · rw [Function.update_of_ne hjp, hj]
  have hentry := (taskCleanup_kthreadEntry x.sys pid).trans h.kthreadEntry
  by_cases hlt : pid < tasksMax
  · have hclean := taskCleanup_spec x.sys hlt
    generalize (x.sys.taskCleanup pid).1 = s' at hclean hentry
    -- a thread of the task becomes a zombie
    have hothers : ∀ j, j ≠ pid → CalmTasks x.sys.sched.tasks (markThreads x.sys.sched.tasks pid) ∧
        s'.task j = markThreads x.sys.sched.tasks pid j :=
      fun j hj => ⟨calm_markThreads .., hclean.task_of_ne hj⟩
    refine ⟨hentry, fun j hj hstate => ?_, fun j c hc hstate => ?_, fun j hj hstate => ?_⟩
    · by_cases hjp : j = pid
      · rw [hjp]
        exact ⟨Function.update_self .., congrArg Task.ds hclean.task_self⟩
      · obtain ⟨hcalm, hsame⟩ := hothers j hjp
        replace hstate : (s'.task j).state = .stopped := hstate
        rw [hsame] at hstate
        obtain ⟨hfree, hds⟩ := h.free j hj (hcalm.stopped j hstate)
        refine ⟨hnone j hfree, ?_⟩
        show (s'.task j).ds = 0
        rw [hsame]
        exact (congrArg StartFields.ds (hcalm.fields j)).trans hds
    · obtain ⟨hjp, hc⟩ := hcalls j c hc
      obtain ⟨hcalm, hsame⟩ := hothers j hjp
      replace hstate : (s'.task j).state = .created := hstate
      show StartsFrom kthreadEntry (s'.task j).startFields c
      rw [hsame] at hstate ⊢
      rw [hcalm.fields j]
      exact h.waiting j c hc (hcalm.created j hstate)
    · by_cases hjp : j = pid
      · rw [hjp]
        exact Function.update_self ..
      · obtain ⟨hcalm, hsame⟩ := hothers j hjp
        replace hstate : (s'.task j).state = .created := hstate
        rw [hsame] at hstate
        have hcurrent : x.sys.sched.current = some j := by
          rw [← hj]
          show x.sys.sched.current = s'.sched.current
          rw [hclean.sched]
        exact hnone j (h.current j hcurrent (hcalm.created j hstate))
  · have hsame : (x.sys.taskCleanup pid).1 = x.sys := by
      unfold TaskSystem.taskCleanup
      rw [if_pos (Or.inr (Nat.le_of_not_lt hlt))]
    rw [hsame]
    refine ⟨h.kthreadEntry, fun j hj hstate => ?_, fun j c hc => h.waiting j c (hcalls j c hc).2,
      fun j hj hstate => hnone j (h.current j hj hstate)⟩
    obtain ⟨hfree, hds⟩ := h.free j hj hstate
    exact ⟨hnone j hfree, hds⟩

/-- A switch; and a task that it starts waited. -/
theorem switch {tick : Nat} {context : SavedContext} {o : Outcome} (h : WaitsOk kthreadEntry x)
    (hs : x.switch tick context = some (x', o)) :
    WaitsOk kthreadEntry x' ∧ ∀ t c, o = .started t → x'.calls t = some c →
      StartsFrom kthreadEntry (x'.sys.task t).startFields c := by
  obtain ⟨s, hsave, hs⟩ := Option.bind_eq_some_iff.mp hs
  obtain ⟨⟨s', o'⟩, hround, heq⟩ := Option.map_eq_some_iff.mp hs
  obtain ⟨rfl, rfl⟩ := Prod.mk.inj heq
  have hsaved := h.saveContext hsave
  obtain ⟨hcalm, hstarted⟩ := roundRobin_calm hround
  refine ⟨hsaved.calm hcalm, fun t c ho hc => ?_⟩
  have hwaits := hsaved.waiting t c hc (hstarted t ho)
  rw [← show ((x.withSched s').sys.task t).startFields = ((x.withSched s).sys.task t).startFields from
    hcalm.fields t] at hwaits
  exact hwaits

/-- **Every event**; and a task that is started waited. -/
theorem next {o : Outcome} (h : WaitsOk kthreadEntry x) (hs : x.next e = some (x', o)) :
    (CallerInUse x e → WaitsOk kthreadEntry x') ∧ ∀ t c, o = .started t → x'.calls t = some c →
      StartsFrom kthreadEntry (x'.sys.task t).startFields c := by
  -- only a switch starts a task
  have hquiet : ∀ {y}, some (y, Outcome.returned) = some (x', o) → (CallerInUse x e →
      WaitsOk kthreadEntry y) → (CallerInUse x e → WaitsOk kthreadEntry x') ∧
        ∀ t c, o = .started t → x'.calls t = some c →
          StartsFrom kthreadEntry (x'.sys.task t).startFields c := by
    intro y heq hy
    obtain ⟨rfl, rfl⟩ := Prod.mk.inj (Option.some.inj heq)
    exact ⟨hy, fun t c ho => by cases ho⟩
  cases e with
  | create c => exact hquiet hs h.create
  | cleanup pid => exact hquiet hs fun _ => h.cleanup pid
  | schedule tick context =>
    obtain ⟨hok, hstarts⟩ := h.ensureCurrent.switch hs
    exact ⟨fun _ => hok, hstarts⟩
  | timer context =>
    have hticks : Calm x.sys.sched
        { x.sys.sched with ticks := wrap32 (x.sys.sched.ticks + 1) } := .of_tasks (.refl _) rfl
    obtain ⟨hok, hstarts⟩ := (h.calm hticks).ensureCurrent.switch hs
    exact ⟨fun _ => hok, hstarts⟩
  | sleep ms =>
    obtain ⟨s', hs', heq⟩ := Option.map_eq_some_iff.mp hs
    exact hquiet (congrArg some heq) fun _ => h.calm (calm_sleepBlock hs')
  | exitMark =>
    obtain ⟨s', hs', heq⟩ := Option.map_eq_some_iff.mp hs
    exact hquiet (congrArg some heq) fun _ => h.calm (calm_exitMark hs')
  | exit context =>
    obtain ⟨hok, hstarts⟩ := h.switch hs
    exact ⟨fun _ => hok, hstarts⟩
  | takeZombie => exact hquiet hs fun _ => h.calm (.of_tasks (.pop ..) rfl)
  | malloc size answer =>
    refine hquiet hs fun _ => h.syscall ?_ (fun j => x.sys.syscallMalloc_task size answer j) ?_
    · exact syscallMalloc_kthreadEntry ..
    · exact syscallMalloc_current ..
  | free address =>
    refine hquiet hs fun _ => h.syscall ?_ (fun j => x.sys.syscallFree_task address j) ?_
    · exact syscallFree_kthreadEntry ..
    · exact syscallFree_current ..

end WaitsOk

theorem bootSystem_waitsOk (heaps : Nat → Multiset Nat) (data : Nat → Nat)
    (hz kernelCr3 kthreadEntry : Nat) :
    WaitsOk kthreadEntry ⟨bootSystem heaps data hz kernelCr3 kthreadEntry, fun _ => none⟩ where
  kthreadEntry := rfl
  free _ _ _ := ⟨rfl, rfl⟩
  waiting _ _ hc := by cases hc
  current _ hj := by cases hj

/-- **The start of every task.** In every run from `task_init` on, whenever the scheduler starts a
task, a kernel thread starts in `kthread_entry`, in kernel mode, with interrupts enabled and on its
own stack; but the number of arguments that it finds is always 0x10, and its vector the word above
the stack, whatever was asked for. The threads of processes do not start. -/
theorem created_starts {heaps : Nat → Multiset Nat} {data : Nat → Nat} {hz kernelCr3 : Nat}
    (hrun : Run TaskEventStep CallerInUse
      ⟨bootSystem heaps data hz kernelCr3 kthreadEntry, fun _ => none⟩ x)
    (hstarted : x.next e = some (x', .started t)) (hcall : x'.calls t = some c) {cpu : TrapCpu}
    {a : Nat} (hstarting : Starting cpu a (x'.sys.task t).startFields) :
    StartDoes kthreadEntry cpu c := by
  have hok : WaitsOk kthreadEntry x := hrun.invariant (I := WaitsOk kthreadEntry)
    (fun _ _ _ h hcaller hstep => by
      obtain ⟨o, hnext⟩ := hstep
      exact (h.next hnext).1 hcaller) (bootSystem_waitsOk ..)
  exact ((hok.next hstarted).2 t c rfl hcall).startDoes hstarting

/-- A processor in front of the start of the task at 0xC0200000, which is a kernel thread. -/
def startCpu : TrapCpu where
  regs := ⟨0, 0, 0, 0, 0, 0, 0, 0x10⟩
  esp := 0xC0300000
  mem := (((((((Memory.write32 (fun _ => 0) 0xC0300004 0xC0200000).write32 0xC0200010
    0xC0489000).write32 0xC0200014 0xC0489000).write32 0xC0200020 0xC0100000).write32 0xC020009C
    0x10).write32 0xC02000A0 0x8).write32 0xC02000A4 0xC0489000)
  es := 0x10
  fs := 0x10
  gs := 0x10
  cs := 0x08
  ss := 0x10
  eip := 0xC0108000
  eflags := 0x2

theorem startCpu_starting :
    Starting startCpu 0xC0200000 (kthreadFields 0xC0100000 0xC0481000) where
  argument := by decide +kernel
  esp := by decide +kernel
  ebp := by decide +kernel
  eip := by decide +kernel
  ds := by decide +kernel
  cs := by decide +kernel
  kesp := by decide +kernel
  fits := by decide
  room := by decide
  kesp_lt := by decide
  apart := by decide

/-- A kernel thread with three arguments. -/
def threeArguments : CreateCall :=
  .kthread .empty 0xC0108000 3 ⟨0xC0481000, 0xC0490000, fun k => 0xC0491000 + 100 * k⟩

/-- The state after `task_init`, with `kthread_entry` at 0xC0100000. -/
def linkedTasks : CreatedTasks := ⟨bootSystem (fun _ => 0) (fun _ => 0) 500 0 0xC0100000, fun _ => none⟩

/-- Four tasks are created. The first tick makes the first of them current and starts the second,
which allocates memory. -/
def startEvents : List TaskEvent :=
  [.create (plainKthread 0xC0401000), .create (plainKthread 0xC0411000), .create threeArguments,
    .create (.thread .empty 1 0x01000000 0 0xC0421000 0xC0400000), .timer ⟨0xC0300000, 0xC0300010⟩,
    .malloc 64 0xC0430000]

/-- The next tick, at which the third task is started, and what is seen of it. -/
def nextStart (x : CreatedTasks) : Option (Outcome × Option (TaskMode × Nat) × StartFields) :=
  (x.next (.timer ⟨0xC0418F00, 0xC0418F10⟩)).map fun r =>
    (r.2, (r.1.calls 2).map fun c => (c.mode, c.stack), (r.1.sys.task 2).startFields)

theorem created_starts_thirdTask : ∃ x x' c,
    Run TaskEventStep CallerInUse linkedTasks x ∧
      x.next (.timer ⟨0xC0418F00, 0xC0418F10⟩) = some (x', .started 2) ∧ x'.calls 2 = some c ∧
      c.mode = .kthread ∧ c.stack = 0xC0481000 ∧ StartDoes 0xC0100000 startCpu c := by
  have hevents : (runList (fun x e => (x.next e).map Prod.fst) CallerInUse linkedTasks
      startEvents).bind nextStart =
      some (.started 2, some (.kthread, 0xC0481000), kthreadFields 0xC0100000 0xC0481000) := by
    decide +kernel
  obtain ⟨x, hx, hnext⟩ := Option.bind_eq_some_iff.mp hevents
  obtain ⟨⟨x', o⟩, htimer, hseen⟩ := Option.map_eq_some_iff.mp hnext
  obtain ⟨rfl, hseen⟩ := Prod.mk.inj hseen
  obtain ⟨hcall, hfields⟩ := Prod.mk.inj hseen
  obtain ⟨c, hc, hcall⟩ := Option.map_eq_some_iff.mp hcall
  obtain ⟨hmode, hstack⟩ := Prod.mk.inj hcall
  have hrun : Run TaskEventStep CallerInUse linkedTasks x := Run.of_runList (fun hf => by
    obtain ⟨⟨y, o⟩, hy, rfl⟩ := Option.map_eq_some_iff.mp hf
    exact ⟨o, hy⟩) hx
  have hstarting : Starting startCpu 0xC0200000 (x'.sys.task 2).startFields := by
    rw [hfields]
    exact startCpu_starting
  exact ⟨x, x', c, hrun, htimer, hc, hmode, hstack, created_starts hrun htimer hc hstarting⟩

end Xylophone
