import Xylophone.Scheduler.Lost

/-!
# What becomes of a zombie

A task is marked as a zombie by `scheduler_exit`, or by `task_cleanup` of its parent, whichever
queue it is in. A zombie in the ready queue is moved to the queue of zombies; but the loop that
wakes sleepers does not look at the state before it sets it, nor does `scheduler_sleep`, and
without a current task the first task of the ready queue becomes the current one whatever its
state.

The machine is the one of the other runs, with the parts of `task_cleanup` as steps that may come
at any time. No order of the queues is assumed, and the loops run for as long as they need.

* `ZombieKept.pickNext`, `ZombieKept.wakeSleepers` — the loops of `round_robin`
* `zombie_stays` — runs that keep a zombie
* `exists_woken_zombie` — a thread that is marked while it sleeps
-/

namespace Xylophone

open Infra

variable {s s' s'' : Scheduler} {m m' : Machine} {z t tick : Nat}

/-! ## Runs with `task_cleanup` -/

/-- The steps of the machine, with the parts of a turn of the cleaner. -/
inductive CleanupOp where
  | call (op : SchedulerOp)
  /-- `task_queue_pop(&zombie_queue)`. -/
  | popZombie
  /-- The first block of `task_cleanup`. -/
  | mark (pid : Nat)
  /-- Its last block. -/
  | reset (pid : Nat)

/-- `round_robin`, whose loop makes at most `fuel` turns. -/
def roundRobinWith (fuel : Nat) (s : Scheduler) (tick : Nat) : Option (Scheduler × Outcome) :=
  pickNext fuel (preempt (wakeSleepers tick s.sleepQueue.size s))

/-- The calls that are to be completed after a step that ends in `round_robin`. -/
def Machine.pendingAfter (m : Machine) : SchedulerOp → Nat → Option Pending
  | .resume =>
    match m.sched.current with
    | some c => Function.update m.pending c none
    | none => m.pending
  | _ => m.pending

/-- `task_queue_pop(&zombie_queue)`. -/
def popZombie (s : Scheduler) : Scheduler :=
  let r := taskQueuePop s.tasks s.zombieQueue
  { s with tasks := r.1, zombieQueue := r.2.1 }

/-- The steps. -/
inductive CleanupStep (m : Machine) : CleanupOp → Machine → Prop where
  | switch (op : SchedulerOp) (fuel : Nat) {s s' : Scheduler} {tick : Nat} {o : Outcome}
    (entry : m.entry op = some (s, tick)) (run : roundRobinWith fuel s tick = some (s', o)) :
    CleanupStep m (.call op) ⟨s', m.pendingAfter op⟩
  | quiet (op : SchedulerOp) {m' : Machine} (entry : m.entry op = none) (turn : op ≠ .clean)
    (step : MachineStep m op m') : CleanupStep m (.call op) m'
  | popZombie : CleanupStep m .popZombie { m with sched := popZombie m.sched }
  | mark (pid : Nat) (valid : pid < tasksMax) : CleanupStep m (.mark pid)
    { m with sched := { m.sched with tasks := markThreads m.sched.tasks pid } }
  | reset (pid : Nat) (valid : pid < tasksMax) : CleanupStep m (.reset pid)
    { m with sched := { m.sched with tasks := resetSlot m.sched.tasks pid } }

/-! ## Keeping a zombie -/

/-- A zombie stays a zombie, and does not become the current task. -/
structure ZombieKept (z : Nat) (s s' : Scheduler) : Prop where
  state : (s'.tasks z).state = .zombie
  current : s'.current = some z → s.current = some z

theorem ZombieKept.refl (hz : (s.tasks z).state = .zombie) : ZombieKept z s s := ⟨hz, id⟩

theorem ZombieKept.trans (h : ZombieKept z s s') (h' : ZombieKept z s' s'') : ZombieKept z s s'' :=
  ⟨h'.state, fun hc => h.current (h'.current hc)⟩

theorem enqueueReady_zombie (hz : (s.tasks z).state = .zombie) (ht : (s.tasks t).state ≠ .zombie) :
    ZombieKept z s (enqueueReady s t) := by
  have hne : z ≠ t := by
    rintro rfl
    exact ht hz
  exact ⟨(enqueueReady_of_ne s t z hne).trans hz, id⟩

theorem enqueueZombie_zombie (hz : (s.tasks z).state = .zombie) :
    ZombieKept z s (enqueueZombie s t) := by
  refine ⟨?_, id⟩
  unfold enqueueZombie
  simp only [push_state]
  by_cases hzt : z = t
  · rw [hzt, setState_self]
  · rw [setState_of_ne _ _ hzt, hz]

theorem enqueueSleeper_zombie (hz : (s.tasks z).state = .zombie) (ht : z ≠ t) :
    ZombieKept z s (enqueueSleeper s t) := by
  refine ⟨?_, id⟩
  show (setState s.tasks t .sleeping z).state = .zombie
  rw [setState_of_ne _ _ ht, hz]

theorem popReady_zombie (hz : (s.tasks z).state = .zombie) : ZombieKept z s (popReady s).1 :=
  ⟨(popReady_fields s z).1.trans hz, id⟩

/-- **The loop that wakes sleepers** keeps a zombie that is not to be woken. -/
theorem ZombieKept.wakeSleepers : ∀ (fuel : Nat) {s : Scheduler},
    (s.tasks z).state = .zombie →
    (z ∈ s.sleepQueue.tasks → tick < (s.tasks z).wakeTick) →
    ZombieKept z s (wakeSleepers tick fuel s)
  | 0, _, hz, _ => .refl hz
  | fuel + 1, s, hz, hlater => by
    rw [Xylophone.wakeSleepers]
    unfold sleepQueuePeek
    by_cases hsize : s.sleepQueue.size = 0
    · rw [if_pos hsize]
      exact .refl hz
    · rw [if_neg hsize]
      simp only []
      split
      · exact .refl hz
      · next hdue =>
        obtain ⟨-, htasks, -⟩ := sleepQueuePop_spec s.tasks hsize
        generalize s.sleepQueue.data 0 = r at *
        -- the root is to be woken, so it is another task
        have hne : z ≠ r := by
          rintro rfl
          refine hdue (hlater ?_)
          rw [htasks]
          exact Multiset.mem_cons_self z _
        have hkept : ZombieKept z s (enqueueReady (popSleeper s) r) :=
          ⟨(enqueueReady_of_ne _ r z hne).trans hz, id⟩
        refine hkept.trans (ZombieKept.wakeSleepers fuel hkept.state fun hmem => ?_)
        rw [enqueueReady_wakeTick]
        refine hlater ?_
        rw [htasks]
        exact Multiset.mem_cons_of_mem hmem

/-- A running task is put back. -/
theorem ZombieKept.preempt (hz : (s.tasks z).state = .zombie) : ZombieKept z s (preempt s) := by
  unfold Xylophone.preempt
  cases hc : s.current with
  | none => exact .refl hz
  | some c =>
    simp only []
    split
    · next hrun =>
      have hkept := enqueueReady_zombie (t := c) hz (by rw [hrun]; decide)
      exact ⟨hkept.state, fun hcur => by cases hcur⟩
    · exact .refl hz

/-- **The loop that picks the next task** does not pick a zombie. -/
theorem ZombieKept.pickNext {r : Scheduler × Outcome} : ∀ (fuel : Nat) {s : Scheduler},
    (s.tasks z).state = .zombie → pickNext fuel s = some r → ZombieKept z s r.1
  | 0, _, _, h => by cases h
  | fuel + 1, s, hz, h => by
    rw [Xylophone.pickNext] at h
    have hpop := popReady_zombie hz
    generalize popReady s = p at *
    obtain ⟨s₁, first⟩ := p
    cases first with
    | none =>
      obtain rfl := Option.some.inj h
      exact hpop
    | some t =>
      have hother : ∀ {state : TaskState}, (s₁.tasks t).state = state → state ≠ .zombie → z ≠ t := by
        rintro state hstate hne rfl
        exact hne (hstate.symm.trans hpop.state)
      simp only [] at h
      cases hstate : (s₁.tasks t).state <;> rw [hstate] at h <;> simp only [] at h
      case created =>
        obtain rfl := Option.some.inj h
        have hne := hother hstate (by decide)
        refine ⟨?_, fun hc => absurd (Option.some.inj hc).symm hne⟩
        show (setState s₁.tasks t .running z).state = .zombie
        rw [setState_of_ne _ _ hne]
        exact hpop.state
      case running =>
        obtain rfl := Option.some.inj h
        have hne := hother hstate (by decide)
        exact ⟨hpop.state, fun hc => absurd (Option.some.inj hc).symm hne⟩
      case zombie =>
        have hkept := hpop.trans (enqueueZombie_zombie (t := t) hpop.state)
        exact hkept.trans (ZombieKept.pickNext fuel hkept.state h)
      case sleeping =>
        have hkept := hpop.trans (enqueueSleeper_zombie hpop.state (hother hstate (by decide)))
        exact hkept.trans (ZombieKept.pickNext fuel hkept.state h)
      case stopped | blocked | cleaning =>
        have hkept := hpop.trans (enqueueReady_zombie (t := t) hpop.state (by rw [hstate]; decide))
        exact hkept.trans (ZombieKept.pickNext fuel hkept.state h)

/-! ## Runs that keep a zombie -/

/-- The step keeps the zombie `z`. -/
structure ZombieOk (z : Nat) (m : Machine) (op : CleanupOp) : Prop where
  /-- It is not woken. -/
  asleep : ∀ op' s tick, op = .call op' → m.entry op' = some (s, tick) →
    z ∈ s.sleepQueue.tasks → tick < (s.tasks z).wakeTick
  /-- It does not go to sleep. -/
  sleeps : ∀ ms, op = .call (.sleep ms) → m.caller ≠ some z
  /-- Without a current task it is not the first of the ready queue. -/
  first : op = .call .tick → m.sched.current = none → m.sched.readyQueue.head ≠ some z
  /-- Its slot is not reset. -/
  slot : op ≠ .reset z

theorem ensureCurrent_zombie (hz : (s.tasks z).state = .zombie)
    (hfirst : s.current = none → s.readyQueue.head ≠ some z) : ZombieKept z s (ensureCurrent s) := by
  unfold ensureCurrent
  split
  · next hnone =>
    refine ⟨(popReady_fields s z).1.trans hz, fun hc => ?_⟩
    have hpop : (popReady s).2 = s.readyQueue.head := by
      unfold popReady taskQueuePop
      cases s.readyQueue.head with
      | none => rfl
      | some a => rfl
    exact absurd (hpop.symm.trans hc) (hfirst hnone)
  · exact .refl hz

/-- Entering `round_robin`. -/
theorem ZombieOk.entered {op : SchedulerOp} (hok : ZombieOk z m (.call op))
    (hz : (m.sched.tasks z).state = .zombie) (he : m.entry op = some (s, tick)) :
    ZombieKept z m.sched s := by
  cases op with
  | tick =>
    obtain ⟨rfl, -⟩ := Prod.mk.inj (Option.some.inj he)
    have hkept := ensureCurrent_zombie (s := { m.sched with ticks := wrap32 (m.sched.ticks + 1) })
      hz (hok.first rfl)
    exact ⟨hkept.state, hkept.current⟩
  | resume =>
    obtain ⟨c, -, he⟩ := Option.bind_eq_some_iff.mp he
    obtain ⟨p, -, he⟩ := Option.map_eq_some_iff.mp he
    obtain ⟨rfl, -⟩ := Prod.mk.inj he
    exact .refl hz
  | create _ => cases he
  | yield => cases he
  | sleep _ => cases he
  | exit => cases he
  | clean => cases he

/-- The steps that do not end in `round_robin`. -/
theorem ZombieOk.quiet {op : SchedulerOp} (hok : ZombieOk z m (.call op))
    (hz : (m.sched.tasks z).state = .zombie) (he : m.entry op = none) (hclean : op ≠ .clean)
    (hstep : MachineStep m op m') : ZombieKept z m.sched m'.sched := by
  obtain ⟨o, happly, -⟩ := hstep
  cases op with
  | tick => cases he
  | clean => exact absurd rfl hclean
  | resume =>
    obtain ⟨c, hc, hrest⟩ := Option.bind_eq_some_iff.mp happly
    obtain ⟨p, hp, -⟩ := Option.bind_eq_some_iff.mp hrest
    unfold Machine.entry at he
    simp only [hc, hp, Option.bind_some, Option.map_some, reduceCtorEq] at he
  | yield =>
    obtain ⟨c, -, heq⟩ := Option.map_eq_some_iff.mp happly
    obtain ⟨rfl, -⟩ := Prod.mk.inj heq
    exact .refl hz
  | create task =>
    rw [Machine.apply] at happly
    split at happly
    case isFalse => cases happly
    obtain ⟨rfl, -⟩ := Prod.mk.inj (Option.some.inj happly)
    show ZombieKept z m.sched (createTask m.sched task)
    cases hfree : freeTask m.sched.tasks with
    | none =>
      rw [createTask_none hfree]
      exact .refl hz
    | some i =>
      have hne : z ≠ i := by
        rintro rfl
        rw [(freeTask_some hfree).1] at hz
        cases hz
      rw [createTask_some hfree]
      refine ⟨(enqueueReady_of_ne _ i z hne).trans ?_, id⟩
      show (Function.update m.sched.tasks i _ z).state = .zombie
      rw [Function.update_of_ne hne, hz]
  | sleep ms =>
    obtain ⟨c, hc, hrest⟩ := Option.bind_eq_some_iff.mp happly
    obtain ⟨s', hs', heq⟩ := Option.map_eq_some_iff.mp hrest
    obtain ⟨d, hd, rfl⟩ := Option.map_eq_some_iff.mp hs'
    obtain ⟨rfl, -⟩ := Prod.mk.inj heq
    obtain rfl : c = d := Option.some.inj ((Machine.caller_eq hc).1.symm.trans hd)
    have hne : z ≠ c := by
      rintro rfl
      exact hok.sleeps ms rfl hc
    have hz' : (setWakeTick m.sched.tasks c
        (wrap32 (m.sched.ticks + ticksToSleep ms m.sched.hz)) z).state = .zombie := by
      rw [setWakeTick, Function.update_of_ne hne, hz]
    have hkept := enqueueSleeper_zombie (t := c) (s := { m.sched with
      tasks := setWakeTick m.sched.tasks c (wrap32 (m.sched.ticks + ticksToSleep ms m.sched.hz)) })
      hz' hne
    exact ⟨hkept.state, hkept.current⟩
  | exit =>
    obtain ⟨c, -, hrest⟩ := Option.bind_eq_some_iff.mp happly
    obtain ⟨s', hs', heq⟩ := Option.map_eq_some_iff.mp hrest
    obtain ⟨d, -, rfl⟩ := Option.map_eq_some_iff.mp hs'
    obtain ⟨rfl, -⟩ := Prod.mk.inj heq
    refine ⟨?_, id⟩
    show (setState m.sched.tasks d .zombie z).state = .zombie
    by_cases hzd : z = d
    · rw [hzd, setState_self]
    · rw [setState_of_ne _ _ hzd, hz]

/-- **A step keeps the zombie.** -/
theorem CleanupStep.zombieKept {op : CleanupOp} (hstep : CleanupStep m op m')
    (hok : ZombieOk z m op)
    (hz : (m.sched.tasks z).state = .zombie) : ZombieKept z m.sched m'.sched := by
  cases hstep with
  | @switch op fuel s s' tick o he hrun =>
    have hentered := hok.entered hz he
    have hwoken := ZombieKept.wakeSleepers s.sleepQueue.size hentered.state
      (hok.asleep op s tick rfl he)
    have hback := ZombieKept.preempt hwoken.state
    exact hentered.trans (hwoken.trans (hback.trans (ZombieKept.pickNext fuel hback.state hrun)))
  | quiet op he hclean hstep => exact hok.quiet hz he hclean hstep
  | popZombie =>
    refine ⟨?_, id⟩
    show ((taskQueuePop m.sched.tasks m.sched.zombieQueue).1 z).state = .zombie
    unfold taskQueuePop
    cases m.sched.zombieQueue.head with
    | none => exact hz
    | some a => exact (setNext_state ..).trans hz
  | mark pid _ =>
    refine ⟨?_, id⟩
    show (markThreads m.sched.tasks pid z).state = .zombie
    unfold markThreads
    split
    · rfl
    · exact hz
  | reset pid _ =>
    have hne : z ≠ pid := by
      rintro rfl
      exact hok.slot rfl
    refine ⟨?_, id⟩
    show (resetSlot m.sched.tasks pid z).state = .zombie
    rw [resetSlot, Function.update_of_ne hne, hz]

/-- **A zombie stays a zombie** in a run whose steps keep it, from whatever state the run starts;
and if it is not the current task then, it does not become the current task. -/
theorem zombie_stays (hrun : Run CleanupStep (ZombieOk z) m m')
    (hz : (m.sched.tasks z).state = .zombie) :
    (m'.sched.tasks z).state = .zombie ∧ (m'.sched.current = some z → m.sched.current = some z) := by
  have hkept : ZombieKept z m.sched m'.sched :=
    hrun.invariant (I := fun m' => ZombieKept z m.sched m'.sched)
      (fun _ _ _ h hok hstep => h.trans (hstep.zombieKept hok h.state)) (.refl hz)
  exact ⟨hkept.state, hkept.current⟩

/-! ## A run that does not -/

/-- A step of the machine is one of these runs, too. -/
theorem CleanupStep.of_next {op : SchedulerOp} (h : m.next op = some m') (hclean : op ≠ .clean) :
    CleanupStep m (.call op) m' := by
  have hstep := Machine.step_of_next h
  cases he : m.entry op with
  | none => exact .quiet op he hclean hstep
  | some r =>
    obtain ⟨s, tick⟩ := r
    obtain ⟨o, happly, -⟩ := hstep
    have hround : m.apply op =
        (roundRobin s tick).map fun r => (⟨r.1, m.pendingAfter op⟩, r.2) := by
      cases op with
      | tick =>
        obtain ⟨rfl, rfl⟩ := Prod.mk.inj (Option.some.inj he)
        rfl
      | resume =>
        obtain ⟨c, hc, he⟩ := Option.bind_eq_some_iff.mp he
        obtain ⟨p, hp, he⟩ := Option.map_eq_some_iff.mp he
        obtain ⟨rfl, rfl⟩ := Prod.mk.inj he
        have hrun : p.run m.sched = roundRobin m.sched (p.tick m.sched) := by
          cases p with
          | schedule tick => exact schedule_eq hc tick
          | exit => rfl
        unfold Machine.apply Machine.pendingAfter
        simp only [hc, hp, Option.bind_some, hrun]
      | create _ => cases he
      | yield => cases he
      | sleep _ => cases he
      | exit => cases he
      | clean => cases he
    rw [hround] at happly
    obtain ⟨r, hr, heq⟩ := Option.map_eq_some_iff.mp happly
    obtain ⟨rfl, -⟩ := Prod.mk.inj heq
    exact .switch op _ he hr

/-- The steps, as far as the fuel of `roundRobin` goes. -/
def Machine.cleanupNext (m : Machine) : CleanupOp → Option Machine
  | .call .clean => none
  | .call op => m.next op
  | .popZombie => some { m with sched := Xylophone.popZombie m.sched }
  | .mark pid =>
    if pid < tasksMax then
      some { m with sched := { m.sched with tasks := markThreads m.sched.tasks pid } }
    else none
  | .reset pid =>
    if pid < tasksMax then
      some { m with sched := { m.sched with tasks := resetSlot m.sched.tasks pid } }
    else none

theorem CleanupStep.of_cleanupNext {op : CleanupOp} (h : m.cleanupNext op = some m') :
    CleanupStep m op m' := by
  cases op with
  | call op =>
    cases op with
    | clean => cases h
    | _ => exact CleanupStep.of_next h SchedulerOp.noConfusion
  | popZombie =>
    obtain rfl := Option.some.inj h
    exact .popZombie
  | mark pid =>
    rw [Machine.cleanupNext] at h
    split at h
    · next hvalid =>
      obtain rfl := Option.some.inj h
      exact .mark pid hvalid
    · cases h
  | reset pid =>
    rw [Machine.cleanupNext] at h
    split at h
    · next hvalid =>
      obtain rfl := Option.some.inj h
      exact .reset pid hvalid
    · cases h

/-- A process and a thread of it were created, and the first tick started the idle thread. -/
def threadOps : List CleanupOp :=
  [.call (.create { clearedTask with mode := .process }),
    .call (.create { clearedTask with mode := .thread, parent := some 2 }), .call .tick]

/-- The process is cleaned up while its thread is in the ready queue. -/
def readyZombie : Machine :=
  (runList Machine.cleanupNext (fun _ _ => True) freshMachine (threadOps ++ [.mark 2])).getD freshMachine

/-- Two ticks later the thread is in the queue of zombies. -/
theorem zombie_stays_readyZombie : ∃ m', Run CleanupStep (ZombieOk 3) readyZombie m' ∧
    m'.sched.zombieQueue.head = some 3 ∧
    (m'.sched.tasks 3).state = .zombie ∧
      (m'.sched.current = some 3 → readyZombie.sched.current = some 3) := by
  obtain ⟨m₁, h₁⟩ : ∃ m₁, readyZombie.cleanupNext (.call .tick) = some m₁ := ⟨_, rfl⟩
  obtain ⟨m₂, h₂⟩ : ∃ m₂, m₁.cleanupNext (.call .tick) = some m₂ := by
    obtain rfl := Option.some.inj h₁
    exact ⟨_, rfl⟩
  have hrun : Run CleanupStep (ZombieOk 3) readyZombie m₂ := by
    refine Run.tail (Run.single ⟨?_, ?_, ?_, ?_⟩ (.of_cleanupNext h₁)) ⟨?_, ?_, ?_, ?_⟩
      (.of_cleanupNext h₂)
    · intro op s tick hop he hmem
      cases hop
      obtain ⟨rfl, -⟩ := Prod.mk.inj (Option.some.inj he)
      exact absurd hmem (Multiset.notMem_zero 3)
    · intro ms hop
      cases hop
    · exact fun _ => by decide
    · exact CleanupOp.noConfusion
    · intro op s tick hop he hmem
      cases hop
      obtain rfl := Option.some.inj h₁
      obtain ⟨rfl, -⟩ := Prod.mk.inj (Option.some.inj he)
      exact absurd hmem (Multiset.notMem_zero 3)
    · intro ms hop
      cases hop
    · intro _ hnone
      obtain rfl := Option.some.inj h₁
      exact absurd hnone (by decide)
    · exact CleanupOp.noConfusion
  refine ⟨m₂, hrun, ?_, zombie_stays hrun rfl⟩
  obtain rfl := Option.some.inj h₁
  obtain rfl := Option.some.inj h₂
  rfl

/-- The process is cleaned up while its thread sleeps for a tick. -/
def sleepingZombie : Machine :=
  (runList Machine.cleanupNext (fun _ _ => True) freshMachine
    (threadOps ++ [.call .tick, .call .tick, .call (.sleep 1), .call .resume, .mark 2])).getD freshMachine

/-- **A thread that is marked while it sleeps** is woken, and runs again. -/
theorem exists_woken_zombie : ¬ ∀ (m m' : Machine) (z : Nat),
    Run CleanupStep (fun _ _ => True) freshMachine m →
    (m.sched.tasks z).state = .zombie →
    Run CleanupStep (fun _ op => op ≠ .reset z) m m' →
    (m'.sched.tasks z).state = .zombie ∧ (m'.sched.current = some z → m.sched.current = some z) := by
  intro h
  have hlist : runList Machine.cleanupNext (fun _ _ => True) freshMachine
      (threadOps ++ [.call .tick, .call .tick, .call (.sleep 1), .call .resume, .mark 2]) =
      some sleepingZombie := rfl
  have hreach : Run CleanupStep (fun _ _ => True) freshMachine sleepingZombie :=
    Run.of_runList CleanupStep.of_cleanupNext hlist
  obtain ⟨m', hm'⟩ : ∃ m', sleepingZombie.cleanupNext (.call .tick) = some m' := ⟨_, rfl⟩
  obtain ⟨hstate, -⟩ := h sleepingZombie m' 3 hreach rfl
    (Run.single CleanupOp.noConfusion (.of_cleanupNext hm'))
  obtain rfl := Option.some.inj hm'
  exact absurd hstate (by decide)

end Xylophone
