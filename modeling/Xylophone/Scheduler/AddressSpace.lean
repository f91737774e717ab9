import Xylophone.Scheduler.Idle

/-!
# Address spaces and kernel stacks

Besides the context of a task, a switch loads its page directory into `cr3` and the top of its
kernel stack into the task state segment. It leaves out what it takes to be there already: the stack
where the task never leaves the kernel, the page directory where it is that of the task that was
current, and all of it where the task was current itself.

* `roundRobinLoads_eq` — loading changes nothing about the choice of the next task
* `Loaded.roundRobin` — what is loaded behind `round_robin`
* `address_space_follows` — every task runs in its address space, and on its kernel stack
-/

namespace Xylophone

open Infra

/-! ## The source -/

/-- `cr3`, and `esp0` of the task state segment. -/
structure SpaceRegisters where
  cr3 : Nat
  esp0 : Nat
deriving DecidableEq, Repr

/-- `kernel_task_state_segment_set_stack` and `paging_manager_set_cr3` in front of
`set_current_task(next)`. -/
def loadTask (s : Scheduler) (next : Nat) (hw : SpaceRegisters) : SpaceRegisters where
  esp0 := if (s.tasks next).mode ≠ .kthread then (s.tasks next).kebp else hw.esp0
  cr3 :=
    if s.current.all fun c => (s.tasks c).physicalCr3 ≠ (s.tasks next).physicalCr3 then
      (s.tasks next).physicalCr3
    else hw.cr3

/-- `pickNext`, with what is loaded. -/
def pickNextLoads : (fuel : Nat) → Scheduler → SpaceRegisters →
    Option ((Scheduler × Outcome) × SpaceRegisters)
  | 0, _, _ => none
  | fuel + 1, s, hw =>
    match popReady s with
    | (s, none) => some ((s, .panic), hw)
    | (s, some t) =>
      match (s.tasks t).state with
      | .created => some ((startTask s t, .started t), loadTask s t hw)
      | .running =>
        some (({ s with current := some t }, .switched t),
          if s.current ≠ some t then loadTask s t hw else hw)
      | .zombie => pickNextLoads fuel (enqueueZombie s t) hw
      | .sleeping => pickNextLoads fuel (enqueueSleeper s t) hw
      | .stopped | .blocked | .cleaning => pickNextLoads fuel (enqueueReady s t) hw

/-- `round_robin`, with what is loaded. -/
def roundRobinLoads (s : Scheduler) (tick : Nat) (hw : SpaceRegisters) :
    Option ((Scheduler × Outcome) × SpaceRegisters) :=
  let s := preempt (wakeSleepers tick s.sleepQueue.size s)
  pickNextLoads (2 * s.readyQueue.size + 1) s hw

/-- The registers behind a step of the machine. -/
def Machine.loads (m : Machine) (op : SchedulerOp) (hw : SpaceRegisters) : SpaceRegisters :=
  match m.entry op with
  | none => hw
  | some (s, tick) => ((roundRobinLoads s tick hw).map Prod.snd).getD hw

/-- A step of the machine and of the registers. -/
def SpaceStep (x : Machine × SpaceRegisters) (op : SchedulerOp) (x' : Machine × SpaceRegisters) :
    Prop :=
  MachineStep x.1 op x'.1 ∧ x'.2 = x.1.loads op x.2

variable {s s' : Scheduler} {m m' : Machine} {op : SchedulerOp} {hw : SpaceRegisters}
  {l : List Nat} {t c tick : Nat}

/-! ## Choosing and loading -/

theorem pickNextLoads_eq (fuel : Nat) (s : Scheduler) (hw : SpaceRegisters) :
    (pickNextLoads fuel s hw).map Prod.fst = pickNext fuel s := by
  induction fuel generalizing s with
  | zero => rfl
  | succ fuel ih =>
    unfold pickNextLoads pickNext
    cases hpop : popReady s with
    | mk s o =>
      cases o with
      | none => rfl
      | some t =>
        dsimp only
        cases (s.tasks t).state with
        | created => rfl
        | running => rfl
        | zombie => exact ih _
        | sleeping => exact ih _
        | stopped => exact ih _
        | blocked => exact ih _
        | cleaning => exact ih _

/-- **What is loaded is no matter for the choice of the next task.** -/
theorem roundRobinLoads_eq (s : Scheduler) (tick : Nat) (hw : SpaceRegisters) :
    (roundRobinLoads s tick hw).map Prod.fst = roundRobin s tick := pickNextLoads_eq ..

/-! ## What belongs to a task -/

/-- What a switch loads for the task. -/
def space (tasks : TaskTable) (t : Nat) : Nat × TaskMode × Nat :=
  ((tasks t).physicalCr3, (tasks t).mode, (tasks t).kebp)

theorem space_update (tasks : TaskTable) (task : Task) {i t : Nat} (h : t ≠ i) :
    space (Function.update tasks i task) t = space tasks t := by
  unfold space
  rw [Function.update_of_ne h]

theorem space_setState (tasks : TaskTable) (t : Nat) (state : TaskState) :
    space (setState tasks t state) = space tasks := by
  funext u
  unfold space setState
  by_cases h : u = t
  · rw [h, Function.update_self]
  · rw [Function.update_of_ne h]

theorem space_setNext (tasks : TaskTable) (t : Nat) (next : Option Nat) :
    space (setNext tasks t next) = space tasks := by
  funext u
  unfold space setNext
  by_cases h : u = t
  · rw [h, Function.update_self]
  · rw [Function.update_of_ne h]

theorem space_setWakeTick (tasks : TaskTable) (t tick : Nat) :
    space (setWakeTick tasks t tick) = space tasks := by
  funext u
  unfold space setWakeTick
  by_cases h : u = t
  · rw [h, Function.update_self]
  · rw [Function.update_of_ne h]

theorem space_push (tasks : TaskTable) (queue : TaskQueue) (t : Nat) :
    space (taskQueuePush tasks queue t).1 = space tasks := by
  unfold taskQueuePush
  split
  · exact (space_setNext ..).trans (space_setNext ..)
  · exact space_setNext ..

/-- The tasks keep what belongs to them, and the same task is current. -/
structure KeepsSpace (s s' : Scheduler) : Prop where
  space : space s'.tasks = space s.tasks
  current : s'.current = s.current

theorem KeepsSpace.refl (s : Scheduler) : KeepsSpace s s := ⟨rfl, rfl⟩

theorem KeepsSpace.trans {s'' : Scheduler} (h : KeepsSpace s s') (h' : KeepsSpace s' s'') :
    KeepsSpace s s'' := ⟨h'.space.trans h.space, h'.current.trans h.current⟩

theorem keepsSpace_enqueueReady (s : Scheduler) (t : Nat) : KeepsSpace s (enqueueReady s t) := by
  refine ⟨?_, rfl⟩
  unfold enqueueReady
  rw [space_push]
  split
  · exact space_setState ..
  · rfl

theorem keepsSpace_enqueueZombie (s : Scheduler) (t : Nat) : KeepsSpace s (enqueueZombie s t) :=
  ⟨(space_push ..).trans (space_setState ..), rfl⟩

theorem keepsSpace_enqueueSleeper (s : Scheduler) (t : Nat) : KeepsSpace s (enqueueSleeper s t) :=
  ⟨space_setState .., rfl⟩

theorem keepsSpace_popReady (s : Scheduler) : KeepsSpace s (popReady s).1 := by
  refine ⟨?_, rfl⟩
  unfold popReady taskQueuePop
  split
  · rfl
  · exact space_setNext ..

theorem keepsSpace_wakeSleepers (tick fuel : Nat) (s : Scheduler) :
    KeepsSpace s (wakeSleepers tick fuel s) := by
  induction fuel generalizing s with
  | zero => exact .refl s
  | succ fuel ih =>
    unfold wakeSleepers
    split
    · exact .refl s
    · split
      · exact .refl s
      · have hpop : KeepsSpace s (popSleeper s) := ⟨rfl, rfl⟩
        exact hpop.trans ((keepsSpace_enqueueReady (popSleeper s) _).trans (ih _))

/-! ## What is loaded -/

/-- The registers are those of the current task. -/
def Loaded (s : Scheduler) (hw : SpaceRegisters) : Prop :=
  ∀ c, s.current = some c → hw.cr3 = (s.tasks c).physicalCr3 ∧
    ((s.tasks c).mode ≠ .kthread → hw.esp0 = (s.tasks c).kebp)

theorem Loaded.of_eq (h : Loaded s hw) (hcurrent : s'.current = s.current)
    (hspace : ∀ c, s.current = some c → space s'.tasks c = space s.tasks c) : Loaded s' hw := by
  intro c hc
  rw [hcurrent] at hc
  have hspace := hspace c hc
  simp only [space, Prod.mk.injEq] at hspace
  rw [hspace.1, hspace.2.1, hspace.2.2]
  exact h c hc

theorem Loaded.congr (h : Loaded s hw) (hkeeps : KeepsSpace s s') : Loaded s' hw :=
  h.of_eq hkeeps.current fun c _ => congrFun hkeeps.space c

/-- **Loading a task.** -/
theorem Loaded.loadTask (h : Loaded s hw) (t : Nat) :
    Loaded { s with current := some t } (loadTask s t hw) := by
  rintro c hc
  obtain rfl := Option.some.inj hc
  refine ⟨?_, fun hmode => if_pos hmode⟩
  unfold Xylophone.loadTask
  dsimp only
  split
  · rfl
  · next hsame =>
    -- the page directory of the task that was current
    cases hcurrent : s.current with
    | none => exact absurd (by rw [hcurrent]; rfl) hsame
    | some d =>
      rw [hcurrent, Option.all_some, decide_eq_true_eq, not_not] at hsame
      exact (h d hcurrent).1.trans hsame

theorem Loaded.pickNext {r : (Scheduler × Outcome) × SpaceRegisters} {fuel : Nat}
    (h : Loaded s hw) (hr : pickNextLoads fuel s hw = some r) (hpanic : r.1.2 ≠ .panic) :
    Loaded r.1.1 r.2 ∧ space r.1.1.tasks = space s.tasks := by
  induction fuel generalizing s with
  | zero => cases hr
  | succ fuel ih =>
    unfold pickNextLoads at hr
    have hpop := keepsSpace_popReady s
    cases hpopped : popReady s with
    | mk s₁ o =>
      rw [hpopped] at hpop hr
      have h₁ := h.congr hpop
      cases o with
      | none =>
        obtain rfl := Option.some.inj hr
        exact absurd rfl hpanic
      | some t =>
        -- a task that is put back
        have hagain : ∀ {s₂}, KeepsSpace s₁ s₂ → pickNextLoads fuel s₂ hw = some r →
            Loaded r.1.1 r.2 ∧ space r.1.1.tasks = space s.tasks := fun hkeeps hr₂ => by
          obtain ⟨hloaded, hspace⟩ := ih (h₁.congr hkeeps) hr₂
          exact ⟨hloaded, hspace.trans (hkeeps.space.trans hpop.space)⟩
        dsimp only at hr
        cases hstate : (s₁.tasks t).state with
        | created =>
          rw [hstate] at hr
          obtain rfl := Option.some.inj hr
          refine ⟨(h₁.loadTask t).congr ⟨space_setState .., rfl⟩, ?_⟩
          exact (space_setState ..).trans hpop.space
        | running =>
          rw [hstate] at hr
          obtain rfl := Option.some.inj hr
          refine ⟨?_, hpop.space⟩
          dsimp only
          split
          · exact h₁.loadTask t
          · next hcurrent =>
            intro c hc
            exact h₁ c ((not_not.mp hcurrent).trans hc)
        | zombie =>
          rw [hstate] at hr
          exact hagain (keepsSpace_enqueueZombie s₁ t) hr
        | sleeping =>
          rw [hstate] at hr
          exact hagain (keepsSpace_enqueueSleeper s₁ t) hr
        | stopped =>
          rw [hstate] at hr
          exact hagain (keepsSpace_enqueueReady s₁ t) hr
        | blocked =>
          rw [hstate] at hr
          exact hagain (keepsSpace_enqueueReady s₁ t) hr
        | cleaning =>
          rw [hstate] at hr
          exact hagain (keepsSpace_enqueueReady s₁ t) hr

/-- **What is loaded behind `round_robin`** is what belongs to the current task. -/
theorem Loaded.roundRobin {r : (Scheduler × Outcome) × SpaceRegisters} (h : Loaded s hw)
    (hr : roundRobinLoads s tick hw = some r) (hpanic : r.1.2 ≠ .panic) :
    Loaded r.1.1 r.2 ∧ space r.1.1.tasks = space s.tasks := by
  have hwake := keepsSpace_wakeSleepers tick s.sleepQueue.size s
  have hwoken := h.congr hwake
  have hpreempt : Loaded (preempt (wakeSleepers tick s.sleepQueue.size s)) hw ∧
      space (preempt (wakeSleepers tick s.sleepQueue.size s)).tasks = space s.tasks := by
    unfold preempt
    split
    · exact ⟨hwoken, hwake.space⟩
    · next c hc =>
      split
      · have hput := keepsSpace_enqueueReady (wakeSleepers tick s.sleepQueue.size s) c
        exact ⟨fun d hd => (by cases hd), hput.space.trans hwake.space⟩
      · exact ⟨hwoken, hwake.space⟩
  obtain ⟨hloaded, hspace⟩ := hpreempt.1.pickNext hr hpanic
  exact ⟨hloaded, hspace.trans hpreempt.2⟩

/-! ## Steps -/

/-- The idle thread is there, the registers are those of the current task, and before the first
switch those of the task that will be the first to be current. -/
structure SpaceOk (m : Machine) (hw : SpaceRegisters) (l : List Nat) : Prop where
  there : IdleThere 1 m l
  loaded : Loaded m.sched hw
  first : m.sched.current = none → ∀ t, l.head? = some t →
    hw.cr3 = (m.sched.tasks t).physicalCr3 ∧ (m.sched.tasks t).mode = .kthread

/-- What the tasks keep when `round_robin` is entered. -/
theorem Machine.entry_space (he : m.entry op = some (s, tick)) :
    space s.tasks = space m.sched.tasks := by
  cases op with
  | tick =>
    obtain ⟨rfl, rfl⟩ := Prod.mk.inj (Option.some.inj he)
    unfold ensureCurrent
    split
    · exact (keepsSpace_popReady _).space
    · rfl
  | resume =>
    obtain ⟨c, -, he⟩ := Option.bind_eq_some_iff.mp he
    obtain ⟨p, -, he⟩ := Option.map_eq_some_iff.mp he
    obtain ⟨rfl, rfl⟩ := Prod.mk.inj he
    rfl
  | create _ => cases he
  | yield => cases he
  | sleep _ => cases he
  | exit => cases he
  | clean => cases he

/-- The registers when `round_robin` is entered. -/
theorem SpaceOk.entered (h : SpaceOk m hw l) {l₀ : List Nat} (hs : Entered m s l l₀)
    (hspace : space s.tasks = space m.sched.tasks) : Loaded s hw := by
  rcases hs.current with ⟨-, hcurrent, -⟩ | ⟨hnone, hcurrent, -⟩
  · exact h.loaded.congr ⟨hspace, hcurrent⟩
  · intro c hc
    obtain ⟨hcr3, hmode⟩ := h.first hnone c (hcurrent ▸ hc)
    have hsame := congrFun hspace c
    simp only [space, Prod.mk.injEq] at hsame
    rw [hsame.1, hsame.2.1]
    exact ⟨hcr3, fun hne => absurd hmode hne⟩

/-- A step without a switch keeps what belongs to the tasks, but for a slot that is filled. -/
theorem MachineOk.space_quiet {o : Outcome} (h : MachineOk m l) (he : m.entry op = none)
    (hstep : m.apply op = some (m', o)) :
    m'.sched.current = m.sched.current ∧
      ∀ t, freeTask m.sched.tasks ≠ some t →
        space m'.sched.tasks t = space m.sched.tasks t := by
  cases op with
  | tick => cases he
  | resume =>
    obtain ⟨c, hc, hstep⟩ := Option.bind_eq_some_iff.mp hstep
    obtain ⟨p, hp, -⟩ := Option.bind_eq_some_iff.mp hstep
    simp only [Machine.entry, hc, hp, Option.bind_some, Option.map_some, reduceCtorEq] at he
  | yield =>
    obtain ⟨c, -, heq⟩ := Option.map_eq_some_iff.mp hstep
    obtain ⟨rfl, -⟩ := Prod.mk.inj heq
    exact ⟨rfl, fun _ _ => rfl⟩
  | clean =>
    obtain ⟨c, -, heq⟩ := Option.map_eq_some_iff.mp hstep
    obtain ⟨rfl, -⟩ := Prod.mk.inj heq
    have hclean : cleanZombie m.sched = m.sched := h.queues.clean
    rw [hclean]
    exact ⟨rfl, fun _ _ => rfl⟩
  | create task =>
    rw [Machine.apply] at hstep
    split at hstep
    case isFalse => cases hstep
    obtain ⟨rfl, -⟩ := Prod.mk.inj (Option.some.inj hstep)
    refine ⟨createTask_current .., fun t ht => ?_⟩
    cases hfree : freeTask m.sched.tasks with
    | none => rw [createTask_none hfree]
    | some i =>
      have hne : t ≠ i := fun he => ht (hfree.trans (congrArg some he.symm))
      rw [createTask_some hfree, congrFun (keepsSpace_enqueueReady _ i).space t]
      exact space_update _ _ hne
  | sleep ms =>
    obtain ⟨c, -, hstep⟩ := Option.bind_eq_some_iff.mp hstep
    obtain ⟨s', hs', heq⟩ := Option.map_eq_some_iff.mp hstep
    obtain ⟨rfl, -⟩ := Prod.mk.inj heq
    obtain ⟨d, -, rfl⟩ := Option.map_eq_some_iff.mp hs'
    refine ⟨rfl, fun t _ => congrFun ?_ t⟩
    exact (keepsSpace_enqueueSleeper _ d).space.trans (space_setWakeTick ..)
  | exit =>
    obtain ⟨c, -, hstep⟩ := Option.bind_eq_some_iff.mp hstep
    obtain ⟨s', hs', heq⟩ := Option.map_eq_some_iff.mp hstep
    obtain ⟨rfl, -⟩ := Prod.mk.inj heq
    obtain ⟨d, -, rfl⟩ := Option.map_eq_some_iff.mp hs'
    exact ⟨rfl, fun t _ => congrFun (space_setState ..) t⟩

/-- **Every step.** -/
theorem SpaceOk.step (h : SpaceOk m hw l) (hloops : IdleLoops 1 m op)
    (hstep : MachineStep m op m') : ∃ l', SpaceOk m' (m.loads op hw) l' := by
  obtain ⟨l', h', hevolved⟩ := h.there.step hloops hstep
  obtain ⟨o, happly, hpanic⟩ := hstep
  cases he : m.entry op with
  | some r =>
    obtain ⟨s, tick⟩ := r
    cases hevolved with
    | same he' _ _ =>
      rw [he] at he'
      cases he'
    | created _ _ _ _ _ _ => cases he
    | slept _ _ _ _ _ _ _ => cases he
    | marked _ _ _ _ _ => cases he
    | switched s' tick' l₀ ws a rest he' hs =>
      obtain ⟨rfl, rfl⟩ := Prod.mk.inj (Option.some.inj (he.symm.trans he'))
      obtain ⟨pending, hrun⟩ := Machine.apply_entry he
      rw [happly] at hrun
      obtain ⟨⟨s₁, o₁⟩, hround, heq⟩ := Option.map_eq_some_iff.mp hrun.symm
      obtain ⟨rfl, rfl⟩ := Prod.mk.inj heq
      rw [← roundRobinLoads_eq s tick hw] at hround
      obtain ⟨r, hr, hfst⟩ := Option.map_eq_some_iff.mp hround
      have hspace := Machine.entry_space he
      have hloads : m.loads op hw = r.2 := by
        unfold Machine.loads
        simp only [he, hr, Option.map_some, Option.getD_some]
      obtain ⟨hloaded, -⟩ :=
        (h.entered hs.entered hspace).roundRobin hr (by rw [hfst]; exact hpanic)
      rw [hfst] at hloaded
      rw [hloads]
      refine ⟨l', h', hloaded, fun hnone => ?_⟩
      rw [hs.switched.current] at hnone
      cases hnone
  | none =>
    have hloads : m.loads op hw = hw := by
      unfold Machine.loads
      rw [he]
    rw [hloads]
    obtain ⟨hcurrent, hspace⟩ := h.there.ok.space_quiet he happly
    refine ⟨l', h', h.loaded.of_eq hcurrent fun c hc => hspace c fun hfree => ?_,
      fun hnone t ht => ?_⟩
    · rcases h.there.ok.currentState c hc with hstate | hstate | hstate <;>
        rw [(freeTask_some hfree).1] at hstate <;> cases hstate
    · -- the first task of the queue is still the same
      rw [hcurrent] at hnone
      obtain ⟨-, -, -, cleaner, rest, rfl⟩ := h.there.there.resolve_right fun hc => hc.1 hnone
      have hhead : t = cleaner := by
        cases hevolved with
        | same _ _ _ => exact (Option.some.inj ht).symm
        | created _ _ _ _ _ _ => exact (Option.some.inj ht).symm
        | slept _ _ _ _ _ _ _ => exact (Option.some.inj ht).symm
        | marked _ _ _ _ _ => exact (Option.some.inj ht).symm
        | switched s tick l₀ ws a rest he' hs =>
          rw [he] at he'
          cases he'
      subst hhead
      obtain ⟨hcr3, hmode⟩ := h.first hnone t rfl
      have hsame := hspace t fun hfree =>
        (h.there.ok.queues.free_notMem hfree).1 List.mem_cons_self
      simp only [space, Prod.mk.injEq] at hsame
      rw [hsame.1, hsame.2.1]
      exact ⟨hcr3, hmode⟩

/-! ## Runs -/

/-- **Every task runs in its own address space**, and where it enters the kernel from another mode,
on its own kernel stack: after boot, where the processor uses the page directory of the kernel
threads, `cr3` is that of the current task and `esp0` the top of its kernel stack, whatever the tasks
and the timer do. -/
theorem address_space_follows {tasks : TaskTable} {data : Nat → Nat} {hz : Nat}
    {cleaner idle : Task} {x : Machine × SpaceRegisters} (hcr3 : hw.cr3 = cleaner.physicalCr3)
    (hmode : cleaner.mode = .kthread)
    (hrun : Run SpaceStep (fun x op => IdleLoops 1 x.1 op)
      (bootMachine tasks data hz cleaner idle, hw) x) (hc : x.1.sched.current = some c) :
    x.2.cr3 = (x.1.sched.tasks c).physicalCr3 ∧
      ((x.1.sched.tasks c).mode ≠ .kthread → x.2.esp0 = (x.1.sched.tasks c).kebp) := by
  have hboot : SpaceOk (bootMachine tasks data hz cleaner idle) hw [0, 1] := by
    refine ⟨(bootMachine_booted tasks data hz cleaner idle).idleThere, fun c hc => ?_,
      fun _ t ht => ?_⟩
    · have hnone : (bootMachine tasks data hz cleaner idle).sched.current = none := rfl
      rw [hnone] at hc
      cases hc
    · obtain rfl := Option.some.inj ht
      exact ⟨hcr3, hmode⟩
  obtain ⟨l, h⟩ := hrun.invariant (I := fun x => ∃ l, SpaceOk x.1 x.2 l)
    (fun x op x' h hloops hstep => by
      obtain ⟨l, h⟩ := h
      obtain ⟨hmachine, hloads⟩ := hstep
      rw [hloads]
      exact h.step hloops hmachine) ⟨_, hboot⟩
  exact h.loaded c hc

/-- A process with a page directory and a kernel stack of its own. -/
def processTask : Task :=
  { clearedTask with mode := .process, physicalCr3 := 0x5000, kebp := 0xC0400000 }

/-- The machine after its first tick and the creation of the process. -/
def processMachine : Machine :=
  ((tickedMachine.apply (.create processTask)).getD (tickedMachine, .panic)).1

theorem tickedMachine_createProcess :
    MachineStep tickedMachine (.create processTask) processMachine :=
  ⟨.returned, rfl, Outcome.noConfusion⟩

/-- The next tick after that. -/
def processRuns : Machine := ((processMachine.apply .tick).getD (processMachine, .panic)).1

theorem processMachine_tick : MachineStep processMachine .tick processRuns :=
  ⟨.started 2, rfl, Outcome.noConfusion⟩

/-- The registers before the first tick, and behind the other steps. -/
def processLoads : SpaceRegisters :=
  processMachine.loads .tick (tickedMachine.loads (.create processTask)
    (freshMachine.loads .tick ⟨0, 0⟩))

theorem address_space_follows_process : processRuns.sched.current = some 2 ∧
    processLoads.cr3 = 0x5000 ∧ processLoads.esp0 = 0xC0400000 := by
  have hloops : ∀ m op, op = .tick ∨ op = .create processTask → IdleLoops 1 m op := by
    rintro m op (rfl | rfl) (h | ⟨ms, h⟩) <;> cases h
  have hstep : ∀ {m m' op hw x}, op = .tick ∨ op = .create processTask → MachineStep m op m' →
      Run SpaceStep (fun x op => IdleLoops 1 x.1 op) x (m, hw) →
      Run SpaceStep (fun x op => IdleLoops 1 x.1 op) x (m', m.loads op hw) :=
    fun hop h hrun => hrun.tail (hloops _ _ hop) ⟨h, rfl⟩
  have hrun : Run SpaceStep (fun x op => IdleLoops 1 x.1 op) (freshMachine, ⟨0, 0⟩)
      (processRuns, processLoads) :=
    hstep (Or.inl rfl) processMachine_tick <| hstep (Or.inr rfl) tickedMachine_createProcess <|
      hstep (Or.inl rfl) freshMachine_tick (Run.refl _)
  have hcurrent : processRuns.sched.current = some 2 := rfl
  obtain ⟨hcr3, hesp0⟩ := address_space_follows rfl rfl hrun hcurrent
  exact ⟨hcurrent, hcr3, hesp0 (by decide)⟩

end Xylophone
