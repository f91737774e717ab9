import Xylophone.Scheduler.Steps

/-!
# No task is lost

A task that was added and not cleaned up is current or in one of the queues. The scheduler loses
tasks in four ways: the first switch takes a task out of the ready queue without starting it, a
task that exits is put into no queue, the sleep queue refuses a sleeper when it is full, and a task
that is pushed a second time cuts off those behind it. A task to which none of this happens is
kept.

* `task_kept` — a run whose steps do not lose the task keeps it
* `exists_lost_task` — the first tick after boot loses the cleaner
-/

namespace Xylophone

open Infra

variable {m m' : Machine} {op : SchedulerOp} {l : List Nat} {t : Nat}

/-! ## The machine after boot -/

/-- The scheduler after `scheduler_init`, and nobody in the middle of a call. -/
def bootMachine (tasks : TaskTable) (data : Nat → Nat) (hz : Nat) (cleaner idle : Task) : Machine :=
  ⟨schedulerInit tasks data hz cleaner idle, fun _ => none⟩

theorem createTask_current (s : Scheduler) (task : Task) :
    (createTask s task).current = s.current := by
  unfold createTask
  cases freeTask s.tasks with
  | none => rfl
  | some i => rfl

/-- Creating a task keeps queues that nothing was pushed on twice. -/
theorem QueuesOk.createTask {s : Scheduler} (h : QueuesOk s l) (hclosed : Closed (links s.tasks) l)
    (task : Task) : ∃ l', QueuesOk (createTask s task) l' ∧
      Closed (links (Xylophone.createTask s task).tasks) l' ∧
      ∀ t, ((Xylophone.createTask s task).tasks t).state ≠ .stopped →
        ((s.tasks t).state ≠ .stopped → t ∈ l) → t ∈ l' := by
  cases hfree : freeTask s.tasks with
  | none =>
    rw [createTask_none hfree]
    exact ⟨l, h, hclosed, fun t hstate hin => hin hstate⟩
  | some i =>
    obtain ⟨hq, hclosed', hothers, -, -⟩ := h.create task hfree
    refine ⟨l ++ [i], hq, hclosed', fun t hstate hin => ?_⟩
    by_cases hti : t = i
    · rw [hti]
      exact List.mem_append_right _ (List.mem_singleton_self i)
    · rw [hothers.states t hti] at hstate
      exact List.mem_append_left _ (hin hstate)

/-- **After boot the machine is in order**, and every task is in the ready queue. -/
theorem bootMachine_ok (tasks : TaskTable) (data : Nat → Nat) (hz : Nat) (cleaner idle : Task) :
    ∃ l, MachineOk (bootMachine tasks data hz cleaner idle) l ∧
      Closed (links (bootMachine tasks data hz cleaner idle).sched.tasks) l ∧
      ∀ t, ((bootMachine tasks data hz cleaner idle).sched.tasks t).state ≠ .stopped → t ∈ l := by
  obtain ⟨s₀, hs₀⟩ : ∃ s₀ : Scheduler, s₀ =
      { tasks := taskInit tasks, readyQueue := taskQueueInit, zombieQueue := taskQueueInit
        sleepQueue := sleepQueueInit data maxSleepTasks, current := none, ticks := 0, hz := hz } :=
    ⟨_, rfl⟩
  have hempty : s₀.sleepQueue.tasks = 0 := by
    rw [hs₀]
    exact contents_zero
  have hq₀ : QueuesOk s₀ [] := by
    refine ⟨?_, ?_, ?_, fun t ht => absurd ht List.not_mem_nil,
      fun t ht => absurd ht List.not_mem_nil, fun t ht => ?_, ?_, ?_⟩
    · rw [hs₀]
      exact holds_nil
    · rw [hs₀]
    · rw [hempty]
      exact Multiset.nodup_zero
    · rw [hempty] at ht
      exact absurd ht (Multiset.notMem_zero t)
    · rw [hs₀]
      exact Nat.zero_le _
    · rw [hs₀]
      intro j _ hj
      exact absurd hj (Nat.not_lt_zero j)
  have hstopped : ∀ t, (s₀.tasks t).state = .stopped := by
    intro t
    rw [hs₀]
    rfl
  obtain ⟨l₁, hq₁, hc₁, hin₁⟩ := hq₀.createTask (fun t ht => by cases ht) cleaner
  obtain ⟨l₂, hq₂, hc₂, hin₂⟩ := hq₁.createTask hc₁ idle
  have hboot : bootMachine tasks data hz cleaner idle =
      ⟨createTask (createTask s₀ cleaner) idle, fun _ => none⟩ := by
    rw [hs₀]
    rfl
  have hnone : (createTask (createTask s₀ cleaner) idle).current = none := by
    rw [createTask_current, createTask_current, hs₀]
  rw [hboot]
  refine ⟨l₂, ⟨hq₂, ?_, ?_, ?_, fun _ => hc₂⟩, hc₂, fun t ht => ?_⟩
  · intro c hc
    rw [hnone] at hc
    cases hc
  · intro c hc
    rw [hnone] at hc
    cases hc
  · intro c hc
    have hcur := (Machine.caller_eq hc).1
    rw [hnone] at hcur
    cases hcur
  · exact hin₂ t ht fun ht₁ => hin₁ t ht₁ fun ht₀ => absurd (hstopped t) ht₀

/-! ## Runs that keep a task -/

/-- The step does not lose the task `t`. -/
structure Kept (t : Nat) (m : Machine) (op : SchedulerOp) : Prop where
  /-- No task is pushed a second time. -/
  switch : SwitchOk m op
  /-- Without a current task, the first task of the ready queue becomes the current one, is not
  running, and so is not put back. -/
  first : m.sched.current = none → op = .tick → m.sched.readyQueue.head ≠ some t
  /-- A full sleep queue takes no task. -/
  room : ∀ ms, op = .sleep ms → m.caller = some t →
    m.sched.sleepQueue.size ≠ m.sched.sleepQueue.capacity
  /-- A task that exits is put into no queue. -/
  exit : op = .exit → m.caller ≠ some t

/-- The task is where the scheduler can find it. -/
structure TaskThere (t : Nat) (m : Machine) (l : List Nat) : Prop where
  ok : MachineOk m l
  closed : Closed (links m.sched.tasks) l
  there : (m.sched.tasks t).state ≠ .stopped →
    m.sched.current = some t ∨ t ∈ l ∨ t ∈ m.sched.sleepQueue.tasks
  current : m.sched.current = some t →
    (m.sched.tasks t).state = .running ∨ t ∈ m.sched.sleepQueue.tasks

/-- A step that leaves the task alone. -/
theorem TaskThere.others {l' : List Nat} {c : Nat} (h : TaskThere t m l) (htc : t ≠ c)
    (ho : SameOthers m.sched m'.sched c) (hl : t ∈ l → t ∈ l')
    (hsleep : t ∈ m.sched.sleepQueue.tasks → t ∈ m'.sched.sleepQueue.tasks) :
    ((m'.sched.tasks t).state ≠ .stopped →
        m'.sched.current = some t ∨ t ∈ l' ∨ t ∈ m'.sched.sleepQueue.tasks) ∧
      (m'.sched.current = some t →
        (m'.sched.tasks t).state = .running ∨ t ∈ m'.sched.sleepQueue.tasks) := by
  rw [ho.states t htc, ho.current]
  refine ⟨fun hstate => ?_, fun hcur => ?_⟩
  · rcases h.there hstate with hc | hin | hs
    · exact Or.inl hc
    · exact Or.inr (Or.inl (hl hin))
    · exact Or.inr (Or.inr (hsleep hs))
  · rcases h.current hcur with hr | hs
    · exact Or.inl hr
    · exact Or.inr (hsleep hs)

/-- Without a current task only a tick enters `round_robin`. -/
theorem Machine.entry_tick {r : Scheduler × Nat} (he : m.entry op = some r)
    (hc : m.sched.current = none) : op = .tick := by
  cases op with
  | tick => rfl
  | resume =>
    unfold Machine.entry at he
    simp only [hc, Option.bind_none, reduceCtorEq] at he
  | create _ => cases he
  | yield => cases he
  | sleep _ => cases he
  | exit => cases he
  | clean => cases he

/-- A switch keeps the task. -/
theorem TaskThere.switched {s : Scheduler} {tick a : Nat} {l₀ ws rest : List Nat}
    (h : TaskThere t m l) (hk : Kept t m op) (he : m.entry op = some (s, tick))
    (hs : Switches m m' s tick l l₀ ws a rest) (hstate : (m'.sched.tasks t).state ≠ .stopped) :
    m'.sched.current = some t ∨ t ∈ rest ∨ t ∈ m'.sched.sleepQueue.tasks := by
  have hin : t ∈ a :: rest → m'.sched.current = some t ∨ t ∈ rest ∨ t ∈ m'.sched.sleepQueue.tasks := by
    intro hmem
    rcases List.mem_cons.mp hmem with rfl | hrest
    · exact Or.inl hs.switched.current
    · exact Or.inr (Or.inl hrest)
  have hasleep : t ∈ m.sched.sleepQueue.tasks → t ∉ ws → t ∈ m'.sched.sleepQueue.tasks := by
    intro hmem hws
    rw [← hs.entered.sleepQueue, hs.switched.sleepers, Multiset.mem_add, Multiset.mem_coe] at hmem
    exact hmem.resolve_left hws
  by_cases hws : t ∈ ws
  · -- it is woken, and the current task is not pushed twice
    refine hin (hs.putBack.mem_of_woken hws fun c hc hcws => ?_)
    exact absurd (hs.switched.due c hcws)
      (Nat.not_le.mpr (hk.switch s tick he c hc (hs.sleeping c hcws)))
  · by_cases hta : t = a
    · rw [hta]
      exact Or.inl hs.switched.current
    · rw [hs.switched.others t hws hta, hs.entered.states] at hstate
      rcases h.there hstate with hc | hl | hsleep
      · rcases h.current hc with hrun | hsleep
        · have hcur : s.current = some t := by
            rcases hs.entered.current with ⟨-, hcur, -⟩ | ⟨hnone, -, -⟩
            · exact hcur.trans hc
            · rw [hnone] at hc
              cases hc
          exact hin (hs.putBack.mem_of_current hcur ((hs.entered.states t).trans hrun))
        · exact Or.inr (Or.inr (hasleep hsleep hws))
      · refine hin (hs.putBack.mem_of_mem ?_)
        rcases hs.entered.current with ⟨-, -, hl₀⟩ | ⟨hnone, -, hl₀⟩
        · rw [hl₀]
          exact hl
        · have hfirst := hk.first hnone (Machine.entry_tick he hnone)
          rw [show m.sched.readyQueue.head = l.head? from h.ok.queues.ready.head] at hfirst
          rw [hl₀]
          cases l with
          | nil => cases hl
          | cons b l =>
            rcases List.mem_cons.mp hl with rfl | hl
            · exact absurd rfl hfirst
            · exact hl
      · exact Or.inr (Or.inr (hasleep hsleep hws))

/-- **A step that does not lose the task keeps it.** -/
theorem TaskThere.step (h : TaskThere t m l) (hk : Kept t m op) (hstep : MachineStep m op m') :
    ∃ l', TaskThere t m' l' := by
  obtain ⟨l', hok, hevolved, hclosed⟩ := h.ok.step (.closed h.closed hk.switch) hstep
  have hclosed' : Closed (links m'.sched.tasks) l' := fun u =>
    hclosed u (h.closed u) fun s tick he hc hmem => hk.switch s tick he u hc hmem
  suffices hthere : ((m'.sched.tasks t).state ≠ .stopped →
        m'.sched.current = some t ∨ t ∈ l' ∨ t ∈ m'.sched.sleepQueue.tasks) ∧
      (m'.sched.current = some t →
        (m'.sched.tasks t).state = .running ∨ t ∈ m'.sched.sleepQueue.tasks) from
    ⟨l', hok, hclosed', hthere.1, hthere.2⟩
  cases hevolved with
  | same _ _ hsched =>
    rw [hsched]
    exact ⟨h.there, h.current⟩
  | created task i hfree ho hstate hsleep =>
    by_cases hti : t = i
    · refine ⟨fun _ => Or.inr (Or.inl ?_), fun hc => ?_⟩
      · rw [hti]
        exact List.mem_append_right _ (List.mem_singleton_self i)
      · refine absurd hc fun hc => hok.current t hc ?_
        rw [hti]
        exact List.mem_append_right _ (List.mem_singleton_self i)
    · exact h.others hti ho (List.mem_append_left _) (by rw [hsleep]; exact id)
  | slept ms c hcaller ho hstate hwake hsleep =>
    have hgrow : t ∈ m.sched.sleepQueue.tasks → t ∈ m'.sched.sleepQueue.tasks := by
      intro hmem
      rw [hsleep]
      split
      · exact hmem
      · exact Multiset.mem_cons_of_mem hmem
    by_cases htc : t = c
    · subst htc
      have hmem : t ∈ m'.sched.sleepQueue.tasks := by
        rw [hsleep, if_neg (hk.room ms rfl hcaller)]
        exact Multiset.mem_cons_self t _
      exact ⟨fun _ => Or.inr (Or.inr hmem), fun _ => Or.inr hmem⟩
    · exact h.others htc ho id hgrow
  | marked c hcaller ho hstate hsleep =>
    have htc : t ≠ c := by
      rintro rfl
      exact hk.exit rfl hcaller
    exact h.others htc ho id (by rw [hsleep]; exact id)
  | switched s tick l₀ ws a _ he hs =>
    refine ⟨h.switched hk he hs, fun hc => Or.inl ?_⟩
    obtain rfl : a = t := Option.some.inj (hs.switched.current.symm.trans hc)
    exact hs.switched.picked

/-- **No task is lost** in a run whose steps do not lose it: as long as its slot is in use, it is
the current task or in one of the queues. -/
theorem task_kept (tasks : TaskTable) (data : Nat → Nat) (hz : Nat) (cleaner idle : Task)
    (hrun : Run MachineStep (Kept t) (bootMachine tasks data hz cleaner idle) m)
    (hstate : (m.sched.tasks t).state ≠ .stopped) :
    m.sched.current = some t ∨ Queued m.sched t := by
  have hinv : ∃ l, TaskThere t m l := by
    refine hrun.invariant (I := fun m => ∃ l, TaskThere t m l) (fun _ _ _ h hk hs => ?_) ?_
    · obtain ⟨l, h⟩ := h
      exact h.step hk hs
    · obtain ⟨l, hok, hclosed, hin⟩ := bootMachine_ok tasks data hz cleaner idle
      refine ⟨l, hok, hclosed, fun ht => Or.inr (Or.inl (hin t ht)), fun hc => ?_⟩
      have hnone : (bootMachine tasks data hz cleaner idle).sched.current = none := by
        show (createTask (createTask _ cleaner) idle).current = none
        rw [createTask_current, createTask_current]
      rw [hnone] at hc
      cases hc
  obtain ⟨l, h⟩ := hinv
  rcases h.there hstate with hc | hl | hs
  · exact Or.inl hc
  · exact Or.inr (h.ok.queues.queued_iff.mpr (Or.inl hl))
  · exact Or.inr (h.ok.queues.queued_iff.mpr (Or.inr hs))

/-- A machine after boot. -/
def freshMachine : Machine :=
  bootMachine (fun _ => clearedTask) (fun _ => 0) 500 clearedTask clearedTask

/-- The machine after its first tick. -/
def tickedMachine : Machine := ((freshMachine.apply .tick).getD (freshMachine, .panic)).1

theorem freshMachine_tick : MachineStep freshMachine .tick tickedMachine :=
  ⟨.started 1, rfl, Outcome.noConfusion⟩

theorem freshMachine_switch (op : SchedulerOp) : SwitchOk freshMachine op := by
  intro s tick he c _ hmem
  have hsleep : s.sleepQueue = freshMachine.sched.sleepQueue := by
    obtain ⟨l, hok, -⟩ := bootMachine_ok (fun _ => clearedTask) (fun _ => 0) 500 clearedTask clearedTask
    obtain ⟨l₀, hs⟩ := hok.entered he
    exact hs.sleepQueue
  rw [hsleep] at hmem
  exact absurd hmem (Multiset.notMem_zero c)

theorem task_kept_freshMachine :
    (tickedMachine.sched.tasks 1).state ≠ .stopped ∧
      (tickedMachine.sched.current = some 1 ∨ Queued tickedMachine.sched 1) := by
  have hstate : (tickedMachine.sched.tasks 1).state = .running := rfl
  have hne : (tickedMachine.sched.tasks 1).state ≠ .stopped := by
    rw [hstate]
    decide
  refine ⟨hne, task_kept (t := 1) _ _ _ _ _
    (Run.single ⟨freshMachine_switch _, ?_, ?_, ?_⟩ freshMachine_tick) hne⟩
  · intro _ _
    decide
  · intro ms hop
    cases hop
  · intro hop
    cases hop

/-- **The first tick loses the cleaner**: it is created, and in no queue. -/
theorem exists_lost_task : ¬ ∀ (tasks : TaskTable) (data : Nat → Nat) (hz : Nat)
    (cleaner idle : Task) (m : Machine),
    Run MachineStep (fun _ _ => True) (bootMachine tasks data hz cleaner idle) m →
    ∀ t, (m.sched.tasks t).state ≠ .stopped → m.sched.current = some t ∨ Queued m.sched t := by
  intro h
  have hstate : (tickedMachine.sched.tasks 0).state = .created := rfl
  rcases h (fun _ => clearedTask) (fun _ => 0) 500 clearedTask clearedTask tickedMachine
    (Run.single trivial freshMachine_tick) 0 (by rw [hstate]; decide) with hc | hready | hzombie | hsleep
  · exact absurd hc (by decide)
  · have hhead : tickedMachine.sched.readyQueue.head = none := rfl
    unfold InQueue at hready
    rw [hhead] at hready
    cases hready
  · have hhead : tickedMachine.sched.zombieQueue.head = none := rfl
    unfold InQueue at hzombie
    rw [hhead] at hzombie
    cases hzombie
  · exact absurd hsleep (Multiset.notMem_zero 0)

end Xylophone
