import Xylophone.Scheduler.Lost

/-!
# No task is pushed twice

The ready queue is intrusive: a task that is pushed while it is in it is linked to itself, and the
tasks behind it are lost. It happens when `round_robin` wakes the current task, which is then
running and is put back as well: a tick arrives between the block of `scheduler_sleep` and its call
of `scheduler_schedule`, or the wake tick has wrapped around.

* `pushes_fresh` — as long as `round_robin` does not wake the current task, no task is pushed twice;
  and when it does, one is
* `exists_double_push` — a task that sleeps for a tick, and the tick that comes in between
-/

namespace Xylophone

open Infra

variable {s s' : Scheduler} {m m' : Machine} {op : SchedulerOp} {l : List Nat} {t tick : Nat}

/-! ## The pushes of a step -/

/-- The pushes of the loop that wakes sleepers: the task that is pushed, and the scheduler then. -/
def wakePushes (tick : Nat) : (fuel : Nat) → Scheduler → List (Scheduler × Nat)
  | 0, _ => []
  | fuel + 1, s =>
    match sleepQueuePeek s.sleepQueue with
    | none => []
    | some t =>
      if tick < (s.tasks t).wakeTick then []
      else (popSleeper s, t) :: wakePushes tick fuel (enqueueReady (popSleeper s) t)

/-- The push of the current task. -/
def preemptPushes (s : Scheduler) : List (Scheduler × Nat) :=
  match s.current with
  | none => []
  | some c => if (s.tasks c).state = .running then [(s, c)] else []

/-- The pushes of the loop that picks the next task. -/
def pickPushes : (fuel : Nat) → Scheduler → List (Scheduler × Nat)
  | 0, _ => []
  | fuel + 1, s =>
    match popReady s with
    | (_, none) => []
    | (s, some t) =>
      match (s.tasks t).state with
      | .created | .running => []
      | .zombie => (s, t) :: pickPushes fuel (enqueueZombie s t)
      | .sleeping => (s, t) :: pickPushes fuel (enqueueSleeper s t)
      | .stopped | .blocked | .cleaning => (s, t) :: pickPushes fuel (enqueueReady s t)

/-- The pushes of `round_robin`. -/
def roundRobinPushes (s : Scheduler) (tick : Nat) : List (Scheduler × Nat) :=
  let woken := wakeSleepers tick s.sleepQueue.size s
  let putBack := preempt woken
  wakePushes tick s.sleepQueue.size s ++ preemptPushes woken ++
    pickPushes (2 * putBack.readyQueue.size + 1) putBack

/-- The pushes of the `round_robin` that a step ends in. -/
def Machine.switchPushes (m : Machine) (op : SchedulerOp) : List (Scheduler × Nat) :=
  match m.entry op with
  | none => []
  | some (s, tick) => roundRobinPushes s tick

/-- The pushes of a step. -/
def Machine.pushes (m : Machine) : SchedulerOp → List (Scheduler × Nat)
  | .create task =>
    match freeTask m.sched.tasks with
    | none => []
    | some i =>
      [({ m.sched with
          tasks := Function.update m.sched.tasks i { task with pid := i, state := .created } }, i)]
  | .sleep ms =>
    match m.caller with
    | none => []
    | some c =>
      [({ m.sched with
          tasks := setWakeTick m.sched.tasks c
            (wrap32 (m.sched.ticks + ticksToSleep ms m.sched.hz)) }, c)]
  | .yield | .exit | .clean => []
  | .tick => m.switchPushes .tick
  | .resume => m.switchPushes .resume

/-- Every task that is pushed is in no queue. -/
def Fresh (pushes : List (Scheduler × Nat)) : Prop := ∀ p ∈ pushes, ¬ Queued p.1 p.2

/-! ## When the pushes are fresh -/

theorem QueuesOk.wakePushes_fresh {tick : Nat} : ∀ (fuel : Nat) {s : Scheduler} {l : List Nat},
    QueuesOk s l → Fresh (wakePushes tick fuel s)
  | 0, _, _, _ => fun _ hp => absurd hp List.not_mem_nil
  | fuel + 1, s, l, h => by
    rw [wakePushes]
    unfold sleepQueuePeek
    by_cases hsize : s.sleepQueue.size = 0
    · rw [if_pos hsize]
      exact fun _ hp => absurd hp List.not_mem_nil
    rw [if_neg hsize]
    simp only []
    split
    · exact fun _ hp => absurd hp List.not_mem_nil
    · obtain ⟨hpop, -, -⟩ := h.popSleeper hsize
      obtain ⟨-, hrl, hgone⟩ := h.sleeper_root hsize
      generalize s.sleepQueue.data 0 = r at *
      intro p hp
      rcases List.mem_cons.mp hp with rfl | hp
      · rw [hpop.queued_iff, not_or]
        exact ⟨hrl, hgone⟩
      · exact QueuesOk.wakePushes_fresh fuel (hpop.enqueueReady hrl hgone).1 p hp

/-- The tasks of the ready queue can be run: none is pushed anywhere. -/
theorem QueuesOk.pickPushes_nil (h : QueuesOk s l) (fuel : Nat) : pickPushes fuel s = [] := by
  cases fuel with
  | zero => rfl
  | succ fuel =>
    rw [pickPushes]
    have hfields := popReady_fields s
    cases l with
    | nil =>
      have hfirst : (Xylophone.popReady s).2 = none := by
        unfold Xylophone.popReady
        rw [pop_none _ _ h.ready.head]
      generalize Xylophone.popReady s = r at *
      obtain ⟨s₁, first⟩ := r
      obtain rfl : first = none := hfirst
      rfl
    | cons a l =>
      have hfirst : (Xylophone.popReady s).2 = some a := by
        unfold Xylophone.popReady
        rw [pop_some _ _ a h.ready.head]
      generalize Xylophone.popReady s = r at *
      obtain ⟨s₁, first⟩ := r
      obtain rfl : first = some a := hfirst
      simp only []
      rw [(hfields a).1]
      rcases h.readyState a (List.mem_cons_self ..) with hstate | hstate <;> rw [hstate]

/-- **The pushes of `round_robin`** are fresh exactly when it does not wake the current task. -/
theorem QueuesOk.roundRobinPushes_fresh (h : QueuesOk s l)
    (hcurrent : ∀ c, s.current = some c → c ∉ l) (tick : Nat) :
    Fresh (roundRobinPushes s tick) ↔
      ∀ c, s.current = some c → c ∈ s.sleepQueue.tasks → tick < (s.tasks c).wakeTick := by
  obtain ⟨ws, hw⟩ := h.wake tick
  obtain ⟨l', hp⟩ := hw.preempt hcurrent
  have hwake : Fresh (wakePushes tick s.sleepQueue.size s) := h.wakePushes_fresh _
  have hpick := hp.ok.pickPushes_nil
  have hpushes : roundRobinPushes s tick = wakePushes tick s.sleepQueue.size s ++
      preemptPushes (Xylophone.wakeSleepers tick s.sleepQueue.size s) := by
    unfold roundRobinPushes
    simp only [hpick, List.append_nil]
  rw [hpushes]
  have hsplit : Fresh (wakePushes tick s.sleepQueue.size s ++
      preemptPushes (Xylophone.wakeSleepers tick s.sleepQueue.size s)) ↔
      Fresh (preemptPushes (Xylophone.wakeSleepers tick s.sleepQueue.size s)) := by
    refine ⟨fun hf p hmem => hf p (List.mem_append_right _ hmem), fun hf p hmem => ?_⟩
    rcases List.mem_append.mp hmem with hm | hm
    · exact hwake p hm
    · exact hf p hm
  rw [hsplit]
  generalize Xylophone.wakeSleepers tick s.sleepQueue.size s = s₁ at *
  unfold preemptPushes
  rw [hw.rest.current]
  cases hc : s.current with
  | none => exact ⟨fun _ c hc => (by cases hc), fun _ _ hmem => absurd hmem List.not_mem_nil⟩
  | some c =>
    simp only []
    have hsleeping : c ∈ s₁.sleepQueue.tasks → c ∈ s.sleepQueue.tasks := by
      intro hmem
      rw [hw.sleepers]
      exact Multiset.mem_add.mpr (Or.inr hmem)
    have hcl : c ∉ l := hcurrent c hc
    constructor
    · -- a current task that is woken is running, and in the ready queue
      intro hf d hd hmem
      obtain rfl := Option.some.inj hd
      refine Nat.not_le.mp fun hdue => ?_
      have hws : c ∈ ws := by
        rw [hw.sleepers, Multiset.mem_add, Multiset.mem_coe] at hmem
        rcases hmem with hws | hlater
        · exact hws
        · exact absurd (hw.notDue c hlater) (Nat.not_lt.mpr hdue)
      rw [if_pos (hw.running c hws)] at hf
      refine hf (s₁, c) (List.mem_singleton_self _) (hw.ok.queued_iff.mpr (Or.inl ?_))
      exact List.mem_append_right _ hws
    · intro hok
      by_cases hrun : (s₁.tasks c).state = .running
      · rw [if_pos hrun]
        intro p hmem
        rw [List.mem_singleton.mp hmem, hw.ok.queued_iff, List.mem_append, not_or, not_or]
        refine ⟨⟨hcl, fun hws => ?_⟩, fun hsl => ?_⟩
        · have hin : c ∈ s.sleepQueue.tasks := by
            rw [hw.sleepers]
            exact Multiset.mem_add.mpr (Or.inl (Multiset.mem_coe.mpr hws))
          exact absurd (hw.due c hws) (Nat.not_le.mpr (hok c rfl hin))
        · have hstate := hw.ok.sleepState c hsl
          rw [hrun] at hstate
          cases hstate
      · rw [if_neg hrun]
        exact fun p hmem => absurd hmem List.not_mem_nil

/-! ## Runs -/

/-- Each queue holds a list of tasks, and no task is in two places of them. -/
def QueuedOnce (s : Scheduler) : Prop :=
  ∃ l z : List Nat,
    (Holds (links s.tasks) s.readyQueue.ends l ∧ Closed (links s.tasks) l) ∧
    (Holds (links s.tasks) s.zombieQueue.ends z ∧ Closed (links s.tasks) z) ∧
    ((l ++ z : List Nat) + s.sleepQueue.tasks : Multiset Nat).Nodup

theorem QueuesOk.queuedOnce (h : QueuesOk s l) (hclosed : Closed (links s.tasks) l) :
    QueuedOnce s := by
  refine ⟨l, [], ⟨h.ready, hclosed⟩, ⟨?_, fun a ha => by cases ha⟩, ?_⟩
  · rw [h.zombies]
    exact holds_nil
  · rw [List.append_nil, Multiset.nodup_add]
    refine ⟨Multiset.coe_nodup.mpr h.ready.nodup, h.sleepers, ?_⟩
    rw [Multiset.disjoint_left]
    exact fun ht => h.apart _ (Multiset.mem_coe.mp ht)

/-- A table with the same links has the same queues. -/
theorem queued_congr (hlinks : links s'.tasks = links s.tasks)
    (hready : s'.readyQueue = s.readyQueue)
    (hzombie : s'.zombieQueue = s.zombieQueue) (hsleep : s'.sleepQueue = s.sleepQueue) :
    Queued s' t ↔ Queued s t := by
  unfold Queued InQueue
  rw [hlinks, hready, hzombie, hsleep]

theorem fresh_nil : Fresh [] := fun _ hp => absurd hp List.not_mem_nil

/-- A step that does not end in `round_robin` does not wake the current task. -/
theorem switchOk_of_quiet (he : m.entry op = none) : SwitchOk m op := by
  intro s tick he'
  rw [he] at he'
  cases he'

theorem MachineOk.switchPushes_fresh (h : MachineOk m l) :
    Fresh (m.switchPushes op) ↔ SwitchOk m op := by
  unfold Machine.switchPushes
  cases he : m.entry op with
  | none => exact ⟨fun _ => switchOk_of_quiet he, fun _ => fresh_nil⟩
  | some r =>
    obtain ⟨s, tick⟩ := r
    obtain ⟨l₀, hs⟩ := h.entered he
    have hiff := hs.queues.roundRobinPushes_fresh hs.apart tick
    refine ⟨fun hf s' tick' he' => ?_, fun hok => hiff.mpr (hok s tick he)⟩
    obtain ⟨rfl, rfl⟩ := Prod.mk.inj (Option.some.inj (he.symm.trans he'))
    exact hiff.mp hf

/-- **The pushes of a step** are fresh exactly when it does not wake the current task. -/
theorem MachineOk.pushes_iff (h : MachineOk m l) : Fresh (m.pushes op) ↔ SwitchOk m op := by
  cases op with
  | tick =>
    show Fresh (m.switchPushes .tick) ↔ _
    exact h.switchPushes_fresh
  | resume =>
    show Fresh (m.switchPushes .resume) ↔ _
    exact h.switchPushes_fresh
  | yield => exact ⟨fun _ => switchOk_of_quiet rfl, fun _ => fresh_nil⟩
  | exit => exact ⟨fun _ => switchOk_of_quiet rfl, fun _ => fresh_nil⟩
  | clean => exact ⟨fun _ => switchOk_of_quiet rfl, fun _ => fresh_nil⟩
  | create task =>
    refine ⟨fun _ => switchOk_of_quiet rfl, fun _ => ?_⟩
    rw [Machine.pushes]
    cases hfree : freeTask m.sched.tasks with
    | none => exact fresh_nil
    | some i =>
      obtain ⟨hl, hsl⟩ := h.queues.free_notMem hfree
      intro p hp
      rw [List.mem_singleton.mp hp, (h.queues.update hl hsl _).queued_iff, not_or]
      exact ⟨hl, hsl⟩
  | sleep ms =>
    refine ⟨fun _ => switchOk_of_quiet rfl, fun _ => ?_⟩
    rw [Machine.pushes]
    cases hc : m.caller with
    | none => exact fresh_nil
    | some c =>
      intro p hp
      have hcur := (Machine.caller_eq hc).1
      have hout : ¬ Queued m.sched c := by
        rw [h.queues.queued_iff, not_or]
        exact ⟨h.current c hcur, h.caller_awake hc⟩
      have hsame : ∀ tick, Queued { m.sched with tasks := setWakeTick m.sched.tasks c tick } c ↔
          Queued m.sched c := fun tick => queued_congr (links_setWakeTick ..) rfl rfl rfl
      rw [List.mem_singleton.mp hp]
      exact fun hq => hout ((hsame _).mp hq)

/-- **No task is pushed twice** in a run in which `round_robin` does not wake the current task: in
every state every task is in at most one place of the queues, and the pushes of any step that may
come next are of tasks in no queue, unless that step wakes the current task. -/
theorem pushes_fresh (tasks : TaskTable) (data : Nat → Nat) (hz : Nat) (cleaner idle : Task)
    (hrun : Run MachineStep SwitchOk (bootMachine tasks data hz cleaner idle) m) :
    QueuedOnce m.sched ∧ ∀ op, Fresh (m.pushes op) ↔ SwitchOk m op := by
  have hinv : ∃ l, MachineOk m l ∧ Closed (links m.sched.tasks) l := by
    refine hrun.invariant (I := fun m => ∃ l, MachineOk m l ∧ Closed (links m.sched.tasks) l)
      (fun m op m' h hok hstep => ?_) ?_
    · obtain ⟨l, h, hclosed⟩ := h
      obtain ⟨l', h', -, hclosed'⟩ := h.step (.closed hclosed hok) hstep
      exact ⟨l', h', fun t => hclosed' t (hclosed t) fun s tick he hc hmem => hok s tick he t hc hmem⟩
    · obtain ⟨l, hok, hclosed, -⟩ := bootMachine_ok tasks data hz cleaner idle
      exact ⟨l, hok, hclosed⟩
  obtain ⟨l, hok, hclosed⟩ := hinv
  exact ⟨hok.queues.queuedOnce hclosed, fun op => hok.pushes_iff⟩

theorem pushes_fresh_freshMachine : QueuedOnce tickedMachine.sched ∧
    ∀ op, Fresh (tickedMachine.pushes op) ↔ SwitchOk tickedMachine op :=
  pushes_fresh (fun _ => clearedTask) (fun _ => 0) 500 clearedTask clearedTask
    (Run.single (freshMachine_switch _) freshMachine_tick)

/-- A third task was created, started by the second tick, and went to sleep for a millisecond. -/
def sleptMachine : Machine :=
  (runList Machine.next (fun _ _ => True) freshMachine
    [.create clearedTask, .tick, .tick, .sleep 1]).getD freshMachine

/-- **The tick that comes before `scheduler_sleep` calls `scheduler_schedule`** wakes the sleeper
and pushes it a second time. -/
theorem exists_double_push : ¬ ∀ (tasks : TaskTable) (data : Nat → Nat) (hz : Nat)
    (cleaner idle : Task) (m : Machine),
    Run MachineStep (fun _ _ => True) (bootMachine tasks data hz cleaner idle) m →
    ∀ op, Fresh (m.pushes op) := by
  intro h
  have hrun : Run MachineStep (fun _ _ => True) freshMachine sleptMachine := by
    have hlist : runList Machine.next (fun _ _ => True) freshMachine
        [.create clearedTask, .tick, .tick, .sleep 1] = some sleptMachine := rfl
    exact Run.of_runList Machine.step_of_next hlist
  have hfresh := h (fun _ => clearedTask) (fun _ => 0) 500 clearedTask clearedTask _ hrun .tick
  obtain ⟨p, hp⟩ : ∃ p, (sleptMachine.pushes .tick)[1]? = some p := ⟨_, rfl⟩
  refine hfresh p (List.mem_of_getElem? hp) ?_
  have hp' := Option.some.inj hp
  subst hp'
  refine Or.inl (Reaches.step ?_)
  exact Reaches.here 2

end Xylophone
