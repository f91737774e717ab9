import Xylophone.Infra.Run
import Xylophone.Tasks.Cleanup
import Xylophone.Tasks.Creation

/-!
# Creations that fail

A creation that returns -1 is to leave everything as it was. It does when there is no free slot.
Once it has taken one, it returns without giving back what it took.

* `CountOk.step` — `task_count` counts the slots in use, where no creation fails after it took one
* `failed_creation_unchanged` — runs without such a failure; and where a call leaves all as it was
* `exists_failed_creation` — the heap refuses the kernel stack
-/

namespace Xylophone

open Infra

variable {s s' : TaskSystem} {i : Nat}

/-! ## Runs -/

/-- What happens to tasks. The scheduler moves those in use from state to state, and runs one of
them. -/
inductive TaskOp where
  | create (c : CreateCall)
  | cleanup (pid : Nat)
  | setState (i : Nat) (state : TaskState)
  | run (i : Nat)
  | malloc (size : Int) (answer : Nat)
  | free (address : Nat)

/-- The next state. -/
def TaskSystem.next (s : TaskSystem) : TaskOp → Option TaskSystem
  | .create c => some (s.create c).1
  | .cleanup pid => some (s.taskCleanup pid).1
  | .setState i state =>
    if i < tasksMax ∧ (s.task i).state ≠ .stopped ∧ state ≠ .stopped then
      some (s.setTask i fun task => { task with state := state })
    else none
  | .run i => some { s with sched := { s.sched with current := some i } }
  | .malloc size answer => some (s.syscallMalloc size answer).1
  | .free address => some (s.syscallFree address)

/-- A step, as a relation. -/
def TaskStep (s : TaskSystem) (op : TaskOp) (s' : TaskSystem) : Prop := s.next op = some s'

/-- The state after `task_init`, with the blocks that are in the heaps then. -/
def bootSystem (heaps : Nat → Multiset Nat) (data : Nat → Nat) (hz kernelCr3 kthreadEntry : Nat) :
    TaskSystem where
  sched :=
    { tasks := taskInit fun _ => clearedTask
      readyQueue := taskQueueInit
      zombieQueue := taskQueueInit
      sleepQueue := sleepQueueInit data maxSleepTasks
      current := none
      ticks := 0
      hz := hz }
  taskCount := 0
  heaps := heaps
  userStacks := userStackManagerInit
  freed := []
  kernelCr3 := kernelCr3
  kthreadEntry := kthreadEntry

/-- There is no free slot, or nothing that the creation needs is refused; and a slot that is cleaned
up is in use. -/
def CallServed (s : TaskSystem) (op : TaskOp) : Prop :=
  (∀ c, op = .create c → freeTask s.sched.tasks = none ∨ c.Served s) ∧
    ∀ pid, op = .cleanup pid → pid < tasksMax → (s.task pid).state ≠ .stopped

/-! ## The count of tasks -/

/-- A slot in use counts. -/
def Task.use (task : Task) : Int := if task.state = .stopped then 0 else 1

/-- The number of slots in use. -/
def TaskSystem.slotsInUse (s : TaskSystem) : Int := total tasksMax fun i => (s.task i).use

/-- `task_count` is the number of slots in use, and a free slot has no parent. -/
structure CountOk (s : TaskSystem) : Prop where
  count : s.taskCount = s.slotsInUse
  parent : ∀ i, (s.task i).state = .stopped → (s.task i).parent = none

theorem Task.use_of_ne {task : Task} (h : task.state ≠ .stopped) : task.use = 1 := if_neg h

theorem Task.use_of_eq {task : Task} (h : task.state = .stopped) : task.use = 0 := if_pos h

/-- One slot changes. -/
theorem slotsInUse_change (s s' : TaskSystem) (hi : i < tasksMax)
    (h : ∀ j, j < tasksMax → j ≠ i → (s'.task j).use = (s.task j).use) :
    s'.slotsInUse + (s.task i).use = s.slotsInUse + (s'.task i).use := by
  unfold TaskSystem.slotsInUse
  exact total_change (f := fun j => (s.task j).use) (g := fun j => (s'.task j).use) hi h

theorem Touches.use {b : Multiset Nat} (h : Touches s s' i b) :
    ∀ j, j ≠ i → (s'.task j).use = (s.task j).use := by
  intro j hj
  unfold Task.use
  rw [h.others j hj]

/-- A slot is taken. -/
theorem CountOk.taken {b : Multiset Nat} (h : CountOk s) (hfree : freeTask s.sched.tasks = some i)
    (htouches : Touches s s' i b) (hstate : (s'.task i).state = .created) :
    s'.slotsInUse = s.slotsInUse + 1 ∧
      ∀ j, (s'.task j).state = .stopped → (s'.task j).parent = none := by
  obtain ⟨hstopped, hlt⟩ := freeTask_some hfree
  have hne : (s'.task i).state ≠ .stopped := by rw [hstate]; exact TaskState.noConfusion
  constructor
  · have hchange := slotsInUse_change s s' hlt fun j _ hj => htouches.use j hj
    rw [Task.use_of_ne hne, show (s.task i).use = 0 from Task.use_of_eq hstopped] at hchange
    omega
  · intro j hj
    by_cases hji : j = i
    · rw [hji] at hj
      exact absurd hj hne
    · rw [htouches.others j hji] at hj ⊢
      exact h.parent j hj

/-- States and parents are as before. -/
theorem CountOk.congr (h : CountOk s) (hcount : s'.taskCount = s.taskCount)
    (hstate : ∀ j, (s'.task j).state = (s.task j).state)
    (hparent : ∀ j, (s'.task j).parent = (s.task j).parent) : CountOk s' where
  count := by
    rw [hcount, h.count]
    refine total_congr fun j _ => ?_
    unfold Task.use
    rw [hstate]
  parent j hj := by
    rw [hparent]
    exact h.parent j ((hstate j).symm.trans hj)

/-- A slot is cleaned up. -/
theorem CountOk.cleaned {pid : Nat} (h : CountOk s) (hlt : pid < tasksMax)
    (hused : (s.task pid).state ≠ .stopped) (hclean : Cleaned s s' pid) : CountOk s' := by
  have hself := hclean.task_self
  have hmark : ∀ j, (markThreads s.sched.tasks pid j).use = (s.task j).use := by
    intro j
    unfold markThreads
    split
    · next hthread =>
      -- a thread of the task is in use
      have hne : (s.task j).state ≠ .stopped := by
        intro hstopped
        have hnone := h.parent j hstopped
        rw [show (s.task j).parent = some pid from hthread.2.1] at hnone
        cases hnone
      rw [Task.use_of_ne hne]
      exact Task.use_of_ne TaskState.noConfusion
    · rfl
  constructor
  · have hchange := slotsInUse_change s s' hlt fun j _ hj => by
      rw [hclean.task_of_ne hj]
      exact hmark j
    have hfree : (s'.task pid).use = 0 := by
      rw [hself]
      rfl
    rw [Task.use_of_ne hused, hfree] at hchange
    rw [hclean.taskCount, h.count]
    omega
  · intro j hj
    by_cases hji : j = pid
    · rw [hji, hself]
      rfl
    · rw [hclean.task_of_ne hji] at hj ⊢
      rw [markThreads_fields] at hj ⊢
      refine h.parent j ?_
      have huse := hmark j
      by_contra hne
      rw [markThreads_fields, show Task.use _ = 0 from Task.use_of_eq hj, Task.use_of_ne hne] at huse
      cases huse

/-- **A step in which no creation fails after it took a slot keeps the count.** -/
theorem CountOk.step {op : TaskOp} (h : CountOk s) (hserved : CallServed s op)
    (hstep : TaskStep s op s') : CountOk s' := by
  cases op with
  | create c =>
    obtain rfl := Option.some.inj hstep
    cases create_cases s c with
    | full _ hresult =>
      rw [hresult]
      exact h
    | created i s₁ hfree _ hcreated hresult =>
      rw [hresult]
      obtain ⟨hcount, hparent⟩ := h.taken hfree hcreated.touches hcreated.state
      exact ⟨by rw [hcreated.taskCount, h.count, hcount], hparent⟩
    | failed i s₁ hfree hrefused _ _ =>
      rcases hserved.1 c rfl with hnone | hserved
      · rw [hfree] at hnone
        cases hnone
      · exact absurd hserved hrefused
  | cleanup pid =>
    obtain rfl := Option.some.inj hstep
    by_cases hlt : pid < tasksMax
    · exact h.cleaned hlt (hserved.2 pid rfl hlt) (taskCleanup_spec s hlt)
    · unfold TaskSystem.taskCleanup
      rw [if_pos (Or.inr (Nat.le_of_not_lt hlt))]
      exact h
  | setState i state =>
    obtain ⟨⟨hlt, hused, hne⟩, hset⟩ := Option.ite_none_right_eq_some.mp hstep
    obtain rfl := Option.some.inj hset
    have hself := s.setTask_self (fun task => { task with state := state }) i
    constructor
    · have hchange := slotsInUse_change s
        (s.setTask i fun task => { task with state := state }) hlt fun j _ hj => by
          rw [s.setTask_of_ne _ hj]
      rw [Task.use_of_ne hused, hself, show Task.use _ = 1 from Task.use_of_ne hne] at hchange
      have hcount : (s.setTask i fun task => { task with state := state }).taskCount =
          s.taskCount := rfl
      rw [hcount, h.count]
      omega
    · intro j hj
      by_cases hji : j = i
      · rw [hji, hself] at hj
        exact absurd hj hne
      · rw [s.setTask_of_ne _ hji] at hj ⊢
        exact h.parent j hj
  | run i =>
    obtain rfl := Option.some.inj hstep
    exact h.congr rfl (fun _ => rfl) fun _ => rfl
  | malloc size answer =>
    obtain rfl := Option.some.inj hstep
    refine h.congr (s.syscallMalloc_taskCount size answer) (fun j => ?_) fun j => ?_
    · rw [s.syscallMalloc_task]
    · rw [s.syscallMalloc_task]
  | free address =>
    obtain rfl := Option.some.inj hstep
    refine h.congr (s.syscallFree_taskCount address) (fun j => ?_) fun j => ?_
    · rw [s.syscallFree_task]
    · rw [s.syscallFree_task]

theorem bootSystem_countOk (heaps : Nat → Multiset Nat) (data : Nat → Nat)
    (hz kernelCr3 kthreadEntry : Nat) :
    CountOk (bootSystem heaps data hz kernelCr3 kthreadEntry) where
  count := by
    have hzero : total tasksMax (fun i =>
        ((bootSystem heaps data hz kernelCr3 kthreadEntry).task i).use) = 0 :=
      total_zero fun _ _ => Task.use_of_eq rfl
    exact hzero.symm
  parent _ _ := rfl

/-! ## What a call that fails leaves behind -/

/-- **A call that returns -1 leaves everything as it was if and only if there is no free slot, or
nothing that it needs is refused** (and then it does not return -1). -/
theorem create_unchanged_iff (s : TaskSystem) (c : CreateCall) :
    ((s.create c).2 = -1 → (s.create c).1 = s) ↔ freeTask s.sched.tasks = none ∨ c.Served s := by
  cases create_cases s c with
  | full hfull hresult =>
    rw [hresult]
    exact ⟨fun _ => Or.inl hfull, fun _ _ => rfl⟩
  | created i s₁ _ hserved _ hresult =>
    rw [hresult]
    refine ⟨fun _ => Or.inr hserved, fun _ hminus => ?_⟩
    replace hminus : (i : Int) = -1 := hminus
    omega
  | failed i s₁ hfree hrefused hfailed hresult =>
    rw [hresult]
    constructor
    · intro hsame
      -- the slot was free, and it is taken now
      have hstate := hfailed.state
      rw [show s₁ = s from hsame rfl, show (s.task i).state = .stopped from (freeTask_some hfree).1] at hstate
      cases hstate
    · rintro (hnone | hserved)
      · rw [hfree] at hnone
        cases hnone
      · exact absurd hserved hrefused

/-- **Failed creations.** In every state of a run whose creations find no free slot or are refused
nothing, `task_count` is the number of slots in use; and of the calls that may come next exactly
these leave everything as it was when they return -1. -/
theorem failed_creation_unchanged {heaps : Nat → Multiset Nat} {data : Nat → Nat}
    {hz kernelCr3 kthreadEntry : Nat}
    (hrun : Run TaskStep CallServed (bootSystem heaps data hz kernelCr3 kthreadEntry) s) :
    s.taskCount = s.slotsInUse ∧ ∀ c, ((s.create c).2 = -1 → (s.create c).1 = s) ↔
      freeTask s.sched.tasks = none ∨ c.Served s := by
  have hcount : CountOk s := hrun.invariant (I := CountOk)
    (fun _ _ _ h hserved hstep => h.step hserved hstep) (bootSystem_countOk ..)
  exact ⟨hcount.count, create_unchanged_iff s⟩

/-- The state after `task_init`, with empty heaps. -/
def freshSystem : TaskSystem := bootSystem (fun _ => 0) (fun _ => 0) 500 0 0

def TaskName.empty : TaskName := ⟨[], Nat.succ_pos 31⟩

/-- `task_create_kthread` without arguments, served with a kernel stack at `stack` unless that is
0. -/
def plainKthread (stack : Nat) : CreateCall := .kthread .empty 0 0 ⟨stack, 0, fun _ => 0⟩

theorem freshSystem_free : freeTask freshSystem.sched.tasks ≠ none := by decide +kernel

theorem failed_creation_unchanged_freshSystem :
    (freshSystem.create (plainKthread 0x1000)).1.taskCount =
        (freshSystem.create (plainKthread 0x1000)).1.slotsInUse ∧
      ∀ c, (((freshSystem.create (plainKthread 0x1000)).1.create c).2 = -1 →
          ((freshSystem.create (plainKthread 0x1000)).1.create c).1 =
            (freshSystem.create (plainKthread 0x1000)).1) ↔
        freeTask (freshSystem.create (plainKthread 0x1000)).1.sched.tasks = none ∨
          c.Served (freshSystem.create (plainKthread 0x1000)).1 := by
  refine failed_creation_unchanged (Run.single (a := .create (plainKthread 0x1000)) ⟨?_, ?_⟩ rfl)
  · intro c hc
    obtain rfl := TaskOp.create.inj hc
    exact Or.inr ⟨by decide, fun hargc => absurd rfl hargc⟩
  · intro pid hpid
    cases hpid

/-- **A creation that fails and keeps its slot.** The heap refuses the kernel stack. -/
theorem exists_failed_creation :
    ¬ ∀ s, Run TaskStep (fun _ _ => True) freshSystem s →
      s.taskCount = s.slotsInUse ∧ ∀ c, (s.create c).2 = -1 → (s.create c).1 = s := by
  intro hall
  have hsame := (hall freshSystem (Run.refl _)).2 (plainKthread 0)
  rcases (create_unchanged_iff freshSystem (plainKthread 0)).mp hsame with hnone | hserved
  · exact freshSystem_free hnone
  · exact hserved.1 rfl

end Xylophone
