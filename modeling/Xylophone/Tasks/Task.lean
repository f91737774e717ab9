import Xylophone.Scheduler.Machine
import Xylophone.Tasks.AllocationTable
import Xylophone.Tasks.UserStacks

/-!
# `task.c`, and the system calls for memory of `scheduler.c`

Tasks are created and cleaned up, and allocate memory from heaps that they share. A heap is the
blocks it holds; whether it serves an allocation, and with which address, is an input of the call
(0 for `NULL`). Argument strings are taken to fit their blocks, and what is copied into them is left
out; so are the page tables of `paging_manager_allocate_range`. Nothing bounds the copy of a name:
one that does not fit runs over the fields that follow it.

* `copyName_of_lt` — a name that fits changes nothing else
* `Touches` — what a creation does outside its slot
* `syscallMalloc_task`, `syscallFree_task` — the system calls change allocation tables only
-/

namespace Xylophone

open Infra

/-- A call of `heap_manager_free` on behalf of a task: whether the address was a live block of the
heap at that moment, and whether it was recorded for the task. -/
structure FreeEvent where
  task : Nat
  address : Nat
  live : Bool
  recorded : Bool
deriving DecidableEq, Repr

/-- The task table and what tasks take: blocks of heaps and user stacks. The variables of
`scheduler.c` are in `sched`, with the task table. -/
structure TaskSystem where
  sched : Scheduler
  /-- `task_count`. -/
  taskCount : Int
  /-- The live blocks of each heap. -/
  heaps : Nat → Multiset Nat
  userStacks : Nat → UserStack
  /-- The calls of `heap_manager_free` for blocks of tasks, last one first. -/
  freed : List FreeEvent
  /-- The physical address of the page directory of the kernel. -/
  kernelCr3 : Nat
  /-- `kthread_entry`. -/
  kthreadEntry : Nat
  /-- What bytes copied over the links of a slot, and on, make of the table. -/
  overrun : Nat → List UInt8 → TaskTable → TaskTable := fun _ _ tasks => tasks

/-- `TASK_NAME_LENGTH`. -/
def taskNameLength : Nat := 32

/-- The name of a task, without the zero that ends it. It fits. -/
structure TaskName where
  name : List UInt8
  fits : name.length < taskNameLength

/-- `&kernel_context->heap_manager`. -/
def kernelHeap : Nat := 0

/-- `&kernel_context->paging_manager`. -/
def kernelPaging : Nat := 0

/-- `USER_PROGRAM_BASE`. -/
def userProgramBase : Nat := 0x01000000

/-- The first bytes of a word are written. -/
def overwrite (word : Nat) : List UInt8 → Nat
  | [] => word
  | byte :: bytes => byte.toNat + 0x100 * overwrite (word / 0x100) bytes

/-- What `kernel_amalloc` returns in a creation: for the kernel stack, for the argument vector and
for each argument string. -/
structure HeapAnswers where
  stack : Nat
  vector : Nat
  string : Nat → Nat

namespace TaskSystem

variable (s : TaskSystem)

/-- `task_table[i]`. -/
def task (i : Nat) : Task := s.sched.tasks i

/-- `task_table` is changed. -/
def setTasks (tasks : TaskTable) : TaskSystem := { s with sched := { s.sched with tasks := tasks } }

/-- `task_table[i]` is changed. -/
def setTask (i : Nat) (f : Task → Task) : TaskSystem :=
  s.setTasks (Function.update s.sched.tasks i (f (s.task i)))

/-- `task_table[i].thread_allocation_table` is changed. -/
def setTable (i : Nat) (f : AllocationTable → AllocationTable) : TaskSystem :=
  s.setTask i fun task => { task with threadAllocationTable := f task.threadAllocationTable }

/-! ## Heaps -/

/-- `heap_manager_malloc`, which returns `answer`. A heap manager that is `NULL` has no meaning. -/
def heapManagerMalloc (heap : Option Nat) (answer : Nat) : TaskSystem :=
  match heap with
  | none => s
  | some h =>
    if answer = 0 then s else { s with heaps := Function.update s.heaps h (answer ::ₘ s.heaps h) }

/-- `heap_manager_free` on behalf of a task. A heap manager that is `NULL` has no meaning. -/
def heapManagerFree (task : Nat) (heap : Option Nat) (address : Nat) (recorded : Bool) :
    TaskSystem :=
  match heap with
  | none => s
  | some h =>
    { s with
      heaps := Function.update s.heaps h ((s.heaps h).erase address)
      freed := ⟨task, address, address ∈ s.heaps h, recorded⟩ :: s.freed }

/-- `heap_manager_free_all`. A heap manager that is `NULL` has no meaning. -/
def heapManagerFreeAll (heap : Option Nat) : TaskSystem :=
  match heap with
  | none => s
  | some h => { s with heaps := Function.update s.heaps h 0 }

/-! ## Creating tasks -/

/-- `get_free_task`. -/
def getFreeTask : TaskSystem × Option Nat :=
  match freeTask s.sched.tasks with
  | none => (s, none)
  | some i =>
    (s.setTask i fun task => { task with
      pid := i, state := .created, mode := .kthread, pagingManager := none, heapManager := none },
      some i)

/-- The stack pointer of a new kernel stack. -/
def stackTop (stack : Nat) : Nat := wrap32 (stack + taskStackSize) / 16 * 16

/-- `init_kernel_stack`, and whether it succeeds. -/
def initKernelStack (i answer : Nat) : TaskSystem × Bool :=
  if answer = 0 then (s, false)
  else
    ((s.heapManagerMalloc (some kernelHeap) answer).setTask i fun task => { task with
      esp := stackTop answer, ebp := stackTop answer, kesp := stackTop answer,
      kebp := stackTop answer, stackptr := answer }, true)

/-- `init_user_stack`: the slot, unless it fails. What it stores as the stack pointer is the
address of the variable of its caller, `stackVariable`. -/
def initUserStack (i answer stackVariable : Nat) : TaskSystem × Option Nat :=
  match s.initKernelStack i answer with
  | (s, false) => (s, none)
  | (s, true) =>
    match userStackAlloc s.userStacks with
    | none => (s, none)
    | some (userStacks, slot, _, _) =>
      ({ s with userStacks := userStacks }.setTask i fun task => { task with
        esp := stackVariable, ebp := stackVariable }, some slot)

/-- The loop over the arguments, up to the first `n`, and whether it succeeds. -/
def createStrings (i : Nat) (string : Nat → Nat) : (n : Nat) → TaskSystem × Bool
  | 0 => (s, true)
  | n + 1 =>
    match createStrings i string n with
    | (s, false) => (s, false)
    | (s, true) =>
      if string n = 0 then (s, false)
      else
        ((s.heapManagerMalloc (some kernelHeap) (string n)).setTask i fun task => { task with
          argv := task.argv.map fun v => { v with strings := v.strings ++ [string n] } }, true)

/-- The argument vector of `task_create_kthread`, and whether it succeeds. -/
def createArgv (i : Nat) (argc : Int) (answers : HeapAnswers) : TaskSystem × Bool :=
  if argc = 0 then (s, true)
  else if answers.vector = 0 then (s.setTask i fun task => { task with argv := none }, false)
  else
    let s := (s.heapManagerMalloc (some kernelHeap) answers.vector).setTask i fun task => { task with
      argv := some ⟨answers.vector, []⟩ }
    match s.createStrings i answers.string argc.toNat with
    | (s, false) => (s, false)
    | (s, true) =>
      (s.setTask i fun task => { task with args := (argc % 2 ^ 32).toNat }, true)

/-- `scheduler_add` and `task_count++`. -/
def addTask (i : Nat) : TaskSystem :=
  { s with sched := schedulerAdd s.sched i, taskCount := s.taskCount + 1 }

/-- `memcpy(task->name, name, strlen(name) + 1)`. The fields that follow the name are `pid`, `tgid`
and the links. -/
def copyName (i : Nat) (name : List UInt8) : TaskSystem :=
  let spill := (name ++ [0]).drop taskNameLength
  let s := s.setTask i fun task => { task with
    pid := overwrite task.pid (spill.take 4), tgid := overwrite task.tgid ((spill.drop 4).take 4) }
  if spill.length ≤ 8 then s else s.setTasks (s.overrun i (spill.drop 8) s.sched.tasks)

/-- `task_create_kthread`. -/
def createKthread (name : List UInt8) (entry : Nat) (argc : Int) (answers : HeapAnswers) :
    TaskSystem × Int :=
  match s.getFreeTask with
  | (s, none) => (s, -1)
  | (s, some i) =>
    match s.initKernelStack i answers.stack with
    | (s, false) => (s, -1)
    | (s, true) =>
      let s := s.setTask i fun task => { task with
        parent := none, threadEip := entry
        pagingManager := some kernelPaging, heapManager := some kernelHeap
        physicalCr3 := s.kernelCr3, eip := s.kthreadEntry
        mode := .kthread, cs := 0x8, ds := 0x10 }
      let s := (s.copyName i name).setTask i fun task => { task with tgid := task.pid }
      match s.createArgv i argc answers with
      | (s, false) => (s, -1)
      | (s, true) => (s.addTask i, (s.task i).pid)

/-- `task_create_thread_process`. The string at `parent->name` is `name`. -/
def createThreadProcess (name : List UInt8) (parent entry arg stack stackVariable : Nat) :
    TaskSystem × Int :=
  match s.getFreeTask with
  | (s, none) => (s, -1)
  | (s, some i) =>
    match s.initUserStack i stack stackVariable with
    | (s, none) => (s, -1)
    | (s, some _) =>
      let s := s.setTask i fun task => { task with
        mode := .thread, parent := some parent, tgid := (s.task parent).tgid }
      let s := s.copyName i name
      let p := s.task parent
      let s := s.setTask i fun task => { task with
        eip := userProgramBase, threadEip := entry, args := arg
        pagingManager := p.pagingManager, heapManager := p.heapManager
        physicalCr3 := p.physicalCr3 }
      (s.addTask i, (s.task i).pid)

/-! ## Cleaning up -/

/-- A turn of the loop of `task_cleanup` over the allocation table. -/
def freeEntry (pid i : Nat) : TaskSystem :=
  let table := (s.task pid).threadAllocationTable
  let e := table.data i
  if 0 < e.size ∧ e.address ≠ 0 then
    (s.heapManagerFree pid (s.task pid).heapManager e.address (table.records e.address)).setTable pid
      fun table => { table with data := Function.update table.data i ⟨0, 0⟩ }
  else s

/-- The loop of `task_cleanup` over the first `n` entries of the allocation table. -/
def freeEntries (pid : Nat) : (n : Nat) → TaskSystem
  | 0 => s
  | n + 1 => (freeEntries pid n).freeEntry pid n

/-- What `task_cleanup` does with the blocks of the task. -/
def freeBlocks (pid : Nat) : TaskSystem :=
  match (s.task pid).mode with
  | .process => s.heapManagerFreeAll (s.task pid).heapManager
  | .kthread | .thread => s.freeEntries pid allocationMaxCount

/-- `task_cleanup` frees the kernel stack. -/
def freeStackptr (pid : Nat) : TaskSystem :=
  if (s.task pid).stackptr ≠ 0 then
    s.heapManagerFree pid (some kernelHeap) (s.task pid).stackptr true
  else s

/-- `task_cleanup`. -/
def taskCleanup (pid : Nat) : TaskSystem × Int :=
  if pid = noPid ∨ tasksMax ≤ pid then (s, -1)
  else
    let s := ((s.setTasks (markThreads s.sched.tasks pid)).freeBlocks pid).freeStackptr pid
    ({ s with taskCount := s.taskCount - 1 }.setTasks (resetSlot s.sched.tasks pid), 0)

/-! ## System calls -/

/-- `syscall_malloc`. -/
def syscallMalloc (size : Int) (answer : Nat) : TaskSystem × Nat :=
  if size ≤ 0 then (s, 0)
  else
    match s.sched.current with
    | none => (s, 0)
    | some t =>
      ((s.heapManagerMalloc (s.task t).heapManager answer).setTable t
        fun table => allocationTableAdd table answer size.toNat, answer)

/-- `syscall_free`. -/
def syscallFree (address : Nat) : TaskSystem :=
  match s.sched.current with
  | none => s
  | some t =>
    let table := (s.task t).threadAllocationTable
    (s.heapManagerFree t (s.task t).heapManager address (table.records address)).setTable t
      fun table => allocationTableRemove table address

end TaskSystem

/-! ## The creation calls -/

/-- A call of `task_create_kthread` or `task_create_thread_process`, with a name that fits. -/
inductive CreateCall where
  | kthread (name : TaskName) (entry : Nat) (argc : Int) (answers : HeapAnswers)
  | thread (name : TaskName) (parent entry arg stack stackVariable : Nat)

namespace CreateCall

/-- The mode of the task. -/
def mode : CreateCall → TaskMode
  | kthread .. => .kthread
  | thread .. => .thread

/-- The kernel stack. -/
def stack : CreateCall → Nat
  | kthread _ _ _ answers => answers.stack
  | thread _ _ _ _ stack _ => stack

/-- The argument vector and the argument strings. -/
def argvBlocks : CreateCall → Multiset Nat
  | kthread _ _ argc answers =>
    if argc = 0 then 0
    else answers.vector ::ₘ (Multiset.range argc.toNat).map answers.string
  | thread .. => 0

/-- The blocks that the creation takes. -/
def blocks (c : CreateCall) : Multiset Nat := c.stack ::ₘ c.argvBlocks

/-- The heap refuses none of the allocations, and there is a user stack for a thread. -/
def Served (c : CreateCall) (s : TaskSystem) : Prop :=
  match c with
  | kthread _ _ argc answers =>
    answers.stack ≠ 0 ∧
      (argc ≠ 0 → answers.vector ≠ 0 ∧ ∀ k, k < argc.toNat → answers.string k ≠ 0)
  | thread _ _ _ _ stack _ => stack ≠ 0 ∧ freeStack s.userStacks ≠ none

end CreateCall

/-- The call, and what it returns. -/
def TaskSystem.create (s : TaskSystem) : CreateCall → TaskSystem × Int
  | .kthread name entry argc answers => s.createKthread name.name entry argc answers
  | .thread name parent entry arg stack stackVariable =>
    s.createThreadProcess name.name parent entry arg stack stackVariable

variable {s s' s'' : TaskSystem} {i : Nat} {b b' : Multiset Nat}

/-! ## What a creation does outside its slot -/

/-- The block of the kernel stack. -/
def Task.stackBlock (task : Task) : Multiset Nat :=
  if task.stackptr ≠ 0 then {task.stackptr} else 0

/-- Slot `i` is changed, and the blocks are taken from the heap of the kernel. Of other tasks only
the links may change, and the same task is current. -/
structure Touches (s s' : TaskSystem) (i : Nat) (b : Multiset Nat) : Prop where
  others : ∀ j, j ≠ i → s'.task j = { s.task j with next := (s'.task j).next }
  heaps : s'.heaps = Function.update s.heaps kernelHeap (s.heaps kernelHeap + b)
  table : (s'.task i).threadAllocationTable = (s.task i).threadAllocationTable
  stackBlock : (s'.task i).stackBlock ≤ (s.task i).stackBlock + b
  current : s'.sched.current = s.sched.current
  kthreadEntry : s'.kthreadEntry = s.kthreadEntry

namespace TaskSystem

variable (s) (f : Task → Task)

theorem setTask_sched (i : Nat) : (s.setTask i f).sched =
    { s.sched with tasks := Function.update s.sched.tasks i (f (s.task i)) } := rfl

theorem setTask_self (i : Nat) : (s.setTask i f).task i = f (s.task i) :=
  Function.update_self ..

theorem setTask_of_ne {i j : Nat} (h : j ≠ i) : (s.setTask i f).task j = s.task j :=
  Function.update_of_ne h ..

theorem setTask_setTask (i : Nat) (g : Task → Task) :
    (s.setTask i f).setTask i g = s.setTask i fun task => g (f task) := by
  have hslot := s.setTask_self f i
  unfold setTask setTasks at hslot ⊢
  rw [hslot]
  simp only [Function.update_idem]

theorem setTask_id (i : Nat) (hf : f (s.task i) = s.task i) : s.setTask i f = s := by
  unfold setTask setTasks
  rw [hf]
  unfold task
  rw [Function.update_eq_self]

/-- A name that fits changes nothing else. -/
theorem copyName_of_lt (i : Nat) {name : List UInt8} (hname : name.length < taskNameLength) :
    s.copyName i name = s := by
  have hspill : (name ++ [0]).drop taskNameLength = [] := by
    rw [List.drop_eq_nil_iff, List.length_append]
    exact hname
  unfold copyName
  rw [hspill]
  exact s.setTask_id (fun task => task) i rfl

theorem setTable_self (g : AllocationTable → AllocationTable) (i : Nat) : (s.setTable i g).task i =
    { s.task i with threadAllocationTable := g (s.task i).threadAllocationTable } :=
  s.setTask_self ..

theorem setTable_of_ne (g : AllocationTable → AllocationTable) {i j : Nat} (h : j ≠ i) :
    (s.setTable i g).task j = s.task j := s.setTask_of_ne _ h

theorem heapManagerMalloc_heaps (h : Nat) {answer : Nat} (hanswer : answer ≠ 0) :
    (s.heapManagerMalloc (some h) answer).heaps =
      Function.update s.heaps h (s.heaps h + {answer}) := by
  unfold heapManagerMalloc
  simp only [if_neg hanswer]
  rw [add_comm, Multiset.singleton_add]

/-- Only the heaps change. -/
theorem heapManagerMalloc_rest (heap : Option Nat) (answer : Nat) :
    (s.heapManagerMalloc heap answer).sched = s.sched ∧
      (s.heapManagerMalloc heap answer).taskCount = s.taskCount ∧
      (s.heapManagerMalloc heap answer).userStacks = s.userStacks ∧
      (s.heapManagerMalloc heap answer).freed = s.freed ∧
      (s.heapManagerMalloc heap answer).kthreadEntry = s.kthreadEntry := by
  unfold heapManagerMalloc
  split
  · exact ⟨rfl, rfl, rfl, rfl, rfl⟩
  · split <;> exact ⟨rfl, rfl, rfl, rfl, rfl⟩

theorem heapManagerMalloc_task (heap : Option Nat) (answer j : Nat) :
    (s.heapManagerMalloc heap answer).task j = s.task j := by
  unfold task
  rw [(s.heapManagerMalloc_rest heap answer).1]

theorem heapManagerFree_task (task : Nat) (heap : Option Nat) (address : Nat) (recorded : Bool)
    (j : Nat) : (s.heapManagerFree task heap address recorded).task j = s.task j := by
  unfold heapManagerFree
  split <;> rfl

theorem syscallMalloc_some {t : Nat} {size : Int} (hcurrent : s.sched.current = some t)
    (hsize : 0 < size) (answer : Nat) : s.syscallMalloc size answer =
      ((s.heapManagerMalloc (s.task t).heapManager answer).setTable t
        fun table => allocationTableAdd table answer size.toNat, answer) := by
  unfold syscallMalloc
  rw [if_neg (not_le.mpr hsize), hcurrent]

theorem syscallFree_some {t : Nat} (hcurrent : s.sched.current = some t) (address : Nat) :
    s.syscallFree address =
      (s.heapManagerFree t (s.task t).heapManager address
        ((s.task t).threadAllocationTable.records address)).setTable t
        fun table => allocationTableRemove table address := by
  unfold syscallFree
  rw [hcurrent]

/-- The system calls change allocation tables only. -/
theorem syscallMalloc_task (size : Int) (answer j : Nat) : (s.syscallMalloc size answer).1.task j =
    { s.task j with
      threadAllocationTable := ((s.syscallMalloc size answer).1.task j).threadAllocationTable } := by
  unfold syscallMalloc
  split
  · rfl
  · split
    · rfl
    · next t _ =>
      by_cases hj : j = t
      · rw [hj, setTable_self, heapManagerMalloc_task]
      · rw [setTable_of_ne _ _ hj, heapManagerMalloc_task]

theorem syscallMalloc_taskCount (size : Int) (answer : Nat) :
    (s.syscallMalloc size answer).1.taskCount = s.taskCount := by
  unfold syscallMalloc
  split
  · rfl
  · split
    · rfl
    · exact (s.heapManagerMalloc_rest ..).2.1

theorem syscallFree_task (address j : Nat) : (s.syscallFree address).task j =
    { s.task j with
      threadAllocationTable := ((s.syscallFree address).task j).threadAllocationTable } := by
  unfold syscallFree
  split
  · rfl
  · next t _ =>
    by_cases hj : j = t
    · rw [hj, setTable_self, heapManagerFree_task]
    · rw [setTable_of_ne _ _ hj, heapManagerFree_task]

theorem syscallFree_taskCount (address : Nat) :
    (s.syscallFree address).taskCount = s.taskCount := by
  unfold syscallFree heapManagerFree
  split
  · rfl
  · split <;> rfl

end TaskSystem

namespace Touches

theorem trans (h : Touches s s' i b) (h' : Touches s' s'' i b') : Touches s s'' i (b + b') where
  others j hj := by
    rw [h'.others j hj, h.others j hj]
  heaps := by
    rw [h'.heaps, h.heaps, Function.update_self, Function.update_idem, add_assoc]
  table := h'.table.trans h.table
  stackBlock := by
    calc (s''.task i).stackBlock ≤ (s'.task i).stackBlock + b' := h'.stackBlock
      _ ≤ (s.task i).stackBlock + b + b' := add_le_add_left h.stackBlock b'
      _ = (s.task i).stackBlock + (b + b') := add_assoc ..
  current := h'.current.trans h.current
  kthreadEntry := h'.kthreadEntry.trans h.kthreadEntry

theorem heaps_zero (heaps : Nat → Multiset Nat) :
    heaps = Function.update heaps kernelHeap (heaps kernelHeap + 0) := by
  rw [add_zero, Function.update_eq_self]

/-- The slot is changed, but for its allocation table and its kernel stack. -/
theorem setTask {f : Task → Task}
    (htable : (f (s.task i)).threadAllocationTable = (s.task i).threadAllocationTable)
    (hstack : (f (s.task i)).stackptr = (s.task i).stackptr) :
    Touches s (s.setTask i f) i 0 where
  others j hj := by rw [s.setTask_of_ne f hj]
  heaps := heaps_zero _
  table := by rw [s.setTask_self f, htable]
  stackBlock := by
    rw [s.setTask_self f, add_zero]
    unfold Task.stackBlock
    rw [hstack]
  current := rfl
  kthreadEntry := rfl

/-- A block is taken, and the slot is changed, but for its allocation table. -/
theorem malloc {f : Task → Task} {answer : Nat} (hanswer : answer ≠ 0)
    (htable : (f (s.task i)).threadAllocationTable = (s.task i).threadAllocationTable)
    (hstack : (f (s.task i)).stackptr = (s.task i).stackptr ∨
      (f (s.task i)).stackptr = answer) :
    Touches s ((s.heapManagerMalloc (some kernelHeap) answer).setTask i f) i {answer} where
  others j hj := by
    rw [TaskSystem.setTask_of_ne _ f hj, s.heapManagerMalloc_task]
  heaps := s.heapManagerMalloc_heaps kernelHeap hanswer
  table := by rw [TaskSystem.setTask_self, s.heapManagerMalloc_task, htable]
  stackBlock := by
    rw [TaskSystem.setTask_self, s.heapManagerMalloc_task]
    unfold Task.stackBlock
    rcases hstack with hstack | hstack
    · rw [hstack]
      exact Multiset.le_add_right _ _
    · rw [hstack, if_pos hanswer]
      exact Multiset.le_add_left _ _
  current := by
    show (s.heapManagerMalloc (some kernelHeap) answer).sched.current = s.sched.current
    rw [(s.heapManagerMalloc_rest ..).1]
  kthreadEntry := (s.heapManagerMalloc_rest ..).2.2.2.2

end Touches

end Xylophone
