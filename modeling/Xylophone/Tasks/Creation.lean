import Xylophone.Tasks.Task

/-!
# What comes of a creation

`task_create_kthread` and `task_create_thread_process` take the first free slot, then a kernel
stack, and then the argument vector or a user stack. Where one of these is refused they return -1
and leave the slot as it is then.

* `create_cases` — a creation finds no slot, or it is served, or it fails
-/

namespace Xylophone

open Infra

variable {s s' s'' : TaskSystem} {i : Nat} {b b' : Multiset Nat}

/-! ## The argument vector -/

/-- The argument vector of slot `i` is being filled. -/
structure Fills (s s' : TaskSystem) (i : Nat) (b : Multiset Nat) : Prop
    extends Touches s s' i b where
  userStacks : s'.userStacks = s.userStacks
  taskCount : s'.taskCount = s.taskCount
  slot : ∃ argv args, s'.task i = { s.task i with argv := argv, args := args }

namespace Fills

theorem refl (s : TaskSystem) (i : Nat) : Fills s s i 0 where
  others := fun _ _ => rfl
  heaps := Touches.heaps_zero _
  table := rfl
  stackBlock := Multiset.le_add_right _ _
  current := rfl
  kthreadEntry := rfl
  userStacks := rfl
  taskCount := rfl
  slot := ⟨_, _, rfl⟩

theorem trans (h : Fills s s' i b) (h' : Fills s' s'' i b') : Fills s s'' i (b + b') where
  toTouches := h.toTouches.trans h'.toTouches
  userStacks := h'.userStacks.trans h.userStacks
  taskCount := h'.taskCount.trans h.taskCount
  slot := by
    obtain ⟨argv, args, hslot⟩ := h.slot
    obtain ⟨argv', args', hslot'⟩ := h'.slot
    exact ⟨argv', args', by rw [hslot', hslot]⟩

/-- Only the slot is changed. -/
theorem setTask {f : Task → Task}
    (hf : ∃ argv args, f (s.task i) = { s.task i with argv := argv, args := args }) :
    Fills s (s.setTask i f) i 0 := by
  obtain ⟨argv, args, heq⟩ := hf
  exact {
    toTouches := Touches.setTask (by rw [heq]) (by rw [heq])
    userStacks := rfl
    taskCount := rfl
    slot := ⟨argv, args, by rw [s.setTask_self f, heq]⟩ }

/-- A block is taken, and the slot is changed. -/
theorem malloc {f : Task → Task} {answer : Nat} (hanswer : answer ≠ 0)
    (hf : ∃ argv args, f (s.task i) = { s.task i with argv := argv, args := args }) :
    Fills s ((s.heapManagerMalloc (some kernelHeap) answer).setTask i f) i {answer} := by
  obtain ⟨argv, args, heq⟩ := hf
  exact {
    toTouches := Touches.malloc hanswer (by rw [heq]) (Or.inl (by rw [heq]))
    userStacks := (s.heapManagerMalloc_rest ..).2.2.1
    taskCount := (s.heapManagerMalloc_rest ..).2.1
    slot := ⟨argv, args, by rw [TaskSystem.setTask_self, s.heapManagerMalloc_task, heq]⟩ }

end Fills

/-- The loop over the arguments succeeds if none of the strings is refused. -/
theorem createStrings_spec (s : TaskSystem) (i : Nat) (string : Nat → Nat) (n : Nat) :
    ∃ b, Fills s (s.createStrings i string n).1 i b ∧
      ((s.createStrings i string n).2 = true ↔ ∀ k, k < n → string k ≠ 0) ∧
      ((s.createStrings i string n).2 = true → b = (Multiset.range n).map string) := by
  induction n with
  | zero =>
    exact ⟨0, Fills.refl s i, ⟨fun _ k hk => absurd hk (Nat.not_lt_zero k), fun _ => rfl⟩,
      fun _ => rfl⟩
  | succ n ih =>
    obtain ⟨b, hfills, hiff, hblocks⟩ := ih
    rw [TaskSystem.createStrings]
    cases hr : s.createStrings i string n with
    | mk s₁ ok =>
      rw [hr] at hfills hiff hblocks
      cases ok with
      | false =>
        refine ⟨b, hfills, ⟨fun h => (by cases h), fun hall => ?_⟩, fun h => (by cases h)⟩
        exact hiff.mpr fun k hk => hall k (Nat.lt_succ_of_lt hk)
      | true =>
        simp only []
        by_cases hn : string n = 0
        · rw [if_pos hn]
          refine ⟨b, hfills, ⟨fun h => (by cases h), fun hall => ?_⟩, fun h => (by cases h)⟩
          exact absurd hn (hall n (Nat.lt_succ_self n))
        · rw [if_neg hn]
          have hnext : Fills s₁ ((s₁.heapManagerMalloc (some kernelHeap) (string n)).setTask i
              fun task => { task with
                argv := task.argv.map fun v => { v with strings := v.strings ++ [string n] } })
              i {string n} := Fills.malloc hn ⟨_, _, rfl⟩
          refine ⟨b + {string n}, hfills.trans hnext, ⟨fun _ k hk => ?_, fun _ => rfl⟩,
            fun _ => ?_⟩
          · rcases Nat.lt_succ_iff_lt_or_eq.mp hk with hlt | rfl
            · exact hiff.mp rfl k hlt
            · exact hn
          · rw [hblocks rfl, Multiset.range_succ, Multiset.map_cons, add_comm,
              Multiset.singleton_add]

/-- The argument vector is created if neither it nor one of the strings is refused. -/
theorem createArgv_spec (s : TaskSystem) (i : Nat) (name : TaskName) (entry : Nat) (argc : Int)
    (answers : HeapAnswers) :
    ∃ b, Fills s (s.createArgv i argc answers).1 i b ∧
      ((s.createArgv i argc answers).2 = true ↔
        (argc ≠ 0 → answers.vector ≠ 0 ∧ ∀ k, k < argc.toNat → answers.string k ≠ 0)) ∧
      ((s.createArgv i argc answers).2 = true →
        b = (CreateCall.kthread name entry argc answers).argvBlocks) := by
  unfold TaskSystem.createArgv CreateCall.argvBlocks
  by_cases hargc : argc = 0
  · rw [if_pos hargc]
    simp only [if_pos hargc]
    exact ⟨0, Fills.refl s i, ⟨fun _ h => absurd hargc h, fun _ => trivial⟩, fun _ => rfl⟩
  rw [if_neg hargc]
  simp only [if_neg hargc]
  by_cases hvector : answers.vector = 0
  · rw [if_pos hvector]
    have hnull : Fills s (s.setTask i fun task => { task with argv := none }) i 0 :=
      Fills.setTask ⟨_, _, rfl⟩
    refine ⟨0, hnull, ⟨fun h => (by cases h), fun h => ?_⟩, fun h => (by cases h)⟩
    exact absurd hvector (h hargc).1
  rw [if_neg hvector]
  have hmalloc : Fills s ((s.heapManagerMalloc (some kernelHeap) answers.vector).setTask i
      fun task => { task with argv := some ⟨answers.vector, []⟩ }) i {answers.vector} :=
    Fills.malloc hvector ⟨_, _, rfl⟩
  obtain ⟨b, hfills, hiff, hblocks⟩ := createStrings_spec
    ((s.heapManagerMalloc (some kernelHeap) answers.vector).setTask i
      fun task => { task with argv := some ⟨answers.vector, []⟩ }) i answers.string argc.toNat
  split
  · next s₁ hr =>
    rw [hr] at hfills hiff
    refine ⟨{answers.vector} + b, hmalloc.trans hfills, ⟨fun h => (by cases h), fun h => ?_⟩,
      fun h => (by cases h)⟩
    exact hiff.mpr (h hargc).2
  · next s₁ hr =>
    rw [hr] at hfills hiff hblocks
    have hargs : Fills s₁ (s₁.setTask i fun task => { task with args := (argc % 2 ^ 32).toNat })
        i 0 := Fills.setTask ⟨_, _, rfl⟩
    refine ⟨{answers.vector} + b + 0, (hmalloc.trans hfills).trans hargs,
      ⟨fun _ _ => ⟨hvector, hiff.mp rfl⟩, fun _ => rfl⟩, fun _ => ?_⟩
    rw [add_zero, hblocks rfl, Multiset.singleton_add]

/-! ## The creation calls -/

/-- The call succeeded, and its task is in slot `i`. -/
structure Created (s s' : TaskSystem) (c : CreateCall) (i : Nat) : Prop where
  touches : Touches s s' i c.blocks
  state : (s'.task i).state = .created
  mode : (s'.task i).mode = c.mode
  stackptr : (s'.task i).stackptr = c.stack
  pid : (s'.task i).pid = i
  taskCount : s'.taskCount = s.taskCount + 1
  userStacks : match c with
    | .kthread .. => s'.userStacks = s.userStacks
    | .thread .. => ∃ k, freeStack s.userStacks = some k ∧
        s'.userStacks = setInUse s.userStacks k true

/-- The call failed when it had taken slot `i`. -/
structure Failed (s s' : TaskSystem) (i : Nat) : Prop where
  touches : ∃ b, Touches s s' i b
  state : (s'.task i).state = .created
  mode : (s'.task i).mode = .kthread
  taskCount : s'.taskCount = s.taskCount
  userStacks : s'.userStacks = s.userStacks

/-- What comes of a creation. -/
inductive Creation (s : TaskSystem) (c : CreateCall) : Prop where
  | full (hfull : freeTask s.sched.tasks = none) (hresult : s.create c = (s, -1))
  | created (i : Nat) (s' : TaskSystem) (hfree : freeTask s.sched.tasks = some i)
    (hserved : c.Served s) (hcreated : Created s s' c i) (hresult : s.create c = (s', (i : Int)))
  | failed (i : Nat) (s' : TaskSystem) (hfree : freeTask s.sched.tasks = some i)
    (hrefused : ¬c.Served s) (hfailed : Failed s s' i) (hresult : s.create c = (s', -1))

namespace TaskSystem

/-- The slot after `get_free_task`. -/
def takenSlot (s : TaskSystem) (i : Nat) : TaskSystem :=
  s.setTask i fun task => { task with
    pid := i, state := .created, mode := .kthread, pagingManager := none, heapManager := none }

theorem getFreeTask_some (h : freeTask s.sched.tasks = some i) :
    s.getFreeTask = (s.takenSlot i, some i) := by
  unfold getFreeTask
  rw [h]
  rfl

theorem getFreeTask_none (h : freeTask s.sched.tasks = none) : s.getFreeTask = (s, none) := by
  unfold getFreeTask
  rw [h]

/-- `scheduler_add` of a task that is not running yet changes links only. -/
theorem addTask_task (s : TaskSystem) {i : Nat} (h : (s.task i).state = .created) (j : Nat) :
    (s.addTask i).task j = { s.task j with next := ((s.addTask i).task j).next } := by
  have htasks : (s.addTask i).sched.tasks =
      (taskQueuePush s.sched.tasks s.sched.readyQueue i).1 := by
    have hcreated : ¬(s.sched.tasks i).state ≠ .created := not_not_intro h
    unfold addTask schedulerAdd enqueueReady
    simp only [if_neg hcreated]
  show (s.addTask i).sched.tasks j = { s.task j with next := ((s.addTask i).sched.tasks j).next }
  rw [htasks]
  exact push_fields ..

end TaskSystem

theorem Touches.addTask (h : (s.task i).state = .created) : Touches s (s.addTask i) i 0 where
  others j _ := s.addTask_task h j
  heaps := heaps_zero _
  table := by rw [s.addTask_task h i]
  stackBlock := by
    rw [s.addTask_task h i, add_zero]
    exact le_refl _
  current := rfl
  kthreadEntry := rfl

theorem Touches.takenSlot : Touches s (s.takenSlot i) i 0 := Touches.setTask rfl rfl

/-- A slot was taken, and a kernel stack for it. -/
structure Prepared (s s' : TaskSystem) (i stack : Nat) : Prop where
  touches : Touches s s' i {stack}
  state : (s'.task i).state = .created
  mode : (s'.task i).mode = .kthread
  stackptr : (s'.task i).stackptr = stack
  pid : (s'.task i).pid = i
  taskCount : s'.taskCount = s.taskCount
  userStacks : s'.userStacks = s.userStacks

theorem initKernelStack_some {stack : Nat} (h : stack ≠ 0) :
    ∃ s', (s.takenSlot i).initKernelStack i stack = (s', true) ∧ Prepared s s' i stack := by
  unfold TaskSystem.initKernelStack
  rw [if_neg h]
  refine ⟨_, rfl, ?_⟩
  have htaken : (s.takenSlot i).task i = { s.task i with
      pid := i, state := .created, mode := .kthread, pagingManager := none, heapManager := none } :=
    s.setTask_self _ i
  exact {
    touches := by
      have htouches := Touches.takenSlot.trans (Touches.malloc (s := s.takenSlot i) (i := i) h
        (f := fun task => { task with
          esp := TaskSystem.stackTop stack, ebp := TaskSystem.stackTop stack
          kesp := TaskSystem.stackTop stack, kebp := TaskSystem.stackTop stack
          stackptr := stack }) rfl (Or.inr rfl))
      rwa [zero_add] at htouches
    state := by rw [TaskSystem.setTask_self, TaskSystem.heapManagerMalloc_task, htaken]
    mode := by rw [TaskSystem.setTask_self, TaskSystem.heapManagerMalloc_task, htaken]
    stackptr := by rw [TaskSystem.setTask_self]
    pid := by rw [TaskSystem.setTask_self, TaskSystem.heapManagerMalloc_task, htaken]
    taskCount := (TaskSystem.heapManagerMalloc_rest ..).2.1
    userStacks := (TaskSystem.heapManagerMalloc_rest ..).2.2.1 }

theorem initKernelStack_none : s.initKernelStack i 0 = (s, false) := if_pos rfl

theorem failed_takenSlot : Failed s (s.takenSlot i) i where
  touches := ⟨0, .takenSlot⟩
  state := by rw [TaskSystem.takenSlot, s.setTask_self]
  mode := by rw [TaskSystem.takenSlot, s.setTask_self]
  taskCount := rfl
  userStacks := rfl

/-- **What comes of `task_create_kthread`.** -/
theorem createKthread_cases (s : TaskSystem) (name : TaskName) (entry : Nat) (argc : Int)
    (answers : HeapAnswers) : Creation s (.kthread name entry argc answers) := by
  cases hfree : freeTask s.sched.tasks with
  | none =>
    refine .full hfree ?_
    unfold TaskSystem.create TaskSystem.createKthread
    rw [TaskSystem.getFreeTask_none hfree]
  | some i =>
    have hcall : s.create (.kthread name entry argc answers) =
        s.createKthread name.name entry argc answers := rfl
    unfold TaskSystem.createKthread at hcall
    rw [TaskSystem.getFreeTask_some hfree] at hcall
    by_cases hstack : answers.stack = 0
    · refine .failed i (s.takenSlot i) hfree (fun hserved => hserved.1 hstack) failed_takenSlot ?_
      rw [hcall]
      simp only [hstack, initKernelStack_none]
    obtain ⟨s₁, hinit, hprepared⟩ := initKernelStack_some (s := s) (i := i) hstack
    simp only [hinit, TaskSystem.copyName_of_lt _ _ name.fits, TaskSystem.setTask_setTask] at hcall
    -- the fields of the task, and then its arguments
    generalize hs₂ : s₁.setTask i _ = s₂ at hcall
    have htouches₂ : Touches s₁ s₂ i 0 := hs₂ ▸ Touches.setTask rfl rfl
    have htask₂ : (s₂.task i).state = .created ∧ (s₂.task i).mode = .kthread ∧
        (s₂.task i).stackptr = answers.stack ∧ (s₂.task i).pid = i := by
      rw [← hs₂, s₁.setTask_self]
      exact ⟨hprepared.state, rfl, hprepared.stackptr, hprepared.pid⟩
    obtain ⟨b, hfills, hiff, hblocks⟩ := createArgv_spec s₂ i name entry argc answers
    obtain ⟨argv, args, hslot⟩ := hfills.slot
    have htouches : Touches s (s₂.createArgv i argc answers).1 i ({answers.stack} + 0 + b) :=
      (hprepared.touches.trans htouches₂).trans hfills.toTouches
    have hcount₂ : s₂.taskCount = s₁.taskCount := hs₂ ▸ rfl
    have hstacks₂ : s₂.userStacks = s₁.userStacks := hs₂ ▸ rfl
    cases hargv : s₂.createArgv i argc answers with
    | mk s₃ ok =>
      rw [hargv] at hcall hfills hiff hblocks hslot htouches
      have hcount : s₃.taskCount = s.taskCount :=
        (hfills.taskCount.trans hcount₂).trans hprepared.taskCount
      have hstacks : s₃.userStacks = s.userStacks :=
        (hfills.userStacks.trans hstacks₂).trans hprepared.userStacks
      replace hslot : s₃.task i = { s₂.task i with argv := argv, args := args } := hslot
      have hstate : (s₃.task i).state = .created := by rw [hslot]; exact htask₂.1
      have hmode : (s₃.task i).mode = .kthread := by rw [hslot]; exact htask₂.2.1
      cases ok with
      | false =>
        refine .failed i s₃ hfree (fun hserved => ?_) ⟨⟨_, htouches⟩, hstate, hmode, hcount, hstacks⟩
          hcall
        cases hiff.mpr hserved.2
      | true =>
        have hpid : (s₃.task i).pid = i := by rw [hslot]; exact htask₂.2.2.2
        refine .created i (s₃.addTask i) hfree ⟨hstack, hiff.mp rfl⟩ ?_
          (hcall.trans (by simp only [hpid]))
        exact {
          touches := by
            have hadded := htouches.trans (Touches.addTask hstate)
            rw [hblocks rfl, add_zero, add_zero, Multiset.singleton_add] at hadded
            exact hadded
          state := by rw [s₃.addTask_task hstate]; exact hstate
          mode := by rw [s₃.addTask_task hstate]; exact hmode
          stackptr := by
            rw [s₃.addTask_task hstate, hslot]
            exact htask₂.2.2.1
          pid := by rw [s₃.addTask_task hstate]; exact hpid
          taskCount := by rw [← hcount]; rfl
          userStacks := hstacks }

/-- **What comes of `task_create_thread_process`.** -/
theorem createThreadProcess_cases (s : TaskSystem) (name : TaskName)
    (parent entry arg stack stackVariable : Nat) :
    Creation s (.thread name parent entry arg stack stackVariable) := by
  cases hfree : freeTask s.sched.tasks with
  | none =>
    refine .full hfree ?_
    unfold TaskSystem.create TaskSystem.createThreadProcess
    rw [TaskSystem.getFreeTask_none hfree]
  | some i =>
    have hcall : s.create (.thread name parent entry arg stack stackVariable) =
        s.createThreadProcess name.name parent entry arg stack stackVariable := rfl
    unfold TaskSystem.createThreadProcess TaskSystem.initUserStack at hcall
    rw [TaskSystem.getFreeTask_some hfree] at hcall
    by_cases hstack : stack = 0
    · refine .failed i (s.takenSlot i) hfree (fun hserved => hserved.1 hstack) failed_takenSlot ?_
      rw [hcall]
      simp only [hstack, initKernelStack_none]
    obtain ⟨s₁, hinit, hprepared⟩ := initKernelStack_some (s := s) (i := i) hstack
    simp only [hinit] at hcall
    have hsame : userStackAlloc s₁.userStacks = userStackAlloc s.userStacks :=
      congrArg userStackAlloc hprepared.userStacks
    cases hpool : freeStack s.userStacks with
    | none =>
      have halloc : userStackAlloc s₁.userStacks = none := by
        rw [hsame]
        unfold userStackAlloc
        rw [hpool]
        rfl
      simp only [halloc] at hcall
      exact .failed i s₁ hfree (fun hserved => hserved.2 hpool) ⟨⟨_, hprepared.touches⟩,
        hprepared.state, hprepared.mode, hprepared.taskCount, hprepared.userStacks⟩ hcall
    | some k =>
      have halloc : userStackAlloc s₁.userStacks = some
          (setInUse s.userStacks k true, k, (s.userStacks k).base, (s.userStacks k).top) := by
        rw [hsame]
        unfold userStackAlloc
        rw [hpool]
        rfl
      simp only [halloc, TaskSystem.copyName_of_lt _ _ name.fits] at hcall
      -- the pool, and then the fields of the task, those in front of the name first
      generalize hs₂ : TaskSystem.setTask { s₁ with
        userStacks := setInUse s.userStacks k true } i _ = s₂ at hcall
      have htouches₂ : Touches { s₁ with userStacks := setInUse s.userStacks k true } s₂ i 0 :=
        hs₂ ▸ Touches.setTask rfl rfl
      have htask₂ : (s₂.task i).state = .created ∧ (s₂.task i).stackptr = stack ∧
          (s₂.task i).pid = i := by
        rw [← hs₂, TaskSystem.setTask_self]
        exact ⟨hprepared.state, hprepared.stackptr, hprepared.pid⟩
      have hcount₂ : s₂.taskCount = s₁.taskCount := hs₂ ▸ rfl
      have hstacks₂ : s₂.userStacks = setInUse s.userStacks k true := hs₂ ▸ rfl
      generalize hs₃ : s₂.setTask i _ = s₃ at hcall
      have htouches₃ : Touches s₂ s₃ i 0 := hs₃ ▸ Touches.setTask rfl rfl
      have htask₃ : (s₃.task i).state = .created ∧ (s₃.task i).mode = .thread ∧
          (s₃.task i).stackptr = stack ∧ (s₃.task i).pid = i := by
        rw [← hs₃, s₂.setTask_self]
        exact ⟨htask₂.1, rfl, htask₂.2⟩
      have hcount₃ : s₃.taskCount = s₂.taskCount := hs₃ ▸ rfl
      have hstacks₃ : s₃.userStacks = s₂.userStacks := hs₃ ▸ rfl
      generalize hs₄ : s₃.setTask i _ = s₄ at hcall
      have htouches₄ : Touches s₃ s₄ i 0 := hs₄ ▸ Touches.setTask rfl rfl
      have htask₄ : (s₄.task i).state = .created ∧ (s₄.task i).mode = .thread ∧
          (s₄.task i).stackptr = stack ∧ (s₄.task i).pid = i := by
        rw [← hs₄, s₃.setTask_self]
        exact htask₃
      have hcount₄ : s₄.taskCount = s₃.taskCount := hs₄ ▸ rfl
      have hstacks₄ : s₄.userStacks = s₃.userStacks := hs₄ ▸ rfl
      obtain ⟨hstate, hmode, hstackptr, hpid⟩ := htask₄
      refine .created i (s₄.addTask i) hfree ⟨hstack, by rw [hpool]; exact Option.some_ne_none k⟩ ?_
        (hcall.trans (by simp only [hpid]))
      exact {
        touches := by
          have hpool₁ : Touches s₁ { s₁ with userStacks := setInUse s.userStacks k true } i 0 :=
            ⟨fun _ _ => rfl, Touches.heaps_zero _, rfl, Multiset.le_add_right _ _, rfl, rfl⟩
          have hfields := (htouches₂.trans htouches₃).trans htouches₄
          have htouches := ((hprepared.touches.trans hpool₁).trans hfields).trans
            (Touches.addTask hstate)
          rwa [add_zero, add_zero, add_zero, add_zero, add_zero] at htouches
        state := by rw [s₄.addTask_task hstate]; exact hstate
        mode := by rw [s₄.addTask_task hstate]; exact hmode
        stackptr := by rw [s₄.addTask_task hstate]; exact hstackptr
        pid := by rw [s₄.addTask_task hstate]; exact hpid
        taskCount := by
          rw [← hprepared.taskCount, ← hcount₂, ← hcount₃, ← hcount₄]
          rfl
        userStacks := ⟨k, hpool, (hstacks₄.trans hstacks₃).trans hstacks₂⟩ }

/-- **What comes of a creation.** -/
theorem create_cases (s : TaskSystem) (c : CreateCall) : Creation s c := by
  cases c with
  | kthread name entry argc answers => exact createKthread_cases s name entry argc answers
  | thread name parent entry arg stack stackVariable =>
    exact createThreadProcess_cases s name parent entry arg stack stackVariable

end Xylophone
