import Xylophone.Tasks.Failures

/-!
# What `task_cleanup` gives back

A ledger records for each task what its creation took. `task_cleanup` gives back the slot and the
kernel stack; it frees neither the argument vector with its strings nor the user stack, whose slot
no field of the task holds.

* `LedgerOk.step` — the blocks of the kernel stacks are live, and the user stacks of threads are in
  use
* `given_back` — exactly a kernel thread without arguments gives everything back; and the user
  stacks in use, as long as no other task is cleaned up
* `exists_leaked_stack` — a thread is created and cleaned up
-/

namespace Xylophone

open Infra

/-! ## The ledger -/

/-- What the creation of a task took: the blocks of its call, and the slot of its user stack. -/
structure Taken where
  call : CreateCall
  userStack : Option Nat

/-- The tasks that were created and not yet cleaned up, with what they took. -/
structure Ledger where
  sys : TaskSystem
  taken : Nat → Option Taken

inductive LedgerOp where
  | create (c : CreateCall)
  | cleanup (pid : Nat)

/-- The user stack that a call takes. -/
def CreateCall.userStack (c : CreateCall) (s : TaskSystem) : Option Nat :=
  match c with
  | .kthread .. => none
  | .thread .. => freeStack s.userStacks

/-- The next state. -/
def Ledger.next (l : Ledger) : LedgerOp → Ledger
  | .create c =>
    let r := l.sys.create c
    { sys := r.1
      taken := if r.2 = -1 then l.taken
        else Function.update l.taken r.2.toNat (some ⟨c, c.userStack l.sys⟩) }
  | .cleanup pid =>
    { sys := (l.sys.taskCleanup pid).1, taken := Function.update l.taken pid none }

/-- A step, as a relation. -/
def LedgerStep (l : Ledger) (op : LedgerOp) (l' : Ledger) : Prop := l.next op = l'

/-- Everything that the creation of the task in slot `pid` took is given back. -/
structure GivenBack (s s' : TaskSystem) (pid : Nat) (t : Taken) : Prop where
  slot : (s'.task pid).state = .stopped
  blocks : s.heaps kernelHeap = s'.heaps kernelHeap + t.call.blocks
  userStack : ∀ k, t.userStack = some k → (s'.userStacks k).inUse = false

/-- A kernel thread without arguments. -/
def CreateCall.Bare : CreateCall → Prop
  | .kthread _ _ argc _ => argc = 0
  | .thread .. => False

/-- Of the tasks that were created, only kernel threads without arguments are cleaned up. -/
def OnlyBare (l : Ledger) (op : LedgerOp) : Prop :=
  ∀ pid t, op = .cleanup pid → l.taken pid = some t → t.call.Bare

/-- A thread counts. -/
def threadCount : Option Taken → Nat
  | some ⟨.thread .., _⟩ => 1
  | _ => 0

/-- The number of threads that were created and not yet cleaned up. -/
def Ledger.threads (l : Ledger) : Nat := total tasksMax fun i => threadCount (l.taken i)

variable {l l' : Ledger} {op : LedgerOp} {s s' : TaskSystem} {i pid : Nat} {t : Taken}

/-- A call that returns -1 leaves the ledger as it is. -/
theorem Ledger.next_failed {c : CreateCall} (h : l.sys.create c = (s', -1)) :
    l.next (.create c) = ⟨s', l.taken⟩ := by
  show (⟨(l.sys.create c).1, if (l.sys.create c).2 = -1 then _ else _⟩ : Ledger) = _
  rw [h]
  rfl

/-- A task that is created is entered. -/
theorem Ledger.next_created {c : CreateCall} (h : l.sys.create c = (s', (i : Int))) :
    l.next (.create c) = ⟨s', Function.update l.taken i (some ⟨c, c.userStack l.sys⟩)⟩ := by
  have hne : (i : Int) ≠ -1 := by omega
  show (⟨(l.sys.create c).1, if (l.sys.create c).2 = -1 then _ else _⟩ : Ledger) = _
  rw [h]
  simp only [if_neg hne, Int.toNat_natCast]

/-- What is in the ledger after a creation. -/
theorem Ledger.taken_create {c : CreateCall} (ht : (l.next (.create c)).taken pid = some t) :
    t.call = c ∨ l.taken pid = some t := by
  replace ht : (if (l.sys.create c).2 = -1 then l.taken
      else Function.update l.taken (l.sys.create c).2.toNat (some ⟨c, c.userStack l.sys⟩)) pid =
      some t := ht
  split at ht
  · exact Or.inr ht
  · by_cases hpid : pid = (l.sys.create c).2.toNat
    · rw [hpid, Function.update_self] at ht
      exact Or.inl (congrArg Taken.call (Option.some.inj ht)).symm
    · rw [Function.update_of_ne hpid] at ht
      exact Or.inr ht

/-! ## The invariant -/

/-- What the ledger says of a slot. -/
structure TakenOk (s : TaskSystem) (i : Nat) (t : Taken) : Prop where
  lt : i < tasksMax
  used : (s.task i).state ≠ .stopped
  stackptr : (s.task i).stackptr = t.call.stack
  stack : t.call.stack ≠ 0
  userStack : match t.call with
    | .kthread .. => t.userStack = none
    | .thread .. => ∃ k, t.userStack = some k ∧ (s.userStacks k).inUse = true

/-- The kernel stacks are live blocks, and tasks have recorded no blocks. -/
structure LedgerOk (l : Ledger) : Prop where
  stackBlocks : total tasksMax (fun i => (l.sys.task i).stackBlock) ≤ l.sys.heaps kernelHeap
  tables : ∀ i, (l.sys.task i).threadAllocationTable.recorded = 0
  mode : ∀ i, (l.sys.task i).mode ≠ .process
  taken : ∀ i t, l.taken i = some t → TakenOk l.sys i t

theorem CreateCall.mode_ne (c : CreateCall) : c.mode ≠ .process := by
  cases c <;> exact TaskMode.noConfusion

/-- A slot that is free has no entry. -/
theorem LedgerOk.notTaken (h : LedgerOk l) (hfree : freeTask l.sys.sched.tasks = some i) :
    l.taken i = none := by
  cases htaken : l.taken i with
  | none => rfl
  | some t => exact absurd (freeTask_some hfree).1 (h.taken i t htaken).used

/-- The slot keeps its kernel stack and stays in use, and user stacks in use stay so. -/
theorem TakenOk.keep (h : TakenOk s i t) (hused : (s'.task i).state ≠ .stopped)
    (hstackptr : (s'.task i).stackptr = (s.task i).stackptr)
    (hstacks : ∀ k, (s.userStacks k).inUse = true → (s'.userStacks k).inUse = true) :
    TakenOk s' i t where
  lt := h.lt
  used := hused
  stackptr := hstackptr.trans h.stackptr
  stack := h.stack
  userStack := by
    have huser := h.userStack
    cases hcall : t.call with
    | kthread name entry argc answers =>
      rw [hcall] at huser
      exact huser
    | thread name parent entry arg stack stackVariable =>
      rw [hcall] at huser
      obtain ⟨k, hk, hinUse⟩ := huser
      exact ⟨k, hk, hstacks k hinUse⟩

/-- A creation that touches slot `i` keeps the kernel stacks live. -/
theorem Touches.stackBlocks {b : Multiset Nat} (h : Touches s s' i b) (hi : i < tasksMax)
    (hle : total tasksMax (fun i => (s.task i).stackBlock) ≤ s.heaps kernelHeap) :
    total tasksMax (fun i => (s'.task i).stackBlock) ≤ s'.heaps kernelHeap := by
  have hchange := total_change (f := fun j => (s.task j).stackBlock)
    (g := fun j => (s'.task j).stackBlock) hi fun j _ hj => by
      rw [h.others j hj]
      rfl
  rw [h.heaps, Function.update_self]
  refine le_trans ?_ (add_le_add_left hle b)
  refine le_of_add_le_add_right (a := (s.task i).stackBlock) ?_
  calc total tasksMax (fun j => (s'.task j).stackBlock) + (s.task i).stackBlock
      = total tasksMax (fun j => (s.task j).stackBlock) + (s'.task i).stackBlock := hchange
    _ ≤ total tasksMax (fun j => (s.task j).stackBlock) + ((s.task i).stackBlock + b) :=
        add_le_add_right h.stackBlock _
    _ = total tasksMax (fun j => (s.task j).stackBlock) + b + (s.task i).stackBlock := by
        rw [add_comm (s.task i).stackBlock b, add_assoc]

/-- What a creation touches is not in the ledger. -/
theorem LedgerOk.touched {b : Multiset Nat} (h : LedgerOk l)
    (hfree : freeTask l.sys.sched.tasks = some i) (htouches : Touches l.sys s' i b)
    (hmode : (s'.task i).mode ≠ .process)
    (hstacks : ∀ k, (l.sys.userStacks k).inUse = true → (s'.userStacks k).inUse = true) :
    LedgerOk ⟨s', l.taken⟩ where
  stackBlocks := htouches.stackBlocks (freeTask_some hfree).2 h.stackBlocks
  tables j := by
    show (s'.task j).threadAllocationTable.recorded = 0
    by_cases hji : j = i
    · rw [hji, htouches.table]
      exact h.tables i
    · rw [htouches.others j hji]
      exact h.tables j
  mode j := by
    show (s'.task j).mode ≠ .process
    by_cases hji : j = i
    · rw [hji]
      exact hmode
    · rw [htouches.others j hji]
      exact h.mode j
  taken j t ht := by
    have hji : j ≠ i := by
      rintro rfl
      have hnone := h.notTaken hfree
      rw [show l.taken j = some t from ht] at hnone
      cases hnone
    refine (h.taken j t ht).keep ?_ ?_ hstacks
    · rw [htouches.others j hji]
      exact (h.taken j t ht).used
    · rw [htouches.others j hji]

/-- User stacks in use stay in use when a task is created. -/
theorem Created.stacksKept {c : CreateCall} (h : Created s s' c i) (k : Nat)
    (hk : (s.userStacks k).inUse = true) : (s'.userStacks k).inUse = true := by
  have huser := h.userStacks
  cases c with
  | kthread name entry argc answers => rw [show s'.userStacks = s.userStacks from huser, hk]
  | thread name parent entry arg stack stackVariable =>
    obtain ⟨k', -, hset⟩ := huser
    rw [hset]
    unfold setInUse
    by_cases hkk : k = k'
    · rw [hkk, Function.update_self]
    · rw [Function.update_of_ne hkk, hk]

/-- **A creation keeps the invariant.** -/
theorem LedgerOk.create (h : LedgerOk l) (c : CreateCall) : LedgerOk (l.next (.create c)) := by
  cases create_cases l.sys c with
  | full _ hresult =>
    rw [Ledger.next_failed hresult]
    exact ⟨h.stackBlocks, h.tables, h.mode, h.taken⟩
  | failed i s₁ hfree _ hfailed hresult =>
    obtain ⟨b, htouches⟩ := hfailed.touches
    rw [Ledger.next_failed hresult]
    refine h.touched hfree htouches ?_ fun k hk => ?_
    · rw [hfailed.mode]
      exact TaskMode.noConfusion
    · rw [hfailed.userStacks, hk]
  | created i s₁ hfree hserved hcreated hresult =>
    have hother := h.touched hfree hcreated.touches (by rw [hcreated.mode]; exact c.mode_ne)
      hcreated.stacksKept
    rw [Ledger.next_created hresult]
    refine ⟨hother.stackBlocks, hother.tables, hother.mode, fun j t ht => ?_⟩
    by_cases hji : j = i
    · subst hji
      replace ht : Function.update l.taken j (some ⟨c, c.userStack l.sys⟩) j = some t := ht
      rw [Function.update_self] at ht
      obtain rfl := Option.some.inj ht
      refine ⟨(freeTask_some hfree).2, ?_, hcreated.stackptr, ?_, ?_⟩
      · rw [hcreated.state]
        exact TaskState.noConfusion
      · cases c with
        | kthread name entry argc answers => exact hserved.1
        | thread name parent entry arg stack stackVariable => exact hserved.1
      · cases c with
        | kthread name entry argc answers => rfl
        | thread name parent entry arg stack stackVariable =>
          obtain ⟨k, hk, hset⟩ := hcreated.userStacks
          refine ⟨k, ?_, ?_⟩
          · simp only [CreateCall.userStack]
            exact hk
          · show (s₁.userStacks k).inUse = true
            rw [hset]
            unfold setInUse
            rw [Function.update_self]
    · replace ht : Function.update l.taken i (some ⟨c, c.userStack l.sys⟩) j = some t := ht
      rw [Function.update_of_ne hji] at ht
      exact hother.taken j t ht

/-- The kernel stack is all that is freed. -/
theorem LedgerOk.cleaned_heap (h : LedgerOk l) (hclean : Cleaned l.sys s' pid) :
    s'.heaps kernelHeap = l.sys.heaps kernelHeap - (l.sys.task pid).stackBlock := by
  have hnone : l.sys.freedBlocks pid = 0 := by
    unfold TaskSystem.freedBlocks
    cases hmode : (l.sys.task pid).mode with
    | process => exact absurd hmode (h.mode pid)
    | kthread => exact h.tables pid
    | thread => exact h.tables pid
  rw [hclean.heaps, hnone, heapsWithout_zero]
  show Function.update l.sys.heaps kernelHeap _ kernelHeap = _
  rw [Function.update_self]

/-- **A cleanup keeps the invariant.** -/
theorem LedgerOk.cleanup (h : LedgerOk l) (pid : Nat) : LedgerOk (l.next (.cleanup pid)) := by
  by_cases hlt : pid < tasksMax
  · have hclean := taskCleanup_spec l.sys hlt
    have hheap := h.cleaned_heap hclean
    generalize hs : (l.sys.taskCleanup pid).1 = s₁ at hclean hheap
    have hnext : l.next (.cleanup pid) = ⟨s₁, Function.update l.taken pid none⟩ := by
      rw [← hs]
      rfl
    rw [hnext]
    constructor
    · -- the account of the slot is closed
      have hchange := total_change (f := fun j => (l.sys.task j).stackBlock)
        (g := fun j => (s₁.task j).stackBlock) hlt fun j _ hj => by
          rw [hclean.fields_of_ne hj]
          rfl
      have hself : (s₁.task pid).stackBlock = 0 := by rw [hclean.task_self]; rfl
      simp only [hself, add_zero] at hchange
      show total tasksMax (fun j => (s₁.task j).stackBlock) ≤ s₁.heaps kernelHeap
      rw [hheap]
      refine le_tsub_of_add_le_right ?_
      rw [hchange]
      exact h.stackBlocks
    · intro j
      show (s₁.task j).threadAllocationTable.recorded = 0
      by_cases hj : j = pid
      · rw [hj, hclean.task_self]
        exact recorded_init
      · rw [hclean.fields_of_ne hj]
        exact h.tables j
    · intro j
      show (s₁.task j).mode ≠ .process
      by_cases hj : j = pid
      · rw [hj, hclean.task_self]
        exact TaskMode.noConfusion
      · rw [hclean.fields_of_ne hj]
        exact h.mode j
    · intro j t ht
      have hj : j ≠ pid := by
        rintro rfl
        cases (Function.update_self ..).symm.trans ht
      have hold := h.taken j t ((Function.update_of_ne hj ..).symm.trans ht)
      refine hold.keep ?_ ?_ fun k hk => ?_
      · rw [hclean.task_of_ne hj]
        show (markThreads l.sys.sched.tasks pid j).state ≠ .stopped
        unfold markThreads
        split
        · exact TaskState.noConfusion
        · exact hold.used
      · rw [hclean.fields_of_ne hj]
      · show (s₁.userStacks k).inUse = true
        rw [hclean.userStacks, hk]
  · -- the call returns -1
    have hsys : (l.sys.taskCleanup pid).1 = l.sys := by
      unfold TaskSystem.taskCleanup
      rw [if_pos (Or.inr (Nat.le_of_not_lt hlt))]
    have hnext : l.next (.cleanup pid) = ⟨l.sys, Function.update l.taken pid none⟩ := by
      show (⟨(l.sys.taskCleanup pid).1, _⟩ : Ledger) = _
      rw [hsys]
    rw [hnext]
    refine ⟨h.stackBlocks, h.tables, h.mode, fun j t ht => ?_⟩
    have hj : j ≠ pid := by
      rintro rfl
      cases (Function.update_self ..).symm.trans ht
    exact h.taken j t ((Function.update_of_ne hj ..).symm.trans ht)

/-- **Every step keeps the invariant.** -/
theorem LedgerOk.step (h : LedgerOk l) (hstep : LedgerStep l op l') : LedgerOk l' := by
  obtain rfl := hstep
  cases op with
  | create c => exact h.create c
  | cleanup pid => exact h.cleanup pid

/-! ## What is given back -/

theorem CreateCall.blocks_eq (c : CreateCall) : c.blocks = {c.stack} + c.argvBlocks :=
  (Multiset.singleton_add ..).symm

/-- Arguments take blocks. -/
theorem CreateCall.argvBlocks_eq_zero {name : TaskName} {entry : Nat} {argc : Int}
    {answers : HeapAnswers} :
    (CreateCall.kthread name entry argc answers).argvBlocks = 0 ↔ argc = 0 := by
  constructor
  · intro hzero
    by_contra hargc
    rw [show (CreateCall.kthread name entry argc answers).argvBlocks = _ from if_neg hargc] at hzero
    exact Multiset.cons_ne_zero hzero
  · exact fun hargc => if_pos hargc

/-- **Exactly a kernel thread without arguments gives everything back.** -/
theorem LedgerOk.givenBack_iff (h : LedgerOk l) (ht : l.taken pid = some t) :
    GivenBack l.sys (l.sys.taskCleanup pid).1 pid t ↔ t.call.Bare := by
  have htaken := h.taken pid t ht
  have hclean := taskCleanup_spec l.sys htaken.lt
  have hheap := h.cleaned_heap hclean
  generalize (l.sys.taskCleanup pid).1 = s₁ at hclean hheap
  have hblock : (l.sys.task pid).stackBlock = {t.call.stack} := by
    unfold Task.stackBlock
    rw [htaken.stackptr, if_pos htaken.stack]
  have hlive : {t.call.stack} ≤ l.sys.heaps kernelHeap := by
    rw [← hblock]
    exact (account_le_total (f := fun i => (l.sys.task i).stackBlock) htaken.lt).trans h.stackBlocks
  have hback : s₁.heaps kernelHeap + {t.call.stack} = l.sys.heaps kernelHeap := by
    rw [hheap, hblock]
    exact tsub_add_cancel_of_le hlive
  have huser := htaken.userStack
  cases hcall : t.call with
  | kthread name entry argc answers =>
    rw [hcall] at huser hback
    constructor
    · intro hgiven
      -- the argument vector and its strings would be nothing
      have hblocks := hgiven.blocks
      rw [hcall, ← hback, CreateCall.blocks_eq, ← add_assoc, left_eq_add] at hblocks
      exact CreateCall.argvBlocks_eq_zero.mp hblocks
    · intro hbare
      refine ⟨by rw [hclean.task_self]; rfl, ?_, fun k hk => ?_⟩
      · rw [hcall, ← hback, CreateCall.blocks_eq, CreateCall.argvBlocks_eq_zero.mpr hbare, add_zero]
      · rw [show t.userStack = none from huser] at hk
        cases hk
  | thread name parent entry arg stack stackVariable =>
    rw [hcall] at huser
    obtain ⟨k, hk, hinUse⟩ := huser
    refine ⟨fun hgiven => ?_, False.elim⟩
    -- no call frees the user stack
    have hfree := hgiven.userStack k hk
    rw [hclean.userStacks, hinUse] at hfree
    cases hfree

/-! ## The user stacks in use -/

/-- An entry of the ledger changes. -/
theorem threads_update (l : Ledger) (s' : TaskSystem) (hi : i < tasksMax) (m : Option Taken) :
    (⟨s', Function.update l.taken i m⟩ : Ledger).threads + threadCount (l.taken i) =
      l.threads + threadCount m := by
  have hchange := total_change (f := fun j => threadCount (l.taken j))
    (g := fun j => threadCount (Function.update l.taken i m j)) hi fun j _ hj => by
      rw [Function.update_of_ne hj]
  rwa [Function.update_self] at hchange

/-- The user stacks in use are those of the threads in the ledger. -/
structure StacksOk (l : Ledger) : Prop where
  ledger : LedgerOk l
  stacks_eq : stacksInUse l.sys.userStacks = l.threads

/-- **A step that cleans up no thread keeps the count.** -/
theorem StacksOk.step (h : StacksOk l) (hbare : OnlyBare l op) (hstep : LedgerStep l op l') :
    StacksOk l' := by
  refine ⟨h.ledger.step hstep, ?_⟩
  have heq := h.stacks_eq
  cases op with
  | create c =>
    obtain rfl := hstep
    cases create_cases l.sys c with
    | full _ hresult =>
      rw [Ledger.next_failed hresult]
      exact heq
    | failed i s₁ _ _ hfailed hresult =>
      rw [Ledger.next_failed hresult]
      show stacksInUse s₁.userStacks = l.threads
      rw [hfailed.userStacks, heq]
    | created i s₁ hfree _ hcreated hresult =>
      rw [Ledger.next_created hresult]
      have hupdate := threads_update l s₁ (freeTask_some hfree).2
        (some ⟨c, c.userStack l.sys⟩)
      rw [h.ledger.notTaken hfree] at hupdate
      have huser := hcreated.userStacks
      cases c with
      | kthread name entry argc answers =>
        show stacksInUse s₁.userStacks = _
        rw [show s₁.userStacks = l.sys.userStacks from huser, heq]
        exact hupdate.symm
      | thread name parent entry arg stack stackVariable =>
        obtain ⟨k, hk, hset⟩ := huser
        show stacksInUse s₁.userStacks = _
        rw [hset, stacksInUse_alloc hk, heq]
        exact hupdate.symm
  | cleanup pid =>
    obtain rfl := hstep
    show stacksInUse (l.sys.taskCleanup pid).1.userStacks = _
    by_cases hlt : pid < tasksMax
    · rw [(taskCleanup_spec l.sys hlt).userStacks, heq]
      have hupdate := threads_update l (l.sys.taskCleanup pid).1 hlt none
      have hzero : threadCount (l.taken pid) = 0 := by
        cases htaken : l.taken pid with
        | none => rfl
        | some t =>
          have hcall := hbare pid t rfl htaken
          obtain ⟨c, userStack⟩ := t
          cases c with
          | kthread name entry argc answers => rfl
          | thread name parent entry arg stack stackVariable => exact hcall.elim
      rw [hzero] at hupdate
      exact hupdate.symm
    · unfold TaskSystem.taskCleanup
      rw [if_pos (Or.inr (Nat.le_of_not_lt hlt)), heq]
      refine total_congr fun j hj => ?_
      have hne : j ≠ pid := by omega
      show _ = threadCount (Function.update l.taken pid none j)
      rw [Function.update_of_ne hne]

/-- The ledger when there are no tasks. -/
def emptyLedger (s : TaskSystem) : Ledger := ⟨s, fun _ => none⟩

theorem bootSystem_stacksOk (heaps : Nat → Multiset Nat) (data : Nat → Nat)
    (hz kernelCr3 kthreadEntry : Nat) :
    StacksOk (emptyLedger (bootSystem heaps data hz kernelCr3 kthreadEntry)) where
  ledger := {
    stackBlocks := by
      have hzero : total tasksMax (fun i => ((emptyLedger
          (bootSystem heaps data hz kernelCr3 kthreadEntry)).sys.task i).stackBlock) = 0 :=
        total_zero fun _ _ => rfl
      rw [hzero]
      exact Multiset.zero_le _
    tables := fun _ => recorded_init
    mode := fun _ => TaskMode.noConfusion
    taken := fun _ _ ht => by cases ht }
  stacks_eq := by
    show stacksInUse userStackManagerInit = total tasksMax fun _ => threadCount none
    rw [stacksInUse_init]
    exact (total_zero fun _ _ => rfl).symm

/-- **What cleaning up gives back.** In every state of a run that cleans up only kernel threads
without arguments, the user stacks in use are as many as the threads that were created and not yet
cleaned up; and of the tasks that may be cleaned up next exactly the kernel threads without
arguments give back everything. -/
theorem given_back {heaps : Nat → Multiset Nat} {data : Nat → Nat}
    {hz kernelCr3 kthreadEntry : Nat}
    (hrun : Run LedgerStep OnlyBare
      (emptyLedger (bootSystem heaps data hz kernelCr3 kthreadEntry)) l) :
    stacksInUse l.sys.userStacks = l.threads ∧
      ∀ pid t, l.taken pid = some t →
        (GivenBack l.sys (l.sys.taskCleanup pid).1 pid t ↔ t.call.Bare) := by
  have hstacks : StacksOk l := hrun.invariant (I := StacksOk)
    (fun _ _ _ h hbare hstep => h.step hbare hstep) (bootSystem_stacksOk ..)
  exact ⟨hstacks.stacks_eq, fun pid t ht => hstacks.ledger.givenBack_iff ht⟩

/-- A thread of the task in slot 0. -/
def plainThread : CreateCall := .thread .empty 0 0 0 0x1000 0

/-- The ledger after these calls, from `task_init` on. -/
def ledgerAfter (ops : List LedgerOp) : Ledger := ops.foldl Ledger.next (emptyLedger freshSystem)

/-- A kernel thread is created and cleaned up, and then a thread is created. -/
theorem given_back_freshSystem :
    (ledgerAfter [.create (plainKthread 0x1000)]).taken 0 = some ⟨plainKthread 0x1000, none⟩ ∧
      stacksInUse (ledgerAfter [.create (plainKthread 0x1000), .cleanup 0, .create
          plainThread]).sys.userStacks =
        (ledgerAfter [.create (plainKthread 0x1000), .cleanup 0, .create plainThread]).threads ∧
      ∀ pid t, (ledgerAfter [.create (plainKthread 0x1000), .cleanup 0, .create
          plainThread]).taken pid = some t →
        (GivenBack (ledgerAfter [.create (plainKthread 0x1000), .cleanup 0, .create
            plainThread]).sys
          ((ledgerAfter [.create (plainKthread 0x1000), .cleanup 0, .create
            plainThread]).sys.taskCleanup pid).1 pid t ↔ t.call.Bare) := by
  have hcreated : Run LedgerStep OnlyBare (emptyLedger freshSystem)
      (ledgerAfter [.create (plainKthread 0x1000)]) :=
    Run.single (a := .create (plainKthread 0x1000)) (fun _ _ hop => by cases hop) rfl
  have hcleaned : Run LedgerStep OnlyBare (emptyLedger freshSystem)
      (ledgerAfter [.create (plainKthread 0x1000), .cleanup 0]) := by
    refine hcreated.tail (a := .cleanup 0) (fun pid t _ ht => ?_) rfl
    rcases Ledger.taken_create ht with hcall | hnone
    · rw [hcall]
      rfl
    · cases hnone
  refine ⟨rfl, given_back (hcleaned.tail (a := .create plainThread) (fun _ _ hop => ?_) rfl)⟩
  cases hop

/-- **A user stack that is never freed.** A thread is created and cleaned up. -/
theorem exists_leaked_stack :
    ¬ ∀ l, Run LedgerStep (fun _ _ => True) (emptyLedger freshSystem) l →
      stacksInUse l.sys.userStacks = l.threads ∧ ∀ pid t, l.taken pid = some t →
        GivenBack l.sys (l.sys.taskCleanup pid).1 pid t := by
  intro hall
  have hserved : plainThread.Served freshSystem := ⟨by decide, by decide +kernel⟩
  cases create_cases freshSystem plainThread with
  | full hfull _ => exact freshSystem_free hfull
  | failed i s₁ _ hrefused _ _ => exact hrefused hserved
  | created i s₁ _ _ _ hresult =>
    have hnext := Ledger.next_created (l := emptyLedger freshSystem) hresult
    have hrun : Run LedgerStep (fun _ _ => True) (emptyLedger freshSystem)
        ((emptyLedger freshSystem).next (.create plainThread)) :=
      Run.single (a := .create plainThread) trivial rfl
    have hledger : LedgerOk ((emptyLedger freshSystem).next (.create plainThread)) :=
      (bootSystem_stacksOk ..).ledger.create plainThread
    have htaken : ((emptyLedger freshSystem).next (.create plainThread)).taken i =
        some ⟨plainThread, plainThread.userStack freshSystem⟩ := by
      rw [hnext]
      exact Function.update_self ..
    exact (hledger.givenBack_iff htaken).mp ((hall _ hrun).2 i _ htaken)

end Xylophone
