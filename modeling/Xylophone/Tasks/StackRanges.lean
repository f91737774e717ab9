import Xylophone.Tasks.Leaks

/-!
# The ranges of the user stacks

Every slot of the pool has its own range below `USERSPACE_TASK_STACK_TOP`, and a slot is given to
one thread only. So the user stacks of the threads in the ledger are disjoint. But a thread does
not start at the top of its stack: `init_user_stack` stores the address of the variable that was to
receive the top.

* `RangesOk.step` — a slot is held by one thread, and a thread keeps the pointers it started with
* `user_stacks_iff` — the pointers are at the top of the stack exactly when the address of the
  variable is the top by chance
-/

namespace Xylophone

open Infra

/-! ## The slots -/

/-- The bounds of a slot are those it was initialised with. -/
def BoundsKept (pool : Nat → UserStack) : Prop :=
  ∀ k, (pool k).base = (userStackManagerInit k).base ∧ (pool k).top = (userStackManagerInit k).top

theorem BoundsKept.setInUse {pool : Nat → UserStack} (h : BoundsKept pool) (k : Nat)
    (inUse : Bool) : BoundsKept (setInUse pool k inUse) := by
  intro j
  unfold Xylophone.setInUse
  by_cases hj : j = k
  · rw [hj, Function.update_self]
    exact h k
  · rw [Function.update_of_ne hj]
    exact h j

/-- **A slot lies between the bounds of the pool.** -/
theorem BoundsKept.inside {pool : Nat → UserStack} (h : BoundsKept pool) {k : Nat}
    (hk : k < userStacksMax) :
    userspaceTaskStackBottom ≤ (pool k).base ∧ (pool k).base < (pool k).top ∧
      (pool k).top ≤ userspaceTaskStackTop := by
  rw [(h k).1, (h k).2]
  have hmax : userStacksMax = 511 := by decide
  unfold userStackManagerInit userspaceTaskStackBottom userspaceTaskStackTop taskStackSize
  dsimp only
  omega

/-- **Two slots do not overlap.** -/
theorem BoundsKept.disjoint {pool : Nat → UserStack} (h : BoundsKept pool) {k k' : Nat}
    (hk : k < userStacksMax) (hk' : k' < userStacksMax) (hne : k ≠ k') :
    (pool k).top ≤ (pool k').base ∨ (pool k').top ≤ (pool k).base := by
  rw [(h k).1, (h k).2, (h k').1, (h k').2]
  have hmax : userStacksMax = 511 := by decide
  unfold userStackManagerInit userspaceTaskStackTop taskStackSize
  dsimp only
  omega

variable {l l' : Ledger} {op : LedgerOp} {s s' : TaskSystem} {i pid : Nat} {t : Taken}

/-! ## The pointers a thread starts with -/

/-- The address of the variable `stack_top` of `task_create_thread_process`. -/
def CreateCall.stackVariable : CreateCall → Nat
  | .kthread .. => 0
  | .thread _ _ _ _ _ stackVariable => stackVariable

/-- The stack pointers of a task. -/
def StartsAt (task : Task) (pointer : Nat) : Prop := task.esp = pointer ∧ task.ebp = pointer

/-- **A thread starts at the address of the variable.** -/
theorem createThreadProcess_startsAt {name : List UInt8} (hname : name.length < taskNameLength)
    {parent entry arg stack stackVariable : Nat} (hfree : freeTask s.sched.tasks = some i) {r : Int}
    (hr : r ≠ -1)
    (hresult : s.createThreadProcess name parent entry arg stack stackVariable = (s', r)) :
    StartsAt (s'.task i) stackVariable := by
  unfold TaskSystem.createThreadProcess TaskSystem.initUserStack at hresult
  rw [TaskSystem.getFreeTask_some hfree] at hresult
  by_cases hstack : stack = 0
  · simp only [hstack, initKernelStack_none] at hresult
    exact absurd (Prod.mk.inj hresult).2.symm hr
  obtain ⟨s₁, hinit, hprepared⟩ := initKernelStack_some (s := s) (i := i) hstack
  simp only [hinit] at hresult
  cases halloc : userStackAlloc s₁.userStacks with
  | none =>
    simp only [halloc] at hresult
    exact absurd (Prod.mk.inj hresult).2.symm hr
  | some p =>
    simp only [halloc, TaskSystem.copyName_of_lt _ _ hname, TaskSystem.setTask_setTask] at hresult
    generalize hs₂ : TaskSystem.setTask { s₁ with userStacks := p.1 } i _ = s₂ at hresult
    have htask₂ : (s₂.task i).state = .created ∧ StartsAt (s₂.task i) stackVariable := by
      rw [← hs₂, TaskSystem.setTask_self]
      exact ⟨hprepared.state, rfl, rfl⟩
    obtain ⟨rfl, -⟩ := Prod.mk.inj hresult
    rw [s₂.addTask_task htask₂.1]
    exact htask₂.2

/-! ## The invariant -/

/-- What the ledger says of a thread that holds slot `k`. -/
structure HoldsSlot (s : TaskSystem) (i : Nat) (t : Taken) (k : Nat) : Prop where
  lt : k < userStacksMax
  inUse : (s.userStacks k).inUse = true
  startsAt : StartsAt (s.task i) t.call.stackVariable

/-- A slot is held by one thread, and a thread keeps the pointers it started with. -/
structure RangesOk (l : Ledger) : Prop where
  ledger : LedgerOk l
  bounds : BoundsKept l.sys.userStacks
  holds : ∀ i t k, l.taken i = some t → t.userStack = some k → HoldsSlot l.sys i t k
  apart : ∀ i j t t' k, l.taken i = some t → l.taken j = some t' → t.userStack = some k →
    t'.userStack = some k → i = j

/-- Entries may go, and those that stay keep their slots and pointers. -/
theorem RangesOk.keep (h : RangesOk l) {taken : Nat → Option Taken} (hledger : LedgerOk ⟨s', taken⟩)
    (hbounds : BoundsKept s'.userStacks)
    (hinUse : ∀ k, (l.sys.userStacks k).inUse = true → (s'.userStacks k).inUse = true)
    (htaken : ∀ j t, taken j = some t → l.taken j = some t)
    (htasks : ∀ j t pointer, taken j = some t → StartsAt (l.sys.task j) pointer →
      StartsAt (s'.task j) pointer) : RangesOk ⟨s', taken⟩ where
  ledger := hledger
  bounds := hbounds
  holds j t k ht hk := by
    obtain ⟨hlt, huse, hstarts⟩ := h.holds j t k (htaken j t ht) hk
    exact ⟨hlt, hinUse k huse, htasks j t _ ht hstarts⟩
  apart j j' t t' k ht ht' := h.apart j j' t t' k (htaken j t ht) (htaken j' t' ht')

/-- Outside its slot a creation keeps the pointers. -/
theorem Touches.startsAt {b : Multiset Nat} (h : Touches s s' i b) {j pointer : Nat} (hj : j ≠ i)
    (hstarts : StartsAt (s.task j) pointer) : StartsAt (s'.task j) pointer := by
  rw [h.others j hj]
  exact hstarts

/-- **A creation keeps the invariant.** -/
theorem RangesOk.create (h : RangesOk l) (c : CreateCall) : RangesOk (l.next (.create c)) := by
  have hledger := h.ledger.create c
  cases create_cases l.sys c with
  | full _ hresult =>
    rw [Ledger.next_failed hresult]
    exact h
  | failed i s₁ hfree _ hfailed hresult =>
    rw [Ledger.next_failed hresult] at hledger ⊢
    obtain ⟨b, htouches⟩ := hfailed.touches
    refine h.keep hledger (by rw [hfailed.userStacks]; exact h.bounds)
      (fun k hk => by rw [hfailed.userStacks, hk]) (fun _ _ ht => ht) fun j t pointer ht => ?_
    refine htouches.startsAt ?_
    rintro rfl
    cases (h.ledger.notTaken hfree).symm.trans ht
  | created i s₁ hfree hserved hcreated hresult =>
    have hnone := h.ledger.notTaken hfree
    have hbounds : BoundsKept s₁.userStacks := by
      have huser := hcreated.userStacks
      cases c with
      | kthread name entry argc answers =>
        rw [show s₁.userStacks = l.sys.userStacks from huser]
        exact h.bounds
      | thread name parent entry arg stack stackVariable =>
        obtain ⟨k, -, hset⟩ := huser
        rw [hset]
        exact h.bounds.setInUse k true
    have hstarts : ∀ k, c.userStack l.sys = some k → StartsAt (s₁.task i) c.stackVariable := by
      intro k hk
      cases c with
      | kthread name entry argc answers => cases hk
      | thread name parent entry arg stack stackVariable =>
        have hne : (i : Int) ≠ -1 := by omega
        exact createThreadProcess_startsAt name.fits hfree hne hresult
    rw [Ledger.next_created hresult] at hledger ⊢
    -- the slot was free, so no other thread holds it
    have hfresh : ∀ j t k, l.taken j = some t → t.userStack = some k →
        c.userStack l.sys ≠ some k := by
      intro j t k ht hk hc
      cases c with
      | kthread name entry argc answers => cases hc
      | thread name parent entry arg stack stackVariable =>
        have hunused := (freeStack_some (show freeStack l.sys.userStacks = some k from hc)).2
        rw [(h.holds j t k ht hk).inUse] at hunused
        cases hunused
    have hcases : ∀ j t, Function.update l.taken i (some ⟨c, c.userStack l.sys⟩) j = some t →
        j = i ∧ t = ⟨c, c.userStack l.sys⟩ ∨ j ≠ i ∧ l.taken j = some t := by
      intro j t ht
      by_cases hj : j = i
      · subst hj
        rw [Function.update_self] at ht
        exact Or.inl ⟨rfl, (Option.some.inj ht).symm⟩
      · rw [Function.update_of_ne hj] at ht
        exact Or.inr ⟨hj, ht⟩
    refine ⟨hledger, hbounds, fun j t k ht hk => ?_, fun j j' t t' k ht ht' hk hk' => ?_⟩
    · obtain ⟨rfl, rfl⟩ | ⟨hj, ht⟩ := hcases j t ht
      · have huse := (hledger.taken j _ (Function.update_self ..)).userStack
        have hat := hstarts k hk
        cases c with
        | kthread name entry argc answers => cases hk
        | thread name parent entry arg stack stackVariable =>
          obtain ⟨k', hk', huse⟩ := huse
          obtain rfl := Option.some.inj (hk.symm.trans hk')
          simp only [CreateCall.userStack] at hk
          exact ⟨(freeStack_some hk).1, huse, hat⟩
      · obtain ⟨hlt, huse, hold⟩ := h.holds j t k ht hk
        exact ⟨hlt, hcreated.stacksKept k huse, hcreated.touches.startsAt hj hold⟩
    · obtain ⟨rfl, rfl⟩ | ⟨hj, htj⟩ := hcases j t ht <;>
        obtain ⟨rfl, rfl⟩ | ⟨hj', htj'⟩ := hcases j' t' ht'
      · rfl
      · exact absurd hk (hfresh j' t' k htj' hk')
      · exact absurd hk' (hfresh j t k htj hk)
      · exact h.apart j j' t t' k htj htj' hk hk'

/-- **A cleanup keeps the invariant.** -/
theorem RangesOk.cleanup (h : RangesOk l) (pid : Nat) : RangesOk (l.next (.cleanup pid)) := by
  have hledger := h.ledger.cleanup pid
  have hcases : ∀ j t, Function.update l.taken pid none j = some t →
      j ≠ pid ∧ l.taken j = some t := by
    intro j t ht
    have hj : j ≠ pid := by
      rintro rfl
      cases (Function.update_self ..).symm.trans ht
    rw [Function.update_of_ne hj] at ht
    exact ⟨hj, ht⟩
  by_cases hlt : pid < tasksMax
  · have hclean := taskCleanup_spec l.sys hlt
    refine h.keep hledger (by rw [hclean.userStacks]; exact h.bounds)
      (fun k hk => by rw [hclean.userStacks, hk]) (fun j t ht => (hcases j t ht).2)
      fun j t pointer ht hstarts => ?_
    rw [hclean.fields_of_ne (hcases j t ht).1]
    exact hstarts
  · have hsys : (l.sys.taskCleanup pid).1 = l.sys := by
      unfold TaskSystem.taskCleanup
      rw [if_pos (Or.inr (Nat.le_of_not_lt hlt))]
    refine h.keep hledger (by rw [hsys]; exact h.bounds) (fun k hk => by rw [hsys, hk])
      (fun j t ht => (hcases j t ht).2) fun j t pointer _ hstarts => ?_
    rw [hsys]
    exact hstarts

/-- **Every step keeps the invariant.** -/
theorem RangesOk.step (h : RangesOk l) (hstep : LedgerStep l op l') : RangesOk l' := by
  obtain rfl := hstep
  cases op with
  | create c => exact h.create c
  | cleanup pid => exact h.cleanup pid

/-! ## The ranges of the threads -/

/-- Every thread in the ledger holds a slot, whose range is inside the pool and disjoint from those
of the other threads. -/
structure RangesApart (l : Ledger) : Prop where
  given : ∀ i t, l.taken i = some t → t.call.mode = .thread → ∃ k, t.userStack = some k
  inside : ∀ i t k, l.taken i = some t → t.userStack = some k →
    userspaceTaskStackBottom ≤ (l.sys.userStacks k).base ∧
      (l.sys.userStacks k).base < (l.sys.userStacks k).top ∧
      (l.sys.userStacks k).top ≤ userspaceTaskStackTop
  disjoint : ∀ i j t t' k k', l.taken i = some t → l.taken j = some t' → i ≠ j →
    t.userStack = some k → t'.userStack = some k' →
    (l.sys.userStacks k).top ≤ (l.sys.userStacks k').base ∨
      (l.sys.userStacks k').top ≤ (l.sys.userStacks k).base

/-- Every thread starts at the top of its stack. -/
def StartAtTop (l : Ledger) : Prop :=
  ∀ i t k, l.taken i = some t → t.userStack = some k →
    StartsAt (l.sys.task i) (l.sys.userStacks k).top

theorem RangesOk.apart_ranges (h : RangesOk l) : RangesApart l where
  given i t ht hmode := by
    have huser := (h.ledger.taken i t ht).userStack
    obtain ⟨c, userStack⟩ := t
    cases c with
    | kthread name entry argc answers => cases hmode
    | thread name parent entry arg stack stackVariable =>
      obtain ⟨k, hk, -⟩ := huser
      exact ⟨k, hk⟩
  inside i t k ht hk := h.bounds.inside (h.holds i t k ht hk).lt
  disjoint i j t t' k k' ht ht' hij hk hk' := by
    refine h.bounds.disjoint (h.holds i t k ht hk).lt (h.holds j t' k' ht' hk').lt ?_
    rintro rfl
    exact hij (h.apart i j t t' k ht ht' hk hk')

theorem RangesOk.startAtTop_iff (h : RangesOk l) : StartAtTop l ↔
    ∀ i t k, l.taken i = some t → t.userStack = some k →
      t.call.stackVariable = (l.sys.userStacks k).top := by
  constructor
  · intro htop i t k ht hk
    exact (h.holds i t k ht hk).startsAt.1.symm.trans (htop i t k ht hk).1
  · intro hall i t k ht hk
    rw [← hall i t k ht hk]
    exact (h.holds i t k ht hk).startsAt

theorem bootSystem_rangesOk (heaps : Nat → Multiset Nat) (data : Nat → Nat)
    (hz kernelCr3 kthreadEntry : Nat) :
    RangesOk (emptyLedger (bootSystem heaps data hz kernelCr3 kthreadEntry)) where
  ledger := (bootSystem_stacksOk heaps data hz kernelCr3 kthreadEntry).ledger
  bounds _ := ⟨rfl, rfl⟩
  holds _ _ _ ht := by cases ht
  apart _ _ _ _ _ ht := by cases ht

/-- **The user stacks of the threads in the ledger are disjoint ranges of the pool; and every thread
starts at the top of its own exactly when the address of the variable that was to receive the top is
that top.** -/
theorem user_stacks_iff {heaps : Nat → Multiset Nat} {data : Nat → Nat}
    {hz kernelCr3 kthreadEntry : Nat}
    (hrun : Run LedgerStep (fun _ _ => True)
      (emptyLedger (bootSystem heaps data hz kernelCr3 kthreadEntry)) l) :
    RangesApart l ∧ (StartAtTop l ↔ ∀ i t k, l.taken i = some t → t.userStack = some k →
      t.call.stackVariable = (l.sys.userStacks k).top) := by
  have hok : RangesOk l := hrun.invariant (fun _ _ _ h _ hstep => h.step hstep)
    (bootSystem_rangesOk ..)
  exact ⟨hok.apart_ranges, hok.startAtTop_iff⟩

/-- The states after some calls. -/
theorem run_ledgerAfter (ops : List LedgerOp) :
    Run LedgerStep (fun _ _ => True) (emptyLedger freshSystem) (ledgerAfter ops) := by
  unfold ledgerAfter
  generalize emptyLedger freshSystem = l
  induction ops generalizing l with
  | nil => exact Run.refl l
  | cons op ops ih => exact (Run.single (a := op) trivial rfl).trans (ih (l.next op))

/-- Two threads are created, and both hold a stack. -/
theorem user_stacks_iff_freshSystem :
    ((ledgerAfter [.create plainThread, .create plainThread]).taken 0).bind Taken.userStack =
        some 0 ∧
      ((ledgerAfter [.create plainThread, .create plainThread]).taken 1).bind Taken.userStack =
        some 1 ∧
      RangesApart (ledgerAfter [.create plainThread, .create plainThread]) ∧
      (StartAtTop (ledgerAfter [.create plainThread, .create plainThread]) ↔
        ∀ i t k, (ledgerAfter [.create plainThread, .create plainThread]).taken i = some t →
          t.userStack = some k → t.call.stackVariable =
            ((ledgerAfter [.create plainThread, .create plainThread]).sys.userStacks k).top) :=
  ⟨by decide +kernel, by decide +kernel,
    user_stacks_iff (run_ledgerAfter [.create plainThread, .create plainThread])⟩

/-- A thread that a task with its kernel stack above `0xC0000000` creates. -/
def threadOfKernelStack : CreateCall := .thread .empty 0 0 0 0xC0500000 0xC0400FC0

/-- **A thread that starts outside its stack.** -/
theorem exists_thread_off_stack :
    ¬ ∀ l, Run LedgerStep (fun _ _ => True) (emptyLedger freshSystem) l → StartAtTop l := by
  intro hall
  have hserved : threadOfKernelStack.Served freshSystem := ⟨by decide, by decide +kernel⟩
  cases create_cases freshSystem threadOfKernelStack with
  | full hfull _ => exact freshSystem_free hfull
  | failed i s₁ _ hrefused _ _ => exact hrefused hserved
  | created i s₁ _ _ _ hresult =>
    have hrun := run_ledgerAfter [.create threadOfKernelStack]
    have hok : RangesOk (ledgerAfter [.create threadOfKernelStack]) :=
      (bootSystem_rangesOk ..).create threadOfKernelStack
    have htaken : (ledgerAfter [.create threadOfKernelStack]).taken i =
        some ⟨threadOfKernelStack, threadOfKernelStack.userStack freshSystem⟩ := by
      have hnext := Ledger.next_created (l := emptyLedger freshSystem) hresult
      rw [show ledgerAfter [.create threadOfKernelStack] = _ from hnext]
      exact Function.update_self ..
    obtain ⟨k, hk⟩ := hok.apart_ranges.given i _ htaken rfl
    have htop := hok.startAtTop_iff.mp (hall _ hrun) i _ k htaken hk
    have hinside := (hok.apart_ranges.inside i _ k htaken hk).2.2
    rw [← htop] at hinside
    exact absurd hinside (by decide)

end Xylophone
