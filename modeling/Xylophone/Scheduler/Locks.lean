import Xylophone.Scheduler.Interrupts

/-!
# The locks of the queues

`task_queue_push`, `task_queue_pop`, `sleep_queue_push` and `sleep_queue_pop` take the lock of
their queue and leave interrupts as they are. Here the kernel threads run what the repository has:
task creation, `task_cleanup`, the calls of the scheduler, and the loop of `kthread_task_cleaner`,
which peeks at `zombie_queue` and pops it with interrupts enabled.

* `LocksOk.step` — the locks of the queues are held by the running code only, with interrupts
  disabled
* `queue_lock_masked` — runs in which the cleaner finds nothing to pop
* `exists_queue_lock_enabled` — the cleaner pops a zombie
-/

namespace Xylophone

open Infra

/-! ## What the kernel threads run -/

/-- The locks of `ready_queue`, `zombie_queue` and `sleep_queue`. -/
def Lock.IsQueue : Lock → Prop
  | .ready | .zombie | .sleep => True
  | .taskTable | .userStacks => False

/-- `get_free_task`, and the marking of the threads in `task_cleanup`. -/
def taskTableCode : List Instr := [.lock .taskTable, .unlock .taskTable]

/-- `user_stack_alloc`. -/
def userStackAllocCode : List Instr := interruptSafeBlock [.lock .userStacks, .unlock .userStacks]

/-- `task_create_kthread`, whether it gets to `scheduler_add` or not. -/
def createKthreadCode (added : Bool) : List Instr :=
  interruptSafeBlock (taskTableCode ++ if added then queueCode .ready else [])

/-- `task_create_thread_process`, whether it gets to `user_stack_alloc` and to `scheduler_add` or
not. -/
def createThreadCode (kernelStack added : Bool) : List Instr :=
  interruptSafeBlock (taskTableCode ++
    if kernelStack then userStackAllocCode ++ if added then queueCode .ready else [] else [])

/-- `task_cleanup`. -/
def cleanupCode : List Instr := interruptSafeBlock taskTableCode ++ interruptSafeBlock []

/-- `scheduler_sleep`. -/
def sleepCode (queues : List Lock) : List Instr :=
  interruptSafeBlock (queueCode .sleep) ++ scheduleCode queues

/-- `task_queue_pop` of `zombie_queue`. -/
def popZombieCode : List Instr := [.lock .zombie, .zombieOut, .unlock .zombie]

/-- A turn of the loop of `kthread_task_cleaner`. -/
def cleanerCode (zombies : Nat) (queues : List Lock) : List Instr :=
  if zombies = 0 then [] else popZombieCode ++ cleanupCode ++ scheduleCode queues

/-- What a kernel thread does next. -/
inductive Routine where
  | createKthread (added : Bool)
  | createThread (kernelStack added : Bool)
  | cleanup
  /-- `scheduler_yield` or `scheduler_exit`. -/
  | schedule (queues : List Lock)
  | sleep (queues : List Lock)
  | cleaner (queues : List Lock)

/-- The code of a routine. -/
def Routine.code (zombies : Nat) : Routine → List Instr
  | .createKthread added => createKthreadCode added
  | .createThread kernelStack added => createThreadCode kernelStack added
  | .cleanup => cleanupCode
  | .schedule queues => scheduleCode queues
  | .sleep queues => sleepCode queues
  | .cleaner queues => cleanerCode zombies queues

/-- A step of the processor, where a task only begins with a routine. -/
inductive KernelOp where
  | exec
  | switchTo (task : Nat)
  | start (routine : Routine)
  | interrupt (queues : List Lock)
  | iret

def KernelOp.cpuOp (zombies : Nat) : KernelOp → CpuOp
  | .exec => .exec
  | .switchTo task => .switchTo task
  | .start routine => .begin (routine.code zombies)
  | .interrupt queues => .interrupt queues
  | .iret => .iret

/-- A step of the kernel. -/
def kernelNext (s : Cpu) (op : KernelOp) : Option Cpu := s.step (op.cpuOp s.zombies)

/-- A step of the kernel, as a relation. -/
def KernelStep (s : Cpu) (op : KernelOp) (s' : Cpu) : Prop := kernelNext s op = some s'

/-- A turn of the cleaner finds `zombie_queue` empty. -/
def NothingToClean (s : Cpu) (op : KernelOp) : Prop :=
  ∀ queues, op = .start (.cleaner queues) → s.zombies = 0

variable {s s' : Cpu} {op : KernelOp} {l : Lock} {n : Nat} {masked : Bool}
  {code block rest : List Instr}

/-! ## Guarded code -/

/-- The code is about to release the lock. -/
def InSection (l : Lock) : List Instr → Prop
  | .unlock l' :: _ => l' = l
  | .zombieIn :: rest | .zombieOut :: rest => InSection l rest
  | _ => False

/-- Code inside `n` pairs uses queues only inside a pair, or before its first `ENABLE_INTERRUPTS`
where interrupts are disabled already. -/
def Guarded (masked : Bool) (n : Nat) : List Instr → Prop
  | [] => True
  | .increment :: rest => Guarded masked n rest
  | .cli :: rest => Guarded masked (n + 1) rest
  | .enable :: rest => Guarded false (n - 1) rest
  | .lock l :: rest =>
    (l.IsQueue → (masked = true ∨ 1 ≤ n) ∧ InSection l rest) ∧ Guarded masked n rest
  | .unlock l :: rest => (l.IsQueue → masked = true ∨ 1 ≤ n) ∧ Guarded masked n rest
  | .zombieIn :: rest | .zombieOut :: rest => (masked = true ∨ 1 ≤ n) ∧ Guarded masked n rest
  | .switch :: rest => Guarded false n rest

theorem Guarded.of_unmasked (h : Guarded false n code) : Guarded masked n code := by
  cases masked with
  | false => exact h
  | true =>
    induction code generalizing n with
    | nil => trivial
    | cons i rest ih =>
      cases i with
      | increment => exact ih (n := n) h
      | cli => exact ih (n := n + 1) h
      | enable => exact h
      | lock l => exact ⟨fun hl => ⟨Or.inl rfl, (h.1 hl).2⟩, ih h.2⟩
      | unlock l => exact ⟨fun _ => Or.inl rfl, ih h.2⟩
      | zombieIn => exact ⟨Or.inl rfl, ih h.2⟩
      | zombieOut => exact ⟨Or.inl rfl, ih h.2⟩
      | switch => exact h

/-- Code that may stand before any guarded code. -/
def Guards (masked : Bool) (n : Nat) (code : List Instr) : Prop :=
  ∀ rest, Guarded masked n rest → Guarded masked n (code ++ rest)

theorem Guards.nil : Guards masked n [] := fun _ h => h

theorem Guards.guarded (h : Guards masked n code) : Guarded masked n code := by
  have hnil := h [] trivial
  rwa [List.append_nil] at hnil

theorem Guards.append (h : Guards masked n code) (h' : Guards masked n block) :
    Guards masked n (code ++ block) := by
  intro rest hrest
  rw [List.append_assoc]
  exact h _ (h' rest hrest)

theorem Guards.ite {p : Prop} [Decidable p] (h : Guards masked n code) :
    Guards masked n (if p then code else []) := by
  split
  · exact h
  · exact .nil

/-- A block may use queues. -/
theorem Guards.interruptSafeBlock (h : Guards false (n + 1) block) :
    Guards false n (interruptSafeBlock block) := by
  intro rest hrest
  have heq : Xylophone.interruptSafeBlock block ++ rest =
      .increment :: .cli :: (block ++ .enable :: rest) := by
    simp [Xylophone.interruptSafeBlock, disableInterrupts]
  rw [heq]
  exact h _ hrest

theorem guards_queueCode (l : Lock) (hoff : masked = true ∨ 1 ≤ n) :
    Guards masked n (queueCode l) := by
  intro rest hrest
  cases l with
  | zombie => exact ⟨fun _ => ⟨hoff, rfl⟩, hoff, fun _ => hoff, hrest⟩
  | _ => exact ⟨fun _ => ⟨hoff, rfl⟩, fun _ => hoff, hrest⟩

theorem guards_table : Guards masked n taskTableCode :=
  fun _ hrest => ⟨False.elim, False.elim, hrest⟩

theorem guards_switch : Guards false n [.switch] := fun _ hrest => hrest

theorem guards_scheduleCode (queues : List Lock) : Guards false n (scheduleCode queues) := by
  have hqueues : Guards false (n + 1) (queues.flatMap queueCode) := by
    induction queues with
    | nil => exact .nil
    | cons l queues ih =>
      rw [List.flatMap_cons]
      exact (guards_queueCode l (Or.inr (Nat.le_add_left ..))).append ih
  exact (hqueues.append guards_switch).interruptSafeBlock

/-- The handler has interrupts disabled when it starts. -/
theorem guarded_handlerCode (current : Nat) (queues : List Lock) :
    Guarded true n (handlerCode current queues) := by
  have hschedule : Guarded true n (scheduleCode queues) :=
    (guards_scheduleCode queues).guarded.of_unmasked
  exact (guards_queueCode .ready (Or.inl rfl)).ite _ hschedule

theorem guards_createKthreadCode (added : Bool) : Guards false n (createKthreadCode added) := by
  have hready : Guards false (n + 1) (queueCode .ready) :=
    guards_queueCode .ready (Or.inr (Nat.le_add_left ..))
  exact (guards_table.append hready.ite).interruptSafeBlock

theorem guards_createThreadCode (kernelStack added : Bool) :
    Guards false n (createThreadCode kernelStack added) := by
  have hready : Guards false (n + 1) (queueCode .ready) :=
    guards_queueCode .ready (Or.inr (Nat.le_add_left ..))
  have hstack : Guards false (n + 1) userStackAllocCode :=
    Guards.interruptSafeBlock fun _ hrest => ⟨False.elim, False.elim, hrest⟩
  exact (guards_table.append (hstack.append hready.ite).ite).interruptSafeBlock

theorem guards_cleanupCode : Guards false n cleanupCode :=
  guards_table.interruptSafeBlock.append Guards.nil.interruptSafeBlock

theorem guards_sleepCode (queues : List Lock) : Guards false n (sleepCode queues) :=
  (guards_queueCode .sleep (Or.inr (Nat.le_add_left ..))).interruptSafeBlock.append
    (guards_scheduleCode queues)

/-- Every routine is guarded, but for a turn of the cleaner that pops. -/
theorem guarded_code {routine : Routine} {zombies : Nat}
    (hcleaner : ∀ queues, routine = .cleaner queues → zombies = 0) :
    Guarded false n (routine.code zombies) := by
  cases routine with
  | createKthread added => exact (guards_createKthreadCode added).guarded
  | createThread kernelStack added => exact (guards_createThreadCode kernelStack added).guarded
  | cleanup => exact guards_cleanupCode.guarded
  | schedule queues => exact (guards_scheduleCode queues).guarded
  | sleep queues => exact (guards_sleepCode queues).guarded
  | cleaner queues =>
    rw [hcleaner queues rfl]
    trivial

/-! ## The invariant -/

/-- Code that was interrupted is guarded. -/
def Context.Guarded : Context → Prop
  | .code f => Xylophone.Guarded false f.inner f.code
  | .handler f _ below => Xylophone.Guarded false f.inner f.code ∧ below.Guarded

/-- All but the innermost code is guarded. -/
def Context.GuardedBelow : Context → Prop
  | .code _ => True
  | .handler _ _ below => below.Guarded

theorem Context.guarded_iff {c : Context} :
    c.Guarded ↔ Xylophone.Guarded false c.top.inner c.top.code ∧ c.GuardedBelow := by
  cases c with
  | code f => exact ⟨fun h => ⟨h, trivial⟩, And.left⟩
  | handler f saved below => exact Iff.rfl

theorem Context.guardedBelow_setTop {c : Context} {g : Frame} :
    (c.setTop g).GuardedBelow ↔ c.GuardedBelow := by
  cases c <;> exact Iff.rfl

/-- The locks of the queues are held by the running code only, which uses queues only with
interrupts disabled. -/
structure LocksOk (s : Cpu) : Prop where
  cpu : CpuOk s
  top : Guarded (!s.interrupts) s.running.top.inner s.running.top.code
  below : s.running.GuardedBelow
  suspended : ∀ t c flag, t ≠ s.current → s.suspended t = some (c, flag) → c.Guarded
  held : ∀ l, l.IsQueue → s.locked l = true → InSection l s.running.top.code

/-- No queue is locked where the code is not about to release its lock. -/
theorem LocksOk.unlocked (h : LocksOk s) (hl : l.IsQueue)
    (hout : ¬InSection l s.running.top.code) : s.locked l = false := by
  cases hheld : s.locked l with
  | false => rfl
  | true => exact absurd (h.held l hl hheld) hout

/-- **A queue is locked with interrupts disabled.** -/
theorem LocksOk.interrupts_off (h : LocksOk s) (hl : l.IsQueue) (hheld : s.locked l = true) :
    s.interrupts = false := by
  have hsection := h.held l hl hheld
  have hguarded := h.top
  have hflag := h.cpu.flag
  have hoff : (!s.interrupts) = true ∨ 1 ≤ s.running.top.inner := by
    cases hcode : s.running.top.code with
    | nil =>
      rw [hcode] at hsection
      cases hsection
    | cons i rest =>
      rw [hcode] at hsection hguarded
      cases i with
      | unlock l' =>
        obtain rfl : l' = l := hsection
        exact hguarded.1 hl
      | zombieIn => exact hguarded.1
      | zombieOut => exact hguarded.1
      | _ => cases hsection
  rcases hoff with hoff | hinner
  · simpa using hoff
  · exact hflag hinner

/-! ## Steps -/

/-- The innermost code goes on. -/
theorem LocksOk.goOn {counter : Int} {interrupts window : Bool} {locked : Lock → Bool}
    {zombies share : Nat} (h : LocksOk s)
    (hcpu : CpuOk (Cpu.goOn { s with
      counter := counter, interrupts := interrupts, locked := locked, zombies := zombies }
      code share window))
    (htop : Guarded (!interrupts) (Frame.inner ⟨code, share, window⟩) code)
    (hheld : ∀ l, l.IsQueue → locked l = true → InSection l code) :
    LocksOk (Cpu.goOn { s with
      counter := counter, interrupts := interrupts, locked := locked, zombies := zombies }
      code share window) where
  cpu := hcpu
  top := by
    show Guarded _ (s.running.setTop _).top.inner (s.running.setTop _).top.code
    rw [Context.top_setTop]
    exact htop
  below := Context.guardedBelow_setTop.mpr h.below
  suspended := h.suspended
  held := by
    intro l hl hlocked
    show InSection l (s.running.setTop _).top.code
    rw [Context.top_setTop]
    exact hheld l hl hlocked

/-- An instruction keeps the invariant. -/
theorem LocksOk.executes {i : Instr} {share : Nat} {window : Bool} (h : LocksOk s)
    (htop : s.running.top = ⟨i :: rest, share, window⟩)
    (hstep : Executes s share window rest i s') :
    LocksOk s' := by
  have hcpu := h.cpu.executes htop hstep
  have hok := h.cpu.context.top
  have hguarded := h.top
  have hheld := h.held
  rw [htop] at hok hguarded hheld
  -- where no section is open, no queue is locked
  have hnone : (∀ l, ¬InSection l (i :: rest)) →
      ∀ l, l.IsQueue → s.locked l = true → InSection l rest :=
    fun hout l hl hlocked => absurd (hheld l hl hlocked) (hout l)
  cases hstep with
  | increment hwhole =>
    subst hwhole
    exact h.goOn hcpu hguarded (hnone fun _ => id)
  | cli hhalf =>
    subst hhalf
    have hpair : 1 ≤ share := hok rfl
    have hinner : Frame.inner ⟨.cli :: rest, share, true⟩ + 1 = share := Nat.sub_add_cancel hpair
    have hrest : Guarded (!s.interrupts) share rest := hinner ▸ hguarded
    refine h.goOn hcpu ?_ (hnone fun _ => id)
    cases hon : s.interrupts with
    | false => rwa [hon] at hrest
    | true =>
      rw [hon] at hrest
      exact Guarded.of_unmasked hrest
  | enable hwhole hpair =>
    subst hwhole
    exact h.goOn hcpu (Guarded.of_unmasked hguarded) (hnone fun _ => id)
  | lock l hfree =>
    refine h.goOn hcpu hguarded.2 fun l' hl' hlocked => ?_
    by_cases hsame : l' = l
    · subst hsame
      exact (hguarded.1 hl').2
    · rw [Function.update_of_ne hsame] at hlocked
      exact absurd (hheld l' hl' hlocked) id
  | unlock l =>
    refine h.goOn hcpu hguarded.2 fun l' hl' hlocked => ?_
    by_cases hsame : l' = l
    · subst hsame
      rw [Function.update_self] at hlocked
      cases hlocked
    · rw [Function.update_of_ne hsame] at hlocked
      exact absurd (hheld l' hl' hlocked).symm hsame
  | zombieIn => exact h.goOn hcpu hguarded.2 hheld
  | zombieOut => exact h.goOn hcpu hguarded.2 hheld

/-- A switch keeps the invariant. -/
theorem LocksOk.switchTo (h : LocksOk s)
    (htop : s.running.top = ⟨.switch :: rest, 1, false⟩) (u : Nat) : LocksOk (s.switchTo u rest) := by
  have hcpu := h.cpu.switchTo htop u
  have hguarded := h.top
  have hheld := h.held
  rw [htop] at hguarded hheld
  have hnone : ∀ l, l.IsQueue → s.locked l = true → False := hheld
  have hrest : Guarded false 1 rest := hguarded
  have hleft : (s.running.setTop ⟨rest, 1, false⟩).Guarded := by
    rw [Context.guarded_iff, Context.top_setTop]
    exact ⟨hrest, Context.guardedBelow_setTop.mpr h.below⟩
  unfold Cpu.switchTo at hcpu ⊢
  by_cases hu : u = s.current
  · rw [if_pos hu] at hcpu ⊢
    obtain ⟨htop', hbelow⟩ := Context.guarded_iff.mp hleft
    exact ⟨hcpu, htop'.of_unmasked, hbelow, h.suspended, fun l hl hl' => (hnone l hl hl').elim⟩
  rw [if_neg hu] at hcpu ⊢
  have hsuspended : ∀ t c flag, t ≠ u →
      Function.update s.suspended s.current
        (some (s.running.setTop ⟨rest, 1, false⟩, s.interrupts)) t = some (c, flag) →
      c.Guarded := by
    intro t c flag _ hsome
    by_cases ht : t = s.current
    · rw [ht, Function.update_self] at hsome
      obtain ⟨rfl, rfl⟩ := Prod.mk.inj (Option.some.inj hsome)
      exact hleft
    · rw [Function.update_of_ne ht] at hsome
      exact h.suspended t c flag ht hsome
  cases hsome : s.suspended u with
  | some entry =>
    obtain ⟨context, flag⟩ := entry
    rw [hsome] at hcpu
    obtain ⟨htop', hbelow⟩ := Context.guarded_iff.mp (h.suspended u context flag hu hsome)
    exact ⟨hcpu, htop'.of_unmasked, hbelow, hsuspended, fun l hl hl' => (hnone l hl hl').elim⟩
  | none =>
    rw [hsome] at hcpu
    exact ⟨hcpu, trivial, trivial, hsuspended, fun l hl hl' => (hnone l hl hl').elim⟩

/-- **A step in which the cleaner pops nothing keeps the invariant.** -/
theorem LocksOk.step (h : LocksOk s) (hclean : NothingToClean s op) (hstep : KernelStep s op s') :
    LocksOk s' := by
  have hcpu := h.cpu.step hstep
  have hheld := h.held
  have htop := h.top
  unfold KernelStep kernelNext Cpu.step at hstep
  cases op with
  | exec =>
    simp only [KernelOp.cpuOp] at hstep
    split at hstep
    · cases hstep
    · next i rest share window htop => exact h.executes htop (Cpu.executes hstep)
  | switchTo u =>
    obtain ⟨rest, hrest, rfl⟩ := Option.map_eq_some_iff.mp hstep
    exact h.switchTo (Cpu.switchRest_eq hrest) u
  | start routine =>
    simp only [KernelOp.cpuOp] at hstep
    split at hstep
    · next share window hrun =>
      obtain rfl := Option.some.inj hstep
      rw [hrun] at hheld
      have hguarded := guarded_code (n := Frame.inner ⟨routine.code s.zombies, share, window⟩)
        fun queues hroutine => hclean queues (congrArg KernelOp.start hroutine)
      exact ⟨hcpu, hguarded.of_unmasked, trivial, h.suspended,
        fun l hl hlocked => (hheld l hl hlocked).elim⟩
    · cases hstep
  | interrupt queues =>
    simp only [KernelOp.cpuOp] at hstep
    split at hstep
    · next hon =>
      obtain rfl := Option.some.inj hstep
      rw [hon] at htop
      refine ⟨hcpu, guarded_handlerCode s.current queues,
        Context.guarded_iff.mpr ⟨htop, h.below⟩, h.suspended, fun l hl hlocked => ?_⟩
      -- the lock would have interrupts disabled
      have hoff := h.interrupts_off hl hlocked
      rw [hon] at hoff
      cases hoff
    · cases hstep
  | iret =>
    simp only [KernelOp.cpuOp] at hstep
    split at hstep
    · next saved below hrun =>
      obtain rfl := Option.some.inj hstep
      have hbelow := h.below
      rw [hrun] at hheld hbelow
      obtain ⟨htop', hbelow'⟩ := Context.guarded_iff.mp hbelow
      exact ⟨hcpu, htop'.of_unmasked, hbelow', h.suspended,
        fun l hl hlocked => (hheld l hl hlocked).elim⟩
    · cases hstep

theorem bootCpu_locksOk : LocksOk bootCpu where
  cpu := bootCpu_ok
  top := trivial
  below := trivial
  suspended := fun _ _ _ _ hsome => by cases hsome
  held := fun _ _ hlocked => by cases hlocked

/-- **Queues are locked with interrupts disabled.** In every state of a run in which
`kthread_task_cleaner` finds no zombie, interrupts are disabled where a queue is locked, so that a
timer interrupt finds none of them locked; and no code spins on the lock of a queue. -/
theorem queue_lock_masked (hrun : Run KernelStep NothingToClean bootCpu s) (hl : l.IsQueue) :
    (s.locked l = true → s.interrupts = false) ∧
      ∀ rest, s.running.top.code = .lock l :: rest → s.locked l = false := by
  have h : LocksOk s :=
    hrun.invariant (I := LocksOk) (fun _ _ _ h hclean hstep => h.step hclean hstep) bootCpu_locksOk
  refine ⟨h.interrupts_off hl, fun rest hcode => h.unlocked hl ?_⟩
  rw [hcode]
  exact id

instance (s : Cpu) (op : KernelOp) : Decidable (NothingToClean s op) :=
  match op with
  | .start (.cleaner _) => decidable_of_iff (s.zombies = 0) ⟨fun h _ _ => h, fun h => h _ rfl⟩
  | .start (.createKthread _) | .start (.createThread _ _) | .start .cleanup
  | .start (.schedule _) | .start (.sleep _) | .exec | .switchTo _ | .interrupt _ | .iret =>
    isTrue fun _ hop => nomatch hop

/-- The first tick starts task 1, which creates a kernel thread and comes to lock `ready_queue`. -/
def createOps : List KernelOp :=
  .interrupt [.ready] :: List.replicate 6 .exec ++ .switchTo 1 ::
    .start (.createKthread true) :: List.replicate 5 .exec

theorem queue_lock_masked_createOps :
    ∃ s, runList kernelNext NothingToClean bootCpu createOps = some s ∧
      s.locked .ready = true ∧ s.interrupts = false := by
  have hrun : (runList kernelNext NothingToClean bootCpu createOps).map (·.locked .ready) =
      some true := by decide +kernel
  obtain ⟨s, hs, hlocked⟩ := Option.map_eq_some_iff.mp hrun
  exact ⟨s, hs, hlocked, (queue_lock_masked (l := .ready) (Run.of_runList id hs) trivial).1 hlocked⟩

/-! ## The cleaner pops a zombie -/

/-- The first tick starts task 1. It creates a thread and a kernel thread that runs
`kthread_task_cleaner`, and cleans up the process of the thread. A tick finds the thread to be a
zombie and starts the cleaner, which comes to lock `zombie_queue`. -/
def popOps : List KernelOp :=
  List.flatten [
    [.interrupt [.ready]], List.replicate 6 .exec, [.switchTo 1],
    [.start (.createThread true true)], List.replicate 12 .exec,
    [.start (.createKthread true)], List.replicate 7 .exec,
    [.start .cleanup], List.replicate 8 .exec,
    [.interrupt [.ready, .ready, .zombie, .ready]], List.replicate 11 .exec,
    [.switchTo 2], [.start (.cleaner [.ready, .ready])], [.exec]]

/-- **A queue that is locked with interrupts enabled.** The cleaner holds the lock of
`zombie_queue`, and a tick may come. -/
theorem exists_queue_lock_enabled :
    ¬ ∀ s l, Run KernelStep (fun _ _ => True) bootCpu s → l.IsQueue → s.locked l = true →
      s.interrupts = false := by
  have hview : (runList kernelNext (fun _ _ => True) bootCpu popOps).map
      (fun s => (s.locked .zombie, s.interrupts)) = some (true, true) := by
    decide +kernel
  obtain ⟨s, hs, hstate⟩ := Option.map_eq_some_iff.mp hview
  obtain ⟨hlocked, hon⟩ := Prod.mk.inj hstate
  intro hall
  have hoff := hall s .zombie (Run.of_runList id hs) trivial hlocked
  rw [hon] at hoff
  cases hoff

end Xylophone
