import Mathlib.Algebra.Order.BigOperators.Group.Finset
import Xylophone.Infra.Run

/-!
# `util.h`: disabling interrupts

`DISABLE_INTERRUPTS` counts and then executes `cli`; `ENABLE_INTERRUPTS` counts down and executes
`sti` when it comes to zero. The counter is one for all tasks. What a task added to it is its
share; a task that gives up the processor in `scheduler_schedule` is in an `INTERRUPT_SAFE_BLOCK`,
whose share passes to the task that is resumed, while `task_start_impl` gives it back for a task
that is started.

The processor is modelled instruction by instruction. A timer interrupt may come before every one,
when interrupts are enabled. A task runs any code made of these instructions, and may be preempted
by any other.

* `CpuOk.step` — what every step preserves: inside a pair interrupts are disabled, and the counter
  is the sum of the shares
* `interrupts_restored` — runs without a switch in the middle of a `DISABLE_INTERRUPTS`
* `exists_interrupts_off` — a tick between the increment and the `cli`
-/

namespace Xylophone

open Infra

/-! ## The processor -/

/-- The spinlocks taken by the scheduler and by the code that creates and cleans up tasks. -/
inductive Lock where
  | ready
  | zombie
  | sleep
  | taskTable
  | userStacks
deriving DecidableEq, Repr

/-- The instructions that matter for interrupts and locks. -/
inductive Instr where
  /-- `system_interrupt_disable_counter++` of `DISABLE_INTERRUPTS`. -/
  | increment
  /-- `cli` of `DISABLE_INTERRUPTS`. -/
  | cli
  /-- `ENABLE_INTERRUPTS`. -/
  | enable
  | lock (l : Lock)
  | unlock (l : Lock)
  /-- `size++` of `zombie_queue`. -/
  | zombieIn
  /-- `size--` of `zombie_queue`. -/
  | zombieOut
  /-- The end of `round_robin`, with `_task_save_context` and `_task_restore_context` around it. -/
  | switch
deriving DecidableEq, Repr

/-- `DISABLE_INTERRUPTS()`. -/
def disableInterrupts : List Instr := [.increment, .cli]

/-- `INTERRUPT_SAFE_BLOCK(block)`. -/
def interruptSafeBlock (block : List Instr) : List Instr := disableInterrupts ++ block ++ [.enable]

/-- What `round_robin` does with a queue: it only pushes to `zombie_queue`, and it pushes to the
others and pops them. -/
def queueCode : Lock → List Instr
  | .zombie => [.lock .zombie, .zombieIn, .unlock .zombie]
  | l => [.lock l, .unlock l]

/-- `scheduler_schedule`, whose `round_robin` uses the queues of the list. -/
def scheduleCode (queues : List Lock) : List Instr :=
  interruptSafeBlock (queues.flatMap queueCode ++ [.switch])

/-- `scheduler_schedule` in the handler of the timer. As long as there is no current task (the code
that boots the kernel is task 0 here) it pops one off `ready_queue` first. -/
def handlerCode (current : Nat) (queues : List Lock) : List Instr :=
  (if current = 0 then queueCode .ready else []) ++ scheduleCode queues

/-- Code that is being executed: what is left of it, what it added to the counter, and whether it
is between an increment and its `cli`. -/
structure Frame where
  code : List Instr
  share : Nat
  window : Bool
deriving DecidableEq, Repr

/-- What a task is executing: its own code, or a handler that has interrupted something, with the
interrupt flag that `iret` is to restore. -/
inductive Context where
  | code (f : Frame)
  | handler (f : Frame) (saved : Bool) (below : Context)
deriving DecidableEq, Repr

/-- The innermost code. -/
def Context.top : Context → Frame
  | .code f => f
  | .handler f _ _ => f

/-- The context with other innermost code. -/
def Context.setTop : Context → Frame → Context
  | .code _, g => .code g
  | .handler _ saved below, g => .handler g saved below

/-- What the context added to the counter. -/
def Context.total : Context → Nat
  | .code f => f.share
  | .handler f _ below => f.share + below.total

/-- The processor: the counter, the interrupt flag, the current task and what it executes, the
tasks that gave up the processor with the flags they saved, the locks that are held, and the size
of `zombie_queue`. A task that is not suspended is yet to be started. -/
structure Cpu where
  counter : Int
  interrupts : Bool
  current : Nat
  running : Context
  suspended : Nat → Option (Context × Bool)
  locked : Lock → Bool
  zombies : Nat

/-- Code that starts. -/
def startFrame (code : List Instr) : Frame := ⟨code, 0, false⟩

/-- The processor when `kernel_main` has enabled interrupts. -/
def bootCpu : Cpu where
  counter := 0
  interrupts := true
  current := 0
  running := .code (startFrame [])
  suspended := fun _ => none
  locked := fun _ => false
  zombies := 0

inductive CpuOp where
  /-- The next instruction, other than a switch. -/
  | exec
  /-- A switch to the task that `round_robin` picked. -/
  | switchTo (task : Nat)
  /-- The task goes on with more code. -/
  | begin (code : List Instr)
  /-- A timer interrupt, whose `round_robin` uses the queues of the list. -/
  | interrupt (queues : List Lock)
  /-- The return from the handler. -/
  | iret

namespace Cpu

/-- The innermost code goes on. -/
def goOn (s : Cpu) (code : List Instr) (share : Nat) (window : Bool) : Cpu :=
  { s with running := s.running.setTop ⟨code, share, window⟩ }

/-- An instruction. `none` where the processor spins on a lock, and where the code of the
repository has no such instruction. -/
def execInstr (s : Cpu) (share : Nat) (window : Bool) (rest : List Instr) : Instr → Option Cpu
  | .increment =>
    if window then none else some ({ s with counter := s.counter + 1 }.goOn rest (share + 1) true)
  | .cli => if window then some ({ s with interrupts := false }.goOn rest share false) else none
  | .enable =>
    if window ∨ share = 0 then none
    else some ({ s with
      counter := s.counter - 1
      interrupts := if s.counter - 1 = 0 then true else s.interrupts }.goOn rest (share - 1) false)
  | .lock l =>
    if s.locked l then none
    else some ({ s with locked := Function.update s.locked l true }.goOn rest share window)
  | .unlock l => some ({ s with locked := Function.update s.locked l false }.goOn rest share window)
  | .zombieIn => some ({ s with zombies := s.zombies + 1 }.goOn rest share window)
  | .zombieOut => some ({ s with zombies := s.zombies - 1 }.goOn rest share window)
  | .switch => none

/-- The rest of the code, when the next instruction is a switch in an `INTERRUPT_SAFE_BLOCK` that is
not inside another pair. -/
def switchRest (s : Cpu) : Option (List Instr) :=
  match s.running.top with
  | ⟨.switch :: rest, 1, false⟩ => some rest
  | _ => none

/-- A switch. A task that is started runs with the flags that `_task_start` pushes, after
`task_start_impl` has decremented the counter. -/
def switchTo (s : Cpu) (task : Nat) (rest : List Instr) : Cpu :=
  let running := s.running.setTop ⟨rest, 1, false⟩
  if task = s.current then { s with running := running }
  else
    let suspended := Function.update s.suspended s.current (some (running, s.interrupts))
    match s.suspended task with
    | some (context, flag) =>
      { s with interrupts := flag, current := task, running := context, suspended := suspended }
    | none =>
      { s with
        counter := s.counter - 1
        interrupts := true
        current := task
        running := .code (startFrame [])
        suspended := suspended }

/-- A step. -/
def step (s : Cpu) : CpuOp → Option Cpu
  | .exec =>
    match s.running.top with
    | ⟨[], _, _⟩ => none
    | ⟨i :: rest, share, window⟩ => s.execInstr share window rest i
  | .switchTo task => s.switchRest.map (s.switchTo task)
  | .begin code =>
    match s.running with
    | .code ⟨[], share, window⟩ => some { s with running := .code ⟨code, share, window⟩ }
    | _ => none
  | .interrupt queues =>
    if s.interrupts then
      some { s with
        interrupts := false
        running :=
          .handler (startFrame (handlerCode s.current queues)) s.interrupts s.running }
    else none
  | .iret =>
    match s.running with
    | .handler ⟨[], 0, false⟩ saved below => some { s with interrupts := saved, running := below }
    | _ => none

end Cpu

/-- A step, as a relation. -/
def CpuStep (s : Cpu) (op : CpuOp) (s' : Cpu) : Prop := s.step op = some s'

variable {s s' : Cpu} {op : CpuOp} {c : Context} {f g : Frame} {t : Nat}

/-! ## Instructions -/

/-- What an instruction does. -/
inductive Executes (s : Cpu) (share : Nat) (window : Bool) (rest : List Instr) :
    Instr → Cpu → Prop where
  | increment (whole : window = false) : Executes s share window rest .increment
    ({ s with counter := s.counter + 1 }.goOn rest (share + 1) true)
  | cli (half : window = true) : Executes s share window rest .cli
    ({ s with interrupts := false }.goOn rest share false)
  | enable (whole : window = false) (pair : 1 ≤ share) : Executes s share window rest .enable
    ({ s with
      counter := s.counter - 1
      interrupts := if s.counter - 1 = 0 then true else s.interrupts }.goOn rest (share - 1) false)
  | lock (l : Lock) (free : s.locked l = false) : Executes s share window rest (.lock l)
    ({ s with locked := Function.update s.locked l true }.goOn rest share window)
  | unlock (l : Lock) : Executes s share window rest (.unlock l)
    ({ s with locked := Function.update s.locked l false }.goOn rest share window)
  | zombieIn : Executes s share window rest .zombieIn
    ({ s with zombies := s.zombies + 1 }.goOn rest share window)
  | zombieOut : Executes s share window rest .zombieOut
    ({ s with zombies := s.zombies - 1 }.goOn rest share window)

theorem Cpu.executes {i : Instr} {share : Nat} {window : Bool} {rest : List Instr}
    (h : s.execInstr share window rest i = some s') : Executes s share window rest i s' := by
  cases i with
  | increment =>
    obtain ⟨hwindow, h⟩ := Option.ite_none_left_eq_some.mp h
    obtain rfl := Option.some.inj h
    exact .increment (Bool.eq_false_iff.mpr hwindow)
  | cli =>
    obtain ⟨hwindow, h⟩ := Option.ite_none_right_eq_some.mp h
    obtain rfl := Option.some.inj h
    exact .cli hwindow
  | enable =>
    obtain ⟨hpair, h⟩ := Option.ite_none_left_eq_some.mp h
    rw [not_or] at hpair
    obtain rfl := Option.some.inj h
    exact .enable (Bool.eq_false_iff.mpr hpair.1) (Nat.one_le_iff_ne_zero.mpr hpair.2)
  | lock l =>
    obtain ⟨hfree, h⟩ := Option.ite_none_left_eq_some.mp h
    obtain rfl := Option.some.inj h
    exact .lock l (Bool.eq_false_iff.mpr hfree)
  | unlock l =>
    obtain rfl := Option.some.inj h
    exact .unlock l
  | zombieIn =>
    obtain rfl := Option.some.inj h
    exact .zombieIn
  | zombieOut =>
    obtain rfl := Option.some.inj h
    exact .zombieOut
  | switch => cases h

/-! ## Contexts -/

@[simp] theorem Context.top_setTop (c : Context) (g : Frame) : (c.setTop g).top = g := by
  cases c <;> rfl

/-- The pairs that the code is inside of. -/
def Frame.inner (f : Frame) : Nat := if f.window then f.share - 1 else f.share

/-- An increment before a `cli` is counted. -/
def Frame.Ok (f : Frame) : Prop := f.window = true → 1 ≤ f.share

/-- Code that was interrupted is in no pair, and its handler is to enable interrupts again. -/
def Context.Interruptible : Context → Prop
  | .code f => f.Ok ∧ f.inner = 0
  | .handler f saved below => (f.Ok ∧ f.inner = 0) ∧ saved = true ∧ below.Interruptible

/-- All but the innermost code was interrupted. -/
def Context.Ok : Context → Prop
  | .code f => f.Ok
  | .handler f saved below => f.Ok ∧ saved = true ∧ below.Interruptible

theorem Context.Ok.interruptible (h : c.Ok) (hinner : c.top.inner = 0) : c.Interruptible := by
  cases c with
  | code f => exact ⟨h, hinner⟩
  | handler f saved below => exact ⟨⟨h.1, hinner⟩, h.2⟩

theorem Context.Interruptible.ok (h : c.Interruptible) : c.Ok ∧ c.top.inner = 0 := by
  cases c with
  | code f => exact h
  | handler f saved below => exact ⟨⟨h.1.1, h.2⟩, h.1.2⟩

theorem Context.Ok.top (h : c.Ok) : c.top.Ok := by
  cases c with
  | code f => exact h
  | handler f saved below => exact h.1

theorem Context.Ok.setTop (h : c.Ok) (hg : g.Ok) : (c.setTop g).Ok := by
  cases c with
  | code f => exact hg
  | handler f saved below => exact ⟨hg, h.2⟩

/-- The share of the innermost code is part of the total. -/
theorem Context.total_setTop (c : Context) (g : Frame) :
    (c.setTop g).total + c.top.share = c.total + g.share := by
  cases c with
  | code f => exact Nat.add_comm ..
  | handler f saved below =>
    show g.share + below.total + f.share = f.share + below.total + g.share
    omega

theorem Context.share_le_total (c : Context) : c.top.share ≤ c.total := by
  cases c with
  | code f => exact Nat.le_refl _
  | handler f saved below => exact Nat.le_add_right ..

/-! ## The invariant -/

/-- A task that gave up the processor: it is in the block of `scheduler_schedule`, and interrupts
were disabled. -/
structure Waiting (c : Context) (flag : Bool) : Prop where
  ok : c.Ok
  share : c.top.share = 1
  window : c.top.window = false
  flag : flag = false

/-- What a suspended task added to the counter, beyond the share of its `scheduler_schedule`. -/
def Cpu.extra (s : Cpu) (t : Nat) : Nat :=
  match s.suspended t with
  | some (c, _) => c.total - 1
  | none => 0

/-- The invariant of the processor. -/
structure CpuOk (s : Cpu) : Prop where
  context : s.running.Ok
  /-- Inside a pair interrupts are disabled. -/
  flag : 1 ≤ s.running.top.inner → s.interrupts = false
  suspended : ∀ t c flag, t ≠ s.current → s.suspended t = some (c, flag) → Waiting c flag
  /-- The counter is the sum of what the current task added and what the others did. -/
  counter : ∃ T : Finset Nat, (∀ t, t ∈ T ↔ t ≠ s.current ∧ s.suspended t ≠ none) ∧
    s.counter = s.running.total + ∑ t ∈ T, (s.extra t : Int)

theorem CpuOk.total_le (h : CpuOk s) : (s.running.total : Int) ≤ s.counter := by
  obtain ⟨T, -, heq⟩ := h.counter
  have hnonneg : 0 ≤ ∑ t ∈ T, (s.extra t : Int) :=
    Finset.sum_nonneg fun t _ => Int.natCast_nonneg _
  omega

/-- The innermost code goes on. -/
theorem CpuOk.goOn {counter : Int} {interrupts window : Bool} {locked : Lock → Bool}
    {zombies : Nat} {code : List Instr} {share : Nat} (h : CpuOk s)
    (hok : Frame.Ok ⟨code, share, window⟩)
    (hflag : 1 ≤ Frame.inner ⟨code, share, window⟩ → interrupts = false)
    (hcounter : counter + s.running.top.share = s.counter + share) :
    CpuOk (Cpu.goOn { s with
      counter := counter, interrupts := interrupts, locked := locked, zombies := zombies }
      code share window) where
  context := h.context.setTop hok
  flag := by
    intro hinner
    rw [show (Cpu.goOn { s with
      counter := counter, interrupts := interrupts, locked := locked, zombies := zombies }
      code share window).running.top = ⟨code, share, window⟩ from Context.top_setTop ..] at hinner
    exact hflag hinner
  suspended := h.suspended
  counter := by
    obtain ⟨T, hmem, heq⟩ := h.counter
    refine ⟨T, hmem, ?_⟩
    have htotal := s.running.total_setTop ⟨code, share, window⟩
    show counter = ((s.running.setTop ⟨code, share, window⟩).total : Int) + ∑ t ∈ T, (s.extra t : Int)
    simp only [] at htotal
    omega

/-- An instruction keeps the invariant. -/
theorem CpuOk.executes {i : Instr} {share : Nat} {window : Bool} {rest : List Instr} (h : CpuOk s)
    (htop : s.running.top = ⟨i :: rest, share, window⟩)
    (hstep : Executes s share window rest i s') :
    CpuOk s' := by
  have hok := h.context.top
  have hflag := h.flag
  have htotal := h.total_le
  have hle := s.running.share_le_total
  rw [htop] at hok hflag hle
  have hshare : s.running.top.share = share := by rw [htop]
  cases hstep with
  | increment hwhole =>
    subst hwhole
    exact h.goOn (fun _ => Nat.le_add_left ..) hflag (by rw [hshare]; omega)
  | cli _ => exact h.goOn (fun hw => by cases hw) (fun _ => rfl) (by rw [hshare])
  | enable hwhole hpair =>
    subst hwhole
    refine h.goOn (fun hw => by cases hw) (fun hinner => ?_) (by rw [hshare]; omega)
    -- another pair is open, and its share is in the counter
    have hinner' : 1 ≤ share - 1 := hinner
    have hle' : share ≤ s.running.total := hle
    rw [if_neg (by omega)]
    exact hflag hpair
  | lock l _ => exact h.goOn hok hflag (by rw [hshare])
  | unlock l => exact h.goOn hok hflag (by rw [hshare])
  | zombieIn => exact h.goOn hok hflag (by rw [hshare])
  | zombieOut => exact h.goOn hok hflag (by rw [hshare])

/-- Where a switch may come. -/
theorem Cpu.switchRest_eq {rest : List Instr} (h : s.switchRest = some rest) :
    s.running.top = ⟨.switch :: rest, 1, false⟩ := by
  unfold Cpu.switchRest at h
  split at h
  · next rest' htop =>
    obtain rfl := Option.some.inj h
    exact htop
  · cases h

/-- The task that gives up the processor. -/
theorem CpuOk.waiting {rest : List Instr} (h : CpuOk s)
    (htop : s.running.top = ⟨.switch :: rest, 1, false⟩) :
    Waiting (s.running.setTop ⟨rest, 1, false⟩) s.interrupts ∧
      (s.running.setTop ⟨rest, 1, false⟩).total = s.running.total := by
  have htotal := s.running.total_setTop ⟨rest, 1, false⟩
  have hflag := h.flag
  rw [htop] at htotal hflag
  refine ⟨⟨h.context.setTop fun hw => (by cases hw), ?_, ?_, hflag (Nat.le_refl 1)⟩, ?_⟩
  · rw [Context.top_setTop]
  · rw [Context.top_setTop]
  · simp only [] at htotal
    omega

/-- The shares of the suspended tasks, when the current task is suspended and another is not any
more. -/
theorem sum_extra_switch (s s' : Cpu) {T : Finset Nat} {u : Nat} {c' : Context} {flag : Bool}
    (hT : ∀ t, t ∈ T ↔ t ≠ s.current ∧ s.suspended t ≠ none) (hu : u ≠ s.current)
    (hsuspended : s'.suspended = Function.update s.suspended s.current (some (c', flag)))
    (hcurrent : s'.current = u) :
    (∀ t, t ∈ insert s.current (T.erase u) ↔ t ≠ s'.current ∧ s'.suspended t ≠ none) ∧
      ∑ t ∈ insert s.current (T.erase u), (s'.extra t : Int) + (s.extra u : Int) =
        (c'.total - 1 : Nat) + ∑ t ∈ T, (s.extra t : Int) := by
  have hnot : s.current ∉ T := fun hmem => ((hT _).mp hmem).1 rfl
  have hself : s'.extra s.current = c'.total - 1 := by
    unfold Cpu.extra
    rw [hsuspended, Function.update_self]
  have hother : ∀ t, t ≠ s.current → s'.suspended t = s.suspended t := by
    intro t ht
    rw [hsuspended, Function.update_of_ne ht]
  constructor
  · intro t
    rw [Finset.mem_insert, Finset.mem_erase, hT, hcurrent]
    by_cases ht : t = s.current
    · rw [ht, hsuspended, Function.update_self]
      exact ⟨fun _ => ⟨hu.symm, Option.some_ne_none _⟩, fun _ => Or.inl rfl⟩
    · rw [hother t ht]
      exact ⟨fun hmem => (hmem.resolve_left ht).imp id And.right,
        fun hmem => Or.inr ⟨hmem.1, ht, hmem.2⟩⟩
  · rw [Finset.sum_insert fun hmem => hnot (Finset.mem_of_mem_erase hmem), hself]
    have hsame : ∑ t ∈ T.erase u, (s'.extra t : Int) = ∑ t ∈ T.erase u, (s.extra t : Int) := by
      refine Finset.sum_congr rfl fun t ht => ?_
      have htc : t ≠ s.current := ((hT t).mp (Finset.mem_of_mem_erase ht)).1
      unfold Cpu.extra
      rw [hother t htc]
    rw [hsame, add_assoc]
    congr 1
    by_cases hmem : u ∈ T
    · exact Finset.sum_erase_add _ _ hmem
    · have hzero : s.extra u = 0 := by
        have hnone : s.suspended u = none := by
          by_contra hsome
          exact hmem ((hT u).mpr ⟨hu, hsome⟩)
        unfold Cpu.extra
        rw [hnone]
      rw [Finset.erase_eq_of_notMem hmem, hzero]
      exact add_zero _

/-- **A switch keeps the invariant.** -/
theorem CpuOk.switchTo {rest : List Instr} (h : CpuOk s)
    (htop : s.running.top = ⟨.switch :: rest, 1, false⟩) (u : Nat) : CpuOk (s.switchTo u rest) := by
  obtain ⟨hwaiting, htotal⟩ := h.waiting htop
  obtain ⟨T, hT, heq⟩ := h.counter
  have hpos : 1 ≤ s.running.total := by
    have hle := s.running.share_le_total
    rw [htop] at hle
    exact hle
  unfold Cpu.switchTo
  by_cases hu : u = s.current
  · -- `round_robin` picked the current task again
    rw [if_pos hu]
    exact ⟨hwaiting.ok, fun _ => hwaiting.flag, h.suspended, T, hT, by rw [heq, ← htotal]; rfl⟩
  rw [if_neg hu]
  have hsuspended : ∀ t c flag, t ≠ u →
      Function.update s.suspended s.current
        (some (s.running.setTop ⟨rest, 1, false⟩, s.interrupts)) t = some (c, flag) →
      Waiting c flag := by
    intro t c flag _ hsome
    by_cases ht : t = s.current
    · rw [ht, Function.update_self] at hsome
      obtain ⟨rfl, rfl⟩ := Prod.mk.inj (Option.some.inj hsome)
      exact hwaiting
    · rw [Function.update_of_ne ht] at hsome
      exact h.suspended t c flag ht hsome
  -- whoever is resumed or started, what the others added is accounted for
  have hcounter : ∀ s' : Cpu, s'.current = u →
      s'.suspended = Function.update s.suspended s.current
        (some (s.running.setTop ⟨rest, 1, false⟩, s.interrupts)) →
      s'.counter - s'.running.total = s.counter - s.running.total - s.extra u +
        (s.running.total - 1 : Nat) →
      ∃ T : Finset Nat, (∀ t, t ∈ T ↔ t ≠ s'.current ∧ s'.suspended t ≠ none) ∧
        s'.counter = s'.running.total + ∑ t ∈ T, (s'.extra t : Int) := by
    intro s' hcurrent hupdate hbalance
    obtain ⟨hmem, hsum⟩ := sum_extra_switch s s' hT hu hupdate hcurrent
    refine ⟨insert s.current (T.erase u), hmem, ?_⟩
    rw [htotal] at hsum
    omega
  cases hsome : s.suspended u with
  | some entry =>
    obtain ⟨context, flag⟩ := entry
    have hresumed := h.suspended u context flag hu hsome
    have hresumedPos : 1 ≤ context.total := by
      have hle := context.share_le_total
      rw [hresumed.share] at hle
      exact hle
    have hextra : s.extra u = context.total - 1 := by
      unfold Cpu.extra
      rw [hsome]
    refine ⟨hresumed.ok, fun _ => hresumed.flag, hsuspended, hcounter _ rfl rfl ?_⟩
    show s.counter - (context.total : Int) = _
    rw [hextra]
    omega
  | none =>
    have hextra : s.extra u = 0 := by
      unfold Cpu.extra
      rw [hsome]
    refine ⟨fun hw => (by cases hw), fun hinner => ?_, hsuspended, hcounter _ rfl rfl ?_⟩
    · exact absurd (show 1 ≤ 0 from hinner) (by decide)
    · show s.counter - 1 - ((0 : Nat) : Int) = _
      rw [hextra]
      omega

/-- **Every step keeps the invariant.** -/
theorem CpuOk.step (h : CpuOk s) (hstep : CpuStep s op s') : CpuOk s' := by
  cases op with
  | exec =>
    unfold CpuStep Cpu.step at hstep
    simp only [] at hstep
    split at hstep
    · cases hstep
    · next i rest share window htop => exact h.executes htop (Cpu.executes hstep)
  | switchTo u =>
    obtain ⟨rest, hrest, rfl⟩ := Option.map_eq_some_iff.mp hstep
    exact h.switchTo (Cpu.switchRest_eq hrest) u
  | begin code =>
    unfold CpuStep Cpu.step at hstep
    simp only [] at hstep
    split at hstep
    · next share window hrun =>
      obtain rfl := Option.some.inj hstep
      have hcontext := h.context
      have hflag := h.flag
      obtain ⟨T, hT, heq⟩ := h.counter
      rw [hrun] at hcontext hflag heq
      exact ⟨hcontext, hflag, h.suspended, T, hT, heq⟩
    · cases hstep
  | interrupt queues =>
    unfold CpuStep Cpu.step at hstep
    simp only [] at hstep
    split at hstep
    · next hon =>
      obtain rfl := Option.some.inj hstep
      have hinner : s.running.top.inner = 0 := by
        by_contra hne
        have hoff := h.flag (Nat.one_le_iff_ne_zero.mpr hne)
        rw [hon] at hoff
        cases hoff
      obtain ⟨T, hT, heq⟩ := h.counter
      refine ⟨⟨fun hw => (by cases hw), hon, h.context.interruptible hinner⟩, fun _ => rfl,
        h.suspended, T, hT, ?_⟩
      show s.counter = ((0 + s.running.total : Nat) : Int) + _
      rw [Nat.zero_add]
      exact heq
    · cases hstep
  | iret =>
    unfold CpuStep Cpu.step at hstep
    simp only [] at hstep
    split at hstep
    · next saved below hrun =>
      obtain rfl := Option.some.inj hstep
      have hcontext := h.context
      obtain ⟨T, hT, heq⟩ := h.counter
      rw [hrun] at hcontext heq
      obtain ⟨hok, hinner⟩ := Context.Interruptible.ok hcontext.2.2
      refine ⟨hok, fun hpos => ?_, h.suspended, T, hT, ?_⟩
      · rw [hinner] at hpos
        cases hpos
      · rw [show (Context.handler ⟨[], 0, false⟩ saved below).total = below.total from Nat.zero_add _] at heq
        exact heq
    · cases hstep

/-! ## Runs without a switch in the middle of a `DISABLE_INTERRUPTS` -/

/-- A task is not switched away from with more in the counter than the share of its
`scheduler_schedule`: the tick did not come between an increment and its `cli`. -/
def WholeDisable (s : Cpu) (op : CpuOp) : Prop :=
  ∀ u, op = .switchTo u → u ≠ s.current → s.running.total = 1

/-- Suspended tasks left nothing in the counter, and a task outside every pair and every handler
runs with interrupts enabled. -/
structure CpuEven (s : Cpu) : Prop where
  ok : CpuOk s
  suspended : ∀ t c flag, t ≠ s.current → s.suspended t = some (c, flag) → c.total = 1
  enabled : ∀ f, s.running = .code f → f.share = 0 → s.interrupts = true

/-- The counter is what the current task added. -/
theorem CpuEven.counter_eq (h : CpuEven s) : s.counter = s.running.total := by
  obtain ⟨T, hT, heq⟩ := h.ok.counter
  have hzero : ∑ t ∈ T, (s.extra t : Int) = 0 := by
    refine Finset.sum_eq_zero fun t ht => ?_
    obtain ⟨hne, hsome⟩ := (hT t).mp ht
    obtain ⟨⟨c, flag⟩, hc⟩ := Option.ne_none_iff_exists'.mp hsome
    unfold Cpu.extra
    rw [hc]
    simp only [h.suspended t c flag hne hc]
    rfl
  rw [heq, hzero, add_zero]

theorem Context.setTop_eq_code (h : c.setTop g = .code f) : f = g ∧ c = .code c.top := by
  cases c with
  | code d =>
    obtain rfl := Context.code.inj h
    exact ⟨rfl, rfl⟩
  | handler d saved below => cases h

/-- An instruction leaves a task outside every pair with interrupts enabled. -/
theorem CpuEven.executes {i : Instr} {share : Nat} {window : Bool} {rest : List Instr}
    (h : CpuEven s) (htop : s.running.top = ⟨i :: rest, share, window⟩)
    (hstep : Executes s share window rest i s') (hf : s'.running = .code f)
    (hshare : f.share = 0) : s'.interrupts = true := by
  have hok := h.ok.context.top
  have hcounter := h.counter_eq
  rw [htop] at hok
  -- the code goes on with its share
  have hsame : s.running.setTop ⟨rest, share, window⟩ = .code f → s.interrupts = true := by
    intro hset
    obtain ⟨rfl, hcode⟩ := Context.setTop_eq_code hset
    refine h.enabled s.running.top hcode ?_
    rw [htop]
    exact hshare
  cases hstep with
  | increment _ =>
    obtain ⟨rfl, -⟩ := Context.setTop_eq_code hf
    cases hshare
  | cli hhalf =>
    obtain ⟨rfl, -⟩ := Context.setTop_eq_code hf
    have hpos : 1 ≤ share := hok hhalf
    have hzero : share = 0 := hshare
    omega
  | enable _ hpair =>
    obtain ⟨rfl, hcode⟩ := Context.setTop_eq_code hf
    have hzero : share - 1 = 0 := hshare
    have hone : s.running.total = share := by
      rw [hcode, htop]
      rfl
    show (if s.counter - 1 = 0 then true else s.interrupts) = true
    rw [if_pos (by omega)]
  | lock l _ => exact hsame hf
  | unlock l => exact hsame hf
  | zombieIn => exact hsame hf
  | zombieOut => exact hsame hf

theorem CpuEven.switchTo {rest : List Instr} (h : CpuEven s)
    (htop : s.running.top = ⟨.switch :: rest, 1, false⟩) {u : Nat}
    (hwhole : u ≠ s.current → s.running.total = 1) : CpuEven (s.switchTo u rest) := by
  refine ⟨h.ok.switchTo htop u, ?_, ?_⟩
  · obtain ⟨-, htotal⟩ := h.ok.waiting htop
    unfold Cpu.switchTo
    by_cases hu : u = s.current
    · rw [if_pos hu]
      exact h.suspended
    rw [if_neg hu]
    have hall : ∀ t c flag, Function.update s.suspended s.current
        (some (s.running.setTop ⟨rest, 1, false⟩, s.interrupts)) t = some (c, flag) →
        c.total = 1 := by
      intro t c flag hsome
      by_cases ht : t = s.current
      · rw [ht, Function.update_self] at hsome
        obtain ⟨rfl, -⟩ := Prod.mk.inj (Option.some.inj hsome)
        rw [htotal]
        exact hwhole hu
      · rw [Function.update_of_ne ht] at hsome
        exact h.suspended t c flag ht hsome
    cases s.suspended u with
    | some entry => exact fun t c flag _ hsome => hall t c flag hsome
    | none => exact fun t c flag _ hsome => hall t c flag hsome
  · intro f hf hshare
    -- a task that is resumed is in its block, and one that is started runs with interrupts enabled
    unfold Cpu.switchTo at hf ⊢
    by_cases hu : u = s.current
    · rw [if_pos hu] at hf
      obtain ⟨rfl, -⟩ := Context.setTop_eq_code hf
      cases hshare
    rw [if_neg hu] at hf ⊢
    cases hsome : s.suspended u with
    | some entry =>
      obtain ⟨context, flag⟩ := entry
      rw [hsome] at hf
      have hone := (h.ok.suspended u context flag hu hsome).share
      rw [show context = .code f from hf] at hone
      rw [show f.share = 1 from hone] at hshare
      cases hshare
    | none => rfl

/-- **A step keeps the processor even.** -/
theorem CpuEven.step (h : CpuEven s) (hwhole : WholeDisable s op) (hstep : CpuStep s op s') :
    CpuEven s' := by
  have hok := h.ok.step hstep
  cases op with
  | exec =>
    unfold CpuStep Cpu.step at hstep
    simp only [] at hstep
    split at hstep
    · cases hstep
    · next i rest share window htop =>
      have hexec := Cpu.executes hstep
      refine ⟨hok, ?_, fun f hf hshare => h.executes htop hexec hf hshare⟩
      cases hexec <;> exact h.suspended
  | switchTo u =>
    obtain ⟨rest, hrest, rfl⟩ := Option.map_eq_some_iff.mp hstep
    exact h.switchTo (Cpu.switchRest_eq hrest) (hwhole u rfl)
  | begin code =>
    unfold CpuStep Cpu.step at hstep
    simp only [] at hstep
    split at hstep
    · next share window hrun =>
      obtain rfl := Option.some.inj hstep
      refine ⟨hok, h.suspended, fun f hf hshare => h.enabled _ hrun ?_⟩
      obtain rfl := Context.code.inj hf
      exact hshare
    · cases hstep
  | interrupt queues =>
    unfold CpuStep Cpu.step at hstep
    simp only [] at hstep
    split at hstep
    · obtain rfl := Option.some.inj hstep
      exact ⟨hok, h.suspended, fun f hf => by cases hf⟩
    · cases hstep
  | iret =>
    unfold CpuStep Cpu.step at hstep
    simp only [] at hstep
    split at hstep
    · next saved below hrun =>
      obtain rfl := Option.some.inj hstep
      have hcontext := h.ok.context
      rw [hrun] at hcontext
      exact ⟨hok, h.suspended, fun _ _ _ => hcontext.2.1⟩
    · cases hstep

theorem bootCpu_ok : CpuOk bootCpu where
  context := fun hw => by cases hw
  flag := fun hinner => absurd (show 1 ≤ 0 from hinner) (by decide)
  suspended := fun _ _ _ _ hsome => by cases hsome
  counter := ⟨∅, fun _ => ⟨fun hmem => absurd hmem (Finset.notMem_empty _),
    fun hsome => absurd rfl hsome.2⟩, rfl⟩

/-- **Interrupts are restored.** In every state of a run in which no task is switched away from in
the middle of a `DISABLE_INTERRUPTS`, a task that is outside every pair and every handler has
interrupts enabled, and the counter is zero. -/
theorem interrupts_restored (hrun : Run CpuStep WholeDisable bootCpu s)
    (hcode : s.running = .code f)
    (hshare : f.share = 0) : s.interrupts = true ∧ s.counter = 0 := by
  have heven : CpuEven s := by
    refine hrun.invariant (I := CpuEven) (fun _ _ _ h hwhole hstep => h.step hwhole hstep) ?_
    exact ⟨bootCpu_ok, fun _ _ _ _ hsome => (by cases hsome), fun _ _ _ => rfl⟩
  refine ⟨heven.enabled f hcode hshare, ?_⟩
  rw [heven.counter_eq, hcode]
  show ((f.share : Nat) : Int) = 0
  rw [hshare]
  rfl

instance (s : Cpu) (op : CpuOp) : Decidable (WholeDisable s op) :=
  match op with
  | .switchTo u => decidable_of_iff (u ≠ s.current → s.running.total = 1)
      ⟨fun h _ hu => CpuOp.switchTo.inj hu ▸ h, fun h => h u rfl⟩
  | .exec | .begin _ | .interrupt _ | .iret => isTrue fun _ hu => nomatch hu

/-- The first tick starts task 1. It is interrupted after a `DISABLE_INTERRUPTS` and its
`ENABLE_INTERRUPTS`, and task 2 is started, which enters a block and leaves it. -/
def wholeDisableOps : List CpuOp :=
  [.interrupt [.ready], .exec, .exec, .exec, .exec, .exec, .exec, .switchTo 1,
    .begin (interruptSafeBlock []), .exec, .exec, .exec,
    .interrupt [.ready], .exec, .exec, .exec, .exec, .switchTo 2,
    .begin (interruptSafeBlock []), .exec, .exec, .exec]

theorem interrupts_restored_bootCpu :
    ∃ s, runList Cpu.step WholeDisable bootCpu wholeDisableOps = some s ∧
      s.interrupts = true ∧ s.counter = 0 := by
  have hrun : (runList Cpu.step WholeDisable bootCpu wholeDisableOps).map (·.running) =
      some (.code (startFrame [])) := by decide +kernel
  obtain ⟨s, hs, hcode⟩ := Option.map_eq_some_iff.mp hrun
  exact ⟨s, hs, interrupts_restored (Run.of_runList id hs) hcode rfl⟩

/-! ## A tick in the middle of a `DISABLE_INTERRUPTS` -/

/-- The first tick starts task 1. It is interrupted between the increment and the `cli` of a
`DISABLE_INTERRUPTS`, and task 2 is started, which enters a block and leaves it. -/
def halfDisabledOps : List CpuOp :=
  [.interrupt [.ready], .exec, .exec, .exec, .exec, .exec, .exec, .switchTo 1,
    .begin (interruptSafeBlock []), .exec,
    .interrupt [.ready], .exec, .exec, .exec, .exec, .switchTo 2,
    .begin (interruptSafeBlock []), .exec, .exec, .exec]

/-- **Interrupts that stay off.** Task 2 is outside every pair, and interrupts are disabled: its
`ENABLE_INTERRUPTS` found the increment of task 1 in the counter. -/
theorem exists_interrupts_off :
    ¬ ∀ s f, Run CpuStep (fun _ _ => True) bootCpu s → s.running = .code f → f.share = 0 →
      s.interrupts = true ∧ s.counter = 0 := by
  have hview : (runList Cpu.step (fun _ _ => True) bootCpu halfDisabledOps).map
      (fun s => (s.running, s.interrupts)) = some (.code (startFrame []), false) := by
    decide +kernel
  obtain ⟨s, hs, hstate⟩ := Option.map_eq_some_iff.mp hview
  obtain ⟨hcode, hoff⟩ := Prod.mk.inj hstate
  intro hall
  obtain ⟨hon, -⟩ := hall s _ (Run.of_runList id hs) hcode rfl
  rw [hoff] at hon
  cases hon

end Xylophone
