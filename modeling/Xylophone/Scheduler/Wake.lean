import Xylophone.Scheduler.Idle

/-!
# When a sleeper is woken

A task that sleeps for `ms` milliseconds is put back on the ready queue by the tick that completes
`max 1 (ms * hz / 1000)` ticks since its call, and by no call of `round_robin` before it, whoever
else sleeps. The product and the wake tick are 32-bit numbers, and the sleep queue is bounded; so
this holds when the product and the sum fit, when there is room, and when no task calls
`round_robin` with a tick that it read before the counter wrapped around.

* `Asleep.step` — a step before the tick is due leaves the task asleep
* `woken_on_time` — the tick that wakes it
* `exists_early_wake` — a product that wraps around
-/

namespace Xylophone

open Infra

variable {m m' : Machine} {op : SchedulerOp} {l : List Nat} {s : Scheduler}
  {idle t tick k n tick₀ : Nat}

/-! ## The time a task sleeps -/

/-- The wait is the exact one as long as the product fits into 32 bits, and only then. -/
theorem ticksToSleep_eq_iff (ms hz : Nat) :
    ticksToSleep ms hz = max 1 (ms * hz / 1000) ↔ ms * hz < 0x100000000 := by
  unfold ticksToSleep wrap32
  generalize ms * hz = p
  constructor
  · intro h
    split at h <;> omega
  · intro h
    rw [Nat.mod_eq_of_lt h]
    split <;> omega

/-! ## Counting ticks -/

/-- The ticks that pass in a step. -/
def SchedulerOp.ticks : SchedulerOp → Nat
  | .tick => 1
  | _ => 0

/-- A step, with the number of ticks since some moment. -/
def TickStep (p : Machine × Nat) (op : SchedulerOp) (p' : Machine × Nat) : Prop :=
  MachineStep p.1 op p'.1 ∧ p'.2 = p.2 + op.ticks

/-- The idle thread does not sleep, and no tick is used that is ahead of the counter: none was read
before the counter wrapped around. -/
def Timely (idle : Nat) (p : Machine × Nat) (op : SchedulerOp) : Prop :=
  IdleLoops idle p.1 op ∧ ∀ s tick, p.1.entry op = some (s, tick) → tick ≤ s.ticks

/-- The scheduler after the loop that wakes sleepers. -/
def woken (s : Scheduler) (tick : Nat) : Scheduler := wakeSleepers tick s.sleepQueue.size s

/-- In every run from `m₁`, the task is put back on the ready queue by the `round_robin` of the tick
with number `n`, and by none before it. -/
def WokenAt (ok : Machine × Nat → SchedulerOp → Prop) (m₁ : Machine) (t n : Nat) : Prop :=
  ∀ m₂ k, Run TickStep ok (m₁, 0) (m₂, k) → k < n →
    t ∈ m₂.sched.sleepQueue.tasks ∧
    ∀ op s tick, ok (m₂, k) op → m₂.entry op = some (s, tick) →
      (InQueue (woken s tick) (woken s tick).readyQueue t ↔ op = .tick ∧ k + 1 = n)

/-- The tick that a step uses, and the counter then. -/
theorem Machine.entry_ticks (he : m.entry op = some (s, tick)) :
    op = .tick ∧ tick = wrap32 (m.sched.ticks + 1) ∧ s.ticks = tick ∨
      op = .resume ∧ s.ticks = m.sched.ticks := by
  cases op with
  | tick =>
    obtain ⟨rfl, rfl⟩ := Prod.mk.inj (Option.some.inj he)
    refine Or.inl ⟨rfl, rfl, ?_⟩
    unfold ensureCurrent
    split <;> rfl
  | resume =>
    obtain ⟨c, -, he⟩ := Option.bind_eq_some_iff.mp he
    obtain ⟨p, -, he⟩ := Option.map_eq_some_iff.mp he
    obtain ⟨rfl, rfl⟩ := Prod.mk.inj he
    exact Or.inr ⟨rfl, rfl⟩
  | create _ => cases he
  | yield => cases he
  | sleep _ => cases he
  | exit => cases he
  | clean => cases he

theorem Machine.ticks_of_quiet (he : m.entry op = none) : op.ticks = 0 := by
  cases op with
  | tick => cases he
  | _ => rfl

/-! ## A sleeping task -/

/-- `k` ticks after `tick₀` the task sleeps until the tick `tick₀ + n`. -/
structure Asleep (t tick₀ n : Nat) (m : Machine) (k : Nat) : Prop where
  asleep : t ∈ m.sched.sleepQueue.tasks
  wakeTick : (m.sched.tasks t).wakeTick = tick₀ + n
  ticks : m.sched.ticks = tick₀ + k

/-- **What the loop that wakes sleepers does with a sleeping task**: it puts it on the ready queue
exactly if its tick has come. -/
theorem Entered.woken_iff {l₀ : List Nat} (hs : Entered m s l l₀)
    (ht : t ∈ m.sched.sleepQueue.tasks) (tick : Nat) :
    InQueue (woken s tick) (woken s tick).readyQueue t ↔ (m.sched.tasks t).wakeTick ≤ tick := by
  have hmem : t ∈ s.sleepQueue.tasks := by
    rw [hs.sleepQueue]
    exact ht
  obtain ⟨ws, hw⟩ := hs.queues.wake tick
  have hqueue : InQueue (woken s tick) (woken s tick).readyQueue t ↔ t ∈ l₀ ++ ws :=
    hw.ok.ready.reaches_iff
  rw [hqueue, List.mem_append, ← hs.wakeTick]
  constructor
  · rintro (hl | hws)
    · exact absurd hmem (hs.queues.apart t hl)
    · exact hw.due t hws
  · intro hdue
    rw [hw.sleepers, Multiset.mem_add, Multiset.mem_coe] at hmem
    rcases hmem with hws | hlater
    · exact Or.inr hws
    · exact absurd hdue (Nat.not_le.mpr (hw.notDue t hlater))

/-- The tick that a step uses is the task's only if it is number `n`. -/
theorem Asleep.due_iff (h : Asleep t tick₀ n m k) (hk : k < n) (hfit : tick₀ + n < 0x100000000)
    (htimely : ∀ s tick, m.entry op = some (s, tick) → tick ≤ s.ticks)
    (he : m.entry op = some (s, tick)) : tick₀ + n ≤ tick ↔ op = .tick ∧ k + 1 = n := by
  have hle := htimely s tick he
  have hticks := h.ticks
  rcases Machine.entry_ticks he with ⟨rfl, hwrap, -⟩ | ⟨rfl, hsame⟩
  · rw [hticks, wrap32_of_lt (by omega)] at hwrap
    refine ⟨fun hdue => ⟨rfl, by omega⟩, fun hlast => by omega⟩
  · refine ⟨fun hdue => by omega, fun hlast => absurd hlast.1 SchedulerOp.noConfusion⟩

/-- A step that leaves the task alone. -/
theorem Asleep.others {c : Nat} (h : Asleep t tick₀ n m k) (hok : MachineOk m l)
    (hc : (m.sched.tasks c).state ≠ .sleeping) (ho : SameOthers m.sched m'.sched c)
    (hsleep : t ∈ m.sched.sleepQueue.tasks → t ∈ m'.sched.sleepQueue.tasks) :
    Asleep t tick₀ n m' k := by
  have htc : t ≠ c := by
    rintro rfl
    exact hc (hok.queues.sleepState t h.asleep)
  exact ⟨hsleep h.asleep, (ho.wakeTick t htc).trans h.wakeTick, ho.ticks.trans h.ticks⟩

/-- **A step leaves the task asleep** as long as the ticks are not complete. -/
theorem Asleep.step {l' : List Nat} (h : Asleep t tick₀ n m k) (hok : MachineOk m l)
    (hk : k + op.ticks < n) (hfit : tick₀ + n < 0x100000000)
    (htimely : ∀ s tick, m.entry op = some (s, tick) → tick ≤ s.ticks)
    (hevolved : Evolved m m' l op l') : Asleep t tick₀ n m' (k + op.ticks) := by
  cases hevolved with
  | same he _ hsched =>
    rw [Machine.ticks_of_quiet he]
    exact ⟨by rw [hsched]; exact h.asleep, by rw [hsched]; exact h.wakeTick,
      by rw [hsched]; exact h.ticks⟩
  | created task i hfree ho _ hsleep =>
    refine h.others hok ?_ ho (by rw [hsleep]; exact id)
    rw [(freeTask_some hfree).1]
    decide
  | slept ms c hcaller ho _ _ hsleep =>
    refine h.others hok (by rw [hok.calling c hcaller]; decide) ho fun hmem => ?_
    rw [hsleep]
    split
    · exact hmem
    · exact Multiset.mem_cons_of_mem hmem
  | marked c hcaller ho _ hsleep =>
    exact h.others hok (by rw [hok.calling c hcaller]; decide) ho (by rw [hsleep]; exact id)
  | switched s tick l₀ ws a _ he hs =>
    have hws : t ∉ ws := by
      intro hmem
      have hle := hs.switched.due t hmem
      rw [hs.entered.wakeTick, h.wakeTick] at hle
      obtain ⟨rfl, hlast⟩ := (h.due_iff (by omega) hfit htimely he).mp hle
      have hone : SchedulerOp.tick.ticks = 1 := rfl
      omega
    refine ⟨?_, ?_, ?_⟩
    · have hmem := h.asleep
      rw [← hs.entered.sleepQueue, hs.switched.sleepers, Multiset.mem_add, Multiset.mem_coe] at hmem
      exact hmem.resolve_left hws
    · rw [hs.switched.wakeTick, hs.entered.wakeTick]
      exact h.wakeTick
    · rw [hs.switched.ticks]
      have hticks := h.ticks
      rcases Machine.entry_ticks he with ⟨rfl, hwrap, heq⟩ | ⟨rfl, heq⟩
      · have hone : SchedulerOp.tick.ticks = 1 := rfl
        rw [hticks, wrap32_of_lt (by omega)] at hwrap
        omega
      · have hzero : SchedulerOp.resume.ticks = 0 := rfl
        omega

/-! ## Runs -/

/-- The call of `scheduler_sleep` puts the task to sleep for the exact number of ticks. -/
theorem MachineOk.asleep {ms : Nat} {o : Outcome} (h : MachineOk m l) (hcaller : m.caller = some t)
    (hms : ms * m.sched.hz < 0x100000000)
    (hfit : m.sched.ticks + max 1 (ms * m.sched.hz / 1000) < 0x100000000)
    (hroom : m.sched.sleepQueue.size ≠ m.sched.sleepQueue.capacity)
    (happly : m.apply (.sleep ms) = some (m', o)) :
    Asleep t m.sched.ticks (max 1 (ms * m.sched.hz / 1000)) m' 0 := by
  obtain ⟨l', -, hevolved, -, -⟩ := h.step_quiet rfl happly
  cases hevolved with
  | same _ hawake _ => exact absurd rfl (hawake ms)
  | slept _ c hc ho _ hwake hsleep =>
    obtain rfl : t = c := Option.some.inj (hcaller.symm.trans hc)
    rw [if_neg hroom] at hsleep
    refine ⟨?_, ?_, ho.ticks⟩
    · rw [hsleep]
      exact Multiset.mem_cons_self t _
    · rw [hwake, (ticksToSleep_eq_iff _ _).mpr hms, wrap32_of_lt hfit]
  | switched s tick l₀ ws a _ he _ => cases he

/-- **A sleeper is woken on time.** In a run from the boot configuration a task calls
`scheduler_sleep(ms)`; the product and the wake tick fit into 32 bits, and there is room in the
sleep queue. Then, as long as no tick is used that is ahead of the counter, the task is put back by
the tick that completes the wait, and by no `round_robin` before it. -/
theorem woken_on_time {m₀ : Machine} {cleaner : Nat} {rest : List Nat} {ms : Nat}
    (hboot : Booted m₀ cleaner idle rest) (hrun : Run MachineStep (IdleLoops idle) m₀ m)
    (hcaller : m.caller = some t) (hidle : t ≠ idle) (hms : ms * m.sched.hz < 0x100000000)
    (hfit : m.sched.ticks + max 1 (ms * m.sched.hz / 1000) < 0x100000000)
    (hroom : m.sched.sleepQueue.size ≠ m.sched.sleepQueue.capacity)
    (hstep : MachineStep m (.sleep ms) m') :
    WokenAt (Timely idle) m' t (max 1 (ms * m.sched.hz / 1000)) := by
  obtain ⟨l, h⟩ := hboot.run hrun
  generalize hn : max 1 (ms * m.sched.hz / 1000) = n at *
  have hloops : IdleLoops idle m (.sleep ms) := by
    intro _ hc
    exact hidle (Option.some.inj (hcaller.symm.trans hc))
  obtain ⟨l', h', -⟩ := h.step hloops hstep
  have hasleep : Asleep t m.sched.ticks n m' 0 := by
    obtain ⟨o, happly, -⟩ := hstep
    rw [← hn] at hfit ⊢
    exact h.ok.asleep hcaller hms hfit hroom happly
  intro m₂ k hrun₂ hk
  have hinv : (∃ l, IdleThere idle m₂ l) ∧ (k < n → Asleep t m.sched.ticks n m₂ k) := by
    refine hrun₂.invariant (I := fun p => (∃ l, IdleThere idle p.1 l) ∧
      (p.2 < n → Asleep t m.sched.ticks n p.1 p.2)) (fun p op p' hp hok hs => ?_)
      ⟨⟨l', h'⟩, fun _ => hasleep⟩
    obtain ⟨⟨l, hthere⟩, hasleep⟩ := hp
    obtain ⟨l', hthere', hevolved⟩ := hthere.step hok.1 hs.1
    refine ⟨⟨l', hthere'⟩, fun hk => ?_⟩
    rw [hs.2] at hk ⊢
    exact (hasleep (by omega)).step hthere.ok hk hfit hok.2 hevolved
  obtain ⟨⟨l₂, hthere⟩, hasleep₂⟩ := hinv
  have hnow := hasleep₂ hk
  refine ⟨hnow.asleep, fun op s tick hok he => ?_⟩
  obtain ⟨l₀, hs⟩ := hthere.ok.entered he
  rw [hs.woken_iff hnow.asleep, hnow.wakeTick]
  exact hnow.due_iff hk hfit hok.2 he

/-- A third task was created, and the second tick started it. -/
def callingMachine : Machine :=
  (runList Machine.next (fun _ _ => True) freshMachine [.create clearedTask, .tick, .tick]).getD
    freshMachine

theorem idleLoops_of_ne (hexit : op ≠ .exit) (hsleep : ∀ ms, op ≠ .sleep ms) :
    IdleLoops idle m op := by
  rintro (h | ⟨ms, h⟩)
  · exact absurd h hexit
  · exact absurd h (hsleep ms)

theorem callingMachine_run : Run MachineStep (IdleLoops 1) freshMachine callingMachine := by
  obtain ⟨m₁, h₁⟩ : ∃ m₁, freshMachine.next (.create clearedTask) = some m₁ := ⟨_, rfl⟩
  obtain ⟨m₂, h₂⟩ : ∃ m₂, m₁.next .tick = some m₂ := by
    obtain rfl := Option.some.inj h₁
    exact ⟨_, rfl⟩
  have h₃ : m₂.next .tick = some callingMachine := by
    obtain rfl := Option.some.inj h₁
    obtain rfl := Option.some.inj h₂
    rfl
  refine Run.tail (Run.tail (Run.single ?_ (Machine.step_of_next h₁)) ?_ (Machine.step_of_next h₂)) ?_
    (Machine.step_of_next h₃)
  · exact idleLoops_of_ne SchedulerOp.noConfusion fun _ => SchedulerOp.noConfusion
  · exact idleLoops_of_ne SchedulerOp.noConfusion fun _ => SchedulerOp.noConfusion
  · exact idleLoops_of_ne SchedulerOp.noConfusion fun _ => SchedulerOp.noConfusion

/-- Four milliseconds are two ticks. -/
theorem woken_on_time_callingMachine : ∃ m', MachineStep callingMachine (.sleep 4) m' ∧
    WokenAt (Timely 1) m' 2 2 := by
  obtain ⟨m', hm'⟩ : ∃ m', callingMachine.next (.sleep 4) = some m' := ⟨_, rfl⟩
  have hstep := Machine.step_of_next hm'
  refine ⟨m', hstep, ?_⟩
  exact woken_on_time (bootMachine_booted (fun _ => clearedTask) (fun _ => 0) 500 clearedTask clearedTask)
    callingMachine_run rfl (by decide) (by decide) (by decide) (by decide) hstep

/-- **A product that wraps around**: the task is to sleep for 4294967 ticks, and is woken by the
next one. -/
theorem exists_early_wake : ¬ ∀ (m₀ m m' : Machine) (cleaner idle : Nat) (rest : List Nat)
    (t ms : Nat), Booted m₀ cleaner idle rest → Run MachineStep (IdleLoops idle) m₀ m →
    m.caller = some t → t ≠ idle → MachineStep m (.sleep ms) m' →
    WokenAt (fun p op => IdleLoops idle p.1 op) m' t (max 1 (ms * m.sched.hz / 1000)) := by
  intro h
  obtain ⟨m', hm'⟩ : ∃ m', callingMachine.next (.sleep 8589935) = some m' := ⟨_, rfl⟩
  obtain ⟨-, hwoken⟩ := h freshMachine callingMachine m' 0 1 [] 2 8589935
    (bootMachine_booted (fun _ => clearedTask) (fun _ => 0) 500 clearedTask clearedTask)
    callingMachine_run rfl (by decide) (Machine.step_of_next hm') m' 0 (Run.refl _) (by decide)
  obtain rfl := Option.some.inj hm'
  have hiff := hwoken .tick _ _
    (idleLoops_of_ne SchedulerOp.noConfusion fun _ => SchedulerOp.noConfusion) rfl
  have hready := hiff.mp (Reaches.step (Reaches.here 2))
  exact absurd hready.2 (by decide)

end Xylophone
