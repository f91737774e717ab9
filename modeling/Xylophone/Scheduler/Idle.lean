import Xylophone.Scheduler.Lost

/-!
# The idle thread is always there

`kthread_idle` neither sleeps nor exits. After boot it is the second task of the ready queue; from
the first switch on it is the running task, or waits in the ready queue, and no second push of
another task cuts it off. So `round_robin` always finds a task.

* `IdleThere.step` — every step keeps the idle thread there
* `never_panics` — `round_robin` never panics, and there is a current task after it
-/

namespace Xylophone

open Infra

variable {m m' : Machine} {op : SchedulerOp} {l : List Nat} {idle : Nat}

/-- The boot configuration: the ready queue holds the cleaner, the idle thread and further kernel
threads, all of them created and none started. -/
structure Booted (m : Machine) (cleaner idle : Nat) (rest : List Nat) : Prop where
  current : m.sched.current = none
  ready : Holds (links m.sched.tasks) m.sched.readyQueue.ends (cleaner :: idle :: rest)
  closed : Closed (links m.sched.tasks) (cleaner :: idle :: rest)
  created : ∀ t ∈ cleaner :: idle :: rest, (m.sched.tasks t).state = .created
  sleepers : m.sched.sleepQueue.size = 0
  zombies : m.sched.zombieQueue = taskQueueInit
  pending : ∀ t, m.pending t = none

/-- The idle thread does not sleep or exit. -/
def IdleLoops (idle : Nat) (m : Machine) (op : SchedulerOp) : Prop :=
  (op = .exit ∨ ∃ ms, op = .sleep ms) → m.caller ≠ some idle

/-- The idle thread can be run. -/
structure IdleThere (idle : Nat) (m : Machine) (l : List Nat) : Prop where
  ok : MachineOk m l
  state : (m.sched.tasks idle).state = .running ∨ (m.sched.tasks idle).state = .created
  closed : ClosedAt (links m.sched.tasks) l idle
  there :
    (m.sched.current = none ∧ m.sched.sleepQueue.tasks = 0 ∧ Closed (links m.sched.tasks) l ∧
      ∃ cleaner rest, l = cleaner :: idle :: rest) ∨
    (m.sched.current ≠ none ∧
      (m.sched.current = some idle ∧ (m.sched.tasks idle).state = .running ∨ idle ∈ l))

theorem Booted.idleThere {cleaner : Nat} {rest : List Nat} (h : Booted m cleaner idle rest) :
    IdleThere idle m (cleaner :: idle :: rest) := by
  have hempty : m.sched.sleepQueue.tasks = 0 := by
    unfold SleepQueue.tasks
    rw [h.sleepers]
    exact contents_zero
  have hnone : ∀ {c : Nat}, m.sched.current ≠ some c := by
    intro c hc
    rw [h.current] at hc
    cases hc
  refine ⟨⟨⟨h.ready, h.zombies, ?_, ?_, ?_, ?_, ?_, ?_⟩, ?_, ?_, ?_, fun _ => h.closed⟩, ?_,
    h.closed idle, Or.inl ⟨h.current, hempty, h.closed, cleaner, rest, rfl⟩⟩
  · rw [hempty]
    exact Multiset.nodup_zero
  · intro t _
    rw [hempty]
    exact Multiset.notMem_zero t
  · exact fun t ht => Or.inr (h.created t ht)
  · intro t ht
    rw [hempty] at ht
    exact absurd ht (Multiset.notMem_zero t)
  · rw [h.sleepers]
    exact Nat.zero_le _
  · intro j _ hj
    rw [h.sleepers] at hj
    exact absurd hj (Nat.not_lt_zero j)
  · exact fun c hc => absurd hc hnone
  · exact fun c hc => absurd hc hnone
  · exact fun c hc => absurd (Machine.caller_eq hc).1 hnone
  · exact Or.inr (h.created idle (by simp))

theorem IdleThere.awake (h : IdleThere idle m l) : idle ∉ m.sched.sleepQueue.tasks := by
  intro hmem
  have hstate := h.ok.queues.sleepState idle hmem
  rcases h.state with he | he <;> rw [hstate] at he <;> cases he

theorem IdleThere.noLoop (h : IdleThere idle m l) : NoLoop m op l := by
  rcases h.there with ⟨-, hempty, hclosed, -⟩ | ⟨hsome, hthere⟩
  · refine .closed hclosed fun s tick he c _ hmem => ?_
    obtain ⟨l₀, hs⟩ := h.ok.entered he
    rw [hs.sleepQueue, hempty] at hmem
    exact absurd hmem (Multiset.notMem_zero c)
  · exact .anchored idle h.closed h.awake hsome hthere

/-- The idle thread waits in the ready queue when the next task is picked. -/
theorem IdleThere.mem_putBack {s : Scheduler} {l₀ ws l' : List Nat} (h : IdleThere idle m l)
    (hs : Entered m s l l₀) (hp : Preempted s l₀ ws l') : idle ∈ l' := by
  rcases h.there with ⟨hnone, -, -, cleaner, rest, rfl⟩ | ⟨hsome, hthere⟩
  · obtain ⟨-, -, rfl⟩ := hs.current.resolve_left fun hc => hc.1 hnone
    exact hp.mem_of_mem (List.mem_cons_self ..)
  · obtain ⟨-, hcur, rfl⟩ := hs.current.resolve_right fun hc => hsome hc.1
    rcases hthere with ⟨hidle, hrun⟩ | hl
    · exact hp.mem_of_current (hcur.trans hidle) ((hs.states idle).trans hrun)
    · exact hp.mem_of_mem hl

/-- **A step that ends in `round_robin`** finds a task. -/
theorem IdleThere.switch {s : Scheduler} {tick : Nat} (h : IdleThere idle m l)
    (he : m.entry op = some (s, tick)) :
    ∃ m' o, m.apply op = some (m', o) ∧ o ≠ .panic ∧ m'.sched.current ≠ none := by
  obtain ⟨l₀, ws, l', hs, hp, -, hcases⟩ := h.ok.switch h.noLoop he
  rcases hcases with ⟨rfl, -⟩ | ⟨a, rest, m', o, -, happly, ho, -, hswitches⟩
  · exact absurd (h.mem_putBack hs hp) List.not_mem_nil
  · refine ⟨m', o, happly, ho, ?_⟩
    rw [hswitches.switched.current]
    exact Option.some_ne_none a

/-- **Every step keeps the idle thread there.** -/
theorem IdleThere.step (h : IdleThere idle m l) (hidle : IdleLoops idle m op)
    (hstep : MachineStep m op m') : ∃ l', IdleThere idle m' l' ∧ Evolved m m' l op l' := by
  obtain ⟨l', hok, hevolved, hclosed⟩ := h.ok.step h.noLoop hstep
  have hat : ClosedAt (links m'.sched.tasks) l' idle := by
    refine hclosed idle h.closed fun s tick he _ hmem => absurd hmem ?_
    obtain ⟨l₀, hs⟩ := h.ok.entered he
    rw [hs.sleepQueue]
    exact h.awake
  refine ⟨l', ?_, hevolved⟩
  -- a step that leaves the current task and the idle thread as they were
  have hquiet : ∀ {c : Nat}, idle ≠ c → SameOthers m.sched m'.sched c → (∃ ys, l' = l ++ ys) →
      (m.sched.current = none → m'.sched.sleepQueue = m.sched.sleepQueue) →
      IdleThere idle m' l' := by
    intro c hne ho hl' hsleep
    have hstate : (m'.sched.tasks idle).state = (m.sched.tasks idle).state := ho.states idle hne
    obtain ⟨ys, rfl⟩ := hl'
    refine ⟨hok, by rw [hstate]; exact h.state, hat, ?_⟩
    rw [ho.current, hstate]
    rcases h.there with ⟨hnone, hempty, -, cleaner, rest, rfl⟩ | ⟨hsome, hthere⟩
    · refine Or.inl ⟨hnone, by rw [hsleep hnone]; exact hempty, ?_, cleaner, rest ++ ys, rfl⟩
      exact hok.fresh (ho.current.trans hnone)
    · exact Or.inr ⟨hsome, hthere.imp id (List.mem_append_left _)⟩
  have hcalls : ∀ {c : Nat}, m.caller = some c → m.sched.current ≠ none := by
    intro c hc
    rw [(Machine.caller_eq hc).1]
    exact Option.some_ne_none c
  cases hevolved with
  | same _ _ hsched => exact ⟨hok, by rw [hsched]; exact h.state, hat, by rw [hsched]; exact h.there⟩
  | created task i hfree ho hstate hsleep =>
    refine hquiet (c := i) ?_ ho ⟨[i], rfl⟩ fun _ => hsleep
    rintro rfl
    rcases h.state with he | he <;> rw [(freeTask_some hfree).1] at he <;> cases he
  | slept ms c hcaller ho hstate hwake hsleep =>
    refine hquiet (c := c) ?_ ho ⟨[], (List.append_nil l).symm⟩ fun hnone =>
      absurd hnone (hcalls hcaller)
    rintro rfl
    exact hidle (Or.inr ⟨ms, rfl⟩) hcaller
  | marked c hcaller ho hstate hsleep =>
    refine hquiet (c := c) ?_ ho ⟨[], (List.append_nil l).symm⟩ fun _ => hsleep
    rintro rfl
    exact hidle (Or.inl rfl) hcaller
  | switched s tick l₀ ws a _ he hs =>
    have hmem := h.mem_putBack hs.entered hs.putBack
    have hws : idle ∉ ws := by
      intro hmem
      have := hs.sleeping idle hmem
      rw [hs.entered.sleepQueue] at this
      exact h.awake this
    have hsome : m'.sched.current ≠ none := by
      rw [hs.switched.current]
      exact Option.some_ne_none a
    rcases List.mem_cons.mp hmem with rfl | hrest
    · exact ⟨hok, Or.inl hs.switched.picked, hat,
        Or.inr ⟨hsome, Or.inl ⟨hs.switched.current, hs.switched.picked⟩⟩⟩
    · refine ⟨hok, hok.queues.readyState idle hrest, hat, Or.inr ⟨hsome, Or.inr hrest⟩⟩

/-- The idle thread is there in every run. -/
theorem Booted.run {m₀ : Machine} {cleaner : Nat} {rest : List Nat}
    (hboot : Booted m₀ cleaner idle rest) (hrun : Run MachineStep (IdleLoops idle) m₀ m) :
    ∃ l, IdleThere idle m l := by
  refine hrun.invariant (I := fun m => ∃ l, IdleThere idle m l) (fun m op m' h hidle hstep => ?_)
    ⟨_, hboot.idleThere⟩
  obtain ⟨l, h⟩ := h
  obtain ⟨l', h', -⟩ := h.step hidle hstep
  exact ⟨l', h'⟩

/-- Only a tick and the creation of a task happen without a current task. -/
theorem Machine.current_of_apply {r : Machine × Outcome} (happly : m.apply op = some r)
    (hcreate : ∀ task, op ≠ .create task) (htick : op ≠ .tick) : m.sched.current ≠ none := by
  have hcalls : ∀ {c : Nat}, m.caller = some c → m.sched.current ≠ none := by
    intro c hc
    rw [(Machine.caller_eq hc).1]
    exact Option.some_ne_none c
  cases op with
  | tick => exact absurd rfl htick
  | create task => exact absurd rfl (hcreate task)
  | yield =>
    obtain ⟨c, hc, -⟩ := Option.map_eq_some_iff.mp happly
    exact hcalls hc
  | sleep ms =>
    obtain ⟨c, hc, -⟩ := Option.bind_eq_some_iff.mp happly
    exact hcalls hc
  | exit =>
    obtain ⟨c, hc, -⟩ := Option.bind_eq_some_iff.mp happly
    exact hcalls hc
  | resume =>
    obtain ⟨c, hc, -⟩ := Option.bind_eq_some_iff.mp happly
    rw [hc]
    exact Option.some_ne_none c
  | clean =>
    obtain ⟨c, hc, -⟩ := Option.map_eq_some_iff.mp happly
    exact hcalls hc

/-- **`round_robin` never panics.** In every run from the boot configuration in which the idle
thread does not sleep or exit, the step that comes next does not end in a panic, and leaves a
current task unless it only creates one; and a step that ends in `round_robin` does end. -/
theorem never_panics {m₀ : Machine} {cleaner : Nat} {rest : List Nat}
    (hboot : Booted m₀ cleaner idle rest) (hrun : Run MachineStep (IdleLoops idle) m₀ m) :
    (∀ m' o, m.apply op = some (m', o) →
      o ≠ .panic ∧ ((∀ task, op ≠ .create task) → m'.sched.current ≠ none)) ∧
    (m.entry op ≠ none → ∃ r, m.apply op = some r) := by
  obtain ⟨l, h⟩ := hboot.run hrun
  cases he : m.entry op with
  | some r =>
    obtain ⟨m', o, happly, ho, hcur⟩ := h.switch he
    refine ⟨fun m'' o' happly' => ?_, fun _ => ⟨_, happly⟩⟩
    obtain ⟨rfl, rfl⟩ := Prod.mk.inj (Option.some.inj (happly.symm.trans happly'))
    exact ⟨ho, fun _ => hcur⟩
  | none =>
    refine ⟨fun m' o happly => ?_, fun hne => absurd rfl hne⟩
    obtain ⟨l', -, hevolved, rfl, -⟩ := h.ok.step_quiet he happly
    refine ⟨Outcome.noConfusion, fun hcreate => ?_⟩
    have htick : op ≠ .tick := by
      rintro rfl
      cases he
    have hsome := Machine.current_of_apply happly hcreate htick
    cases hevolved with
    | same _ _ hsched => rwa [hsched]
    | created _ _ _ ho _ _ => rwa [ho.current]
    | slept _ _ _ ho _ _ _ => rwa [ho.current]
    | marked _ _ ho _ _ => rwa [ho.current]
    | switched s tick l₀ ws a _ hentry _ =>
      rw [he] at hentry
      cases hentry

/-- After `scheduler_init` the machine is in the boot configuration. -/
theorem bootMachine_booted (tasks : TaskTable) (data : Nat → Nat) (hz : Nat) (cleaner idle : Task) :
    Booted (bootMachine tasks data hz cleaner idle) 0 1 [] where
  current := rfl
  ready :=
    ⟨rfl, rfl, List.isChain_pair.mpr rfl, fun a ha => Or.inl (by cases ha; rfl), by decide⟩
  closed := fun a ha => by cases ha; rfl
  created := by
    intro t ht
    rcases List.mem_cons.mp ht with rfl | ht
    · rfl
    · obtain rfl := List.mem_singleton.mp ht
      rfl
  sleepers := rfl
  zombies := rfl
  pending := fun _ => rfl

theorem never_panics_freshMachine :
    (∀ m' o, tickedMachine.apply .tick = some (m', o) →
      o ≠ .panic ∧ ((∀ task, SchedulerOp.tick ≠ .create task) → m'.sched.current ≠ none)) ∧
    (tickedMachine.entry .tick ≠ none → ∃ r, tickedMachine.apply .tick = some r) :=
  never_panics (bootMachine_booted (fun _ => clearedTask) (fun _ => 0) 500 clearedTask clearedTask)
    (Run.single (by rintro (h | ⟨_, h⟩) <;> cases h) freshMachine_tick)

end Xylophone
