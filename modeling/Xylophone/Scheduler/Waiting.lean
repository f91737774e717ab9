import Xylophone.Scheduler.Idle

/-!
# Waiting in the ready queue

A task in the ready queue is never overtaken. Every switch takes the first task of the queue, and
whatever else happens (tasks are created, put to sleep, woken, ended) puts tasks behind it. Since a
task is in the queue once at most, and there are `TASKS_MAX` of them, a waiting task has the processor
after that many switches.

* `IdleThere.quiet`, `IdleThere.turn` — what a step does to the order of the ready queue
* `SwitchRun.position` — the place of a task after some switches
* `bounded_waiting` — the switch that selects a task
-/

namespace Xylophone

open Infra

variable {m m' m'' m₀ : Machine} {op : SchedulerOp} {l : List Nat} {idle n k t : Nat}

/-- A run in which `round_robin` is entered `n` times, and the idle thread neither sleeps nor exits. -/
inductive SwitchRun (idle : Nat) : Nat → Machine → Machine → Prop where
  | refl (m : Machine) : SwitchRun idle 0 m m
  | quiet {n : Nat} {m m' m'' : Machine} {op : SchedulerOp} (run : SwitchRun idle n m m')
    (loops : IdleLoops idle m' op) (step : MachineStep m' op m'') (entry : m'.entry op = none) :
    SwitchRun idle n m m''
  | switch {n : Nat} {m m' m'' : Machine} {op : SchedulerOp} (run : SwitchRun idle n m m')
    (loops : IdleLoops idle m' op) (step : MachineStep m' op m'') (entry : m'.entry op ≠ none) :
    SwitchRun idle (n + 1) m m''

/-! ## One step -/

/-- Putting the current task back adds to the end of the ready queue. -/
theorem Preempted.append {s : Scheduler} {ws l' : List Nat} (h : Preempted s l ws l') :
    ∃ ys, l' = l ++ ys := by
  cases h with
  | absent _ => exact ⟨ws, rfl⟩
  | stays _ _ _ _ => exact ⟨ws, rfl⟩
  | back c _ _ _ => exact ⟨ws ++ [c], List.append_assoc ..⟩
  | again c xs _ _ _ => exact ⟨xs ++ [c], List.append_assoc ..⟩

/-- **A step without a switch** adds to the end of the ready queue. -/
theorem IdleThere.quiet (h : IdleThere idle m l) (hcurrent : m.sched.current ≠ none)
    (hloops : IdleLoops idle m op) (hstep : MachineStep m op m') (hentry : m.entry op = none) :
    ∃ ys, IdleThere idle m' (l ++ ys) ∧ m'.sched.current ≠ none := by
  obtain ⟨l', h', hevolved⟩ := h.step hloops hstep
  cases hevolved with
  | same _ _ hsched => exact ⟨[], by rwa [List.append_nil], by rwa [hsched]⟩
  | created task i _ ho _ _ => exact ⟨[i], h', by rwa [ho.current]⟩
  | slept ms c _ ho _ _ _ => exact ⟨[], by rwa [List.append_nil], by rwa [ho.current]⟩
  | marked c _ ho _ _ => exact ⟨[], by rwa [List.append_nil], by rwa [ho.current]⟩
  | switched s tick l₀ ws a rest he hs =>
    rw [hentry] at he
    cases he

/-- **A switch** takes the first task of the ready queue, and adds to its end. -/
theorem IdleThere.turn (h : IdleThere idle m l) (hcurrent : m.sched.current ≠ none)
    (hloops : IdleLoops idle m op) (hstep : MachineStep m op m') (hentry : m.entry op ≠ none) :
    ∃ a rest ys, IdleThere idle m' rest ∧ a :: rest = l ++ ys ∧ m'.sched.current = some a := by
  obtain ⟨l', h', hevolved⟩ := h.step hloops hstep
  cases hevolved with
  | same he _ _ => exact absurd he hentry
  | created task i _ _ _ _ => exact absurd rfl hentry
  | slept ms c _ _ _ _ _ => exact absurd rfl hentry
  | marked c _ _ _ _ => exact absurd rfl hentry
  | switched s tick l₀ ws a rest he hs =>
    obtain ⟨-, -, rfl⟩ := hs.entered.current.resolve_right fun hnone => hcurrent hnone.1
    obtain ⟨ys, hys⟩ := hs.putBack.append
    exact ⟨a, l', ys, h', hys, hs.switched.current⟩

/-! ## Runs -/

/-- **The place of a waiting task** after some switches: it has come forward by as many. -/
theorem SwitchRun.position (hrun : SwitchRun idle n m m') (h : IdleThere idle m l)
    (hcurrent : m.sched.current ≠ none) (hk : l[k]? = some t) (hn : n ≤ k) :
    ∃ l', IdleThere idle m' l' ∧ m'.sched.current ≠ none ∧ l'[k - n]? = some t := by
  induction hrun with
  | refl m => exact ⟨l, h, hcurrent, hk⟩
  | quiet _ hloops hstep hentry ih =>
    obtain ⟨l', h', hcurrent', hk'⟩ := ih h hcurrent hn
    obtain ⟨ys, h'', hcurrent''⟩ := h'.quiet hcurrent' hloops hstep hentry
    refine ⟨l' ++ ys, h'', hcurrent'', ?_⟩
    obtain ⟨hlt, -⟩ := List.getElem?_eq_some_iff.mp hk'
    rw [List.getElem?_append_left hlt, hk']
  | @switch n m m' m'' op _ hloops hstep hentry ih =>
    obtain ⟨l', h', hcurrent', hk'⟩ := ih h hcurrent (by omega)
    obtain ⟨a, rest, ys, h'', hrest, hselected⟩ := h'.turn hcurrent' hloops hstep hentry
    refine ⟨rest, h'', by rw [hselected]; exact Option.some_ne_none a, ?_⟩
    obtain ⟨hlt, -⟩ := List.getElem?_eq_some_iff.mp hk'
    have hplace : (a :: rest)[k - n]? = some t := by
      rw [hrest, List.getElem?_append_left hlt, hk']
    rwa [show k - n = k - (n + 1) + 1 by omega, List.getElem?_cons_succ] at hplace

/-- The first task of the queue is selected by the next switch. -/
theorem SwitchRun.selects (hrun : SwitchRun idle k m m') (h : IdleThere idle m l)
    (hcurrent : m.sched.current ≠ none) (hk : l[k]? = some t) (hloops : IdleLoops idle m' op)
    (hstep : MachineStep m' op m'') (hentry : m'.entry op ≠ none) :
    m''.sched.current = some t := by
  obtain ⟨l', h', hcurrent', hk'⟩ := hrun.position h hcurrent hk (Nat.le_refl k)
  obtain ⟨a, rest, ys, -, hrest, hselected⟩ := h'.turn hcurrent' hloops hstep hentry
  obtain ⟨hlt, -⟩ := List.getElem?_eq_some_iff.mp hk'
  have hfirst : (a :: rest)[k - k]? = some t := by
    rw [hrest, List.getElem?_append_left hlt, hk']
  rw [Nat.sub_self, List.getElem?_cons_zero] at hfirst
  rw [hselected, hfirst]

/-- A run with more switches passes the state behind an earlier one. -/
theorem SwitchRun.passes (hrun : SwitchRun idle n m m') (h : IdleThere idle m l)
    (hcurrent : m.sched.current ≠ none) (hk : l[k]? = some t) (hn : k < n) :
    ∃ m₁, SwitchRun idle (k + 1) m m₁ ∧ SwitchRun idle (n - (k + 1)) m₁ m' ∧
      m₁.sched.current = some t := by
  induction hrun with
  | refl m => exact absurd hn (Nat.not_lt_zero k)
  | quiet _ hloops hstep hentry ih =>
    obtain ⟨m₁, hfirst, hrest, hselected⟩ := ih h hcurrent hn
    exact ⟨m₁, hfirst, hrest.quiet hloops hstep hentry, hselected⟩
  | @switch n m m' m'' op hrun hloops hstep hentry ih =>
    rcases Nat.lt_succ_iff_lt_or_eq.mp hn with hlt | rfl
    · obtain ⟨m₁, hfirst, hrest, hselected⟩ := ih h hcurrent hlt
      refine ⟨m₁, hfirst, ?_, hselected⟩
      have hnext := hrest.switch hloops hstep hentry
      rwa [show n - (k + 1) + 1 = n + 1 - (k + 1) by omega] at hnext
    · refine ⟨m'', hrun.switch hloops hstep hentry, ?_, ?_⟩
      · rw [Nat.sub_self]
        exact .refl m''
      · exact hrun.selects h hcurrent hk hloops hstep hentry

/-! ## The task table -/

/-- All tasks that are queued or run are in the task table. -/
structure InTable (m : Machine) (l : List Nat) : Prop where
  ready : ∀ t ∈ l, t < tasksMax
  sleepers : ∀ t ∈ m.sched.sleepQueue.tasks, t < tasksMax
  current : ∀ c, m.sched.current = some c → c < tasksMax

theorem Preempted.mem {s : Scheduler} {ws l' : List Nat} (h : Preempted s l ws l') (ht : t ∈ l') :
    t ∈ l ∨ t ∈ ws ∨ s.current = some t := by
  cases h with
  | absent _ => exact (List.mem_append.mp ht).imp_right Or.inl
  | stays _ _ _ _ => exact (List.mem_append.mp ht).imp_right Or.inl
  | back c hc _ _ =>
    rcases List.mem_append.mp ht with ht | ht
    · exact (List.mem_append.mp ht).imp_right Or.inl
    · obtain rfl := List.mem_singleton.mp ht
      exact Or.inr (Or.inr hc)
  | again c xs ys hc hws =>
    rcases List.mem_append.mp ht with ht | ht
    · rcases List.mem_append.mp ht with ht | ht
      · exact Or.inl ht
      · exact Or.inr (Or.inl (hws ▸ List.mem_append_left _ ht))
    · obtain rfl := List.mem_singleton.mp ht
      exact Or.inr (Or.inr hc)

theorem Entered.mem {s : Scheduler} {l₀ : List Nat} (h : Entered m s l l₀) (ht : t ∈ l₀) :
    t ∈ l := by
  rcases h.current with ⟨-, -, rfl⟩ | ⟨-, -, rfl⟩
  · exact ht
  · exact List.mem_of_mem_tail ht

theorem Entered.current_mem {s : Scheduler} {l₀ : List Nat} (h : Entered m s l l₀)
    (ht : s.current = some t) : m.sched.current = some t ∨ t ∈ l := by
  rcases h.current with ⟨-, hc, -⟩ | ⟨-, hc, -⟩
  · exact Or.inl (hc ▸ ht)
  · exact Or.inr (List.mem_of_head? (hc ▸ ht))

/-- **Every step keeps the tasks in the table.** -/
theorem InTable.step {l' : List Nat} (h : InTable m l) (hevolved : Evolved m m' l op l') :
    InTable m' l' := by
  cases hevolved with
  | same _ _ hsched => exact ⟨h.ready, by rw [hsched]; exact h.sleepers, by rw [hsched]; exact h.current⟩
  | created task i hfree ho _ hsleep =>
    refine ⟨fun t ht => ?_, by rw [hsleep]; exact h.sleepers, by rw [ho.current]; exact h.current⟩
    rcases List.mem_append.mp ht with ht | ht
    · exact h.ready t ht
    · obtain rfl := List.mem_singleton.mp ht
      exact (freeTask_some hfree).2
  | slept ms c hcaller ho _ _ hsleep =>
    refine ⟨h.ready, fun t ht => ?_, by rw [ho.current]; exact h.current⟩
    rw [hsleep] at ht
    split at ht
    · exact h.sleepers t ht
    · rcases Multiset.mem_cons.mp ht with rfl | ht
      · exact h.current t (Machine.caller_eq hcaller).1
      · exact h.sleepers t ht
  | marked c _ ho _ hsleep =>
    exact ⟨h.ready, by rw [hsleep]; exact h.sleepers, by rw [ho.current]; exact h.current⟩
  | switched s tick l₀ ws a rest he hs =>
    have hmem : ∀ t ∈ a :: l', t < tasksMax := by
      intro t ht
      rcases hs.putBack.mem ht with hl | hw | hc
      · exact h.ready t (hs.entered.mem hl)
      · exact h.sleepers t (hs.entered.sleepQueue ▸ hs.sleeping t hw)
      · exact (hs.entered.current_mem hc).elim (h.current t) (h.ready t)
    refine ⟨fun t ht => hmem t (List.mem_cons_of_mem _ ht), fun t ht => ?_, fun c hc => ?_⟩
    · refine h.sleepers t ?_
      rw [← hs.entered.sleepQueue, hs.switched.sleepers]
      exact Multiset.mem_add.mpr (Or.inr ht)
    · obtain rfl : a = c := Option.some.inj (hs.switched.current.symm.trans hc)
      exact hmem a List.mem_cons_self

/-- The machine after `scheduler_init`. -/
theorem bootMachine_inTable (tasks : TaskTable) (data : Nat → Nat) (hz : Nat)
    (cleaner idle : Task) : InTable (bootMachine tasks data hz cleaner idle) [0, 1] := by
  refine ⟨by decide, fun t ht => ?_, fun c hc => ?_⟩
  · have hempty : (bootMachine tasks data hz cleaner idle).sched.sleepQueue.tasks = 0 := contents_zero
    rw [hempty] at ht
    exact absurd ht (Multiset.notMem_zero t)
  · have hnone : (bootMachine tasks data hz cleaner idle).sched.current = none := rfl
    rw [hnone] at hc
    cases hc

/-- The idle thread is there and all tasks are in the table, in every run. -/
theorem bootMachine_run {tasks : TaskTable} {data : Nat → Nat} {hz : Nat} {cleaner idle : Task}
    (hrun : Run MachineStep (IdleLoops 1) (bootMachine tasks data hz cleaner idle) m) :
    ∃ l, IdleThere 1 m l ∧ InTable m l := by
  refine hrun.invariant (I := fun m => ∃ l, IdleThere 1 m l ∧ InTable m l)
    (fun m op m' h hloops hstep => ?_)
    ⟨_, (bootMachine_booted tasks data hz cleaner idle).idleThere, bootMachine_inTable ..⟩
  obtain ⟨l, h, hin⟩ := h
  obtain ⟨l', h', hevolved⟩ := h.step hloops hstep
  exact ⟨l', h', hin.step hevolved⟩

/-- **No task starves.** After boot, when the ready queue holds `l` and some task runs, task number
`k` of `l` is selected by switch number `k + 1` from then on, whatever else the tasks and the timer do;
and `k` is below the number of tasks in the table. -/
theorem bounded_waiting {tasks : TaskTable} {data : Nat → Nat} {hz : Nat} {cleaner idle : Task}
    (hrun : Run MachineStep (IdleLoops 1) (bootMachine tasks data hz cleaner idle) m)
    (hcurrent : m.sched.current ≠ none) (hl : Holds (links m.sched.tasks) m.sched.readyQueue.ends l)
    (hk : l[k]? = some t) :
    k < tasksMax ∧ ∀ n m', SwitchRun 1 n m m' → k < n →
      ∃ m₁, SwitchRun 1 (k + 1) m m₁ ∧ SwitchRun 1 (n - (k + 1)) m₁ m' ∧
        m₁.sched.current = some t := by
  obtain ⟨l', h, hin⟩ := bootMachine_run hrun
  obtain rfl : l = l' := hl.unique h.ok.queues.ready
  refine ⟨?_, fun n m' hswitches hn => hswitches.passes h hcurrent hk hn⟩
  obtain ⟨hlt, -⟩ := List.getElem?_eq_some_iff.mp hk
  have hlength : l.length ≤ (List.range tasksMax).length :=
    (List.subperm_of_subset hl.nodup fun t ht => List.mem_range.mpr (hin.ready t ht)).length_le
  rw [List.length_range] at hlength
  omega

/-- The machine after its first tick and the creation of two tasks. -/
def createdMachine : Machine :=
  ((tickedMachine.apply (.create clearedTask)).getD (tickedMachine, .panic)).1

def crowdedMachine : Machine :=
  ((createdMachine.apply (.create clearedTask)).getD (createdMachine, .panic)).1

theorem tickedMachine_create : MachineStep tickedMachine (.create clearedTask) createdMachine :=
  ⟨.returned, rfl, Outcome.noConfusion⟩

theorem createdMachine_create : MachineStep createdMachine (.create clearedTask) crowdedMachine :=
  ⟨.returned, rfl, Outcome.noConfusion⟩

/-- The machine after the next tick, and after the one that follows. -/
def switchedMachine : Machine := ((crowdedMachine.apply .tick).getD (crowdedMachine, .panic)).1

def reachedMachine : Machine := ((switchedMachine.apply .tick).getD (switchedMachine, .panic)).1

theorem crowdedMachine_tick : MachineStep crowdedMachine .tick switchedMachine :=
  ⟨.started 2, rfl, Outcome.noConfusion⟩

theorem switchedMachine_tick : MachineStep switchedMachine .tick reachedMachine :=
  ⟨.started 3, rfl, Outcome.noConfusion⟩

/-- The second of the two tasks has the processor after two switches. -/
theorem bounded_waiting_createdMachine :
    ∃ m₁, SwitchRun 1 2 crowdedMachine m₁ ∧ SwitchRun 1 0 m₁ reachedMachine ∧
      m₁.sched.current = some 3 := by
  have htick : ∀ m, IdleLoops 1 m .tick := by
    rintro m (h | ⟨ms, h⟩) <;> cases h
  have hcreate : ∀ m, IdleLoops 1 m (.create clearedTask) := by
    rintro m (h | ⟨ms, h⟩) <;> cases h
  have hrun : Run MachineStep (IdleLoops 1) freshMachine crowdedMachine :=
    ((Run.single (htick _) freshMachine_tick).tail (hcreate _) tickedMachine_create).tail
      (hcreate _) createdMachine_create
  have hholds : Holds (links crowdedMachine.sched.tasks) crowdedMachine.sched.readyQueue.ends
      [2, 3] :=
    ⟨rfl, rfl, List.isChain_pair.mpr rfl, fun a ha => Or.inl (by cases ha; rfl), by decide⟩
  have hswitches : SwitchRun 1 2 crowdedMachine reachedMachine :=
    ((SwitchRun.refl crowdedMachine).switch (htick _) crowdedMachine_tick nofun).switch (htick _)
      switchedMachine_tick nofun
  exact (bounded_waiting hrun (show some 1 ≠ none from nofun) hholds rfl).2 2 _ hswitches
    (by decide)

end Xylophone
