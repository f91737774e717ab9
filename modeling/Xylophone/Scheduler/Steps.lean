import Xylophone.Scheduler.Machine

/-!
# What a step of the scheduler does

Every step is one of a few things: a task is created, the current task goes to sleep or is marked,
or `round_robin` switches. `Evolved` says what each does to the machine, and to the tasks of the
ready queue; the claims about runs are read off it.

* `MachineOk.switch` — a step that ends in `round_robin`
* `MachineOk.step` — any step
-/

namespace Xylophone

open Infra

variable {s s' : Scheduler} {m m' : Machine} {op : SchedulerOp} {l l₀ rest ws : List Nat}
  {t tick a : Nat}

/-! ## Entering `round_robin` -/

/-- The scheduler with which a step enters `round_robin`; the ready queue held `l` and holds `l₀`.
Without a current task the first task of the queue became the current one. -/
structure Entered (m : Machine) (s : Scheduler) (l l₀ : List Nat) : Prop where
  queues : QueuesOk s l₀
  apart : ∀ c, s.current = some c → c ∉ l₀
  current : m.sched.current ≠ none ∧ s.current = m.sched.current ∧ l₀ = l ∨
    m.sched.current = none ∧ s.current = l.head? ∧ l₀ = l.tail
  states : ∀ u, (s.tasks u).state = (m.sched.tasks u).state
  wakeTick : ∀ u, (s.tasks u).wakeTick = (m.sched.tasks u).wakeTick
  sleepQueue : s.sleepQueue = m.sched.sleepQueue
  hz : s.hz = m.sched.hz
  closed : ∀ t, ClosedAt (links m.sched.tasks) l t → ClosedAt (links s.tasks) l₀ t

/-- A tick enters `round_robin`. -/
theorem MachineOk.entered_tick (h : MachineOk m l) (ticks : Nat) :
    Entered m (ensureCurrent { m.sched with ticks := ticks }) l
      (if m.sched.current = none then l.tail else l) := by
  have hq : QueuesOk { m.sched with ticks := ticks } l := h.queues.frame rfl rfl rfl rfl
  unfold ensureCurrent
  by_cases hc : m.sched.current = none
  · simp only [hc, if_true]
    have hfields := popReady_fields { m.sched with ticks := ticks, current := none }
    rw [← hc] at hfields ⊢
    cases l with
    | nil =>
      have hpop := pop_none m.sched.tasks _ (show m.sched.readyQueue.head = none from h.queues.ready.head)
      have he : popReady { m.sched with ticks := ticks } = ({ m.sched with ticks := ticks }, none) := by
        unfold popReady
        rw [hpop]
      rw [he]
      exact ⟨hq.frame rfl rfl rfl rfl, fun c hc => (by cases hc), Or.inr ⟨hc, rfl, rfl⟩,
        fun _ => rfl, fun _ => rfl,
        rfl, rfl, fun _ ht => ht⟩
    | cons a l =>
      have hlast : l ≠ [] ∨ links m.sched.tasks a = none := by
        cases l with
        | nil => exact Or.inr (h.fresh hc a rfl)
        | cons b l => exact Or.inl (List.cons_ne_nil b l)
      obtain ⟨hq', hfirst, hclosed⟩ := hq.popReady hlast
      refine ⟨hq'.frame rfl rfl rfl rfl, ?_, Or.inr ⟨hc, hfirst, rfl⟩, fun u => (hfields u).1,
        fun u => (hfields u).2, rfl, rfl, hclosed⟩
      intro c hcur hmem
      have hca : c = a := by
        rw [show (popReady { m.sched with ticks := ticks }).2 = some c from hcur] at hfirst
        exact Option.some.inj hfirst
      subst hca
      exact (List.nodup_cons.mp h.queues.ready.nodup).1 hmem
  · rw [if_neg hc, if_neg hc]
    exact ⟨hq, h.current, Or.inl ⟨hc, rfl, rfl⟩, fun _ => rfl, fun _ => rfl, rfl, rfl, fun _ ht => ht⟩

/-- Any step that ends in `round_robin` enters it in order. -/
theorem MachineOk.entered (h : MachineOk m l) (he : m.entry op = some (s, tick)) :
    ∃ l₀, Entered m s l l₀ := by
  cases op with
  | tick =>
    obtain ⟨rfl, rfl⟩ := Prod.mk.inj (Option.some.inj he)
    exact ⟨_, h.entered_tick _⟩
  | resume =>
    obtain ⟨c, hc, he⟩ := Option.bind_eq_some_iff.mp he
    obtain ⟨p, -, he⟩ := Option.map_eq_some_iff.mp he
    obtain ⟨rfl, rfl⟩ := Prod.mk.inj he
    exact ⟨l, h.queues, h.current, Or.inl ⟨by rw [hc]; exact Option.some_ne_none c, rfl, rfl⟩,
      fun _ => rfl, fun _ => rfl, rfl, rfl, fun _ ht => ht⟩
  | create _ => cases he
  | yield => cases he
  | sleep _ => cases he
  | exit => cases he
  | clean => cases he

/-- A step that enters `round_robin` is `round_robin`. -/
theorem Machine.apply_entry (he : m.entry op = some (s, tick)) :
    ∃ pending, m.apply op = (roundRobin s tick).map fun r => (⟨r.1, pending⟩, r.2) := by
  cases op with
  | tick =>
    obtain ⟨rfl, rfl⟩ := Prod.mk.inj (Option.some.inj he)
    exact ⟨m.pending, rfl⟩
  | resume =>
    obtain ⟨c, hc, he⟩ := Option.bind_eq_some_iff.mp he
    obtain ⟨p, hp, he⟩ := Option.map_eq_some_iff.mp he
    obtain ⟨rfl, rfl⟩ := Prod.mk.inj he
    refine ⟨Function.update m.pending c none, ?_⟩
    have hrun : p.run m.sched = roundRobin m.sched (p.tick m.sched) := by
      cases p with
      | schedule tick => exact schedule_eq hc tick
      | exit => rfl
    unfold Machine.apply
    simp only [hc, hp, Option.bind_some, hrun]
  | create _ => cases he
  | yield => cases he
  | sleep _ => cases he
  | exit => cases he
  | clean => cases he

/-! ## Switching -/

/-- Why `round_robin` does not come upon a task that is linked to itself. -/
inductive NoLoop (m : Machine) (op : SchedulerOp) (l : List Nat) : Prop where
  /-- No task was pushed twice, and none is going to be. -/
  | closed (closed : Closed (links m.sched.tasks) l) (ok : SwitchOk m op)
  /-- There is a task that waits or runs and is not asleep. -/
  | anchored (i : Nat) (closed : ClosedAt (links m.sched.tasks) l i)
    (awake : i ∉ m.sched.sleepQueue.tasks) (present : m.sched.current ≠ none)
    (there : m.sched.current = some i ∧ (m.sched.tasks i).state = .running ∨ i ∈ l)

/-- A step that ends in `round_robin` and finds a task: the ready queue held `l`, the sleepers of
`ws` were woken, and `a` became the current task. -/
structure Switches (m m' : Machine) (s : Scheduler) (tick : Nat) (l l₀ ws : List Nat) (a : Nat)
    (rest : List Nat) : Prop where
  entered : Entered m s l l₀
  putBack : Preempted s l₀ ws (a :: rest)
  sleeping : ∀ t ∈ ws, t ∈ s.sleepQueue.tasks
  switched : Switched s m'.sched tick ws a rest
  closed : ∀ t, ClosedAt (links m.sched.tasks) l t →
    (s.current = some t → t ∈ s.sleepQueue.tasks → tick < (s.tasks t).wakeTick) →
    ClosedAt (links m'.sched.tasks) rest t

/-- The ready queue keeps its tasks when the current task is put back. -/
theorem Preempted.mem_of_mem {l' : List Nat} (h : Preempted s l ws l') (ht : t ∈ l) : t ∈ l' := by
  cases h with
  | absent _ => exact List.mem_append_left _ ht
  | stays _ _ _ _ => exact List.mem_append_left _ ht
  | back _ _ _ _ => exact List.mem_append_left _ (List.mem_append_left _ ht)
  | again _ _ _ _ _ => exact List.mem_append_left _ (List.mem_append_left _ ht)

/-- A running current task is put back. -/
theorem Preempted.mem_of_current {l' : List Nat} (h : Preempted s l ws l') (ht : s.current = some t)
    (hrun : (s.tasks t).state = .running) : t ∈ l' := by
  cases h with
  | absent hc =>
    rw [hc] at ht
    cases ht
  | stays c hc _ hstate =>
    obtain rfl : c = t := Option.some.inj (hc.symm.trans ht)
    exact absurd hrun hstate
  | back c hc _ _ =>
    obtain rfl : c = t := Option.some.inj (hc.symm.trans ht)
    exact List.mem_append_right _ (List.mem_singleton_self c)
  | again c _ _ hc _ =>
    obtain rfl : c = t := Option.some.inj (hc.symm.trans ht)
    exact List.mem_append_right _ (List.mem_singleton_self c)

/-- The tasks that were woken are in the ready queue, unless the current task was one of them. -/
theorem Preempted.mem_of_woken {l' : List Nat} (h : Preempted s l ws l') (ht : t ∈ ws)
    (hc : ∀ c, s.current = some c → c ∉ ws) : t ∈ l' := by
  cases h with
  | absent _ => exact List.mem_append_right _ ht
  | stays _ _ _ _ => exact List.mem_append_right _ ht
  | back _ _ _ _ => exact List.mem_append_left _ (List.mem_append_right _ ht)
  | again c xs ys hcur heq =>
    refine absurd ?_ (hc c hcur)
    rw [heq]
    exact List.mem_append_right _ (List.mem_cons_self ..)

/-- The last task of the ready queue is not linked to itself. -/
theorem NoLoop.last (h : NoLoop m op l) (he : m.entry op = some (s, tick)) (hs : Entered m s l l₀)
    (hp : Preempted s l₀ ws [a]) (hws : ∀ t ∈ ws, t ∈ s.sleepQueue.tasks)
    (hdue : ∀ t ∈ ws, (s.tasks t).wakeTick ≤ tick) :
    ClosedAt (links s.tasks) l₀ a ∧ ∀ xs ys, s.current = some a → ws ≠ xs ++ a :: ys := by
  cases h with
  | closed hclosed hok =>
    refine ⟨hs.closed a (hclosed a), fun xs ys hc heq => ?_⟩
    have hmem : a ∈ ws := by
      rw [heq]
      exact List.mem_append_right _ (List.mem_cons_self ..)
    exact absurd (hdue a hmem) (Nat.not_le.mpr (hok s tick he a hc (hws a hmem)))
  | anchored i hclosed hawake hsome hthere =>
    have hnot : i ∉ ws := by
      intro hmem
      rw [← hs.sleepQueue] at hawake
      exact hawake (hws i hmem)
    obtain ⟨-, hcur, rfl⟩ := hs.current.resolve_right fun h => hsome h.1
    have hmem : i ∈ [a] := by
      rcases hthere with ⟨hi, hrun⟩ | hi
      · exact hp.mem_of_current (hcur.trans hi) ((hs.states i).trans hrun)
      · exact hp.mem_of_mem hi
    obtain rfl := List.mem_singleton.mp hmem
    refine ⟨hs.closed i hclosed, fun xs ys _ heq => hnot ?_⟩
    rw [heq]
    exact List.mem_append_right _ (List.mem_cons_self ..)

/-- **A step that ends in `round_robin`** panics when there is no task to run, and switches to the
first task of the ready queue otherwise. -/
theorem MachineOk.switch (h : MachineOk m l) (hloop : NoLoop m op l)
    (he : m.entry op = some (s, tick)) :
    ∃ l₀ ws l', Entered m s l l₀ ∧ Preempted s l₀ ws l' ∧ (∀ t ∈ ws, t ∈ s.sleepQueue.tasks) ∧
      (l' = [] ∧ (∃ m', m.apply op = some (m', .panic)) ∨
        ∃ a rest m' o, l' = a :: rest ∧ m.apply op = some (m', o) ∧ o ≠ .panic ∧ MachineOk m' rest ∧
          Switches m m' s tick l l₀ ws a rest) := by
  obtain ⟨l₀, hs⟩ := h.entered he
  obtain ⟨pending, happly⟩ := Machine.apply_entry he
  obtain ⟨ws, l', hp, hnodup, hws, hdue, hpanic, hswitch⟩ := hs.queues.roundRobin hs.apart tick
  refine ⟨l₀, ws, l', hs, hp, hws, ?_⟩
  cases l' with
  | nil =>
    obtain ⟨s', hs'⟩ := hpanic rfl
    exact Or.inl ⟨rfl, ⟨s', pending⟩, by rw [happly, hs']; rfl⟩
  | cons a rest =>
    obtain ⟨s', o, hrun, ho, hswitched, hclosed⟩ := hswitch a rest rfl fun hrest => by
      subst hrest
      exact hloop.last he hs hp hws hdue
    refine Or.inr ⟨a, rest, ⟨s', pending⟩, o, rfl, by rw [happly, hrun]; rfl, ?_, ?_, hs, hp, hws,
      hswitched, fun t ht hnot => hclosed t (hs.closed t ht) fun xs ys hc heq => ?_⟩
    · rcases ho with rfl | rfl <;> exact Outcome.noConfusion
    · have hcur : ∀ c, s'.current = some c → c = a := fun c hc =>
        Option.some.inj (hc.symm.trans hswitched.current)
      refine ⟨hswitched.ok, ?_, ?_, ?_, ?_⟩
      · intro c hc
        rw [hcur c hc]
        exact (List.nodup_cons.mp hnodup).1
      · intro c hc
        rw [hcur c hc]
        exact Or.inl hswitched.picked
      · intro c hc
        rw [hcur c (Machine.caller_eq hc).1]
        exact hswitched.picked
      · intro hnone
        rw [show s'.current = some a from hswitched.current] at hnone
        cases hnone
    · have hmem : t ∈ ws := by
        rw [heq]
        exact List.mem_append_right _ (List.mem_cons_self ..)
      exact absurd (hdue t hmem) (Nat.not_le.mpr (hnot hc (hws t hmem)))

/-! ## Any step -/

/-- What a step does to the machine; the ready queue holds `l` before it, and the list given last
after it. -/
inductive Evolved (m m' : Machine) (l : List Nat) : SchedulerOp → List Nat → Prop where
  | same {op : SchedulerOp} (entry : m.entry op = none) (awake : ∀ ms, op ≠ .sleep ms)
    (sched : m'.sched = m.sched) : Evolved m m' l op l
  | created (task : Task) (i : Nat) (free : freeTask m.sched.tasks = some i)
    (others : SameOthers m.sched m'.sched i) (state : (m'.sched.tasks i).state = .created)
    (sleepQueue : m'.sched.sleepQueue = m.sched.sleepQueue) :
    Evolved m m' l (.create task) (l ++ [i])
  | slept (ms c : Nat) (caller : m.caller = some c) (others : SameOthers m.sched m'.sched c)
    (state : (m'.sched.tasks c).state = .sleeping)
    (wakeTick : (m'.sched.tasks c).wakeTick =
      wrap32 (m.sched.ticks + ticksToSleep ms m.sched.hz))
    (sleepers : m'.sched.sleepQueue.tasks =
      if m.sched.sleepQueue.size = m.sched.sleepQueue.capacity then m.sched.sleepQueue.tasks
      else c ::ₘ m.sched.sleepQueue.tasks) : Evolved m m' l (.sleep ms) l
  | marked (c : Nat) (caller : m.caller = some c) (others : SameOthers m.sched m'.sched c)
    (state : (m'.sched.tasks c).state = .zombie)
    (sleepQueue : m'.sched.sleepQueue = m.sched.sleepQueue) : Evolved m m' l .exit l
  | switched {op : SchedulerOp} (s : Scheduler) (tick : Nat) (l₀ ws : List Nat) (a : Nat)
    (rest : List Nat) (entry : m.entry op = some (s, tick))
    (switches : Switches m m' s tick l l₀ ws a rest) : Evolved m m' l op rest

/-- A step that does not touch the scheduler keeps the machine in order. -/
theorem MachineOk.pending (h : MachineOk m l) (pending : Nat → Option Pending)
    (hcalling : ∀ c, (⟨m.sched, pending⟩ : Machine).caller = some c → m.caller = some c) :
    MachineOk ⟨m.sched, pending⟩ l :=
  ⟨h.queues, h.current, h.currentState, fun c hc => h.calling c (hcalling c hc), h.fresh⟩

theorem Machine.caller_update {c d : Nat} {p : Pending} (hc : m.sched.current = some c)
    {sched : Scheduler} (hcur : sched.current = m.sched.current) :
    (⟨sched, Function.update m.pending c (some p)⟩ : Machine).caller ≠ some d := by
  intro hd
  obtain ⟨hcd, hnone⟩ := Machine.caller_eq hd
  obtain rfl : c = d := Option.some.inj (hc.symm.trans (hcur.symm.trans hcd))
  have hsome : Function.update m.pending c (some p) c = some p := Function.update_self ..
  exact Option.some_ne_none p (hsome.symm.trans hnone)

/-- A step that does not end in `round_robin`. -/
structure QuietStep (m m' : Machine) (l : List Nat) (op : SchedulerOp) (o : Outcome)
    (l' : List Nat) : Prop where
  ok : MachineOk m' l'
  evolved : Evolved m m' l op l'
  returned : o = .returned
  closed : ∀ t, ClosedAt (links m.sched.tasks) l t → ClosedAt (links m'.sched.tasks) l' t

variable {o : Outcome}

/-- A task is created, if there is a slot for it. -/
theorem MachineOk.step_create {task : Task} (h : MachineOk m l)
    (he : m.entry (.create task) = none) (hstep : m.apply (.create task) = some (m', o)) :
    ∃ l', QuietStep m m' l (.create task) o l' := by
  rw [Machine.apply] at hstep
  split at hstep
  case isFalse => cases hstep
  obtain ⟨rfl, rfl⟩ := Prod.mk.inj (Option.some.inj hstep)
  cases hfree : freeTask m.sched.tasks with
  | none =>
    rw [createTask_none hfree]
    exact ⟨l, h, .same he (fun _ => SchedulerOp.noConfusion) rfl, rfl, fun _ ht => ht⟩
  | some i =>
    obtain ⟨hq, hclosed, hothers, hstate, hsleep⟩ := h.queues.create task hfree
    have hne : ∀ c, m.sched.current = some c → c ≠ i := by
      rintro c hc rfl
      rcases h.currentState c hc with he | he | he <;> rw [(freeTask_some hfree).1] at he <;> cases he
    refine ⟨l ++ [i], ⟨hq, ?_, ?_, ?_, fun _ => hclosed⟩, .created task i hfree hothers hstate hsleep,
      rfl, fun t _ => hclosed t⟩
    · intro c hc hmem
      have hc' : m.sched.current = some c := hothers.current ▸ hc
      rcases List.mem_append.mp hmem with hl | hi
      · exact h.current c hc' hl
      · exact hne c hc' (List.mem_singleton.mp hi)
    · intro c hc
      have hc' : m.sched.current = some c := hothers.current ▸ hc
      show ((createTask m.sched task).tasks c).state = _ ∨ _
      rw [hothers.states c (hne c hc')]
      exact h.currentState c hc'
    · intro c hc
      obtain ⟨hcur, hnone⟩ := Machine.caller_eq hc
      have hc' : m.sched.current = some c := hothers.current ▸ hcur
      show ((createTask m.sched task).tasks c).state = _
      rw [hothers.states c (hne c hc')]
      refine h.calling c ?_
      have hpending : Function.update m.pending i none c = m.pending c :=
        Function.update_of_ne (hne c hc') _ _
      unfold Machine.caller
      rw [hc', Option.bind_some, if_pos (hpending.symm.trans hnone)]

/-- The running task is put to sleep. -/
theorem MachineOk.step_sleep {ms : Nat} (h : MachineOk m l)
    (hstep : m.apply (.sleep ms) = some (m', o)) : ∃ l', QuietStep m m' l (.sleep ms) o l' := by
  obtain ⟨c, hc, hstep⟩ := Option.bind_eq_some_iff.mp hstep
  obtain ⟨s', hs', heq⟩ := Option.map_eq_some_iff.mp hstep
  obtain ⟨rfl, rfl⟩ := Prod.mk.inj heq
  have hcur := (Machine.caller_eq hc).1
  obtain ⟨s'', hs'', hq, hlinks, hothers, hstate, hwake, hsleepers⟩ :=
    h.queues.sleepBlock hcur (h.current c hcur) (h.caller_awake hc) ms
  obtain rfl : s' = s'' := Option.some.inj (hs'.symm.trans hs'')
  have hsame : ∀ d, s'.current = some d → d = c := fun d hd =>
    Option.some.inj (hd.symm.trans (hothers.current.trans hcur))
  refine ⟨l, ⟨hq, fun d hd => ?_, fun d hd => ?_, fun d hd => ?_, fun hnone => ?_⟩,
    .slept ms c hc hothers hstate hwake hsleepers, rfl, fun t ht => ?_⟩
  · rw [hsame d hd]
    exact h.current c hcur
  · rw [hsame d hd]
    exact Or.inr (Or.inl hstate)
  · exact absurd hd (Machine.caller_update hcur hothers.current)
  · rw [show s'.current = some c from hothers.current.trans hcur] at hnone
    cases hnone
  · show ClosedAt (links s'.tasks) l t
    rw [hlinks]
    exact ht

/-- The running task is marked as a zombie. -/
theorem MachineOk.step_exit (h : MachineOk m l) (hstep : m.apply .exit = some (m', o)) :
    ∃ l', QuietStep m m' l .exit o l' := by
  obtain ⟨c, hc, hstep⟩ := Option.bind_eq_some_iff.mp hstep
  have hcur := (Machine.caller_eq hc).1
  obtain ⟨s', hmark, heq⟩ := Option.map_eq_some_iff.mp hstep
  obtain ⟨d, hd, rfl⟩ := Option.map_eq_some_iff.mp hmark
  obtain rfl : c = d := Option.some.inj (hcur.symm.trans hd)
  obtain ⟨rfl, rfl⟩ := Prod.mk.inj heq
  have hstate : (setState m.sched.tasks c .zombie c).state = .zombie := setState_self ..
  have hothers : SameOthers m.sched { m.sched with tasks := setState m.sched.tasks c .zombie } c :=
    ⟨rfl, rfl, rfl, fun u hu => congrArg Task.state (setState_of_ne _ _ hu),
      fun u _ => setState_wakeTick ..⟩
  have hsame : ∀ d, m.sched.current = some d → d = c := fun d hd =>
    Option.some.inj (hd.symm.trans hcur)
  refine ⟨l, ⟨h.queues.update (h.current c hcur) (h.caller_awake hc) _, h.current, fun d hd => ?_,
    fun d hd => ?_, fun hnone => ?_⟩, .marked c hc hothers hstate rfl, rfl, fun t ht => ?_⟩
  · rw [hsame d hd]
    exact Or.inr (Or.inr hstate)
  · exact absurd hd (Machine.caller_update hcur rfl)
  · rw [show m.sched.current = none from hnone] at hcur
    cases hcur
  · show ClosedAt (links (setState m.sched.tasks c .zombie)) l t
    rw [links_setState]
    exact ht

/-- The steps that do not end in `round_robin`. -/
theorem MachineOk.step_quiet (h : MachineOk m l) (he : m.entry op = none)
    (hstep : m.apply op = some (m', o)) : ∃ l', QuietStep m m' l op o l' := by
  cases op with
  | tick => cases he
  | resume =>
    -- without a call to complete there is no step
    unfold Machine.apply at hstep
    obtain ⟨c, hc, hstep⟩ := Option.bind_eq_some_iff.mp hstep
    obtain ⟨p, hp, -⟩ := Option.bind_eq_some_iff.mp hstep
    unfold Machine.entry at he
    simp only [hc, hp, Option.bind_some, Option.map_some, reduceCtorEq] at he
  | yield =>
    obtain ⟨c, hc, heq⟩ := Option.map_eq_some_iff.mp hstep
    obtain ⟨rfl, rfl⟩ := Prod.mk.inj heq
    refine ⟨l, h.pending _ fun d hd => ?_, .same he (fun _ => SchedulerOp.noConfusion) rfl, rfl,
      fun _ ht => ht⟩
    exact absurd hd (Machine.caller_update (Machine.caller_eq hc).1 rfl)
  | clean =>
    obtain ⟨c, hc, heq⟩ := Option.map_eq_some_iff.mp hstep
    obtain ⟨rfl, rfl⟩ := Prod.mk.inj heq
    have hclean : cleanZombie m.sched = m.sched := h.queues.clean
    rw [hclean]
    exact ⟨l, h, .same he (fun _ => SchedulerOp.noConfusion) rfl, rfl, fun _ ht => ht⟩
  | create task => exact h.step_create he hstep
  | sleep ms => exact h.step_sleep hstep
  | exit => exact h.step_exit hstep

/-- **Every step keeps the machine in order.** -/
theorem MachineOk.step (h : MachineOk m l) (hloop : NoLoop m op l) (hstep : MachineStep m op m') :
    ∃ l', MachineOk m' l' ∧ Evolved m m' l op l' ∧
      ∀ t, ClosedAt (links m.sched.tasks) l t →
        (∀ s tick, m.entry op = some (s, tick) → s.current = some t → t ∈ s.sleepQueue.tasks →
          tick < (s.tasks t).wakeTick) →
        ClosedAt (links m'.sched.tasks) l' t := by
  obtain ⟨o, happly, ho⟩ := hstep
  cases he : m.entry op with
  | none =>
    obtain ⟨l', hok, hevolved, -, hclosed⟩ := h.step_quiet he happly
    exact ⟨l', hok, hevolved, fun t ht _ => hclosed t ht⟩
  | some r =>
    obtain ⟨s, tick⟩ := r
    obtain ⟨l₀, ws, l', -, -, -, hcases⟩ := h.switch hloop he
    rcases hcases with ⟨-, m'', hpanic⟩ | ⟨a, rest, m'', o', -, happly', -, hok, hswitches⟩
    · rw [happly] at hpanic
      exact absurd (Prod.mk.inj (Option.some.inj hpanic)).2 ho
    · rw [happly] at happly'
      obtain rfl : m' = m'' := (Prod.mk.inj (Option.some.inj happly')).1
      refine ⟨rest, hok, .switched s tick l₀ ws a rest he hswitches, fun t ht hnot => ?_⟩
      exact hswitches.closed t ht (hnot s tick rfl)

end Xylophone
