import Xylophone.Drivers.Ide
import Xylophone.Infra.Word

/-!
# Acknowledging interrupts

Every interrupt enters `ir_handler`, which calls the handle registered for its number and then
acknowledges every number above 32; the timer's handle has acknowledged number 32 already. A handle
may call on into the kernel, and what it calls may come back much later, when other interrupts have
been handled: a system call that sleeps, or a tick that switches to another task.

The handles of the IDE driver acknowledge their interrupts a second time, and system calls are
acknowledged although no PIC has asked for them.

* `masterEois_run`, `slaveEois_run` — how many commands each PIC is sent
* `eoi_exact_iff` — they are as many as the interrupts it delivered in exactly the runs without an
  interrupt of the IDE driver and without a system call that has come back
-/

namespace Xylophone

open Infra

/-! ## The table of handles -/

/-- The handles that the kernel registers. -/
inductive InterruptsHandle where
  | timerHandle
  | ataPrimaryIrqHandle
  | ataSecondaryIrqHandle
  | handleSyscallsInterrupt
  | pageFaultHandler
  | generalProtectionFaultHandler
deriving DecidableEq, Repr

/-- `interrupts_handles` -/
abbrev InterruptsHandles := Nat → Option InterruptsHandle

/-- `kernel_interrupts_add_service_handle` -/
def kernelInterruptsAddServiceHandle (t : InterruptsHandles) (isrIndex : Nat)
    (handle : InterruptsHandle) : InterruptsHandles :=
  if 31 < isrIndex ∧ isrIndex ≠ 128 then t else Function.update t isrIndex (some handle)

/-- `kernel_interrupts_add_request_handle` -/
def kernelInterruptsAddRequestHandle (t : InterruptsHandles) (irqIndex : Nat)
    (handle : InterruptsHandle) : InterruptsHandles :=
  if 15 < irqIndex then t else Function.update t (irqIndex + 32) (some handle)

/-- The table after `kernel_interrupts_init`. -/
def kernelInterruptsInit : InterruptsHandles := fun _ => none

/-- The handles of the exceptions and of system calls, registered before the drivers start. -/
def serviceHandles : InterruptsHandles :=
  kernelInterruptsAddServiceHandle
    (kernelInterruptsAddServiceHandle
      (kernelInterruptsAddServiceHandle kernelInterruptsInit 14 .pageFaultHandler)
      13 .generalProtectionFaultHandler)
    0x80 .handleSyscallsInterrupt

/-- The handles that `ide_pci_probe` registers for a controller. -/
def ideHandles (t : InterruptsHandles) : InterruptsHandles :=
  kernelInterruptsAddRequestHandle
    (kernelInterruptsAddRequestHandle t ataPrimaryIrq .ataPrimaryIrqHandle)
    ataSecondaryIrq .ataSecondaryIrqHandle

/-- All handles of the kernel: those of the services, of the IDE driver and of the timer. -/
def kernelHandles : InterruptsHandles :=
  kernelInterruptsAddRequestHandle (ideHandles serviceHandles) 0 .timerHandle

/-- Among the numbers of requests the kernel handles the timer's and the IDE driver's. -/
theorem kernelHandles_request {v : Nat} (h : 32 ≤ v) (h' : v ≤ 47) :
    kernelHandles v = if v = 32 then some .timerHandle
      else if v = 46 then some .ataPrimaryIrqHandle
      else if v = 47 then some .ataSecondaryIrqHandle else none := by
  obtain rfl | rfl | rfl | hv : v = 32 ∨ v = 46 ∨ v = 47 ∨ v ≠ 32 ∧ v ≠ 46 ∧ v ≠ 47 := by omega
  · rfl
  · rfl
  · rfl
  · rw [if_neg hv.1, if_neg hv.2.1, if_neg hv.2.2]
    have hother : ∀ i, i < 32 ∨ i = 32 ∨ i = 46 ∨ i = 47 ∨ i = 128 → v ≠ i := by omega
    unfold kernelHandles ideHandles serviceHandles kernelInterruptsAddRequestHandle
      kernelInterruptsAddServiceHandle kernelInterruptsInit ataPrimaryIrq ataSecondaryIrq
    simp only [Function.update_apply, hother, Nat.reduceLT, Nat.reduceAdd, Nat.reduceEqDiff,
      reduceIte, true_or, or_true, false_and, and_false, ne_eq, not_true_eq_false]

/-! ## The machine -/

/-- What interrupts read and change. -/
structure InterruptState where
  /-- `interrupts_handles` -/
  handles : InterruptsHandles
  /-- `ide_devices` -/
  ideDevices : Nat → IdeDevice
  /-- `ticks` of the timer -/
  ticks : Nat
  /-- `s_handle` of the timer is not null. -/
  timerHasHandle : Bool
  /-- The accesses to ports, in order. -/
  ports : List PortAccess
  /-- The numbers of the interrupts whose handle has called a function of the kernel that has not
  come back. -/
  pending : List Nat

namespace InterruptState

/-- The machine after accesses to ports. -/
def access (s : InterruptState) (l : List PortAccess) : InterruptState :=
  { s with ports := s.ports ++ l }

/-- The machine after a handle of the IDE driver. -/
def afterIde (s : InterruptState) (r : (Nat → IdeDevice) × List PortAccess) : InterruptState :=
  { s.access r.2 with ideDevices := r.1 }

/-- A handle runs, and tells whether it ends in a call of a function of the kernel. -/
def runHandle (s : InterruptState) : InterruptsHandle → InterruptState × Bool
  | .timerHandle =>
    ({ s.access (irEoi 32) with ticks := wrap32 (s.ticks + 1) }, s.timerHasHandle)
  | .ataPrimaryIrqHandle => (s.afterIde (ataPrimaryIrqHandle s.ideDevices), false)
  | .ataSecondaryIrqHandle => (s.afterIde (ataSecondaryIrqHandle s.ideDevices), false)
  -- the functions behind these three
  | .handleSyscallsInterrupt => (s, true)
  | .pageFaultHandler => (s, true)
  | .generalProtectionFaultHandler => (s, true)

/-- `ir_handler` from where its handle has come back. For an exception it never ends. -/
def irHandlerEnd (s : InterruptState) (interrupt : Nat) : Option InterruptState :=
  if interrupt < 32 then none
  else if 32 < interrupt then some (s.access (irEoi interrupt))
  else some s

/-- `ir_handler`, up to a call into the kernel when its handle makes one. -/
def irHandler (s : InterruptState) (interrupt : Nat) : Option InterruptState :=
  match s.handles interrupt with
  | none => s.irHandlerEnd interrupt
  | some handle =>
    let r := s.runHandle handle
    if r.2 then some { r.1 with pending := interrupt :: r.1.pending }
    else r.1.irHandlerEnd interrupt

end InterruptState

/-- What happens between two states of the machine. -/
inductive InterruptEvent where
  /-- An interrupt enters `ir_handler`. -/
  | enter (interrupt : Nat)
  /-- What the handle of an earlier interrupt has called comes back. -/
  | back (interrupt : Nat)
  /-- The rest of the kernel runs: it arms drives, and it sets the handle of the timer. -/
  | kernel (devs : Nat → IdeDevice) (timerHasHandle : Bool)

/-- One event. -/
def InterruptState.step (s : InterruptState) : InterruptEvent → Option InterruptState
  | .enter interrupt => s.irHandler interrupt
  | .back interrupt =>
    if interrupt ∈ s.pending then
      { s with pending := s.pending.erase interrupt }.irHandlerEnd interrupt
    else none
  | .kernel devs timerHasHandle =>
    some { s with ideDevices := devs, timerHasHandle := timerHasHandle }

/-- The events, one after the other. -/
def InterruptState.run (s : InterruptState) : List InterruptEvent → Option InterruptState
  | [] => some s
  | e :: es => (s.step e).bind fun s' => s'.run es

/-! ## What each PIC delivers and is sent -/

/-- The interrupts are those of the two PICs and the system call. -/
def InterruptEvent.Known : InterruptEvent → Prop
  | .enter interrupt => 32 ≤ interrupt ∧ interrupt ≤ 47 ∨ interrupt = 128
  | _ => True

instance : DecidablePred InterruptEvent.Known
  | .enter interrupt =>
    inferInstanceAs (Decidable (32 ≤ interrupt ∧ interrupt ≤ 47 ∨ interrupt = 128))
  | .back _ => inferInstanceAs (Decidable True)
  | .kernel _ _ => inferInstanceAs (Decidable True)

/-- The number of interrupts that a PIC delivers in an event. -/
def InterruptEvent.delivered : InterruptEvent → Nat
  | .enter interrupt => if 32 ≤ interrupt ∧ interrupt ≤ 47 then 1 else 0
  | _ => 0

/-- The number of interrupts that the slave PIC delivers in an event. -/
def InterruptEvent.deliveredBySlave : InterruptEvent → Nat
  | .enter interrupt => if 40 ≤ interrupt ∧ interrupt ≤ 47 then 1 else 0
  | _ => 0

/-- A system call comes back. -/
def InterruptEvent.syscallsBack : InterruptEvent → Nat
  | .back interrupt => if interrupt = 128 then 1 else 0
  | _ => 0

/-- An interrupt of the IDE driver enters. -/
def InterruptEvent.ideInterrupts : InterruptEvent → Nat
  | .enter interrupt => if interrupt = 46 ∨ interrupt = 47 then 1 else 0
  | _ => 0

/-- How often something happens in a run. -/
def timesIn (f : InterruptEvent → Nat) (es : List InterruptEvent) : Nat := (es.map f).sum

theorem timesIn_cons (f : InterruptEvent → Nat) (e : InterruptEvent) (es : List InterruptEvent) :
    timesIn f (e :: es) = f e + timesIn f es := List.sum_cons

theorem timesIn_eq_zero {f : InterruptEvent → Nat} {es : List InterruptEvent} :
    timesIn f es = 0 ↔ ∀ e ∈ es, f e = 0 := by
  unfold timesIn
  rw [List.sum_eq_zero_iff_forall_eq_nat, List.forall_mem_map]

/-- The acknowledgements sent to the master PIC. -/
def InterruptState.masterEois (s : InterruptState) : Nat := s.ports.count masterEoi

/-- The acknowledgements sent to the slave PIC. -/
def InterruptState.slaveEois (s : InterruptState) : Nat := s.ports.count slaveEoi

/-- The kernel's handles are registered, and only ticks and system calls wait for a function of the
kernel. -/
structure Registered (s : InterruptState) : Prop where
  handles : s.handles = kernelHandles
  pending : ∀ v ∈ s.pending, v = 32 ∨ v = 128

variable {s s' : InterruptState} {e : InterruptEvent} {es : List InterruptEvent} {v : Nat}

/-- The machine after some accesses to ports. -/
structure Sends (s s' : InterruptState) (master slave : Nat) : Prop where
  registered : Registered s'
  masterEois : s'.masterEois = s.masterEois + master
  slaveEois : s'.slaveEois = s.slaveEois + slave

theorem Registered.sends_append (h : Registered s) (l : List PortAccess)
    (hs' : s'.ports = s.ports ++ l) (hhandles : s'.handles = s.handles)
    (hpending : ∀ v ∈ s'.pending, v ∈ s.pending ∨ v = 32 ∨ v = 128) :
    Sends s s' (l.count masterEoi) (l.count slaveEoi) where
  registered := ⟨hhandles.trans h.handles, fun v hv => (hpending v hv).elim (h.pending v) id⟩
  masterEois := by
    unfold InterruptState.masterEois
    rw [hs', List.count_append]
  slaveEois := by
    unfold InterruptState.slaveEois
    rw [hs', List.count_append]

/-- Where the handle has come back, a number above 32 is acknowledged. -/
theorem Registered.sends_irHandlerEnd (h : Registered s) (hv : 32 < v)
    (hs : s.irHandlerEnd v = some s') : Sends s s' 1 (if 40 ≤ v then 1 else 0) := by
  unfold InterruptState.irHandlerEnd at hs
  rw [if_neg (Nat.lt_asymm hv), if_pos hv] at hs
  obtain rfl := Option.some.inj hs
  have hsends : Sends s (s.access (irEoi v)) _ _ :=
    h.sends_append (irEoi v) rfl rfl fun _ hv => Or.inl hv
  rwa [count_masterEoi_irEoi, count_slaveEoi_irEoi] at hsends

theorem InterruptState.irHandler_of_none (h : s.handles v = none) :
    s.irHandler v = s.irHandlerEnd v := by
  unfold InterruptState.irHandler
  rw [h]

theorem InterruptState.irHandler_of_some {handle : InterruptsHandle}
    (h : s.handles v = some handle) :
    s.irHandler v = if (s.runHandle handle).2 then
        some { (s.runHandle handle).1 with pending := v :: (s.runHandle handle).1.pending }
      else (s.runHandle handle).1.irHandlerEnd v := by
  unfold InterruptState.irHandler
  rw [h]

/-- A tick is acknowledged by its handle alone. -/
theorem Registered.sends_timer (h : Registered s) (hs : s.irHandler 32 = some s') :
    Sends s s' 1 0 := by
  have hhandle : s.handles 32 = some .timerHandle := by
    rw [h.handles]
    rfl
  rw [InterruptState.irHandler_of_some hhandle] at hs
  split at hs
  · obtain rfl := Option.some.inj hs
    exact h.sends_append (irEoi 32) rfl rfl fun v hv =>
      (List.mem_cons.mp hv).elim (fun heq => Or.inr (Or.inl heq)) Or.inl
  · obtain rfl := Option.some.inj hs
    exact h.sends_append (irEoi 32) rfl rfl fun v hv => Or.inl hv

/-- An interrupt of the IDE driver is acknowledged by its handle and once more after it. -/
theorem Registered.sends_ide (h : Registered s) (hv : v = 46 ∨ v = 47)
    (hs : s.irHandler v = some s') : Sends s s' 2 1 := by
  obtain ⟨handle, hhandle, channel, irq, hirq, hrun⟩ : ∃ handle, s.handles v = some handle ∧
      ∃ channel irq, irq < 40 ∧
        s.runHandle handle = (s.afterIde (ataIrqHandle channel irq s.ideDevices), false) := by
    have hhandle := congrFun h.handles v
    obtain rfl | rfl := hv
    · exact ⟨_, hhandle, ataPrimary, ataPrimaryIrq, by decide, rfl⟩
    · exact ⟨_, hhandle, ataSecondary, ataSecondaryIrq, by decide, rfl⟩
  rw [InterruptState.irHandler_of_some hhandle, hrun, if_neg Bool.false_ne_true] at hs
  have hfirst : Sends s (s.afterIde (ataIrqHandle channel irq s.ideDevices)) _ _ :=
    h.sends_append (ataIrqHandle channel irq s.ideDevices).2 rfl rfl fun _ hv => Or.inl hv
  have hlast := hfirst.registered.sends_irHandlerEnd (by omega) hs
  have hmaster : (ataIrqHandle channel irq s.ideDevices).2.count masterEoi = 1 :=
    (count_ataIrqHandle ..).trans (count_masterEoi_irEoi irq)
  have hslave : (ataIrqHandle channel irq s.ideDevices).2.count slaveEoi = 0 := by
    rw [slaveEoi, count_ataIrqHandle, ← slaveEoi, count_slaveEoi_irEoi, if_neg (by omega)]
  refine ⟨hlast.registered, ?_, ?_⟩
  · rw [hlast.masterEois, hfirst.masterEois, hmaster]
  · rw [hlast.slaveEois, hfirst.slaveEois, hslave, if_pos (by omega)]

/-- A system call is not acknowledged before it comes back. -/
theorem Registered.sends_syscall (h : Registered s) (hs : s.irHandler 128 = some s') :
    Sends s s' 0 0 := by
  have hhandle : s.handles 128 = some .handleSyscallsInterrupt := by
    rw [h.handles]
    rfl
  rw [InterruptState.irHandler_of_some hhandle, InterruptState.runHandle, if_pos rfl] at hs
  obtain rfl := Option.some.inj hs
  exact h.sends_append [] (List.append_nil _).symm rfl fun v hv =>
    (List.mem_cons.mp hv).elim (fun heq => Or.inr (Or.inr heq)) Or.inl

/-- **What an event sends.** -/
theorem Registered.sends_step (h : Registered s) (he : e.Known) (hs : s.step e = some s') :
    Sends s s' (e.delivered + e.ideInterrupts + e.syscallsBack)
      (e.deliveredBySlave + e.syscallsBack) := by
  cases e with
  | enter v =>
    obtain hv | rfl := he
    · have hhandle := (congrFun h.handles v).trans (kernelHandles_request hv.1 hv.2)
      simp only [InterruptEvent.delivered, InterruptEvent.ideInterrupts,
        InterruptEvent.syscallsBack, InterruptEvent.deliveredBySlave, if_pos hv]
      obtain rfl | hide | hother : v = 32 ∨ (v = 46 ∨ v = 47) ∨ v ≠ 32 ∧ v ≠ 46 ∧ v ≠ 47 := by
        omega
      · exact h.sends_timer hs
      · have hsends := h.sends_ide hide hs
        rwa [if_pos hide, if_pos (by omega)]
      · rw [if_neg hother.1, if_neg hother.2.1, if_neg hother.2.2] at hhandle
        have hsends := h.sends_irHandlerEnd (by omega)
          ((InterruptState.irHandler_of_none hhandle).symm.trans hs)
        have hslave : (40 ≤ v ∧ v ≤ 47) ↔ 40 ≤ v := and_iff_left hv.2
        simp only [hslave]
        rwa [if_neg (by omega)]
    · exact h.sends_syscall hs
  | back v =>
    simp only [InterruptState.step] at hs
    split at hs
    · next hmem =>
      have hreg : Registered { s with pending := s.pending.erase v } :=
        ⟨h.handles, fun w hw => h.pending w (List.mem_of_mem_erase hw)⟩
      obtain rfl | rfl := h.pending v hmem
      · obtain rfl := Option.some.inj hs
        exact ⟨hreg, rfl, rfl⟩
      · have hsends := hreg.sends_irHandlerEnd (by decide) hs
        exact ⟨hsends.registered, hsends.masterEois, hsends.slaveEois⟩
    · cases hs
  | kernel devs timerHasHandle =>
    obtain rfl := Option.some.inj hs
    exact ⟨⟨h.handles, h.pending⟩, rfl, rfl⟩

/-- **What a run sends.** -/
theorem Registered.sends_run (h : Registered s) (he : ∀ e ∈ es, e.Known)
    (hs : s.run es = some s') :
    Sends s s'
      (timesIn InterruptEvent.delivered es + timesIn InterruptEvent.ideInterrupts es
        + timesIn InterruptEvent.syscallsBack es)
      (timesIn InterruptEvent.deliveredBySlave es + timesIn InterruptEvent.syscallsBack es) := by
  induction es generalizing s with
  | nil =>
    obtain rfl := Option.some.inj hs
    exact ⟨h, rfl, rfl⟩
  | cons e es ih =>
    obtain ⟨s₁, hstep, hrest⟩ := Option.bind_eq_some_iff.mp hs
    have hfirst := h.sends_step (he e List.mem_cons_self) hstep
    have hlast := ih hfirst.registered (fun e he' => he e (List.mem_cons_of_mem _ he')) hrest
    simp only [timesIn_cons]
    refine ⟨hlast.registered, ?_, ?_⟩
    · rw [hlast.masterEois, hfirst.masterEois]
      omega
    · rw [hlast.slaveEois, hfirst.slaveEois]
      omega

/-! ## The exact condition -/

/-- The event is no interrupt of the IDE driver, and no system call comes back in it. -/
def InterruptEvent.AcknowledgedOnce : InterruptEvent → Prop
  | .enter interrupt => interrupt ≠ 46 ∧ interrupt ≠ 47
  | .back interrupt => interrupt ≠ 128
  | .kernel _ _ => True

theorem InterruptEvent.acknowledgedOnce_iff :
    e.AcknowledgedOnce ↔ e.ideInterrupts = 0 ∧ e.syscallsBack = 0 := by
  cases e with
  | enter v =>
    simp only [AcknowledgedOnce, ideInterrupts, syscallsBack, and_true]
    split <;> omega
  | back v =>
    simp only [AcknowledgedOnce, ideInterrupts, syscallsBack, true_and]
    split <;> omega
  | kernel devs timerHasHandle => exact ⟨fun _ => ⟨rfl, rfl⟩, fun _ => trivial⟩

/-- **Acknowledgements match the interrupts delivered in exactly the runs that no interrupt of the
IDE driver enters and in which no system call comes back.** -/
theorem eoi_exact_iff (hhandles : s.handles = kernelHandles) (hpending : s.pending = [])
    (hports : s.ports = []) (he : ∀ e ∈ es, e.Known) (hs : s.run es = some s') :
    s'.masterEois = timesIn InterruptEvent.delivered es ∧
        s'.slaveEois = timesIn InterruptEvent.deliveredBySlave es ↔
      ∀ e ∈ es, e.AcknowledgedOnce := by
  have hreg : Registered s := ⟨hhandles, fun v hv => nomatch hpending ▸ hv⟩
  have hsends := hreg.sends_run he hs
  have hmaster := hsends.masterEois
  have hslave := hsends.slaveEois
  rw [show s.masterEois = 0 by rw [InterruptState.masterEois, hports]; rfl] at hmaster
  rw [show s.slaveEois = 0 by rw [InterruptState.slaveEois, hports]; rfl] at hslave
  have hcond : (∀ e ∈ es, e.AcknowledgedOnce) ↔
      timesIn InterruptEvent.ideInterrupts es = 0 ∧ timesIn InterruptEvent.syscallsBack es = 0 := by
    rw [timesIn_eq_zero, timesIn_eq_zero, ← forall₂_and]
    exact forall₂_congr fun e _ => e.acknowledgedOnce_iff
  rw [hcond]
  omega

/-! ## The machine after the kernel has started -/

/-- A drive that nothing has identified. -/
def absentDrive : IdeDevice := ⟨0, 0, 0, 0, 0, false, false⟩

/-- All handles are registered, and no interrupt has come. -/
def startedMachine : InterruptState :=
  ⟨kernelHandles, fun _ => absentDrive, 0, true, [], []⟩

/-- A tick, an interrupt that nothing handles and a system call that sleeps. -/
theorem eoi_exact_iff_startedMachine :
    ∃ s', startedMachine.run [.enter 32, .enter 33, .enter 128] = some s' ∧
      (s'.masterEois = 2 ∧ s'.slaveEois = 0 ↔
        ∀ e ∈ [.enter 32, .enter 33, .enter 128], InterruptEvent.AcknowledgedOnce e) :=
  ⟨_, rfl, @eoi_exact_iff startedMachine _ [.enter 32, .enter 33, .enter 128] rfl rfl rfl
    (by decide) rfl⟩

/-- One interrupt of a drive is acknowledged twice at the master PIC, and one system call at both
PICs. -/
theorem exists_surplus_eoi :
    (∃ s', startedMachine.run [.enter 46] = some s' ∧
      s'.masterEois = 2 ∧ timesIn InterruptEvent.delivered [.enter 46] = 1) ∧
    ∃ s', startedMachine.run [.enter 128, .back 128] = some s' ∧
      s'.masterEois = 1 ∧ s'.slaveEois = 1 ∧
      timesIn InterruptEvent.delivered [.enter 128, .back 128] = 0 :=
  ⟨⟨_, rfl, by decide, rfl⟩, ⟨_, rfl, by decide, by decide, rfl⟩⟩

end Xylophone
