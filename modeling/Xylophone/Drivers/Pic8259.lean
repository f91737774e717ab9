import Xylophone.Drivers.EndOfInterrupt
import Xylophone.Infra.InterruptController

/-!
# The two interrupt controllers

`pic_8259_remap` initializes both controllers, in the start of the kernel and after every call of the
BIOS, which leaves them in a state of its own. From then on the handles of the kernel acknowledge
their interrupts, some of them more than once, and system calls are acknowledged too. None of that
makes a request wait for ever or be served twice.

* `pic8259Remap_quiet` — the controllers after `pic_8259_remap`, whatever they were before
* `InterruptSystem.Quiet.run` — no line is in service after any run
* `requests_served` — every request is served, once, in the order of the priorities
-/

namespace Xylophone

open Infra

/-! ## The source -/

/-- `PIC1_DATA` -/
def pic1Data : Nat := pic1 + 1

/-- `PIC2_DATA` -/
def pic2Data : Nat := pic2 + 1

/-- `PIC_MASTER_OFFSET` -/
def picMasterOffset : Nat := 0x20

/-- `CASCADE_IRQ` -/
def cascadeIrq : Nat := 2

/-- `io_wait` -/
def ioWait : PortAccess := .outportb 0x80 0

/-- `pic_8259_remap`. The first byte is `ICW1_INIT | ICW1_ICW4`, the fourth one `ICW4_8086`. -/
def pic8259Remap : List PortAccess := [
  .outportb pic1 0x11, ioWait,
  .outportb pic2 0x11, ioWait,
  .outportb pic1Data picMasterOffset, ioWait,
  .outportb pic2Data picSlaveOffset, ioWait,
  .outportb pic1Data (1 <<< cascadeIrq), ioWait,
  .outportb pic2Data 2, ioWait,
  .outportb pic1Data 0x01, ioWait,
  .outportb pic2Data 0x01, ioWait,
  .outportb pic1Data 0,
  .outportb pic2Data 0]

/-- `pic_8259_disable` -/
def pic8259Disable : List PortAccess := [.outportb pic1Data 0xff, .outportb pic2Data 0xff]

/-! ## The machine -/

/-- What an access to a port does to the controllers. -/
def picAccess (p : I8259Pair) : PortAccess → I8259Pair
  | .outportb port value =>
    if port = pic1 then { p with master := p.master.command value }
    else if port = pic2 then { p with slave := p.slave.command value }
    else if port = pic1Data then { p with master := p.master.data value }
    else if port = pic2Data then { p with slave := p.slave.data value }
    else p
  | .inportb _ => p

/-- The accesses, one after the other. -/
def picAccesses (p : I8259Pair) (l : List PortAccess) : I8259Pair := l.foldl picAccess p

/-- The kernel, the controllers, and the numbers of the interrupts they have caused. -/
structure InterruptSystem where
  kernel : InterruptState
  pics : I8259Pair
  served : List Nat

/-- What happens. -/
inductive InterruptSystemEvent where
  /-- A device makes a request. -/
  | raise (line : Nat)
  /-- The processor takes the request of the controllers. -/
  | interrupt
  /-- A program calls the system. -/
  | syscall
  /-- What the handle of an interrupt has called comes back. -/
  | back (number : Nat)
  /-- The rest of the kernel runs. -/
  | kernel (devs : Nat → IdeDevice) (timerHasHandle : Bool)
  /-- `kernel_bios32_service`: the BIOS leaves the controllers in the state `pics`. -/
  | bios (pics : I8259Pair)

namespace InterruptSystem

/-- The kernel takes a step, and accesses ports in it. -/
def stepKernel (s : InterruptSystem) (e : InterruptEvent) : Option InterruptSystem :=
  (s.kernel.step e).map fun k =>
    { s with kernel := k, pics := picAccesses s.pics (k.ports.drop s.kernel.ports.length) }

def step (s : InterruptSystem) : InterruptSystemEvent → Option InterruptSystem
  | .raise line =>
    -- No device is on the line of the slave.
    if line < 16 ∧ line ≠ cascadeIrq then some { s with pics := s.pics.raise line } else none
  | .interrupt =>
    s.pics.interrupt.bind fun r =>
      { s with pics := r.2, served := s.served ++ [r.1] }.stepKernel (.enter r.1)
  | .syscall => s.stepKernel (.enter 128)
  | .back number => s.stepKernel (.back number)
  | .kernel devs timerHasHandle => s.stepKernel (.kernel devs timerHasHandle)
  | .bios pics =>
    some { s with
      kernel := s.kernel.access (pic8259Disable ++ pic8259Remap)
      pics := picAccesses pics pic8259Remap }

/-- The events, one after the other. -/
def run (s : InterruptSystem) : List InterruptSystemEvent → Option InterruptSystem
  | [] => some s
  | e :: es => (s.step e).bind fun s' => s'.run es

end InterruptSystem

/-! ## The initialization -/

/-- No line is masked or in service, and the lines have the numbers from 32 on. -/
abbrev PicsQuiet (p : I8259Pair) : Prop :=
  p.Quiet picMasterOffset (1 <<< cascadeIrq) picSlaveOffset cascadeIrq

/-- **After `pic_8259_remap`**, whatever the controllers were before. -/
theorem pic8259Remap_quiet (p : I8259Pair) :
    PicsQuiet (picAccesses p pic8259Remap) ∧
      ∀ n, (picAccesses p pic8259Remap).requested n = false := by
  obtain ⟨hmaster, hmasterIrr⟩ :=
    p.master.init_idle (show picMasterOffset % 8 = 0 by decide) (1 <<< cascadeIrq)
  obtain ⟨hslave, hslaveIrr⟩ := p.slave.init_idle (show picSlaveOffset % 8 = 0 by decide) 2
  refine ⟨⟨hmaster, hslave, by decide, by decide⟩, fun n => ?_⟩
  unfold I8259Pair.requested
  split
  · exact hmasterIrr n
  · exact hslaveIrr (n - 8)

/-! ## Acknowledgements -/

/-- An access that a handle makes: an acknowledgement, or a read. -/
def Acknowledges (a : PortAccess) : Prop := a = masterEoi ∨ a = slaveEoi ∨ ∃ port, a = .inportb port

section Acknowledgements

variable {p : I8259Pair} {l : List PortAccess} {a : PortAccess} {k j v n : Nat}
  {s s' : InterruptState} {e : InterruptEvent}

theorem acknowledges_irEoi (idx : Nat) : ∀ a ∈ irEoi idx, Acknowledges a := by
  unfold irEoi
  split
  · exact List.forall_mem_cons.mpr
      ⟨Or.inr (Or.inl rfl), List.forall_mem_singleton.mpr (Or.inl rfl)⟩
  · exact List.forall_mem_singleton.mpr (Or.inl rfl)

theorem acknowledges_signalDrive (channel drive : Nat) (devs : Nat → IdeDevice) :
    ∀ a ∈ (signalDrive channel drive devs).2, Acknowledges a := by
  unfold signalDrive
  dsimp only
  split
  · exact List.forall_mem_singleton.mpr (Or.inr (Or.inr ⟨_, rfl⟩))
  · exact List.forall_mem_nil _

theorem acknowledges_ataIrqHandle (channel irq : Nat) (devs : Nat → IdeDevice) :
    ∀ a ∈ (ataIrqHandle channel irq devs).2, Acknowledges a := by
  unfold ataIrqHandle
  exact List.forall_mem_append.mpr ⟨List.forall_mem_append.mpr
    ⟨acknowledges_signalDrive channel ataMaster devs, acknowledges_signalDrive channel ataSlave _⟩,
    acknowledges_irEoi irq⟩

/-- The accesses that come to those before. -/
def AddsAcks (s s' : InterruptState) : Prop :=
  ∃ l, s'.ports = s.ports ++ l ∧ ∀ a ∈ l, Acknowledges a

theorem AddsAcks.refl (h : s'.ports = s.ports) : AddsAcks s s' :=
  ⟨[], by rw [h, List.append_nil], List.forall_mem_nil _⟩

theorem AddsAcks.trans {s'' : InterruptState} (h : AddsAcks s s') (h' : AddsAcks s' s'') :
    AddsAcks s s'' := by
  obtain ⟨l, hl, hacks⟩ := h
  obtain ⟨l', hl', hacks'⟩ := h'
  exact ⟨l ++ l', by rw [hl', hl, List.append_assoc], List.forall_mem_append.mpr ⟨hacks, hacks'⟩⟩

theorem addsAcks_access (hl : ∀ a ∈ l, Acknowledges a) : AddsAcks s (s.access l) := ⟨l, rfl, hl⟩

theorem addsAcks_runHandle (handle : InterruptsHandle) : AddsAcks s (s.runHandle handle).1 := by
  cases handle with
  | timerHandle => exact ⟨irEoi 32, rfl, acknowledges_irEoi 32⟩
  | ataPrimaryIrqHandle => exact ⟨_, rfl, acknowledges_ataIrqHandle ataPrimary ataPrimaryIrq _⟩
  | ataSecondaryIrqHandle =>
    exact ⟨_, rfl, acknowledges_ataIrqHandle ataSecondary ataSecondaryIrq _⟩
  | handleSyscallsInterrupt => exact .refl rfl
  | pageFaultHandler => exact .refl rfl
  | generalProtectionFaultHandler => exact .refl rfl

theorem addsAcks_irHandlerEnd (h : s.irHandlerEnd v = some s') : AddsAcks s s' := by
  unfold InterruptState.irHandlerEnd at h
  split at h
  · cases h
  · split at h
    · obtain rfl := Option.some.inj h
      exact addsAcks_access (acknowledges_irEoi v)
    · obtain rfl := Option.some.inj h
      exact .refl rfl

/-- **What a step of the kernel does to ports.** -/
theorem addsAcks_step (h : s.step e = some s') : AddsAcks s s' := by
  cases e with
  | enter v =>
    simp only [InterruptState.step] at h
    cases hv : s.handles v with
    | none =>
      rw [InterruptState.irHandler_of_none hv] at h
      exact addsAcks_irHandlerEnd h
    | some handle =>
      rw [InterruptState.irHandler_of_some hv] at h
      have hhandle := addsAcks_runHandle (s := s) handle
      split at h
      · obtain rfl := Option.some.inj h
        exact hhandle.trans (.refl rfl)
      · exact hhandle.trans (addsAcks_irHandlerEnd h)
  | back v =>
    simp only [InterruptState.step] at h
    split at h
    · obtain ⟨l, hl, hacks⟩ := addsAcks_irHandlerEnd h
      exact ⟨l, hl, hacks⟩
    · cases h
  | kernel devs timerHasHandle =>
    obtain rfl := Option.some.inj h
    exact .refl rfl

/-- At most the line `k` of the master and the line `j` of the slave are in service. -/
structure PicsServing (p : I8259Pair) (k j : Nat) : Prop where
  master : p.master.AtMost picMasterOffset (1 <<< cascadeIrq) k
  slave : p.slave.AtMost picSlaveOffset cascadeIrq j

theorem picAccess_masterEoi (p : I8259Pair) :
    picAccess p masterEoi = { p with master := p.master.eoi } := rfl

theorem picAccess_slaveEoi (p : I8259Pair) :
    picAccess p slaveEoi = { p with slave := p.slave.eoi } := rfl

/-- **Acknowledging**, also more than once. -/
theorem PicsServing.accesses (h : PicsServing p k j) (hk : k < 8) (hj : j < 8)
    (hl : ∀ a ∈ l, Acknowledges a)
    (hmaster : masterEoi ∈ l ∨ ∀ i, p.master.isr i = false)
    (hslave : slaveEoi ∈ l ∨ ∀ i, p.slave.isr i = false) :
    PicsQuiet (picAccesses p l) ∧ ∀ n, (picAccesses p l).requested n = p.requested n := by
  induction l generalizing p with
  | nil =>
    have hmaster := hmaster.resolve_left List.not_mem_nil
    have hslave := hslave.resolve_left List.not_mem_nil
    exact ⟨⟨h.master.idle (hmaster k), h.slave.idle (hslave j), by decide, by decide⟩, fun _ => rfl⟩
  | cons a l ih =>
    obtain ⟨ha, hrest⟩ := List.forall_mem_cons.mp hl
    obtain rfl | rfl | ⟨port, rfl⟩ := ha
    · have hidle := h.master.eoi hk
      have hslave := hslave.imp_left fun hmem => (List.mem_cons.mp hmem).resolve_left (by decide)
      obtain ⟨hquiet, hrequested⟩ := ih (p := { p with master := p.master.eoi })
        ⟨hidle.atMost k, h.slave⟩ hrest (Or.inr hidle.none) hslave
      refine ⟨hquiet, fun n => (hrequested n).trans ?_⟩
      simp only [I8259Pair.requested, I8259.eoi_irr]
    · have hidle := h.slave.eoi hj
      have hmaster := hmaster.imp_left fun hmem => (List.mem_cons.mp hmem).resolve_left (by decide)
      obtain ⟨hquiet, hrequested⟩ := ih (p := { p with slave := p.slave.eoi })
        ⟨h.master, hidle.atMost j⟩ hrest hmaster (Or.inr hidle.none)
      refine ⟨hquiet, fun n => (hrequested n).trans ?_⟩
      simp only [I8259Pair.requested, I8259.eoi_irr]
    · have hread : ∀ {b : PortAccess}, b ≠ .inportb port → b ∈ .inportb port :: l → b ∈ l :=
        fun hne hmem => (List.mem_cons.mp hmem).resolve_left hne
      exact ih h hrest (hmaster.imp_left (hread (by simp [masterEoi])))
        (hslave.imp_left (hread (by simp [slaveEoi])))

theorem PicsServing.of_quiet (h : PicsQuiet p) : PicsServing p 0 0 :=
  ⟨h.master.atMost 0, h.slave.atMost 0⟩

end Acknowledgements

/-! ## Runs -/

section Runs

variable {s s' s₀ : InterruptSystem} {e : InterruptEvent} {o : InterruptSystemEvent}
  {os : List InterruptSystemEvent} {v n : Nat}

/-- Between two interrupts. -/
structure InterruptSystem.Quiet (s : InterruptSystem) : Prop where
  kernel : Registered s.kernel
  pics : PicsQuiet s.pics

/-- **A step of the kernel**, while what it acknowledges is in service. -/
theorem InterruptSystem.stepKernel_quiet {k j : Nat} (hkernel : Registered s.kernel)
    (hpics : PicsServing s.pics k j) (hk : k < 8) (hj : j < 8) (he : e.Known)
    (hmaster : 0 < e.delivered ∨ ∀ i, s.pics.master.isr i = false)
    (hslave : 0 < e.deliveredBySlave ∨ ∀ i, s.pics.slave.isr i = false)
    (h : s.stepKernel e = some s') :
    s'.Quiet ∧ (∀ n, s'.pics.requested n = s.pics.requested n) ∧ s'.served = s.served := by
  obtain ⟨k', hstep, rfl⟩ := Option.map_eq_some_iff.mp h
  obtain ⟨hregistered, hmasterEois, hslaveEois⟩ := hkernel.sends_step he hstep
  obtain ⟨l, hl, hacks⟩ := addsAcks_step hstep
  have hdrop : k'.ports.drop s.kernel.ports.length = l := by rw [hl, List.drop_left]
  simp only [InterruptState.masterEois, InterruptState.slaveEois, hl, List.count_append]
    at hmasterEois hslaveEois
  obtain ⟨hquiet, hrequested⟩ := hpics.accesses hk hj hacks
    (hmaster.imp_left fun hpos => List.count_pos_iff.mp (by omega))
    (hslave.imp_left fun hpos => List.count_pos_iff.mp (by omega))
  rw [← hdrop] at hquiet hrequested
  exact ⟨⟨hregistered, hquiet⟩, hrequested, rfl⟩

/-- An interrupt or a system call can always enter the kernel. -/
theorem InterruptState.irHandler_isSome {s : InterruptState} (hv : 32 ≤ v) :
    ∃ s', s.irHandler v = some s' := by
  have hend : ∀ s : InterruptState, ∃ s', s.irHandlerEnd v = some s' := fun s => by
    unfold InterruptState.irHandlerEnd
    rw [if_neg (by omega)]
    split <;> exact ⟨_, rfl⟩
  cases hhandle : s.handles v with
  | none =>
    rw [InterruptState.irHandler_of_none hhandle]
    exact hend s
  | some handle =>
    rw [InterruptState.irHandler_of_some hhandle]
    split
    · exact ⟨_, rfl⟩
    · exact hend _

/-- The number of a line. -/
theorem PicsQuiet.vector_eq {p : I8259Pair} (h : PicsQuiet p) (n : Nat) : p.vector n = 32 + n := by
  unfold I8259Pair.vector
  rw [h.master.base, h.slave.base]
  unfold picMasterOffset picSlaveOffset
  split <;> omega

/-- **An interrupt of the controllers** is that of the first requested line, and nothing is in service
when the kernel has handled it. -/
theorem InterruptSystem.Quiet.interrupt (h : s.Quiet)
    (hn : (I8259Pair.lineOrder cascadeIrq).find? s.pics.requested = some n) :
    ∃ s', s.step .interrupt = some s' ∧ s'.Quiet ∧ s'.served = s.served ++ [32 + n] ∧
      ∀ m, m ≠ cascadeIrq →
        s'.pics.requested m = if m = n then false else s.pics.requested m := by
  obtain ⟨hlt, -⟩ := (I8259Pair.mem_lineOrder h.pics.line).mp (List.mem_of_find?_eq_some hn)
  have htaken : s.pics.interrupt = some (32 + n, s.pics.taken n) := by
    rw [h.pics.interrupt_eq, hn, Option.map_some, h.pics.vector_eq]
  obtain ⟨hmaster, hslave⟩ := h.pics.taken_atMost n
  obtain ⟨k', hk'⟩ := InterruptState.irHandler_isSome (s := s.kernel) (Nat.le_add_right 32 n)
  obtain ⟨s', hkernel⟩ : ∃ s', InterruptSystem.stepKernel
      ⟨s.kernel, s.pics.taken n, s.served ++ [32 + n]⟩ (.enter (32 + n)) = some s' := by
    rw [InterruptSystem.stepKernel, InterruptState.step, hk']
    exact ⟨_, rfl⟩
  have hstep : s.step .interrupt = some s' := by
    rw [InterruptSystem.step, htaken]
    exact hkernel
  have hserving : PicsServing (s.pics.taken n) (if n < 8 then n else cascadeIrq)
      (if n < 8 then 0 else n - 8) := by
    refine ⟨hmaster, ?_⟩
    split at hslave
    · next hlow =>
      rw [if_pos hlow]
      exact hslave.atMost 0
    · next hlow =>
      rw [if_neg hlow]
      exact hslave
  have hfirst : (if n < 8 then n else cascadeIrq) < 8 := by
    split
    · assumption
    · exact h.pics.line
  have hsecond : (if n < 8 then 0 else n - 8) < 8 := by
    split <;> omega
  have hknown : (InterruptEvent.enter (32 + n)).Known := Or.inl (by omega)
  have hdelivered : 0 < (InterruptEvent.enter (32 + n)).delivered := by
    rw [InterruptEvent.delivered, if_pos (by omega)]
    decide
  have hbySlave : 0 < (InterruptEvent.enter (32 + n)).deliveredBySlave ∨
      ∀ i, (s.pics.taken n).slave.isr i = false := by
    split at hslave
    · exact Or.inr hslave.none
    · rw [InterruptEvent.deliveredBySlave, if_pos (by omega)]
      exact Or.inl (by decide)
  obtain ⟨hquiet, hrequested, hserved⟩ := InterruptSystem.stepKernel_quiet
    (s := ⟨s.kernel, s.pics.taken n, s.served ++ [32 + n]⟩) h.kernel hserving hfirst hsecond
    hknown (Or.inl hdelivered) hbySlave hkernel
  exact ⟨s', hstep, hquiet, hserved, fun m hm =>
    (hrequested m).trans (h.pics.requested_taken hm n)⟩

/-- **Every step.** -/
theorem InterruptSystem.Quiet.step (h : s.Quiet) (hstep : s.step o = some s') : s'.Quiet := by
  have hidle := PicsServing.of_quiet h.pics
  have hkernel : ∀ {e}, e.Known → s.stepKernel e = some s' → s'.Quiet := fun he hs =>
    (InterruptSystem.stepKernel_quiet h.kernel hidle (by decide) (by decide) he
      (Or.inr h.pics.master.none) (Or.inr h.pics.slave.none) hs).1
  cases o with
  | raise line =>
    simp only [InterruptSystem.step] at hstep
    split at hstep
    · obtain rfl := Option.some.inj hstep
      exact ⟨h.kernel, h.pics.raise line⟩
    · cases hstep
  | interrupt =>
    cases hn : (I8259Pair.lineOrder cascadeIrq).find? s.pics.requested with
    | none =>
      rw [InterruptSystem.step, h.pics.interrupt_eq, hn] at hstep
      cases hstep
    | some n =>
      obtain ⟨s'', hstep', hquiet, -⟩ := h.interrupt hn
      obtain rfl := Option.some.inj (hstep.symm.trans hstep')
      exact hquiet
  | syscall => exact hkernel (show InterruptEvent.Known (.enter 128) from Or.inr rfl) hstep
  | back number => exact hkernel (show InterruptEvent.Known (.back number) from trivial) hstep
  | kernel devs timerHasHandle =>
    exact hkernel (show InterruptEvent.Known (.kernel devs timerHasHandle) from trivial) hstep
  | bios pics =>
    obtain rfl := Option.some.inj hstep
    exact ⟨⟨h.kernel.handles, h.kernel.pending⟩, (pic8259Remap_quiet pics).1⟩

/-- **Every run.** -/
theorem InterruptSystem.Quiet.run (h : s.Quiet) (hrun : s.run os = some s') : s'.Quiet := by
  induction os generalizing s with
  | nil =>
    obtain rfl := Option.some.inj hrun
    exact h
  | cons o os ih =>
    obtain ⟨s₁, hstep, hrest⟩ := Option.bind_eq_some_iff.mp hrun
    exact ih (h.step hstep) hrest

/-- **The requests that there are**, when no others come. -/
theorem InterruptSystem.Quiet.drain {l : List Nat} (h : s.Quiet)
    (hl : (I8259Pair.lineOrder cascadeIrq).filter s.pics.requested = l) :
    ∃ s', s.run (List.replicate l.length .interrupt) = some s' ∧
      s'.served = s.served ++ l.map (32 + ·) ∧
      ∀ n ∈ I8259Pair.lineOrder cascadeIrq, s'.pics.requested n = false := by
  induction l generalizing s with
  | nil =>
    refine ⟨s, rfl, (List.append_nil _).symm, fun n hn => ?_⟩
    exact Bool.eq_false_iff.mpr (List.filter_eq_nil_iff.mp hl n hn)
  | cons n l ih =>
    have hfind : (I8259Pair.lineOrder cascadeIrq).find? s.pics.requested = some n := by
      rw [← List.head?_filter, hl, List.head?_cons]
    obtain ⟨s₁, hstep, hquiet, hserved, hrequested⟩ := h.interrupt hfind
    have hrest : (I8259Pair.lineOrder cascadeIrq).filter s₁.pics.requested = l := by
      have hcons := I8259Pair.filter_eq_cons (I8259Pair.nodup_lineOrder h.pics.line) hfind
      rw [hl] at hcons
      rw [List.tail_eq_of_cons_eq hcons]
      refine List.filter_congr fun m hm => hrequested m ?_
      exact ((I8259Pair.mem_lineOrder h.pics.line).mp hm).2
    obtain ⟨s', hrun, hserved', hnone⟩ := ih hquiet hrest
    refine ⟨s', ?_, ?_, hnone⟩
    · rw [List.length_cons, List.replicate_succ, InterruptSystem.run, hstep, Option.bind_some, hrun]
    · rw [hserved', hserved, List.append_assoc, List.map_cons, List.singleton_append]

/-- **Every request is served.** Whatever the controllers were before they have been initialized, and
whatever has happened since, the requests that there are reach the kernel one after the other, each
line once, in the order of the priorities and with 32 and the number of the line. -/
theorem requests_served {p : I8259Pair} (hhandles : s₀.kernel.handles = kernelHandles)
    (hpending : s₀.kernel.pending = []) (hpics : s₀.pics = picAccesses p pic8259Remap)
    (hrun : s₀.run os = some s) :
    ∃ s', s.run (List.replicate
        ((I8259Pair.lineOrder cascadeIrq).filter s.pics.requested).length .interrupt) = some s' ∧
      s'.served = s.served ++
        ((I8259Pair.lineOrder cascadeIrq).filter s.pics.requested).map (32 + ·) ∧
      ∀ n ∈ I8259Pair.lineOrder cascadeIrq, s'.pics.requested n = false := by
  have hstart : s₀.Quiet :=
    ⟨⟨hhandles, fun v hv => nomatch hpending ▸ hv⟩, hpics ▸ (pic8259Remap_quiet p).1⟩
  exact (hstart.run hrun).drain rfl

end Runs

/-! ## The system after the kernel has started -/

/-- The controllers after the start of the machine. -/
def freshPic : I8259 :=
  ⟨.mask, false, false, 0, 0, false, false, fun _ => true, fun _ => false, fun _ => false⟩

/-- All handles are registered, and the controllers have been initialized. -/
def startedSystem : InterruptSystem :=
  ⟨startedMachine, picAccesses ⟨freshPic, freshPic⟩ pic8259Remap, []⟩

/-- A drive, the keyboard and the timer make requests while a call of the system comes back. -/
def busySystem : InterruptSystem :=
  (startedSystem.run [.syscall, .raise 14, .raise 1, .back 128, .raise 0]).getD startedSystem

theorem requests_served_startedSystem :
    ∃ s', busySystem.run (List.replicate 3 .interrupt) = some s' ∧ s'.served = [32, 33, 46] := by
  have hrun : startedSystem.run [.syscall, .raise 14, .raise 1, .back 128, .raise 0] =
      some busySystem := rfl
  have hrequests : (I8259Pair.lineOrder cascadeIrq).filter busySystem.pics.requested = [0, 1, 14] := by
    decide
  obtain ⟨s', hdrain, hserved, -⟩ := requests_served (p := ⟨freshPic, freshPic⟩) rfl rfl rfl hrun
  rw [hrequests] at hdrain hserved
  exact ⟨s', hdrain, hserved⟩

end Xylophone
