import Xylophone.Drivers.AtaPio
import Xylophone.Infra.Run

/-!
# Waiting for the interrupt of a command

A command is written to the drive first; then `ata_wait_irq` sets `irq_expected`, clears
`irq_fired` and polls it. The interrupt of the command may come between any two of these steps, and
the handler tells every drive of the channel that expects an interrupt. An interrupt that comes
before `irq_fired` is cleared is lost, and the wait runs into its time limit.

* `ChannelState.step` — one step of a command or one run of the handler
* `CommandOk.step` — what the flags of the drive in use say about its interrupt
* `waits_ok_iff` — every wait ends without an error in exactly the runs in which every interrupt
  comes after the flag is cleared; and none is ended by the interrupt of the other drive
-/

namespace Xylophone

open Infra

/-! ## The channel -/

/-- How far a command has come. -/
inductive WaitPoint where
  /-- The command register has been written. -/
  | written
  /-- `irq_expected` has been set. -/
  | expected
  /-- `irq_fired` has been cleared, and turn `i` of the loop is next. -/
  | polling (i : Nat)
  /-- The loop is over. -/
  | ended
deriving DecidableEq, Repr

/-- `irq_fired` has been cleared. -/
def WaitPoint.cleared : WaitPoint → Bool
  | .written | .expected => false
  | .polling _ | .ended => true

/-- A command on its way. -/
structure AtaCommand where
  drive : Nat
  point : WaitPoint
  /-- How far the command had come when its interrupt came. -/
  irqAt : Option WaitPoint
deriving DecidableEq, Repr

/-- A command whose wait has returned. -/
structure WaitRecord where
  drive : Nat
  irqAt : WaitPoint
  error : AtaError
  /-- The drive whose interrupt has set `irq_fired` last. -/
  firedBy : Option Nat
deriving DecidableEq, Repr

/-- The drives, the command on its way and the commands that are done. -/
structure ChannelState where
  devs : Nat → IdeDevice
  command : Option AtaCommand
  firedBy : Nat → Option Nat
  done : List WaitRecord

/-- What happens in a channel. -/
inductive ChannelOp where
  /-- A command is written to a drive. -/
  | command (drive : Nat)
  /-- The next step of `ata_wait_irq`. -/
  | wait
  /-- The interrupt of the command comes. -/
  | irq
deriving DecidableEq, Repr

/-- The handler of a channel. -/
def channelIrqHandle (channel : Nat) : (Nat → IdeDevice) → (Nat → IdeDevice) × List PortAccess :=
  ataIrqHandle channel (ataPrimaryIrq + channel)

namespace ChannelState

/-- The record of a drive. -/
def dev (s : ChannelState) (channel drive : Nat) : IdeDevice := s.devs (ideIndex channel drive)

/-- The channel with the record of a drive changed. -/
def setDev (s : ChannelState) (channel drive : Nat) (dev : IdeDevice) : ChannelState :=
  { s with devs := Function.update s.devs (ideIndex channel drive) dev }

/-- The next step of `ata_wait_irq`. A wait is over only when the interrupt has come. -/
def waitStep (s : ChannelState) (channel : Nat) (c : AtaCommand) : Option ChannelState :=
  let dev := s.dev channel c.drive
  match c.point with
  | .written =>
    some { s.setDev channel c.drive { dev with irqExpected := true } with
      command := some { c with point := .expected } }
  | .expected =>
    some { s.setDev channel c.drive { dev with irqFired := false } with
      command := some { c with point := .polling 0 }
      firedBy := Function.update s.firedBy c.drive none }
  | .polling i =>
    some { s with command := some { c with
      point := if dev.irqFired ∨ 1000000 ≤ i + 1 then .ended else .polling (i + 1) } }
  | .ended =>
    c.irqAt.map fun p =>
      let r := ataWaitIrqEnd dev
      { s.setDev channel c.drive r.1 with
        command := none
        done := ⟨c.drive, p, r.2, s.firedBy c.drive⟩ :: s.done }

/-- The interrupt of the command on its way. -/
def irqStep (s : ChannelState) (channel : Nat) (c : AtaCommand) : ChannelState :=
  { s with
    devs := (channelIrqHandle channel s.devs).1
    command := some { c with irqAt := some c.point }
    firedBy := fun drive =>
      if (s.dev channel drive).irqExpected then some c.drive else s.firedBy drive }

/-- One step. A command is written when the one before it is done, and it has one interrupt. -/
def step (channel : Nat) (s : ChannelState) : ChannelOp → Option ChannelState
  | .command drive =>
    if s.command = none ∧ (drive = ataMaster ∨ drive = ataSlave) then
      some { s with command := some ⟨drive, .written, none⟩ }
    else none
  | .wait => s.command.bind fun c => s.waitStep channel c
  | .irq => s.command.bind fun c => if c.irqAt = none then some (s.irqStep channel c) else none

end ChannelState

/-- The steps of a channel. -/
def ChannelStep (channel : Nat) (s : ChannelState) (op : ChannelOp) (s' : ChannelState) : Prop :=
  s.step channel op = some s'

/-! ## The handler -/

theorem ideIndex_ne (channel : Nat) : ideIndex channel ataMaster ≠ ideIndex channel ataSlave := by
  intro h
  have hbit := congrArg (Nat.testBit · 0) h
  simp [ideIndex, ataMaster, ataSlave] at hbit

/-- A drive as the handler leaves it. -/
def signalled (dev : IdeDevice) : IdeDevice :=
  if dev.irqExpected then { dev with irqFired := true } else dev

theorem signalDrive_devs (channel drive : Nat) (devs : Nat → IdeDevice) :
    (signalDrive channel drive devs).1 = Function.update devs (ideIndex channel drive)
      (signalled (devs (ideIndex channel drive))) := by
  unfold signalDrive signalled
  dsimp only
  split
  · rfl
  · exact (Function.update_eq_self _ _).symm

/-- **The handler tells both drives of the channel.** -/
theorem channelIrqHandle_drive {channel drive : Nat} (devs : Nat → IdeDevice)
    (hd : drive = ataMaster ∨ drive = ataSlave) :
    (channelIrqHandle channel devs).1 (ideIndex channel drive)
      = signalled (devs (ideIndex channel drive)) := by
  unfold channelIrqHandle ataIrqHandle
  rw [signalDrive_devs, signalDrive_devs]
  obtain rfl | rfl := hd
  · rw [Function.update_of_ne (ideIndex_ne channel), Function.update_self]
  · rw [Function.update_self, Function.update_of_ne (ideIndex_ne channel).symm]

/-! ## What the flags say -/

/-- The interrupt of a command has come after the flag was cleared. -/
def AtaCommand.heard (c : AtaCommand) : Bool := c.irqAt.any WaitPoint.cleared

/-- What the flags say about the interrupt of the command on its way. -/
structure CommandOk (channel : Nat) (s : ChannelState) (c : AtaCommand) : Prop where
  drive : c.drive = ataMaster ∨ c.drive = ataSlave
  /-- Before the flag is cleared, no interrupt has come after that. -/
  early : c.point.cleared = false → c.heard = false
  expected : c.point ≠ .written → (s.dev channel c.drive).irqExpected = true
  fired : c.point.cleared = true → (s.dev channel c.drive).irqFired = c.heard
  /-- The flag is set by the interrupt of this command and of no other. -/
  firedBy : c.point.cleared = true → c.heard = true → s.firedBy c.drive = some c.drive

/-- A wait ends without an error exactly when its interrupt came after the flag was cleared, and
then that interrupt has ended it. -/
structure WaitRecord.Explained (w : WaitRecord) : Prop where
  error : w.error = .noError ↔ w.irqAt.cleared = true
  firedBy : w.error = .noError → w.firedBy = some w.drive

/-- What holds between any two steps. -/
structure ChannelOk (channel : Nat) (s : ChannelState) : Prop where
  command : ∀ c, s.command = some c → CommandOk channel s c
  done : ∀ w ∈ s.done, w.Explained

variable {channel drive : Nat} {s s' : ChannelState} {c : AtaCommand} {op : ChannelOp}

@[simp] theorem ChannelState.setDev_dev (s : ChannelState) (channel drive : Nat) (dev : IdeDevice) :
    (s.setDev channel drive dev).dev channel drive = dev := Function.update_self ..

theorem heard_of_irqAt {c : AtaCommand} {p : WaitPoint} (h : c.irqAt = some p) :
    c.heard = p.cleared := by
  unfold AtaCommand.heard
  rw [h]
  rfl

/-- A step of `ata_wait_irq` keeps what the flags say, or ends the wait. -/
theorem ChannelOk.waitStep (h : ChannelOk channel s) (hc : s.command = some c)
    (hs : s.waitStep channel c = some s') : ChannelOk channel s' := by
  have hok := h.command c hc
  unfold ChannelState.waitStep at hs
  dsimp only at hs
  split at hs
  · next hpoint =>
    obtain rfl := Option.some.inj hs
    have hearly := hok.early (by rw [hpoint]; rfl)
    refine ⟨fun c' hc' => ?_, h.done⟩
    obtain rfl := Option.some.inj hc'
    exact ⟨hok.drive, fun _ => hearly, fun _ => by simp [ChannelState.dev, ChannelState.setDev],
      nofun, nofun⟩
  · next hpoint =>
    obtain rfl := Option.some.inj hs
    have hearly := hok.early (by rw [hpoint]; rfl)
    have hexpected := hok.expected (by rw [hpoint]; exact nofun)
    refine ⟨fun c' hc' => ?_, h.done⟩
    obtain rfl := Option.some.inj hc'
    refine ⟨hok.drive, nofun, fun _ => ?_, fun _ => ?_, fun _ hheard => ?_⟩
    · simpa [ChannelState.dev, ChannelState.setDev] using hexpected
    · refine Eq.trans ?_ hearly.symm
      simp [ChannelState.dev, ChannelState.setDev]
    · cases hearly.symm.trans hheard
  · next i hpoint =>
    obtain rfl := Option.some.inj hs
    have hcleared : c.point.cleared = true := by
      rw [hpoint]
      rfl
    refine ⟨fun c' hc' => ?_, h.done⟩
    obtain rfl := Option.some.inj hc'
    refine ⟨hok.drive, fun hnot => ?_, fun _ => hok.expected (by rw [hpoint]; exact nofun),
      fun _ => hok.fired hcleared, fun _ => hok.firedBy hcleared⟩
    dsimp only at hnot
    split at hnot
    · cases hnot
    · cases hnot
  · next hpoint =>
    obtain ⟨p, hp, rfl⟩ := Option.map_eq_some_iff.mp hs
    have hcleared : c.point.cleared = true := by
      rw [hpoint]
      rfl
    have hfired := hok.fired hcleared
    have hfiredBy := hok.firedBy hcleared
    rw [heard_of_irqAt hp] at hfired hfiredBy
    refine ⟨nofun, fun w hw => ?_⟩
    obtain rfl | hw := List.mem_cons.mp hw
    · unfold ataWaitIrqEnd
      rw [hfired]
      cases hlate : p.cleared with
      | true => exact ⟨iff_of_true rfl hlate, fun _ => hfiredBy hlate⟩
      | false => exact ⟨iff_of_false nofun (by rw [hlate]; exact nofun), nofun⟩
    · exact h.done w hw

/-- The interrupt of the command on its way sets the flag of its drive once the drive expects it. -/
theorem ChannelOk.irqStep (h : ChannelOk channel s) (hc : s.command = some c) :
    ChannelOk channel (s.irqStep channel c) := by
  have hok := h.command c hc
  have hdev : (s.irqStep channel c).dev channel c.drive = signalled (s.dev channel c.drive) :=
    channelIrqHandle_drive s.devs hok.drive
  refine ⟨fun c' hc' => ?_, h.done⟩
  obtain rfl := Option.some.inj hc'
  refine ⟨hok.drive, id, fun hpoint => ?_, fun hcleared => ?_, fun hcleared _ => ?_⟩
  · have hexpected := hok.expected hpoint
    rw [hdev, signalled, if_pos hexpected]
    exact hexpected
  · have hexpected := hok.expected fun hw => by rw [hw] at hcleared; cases hcleared
    rw [hdev, signalled, if_pos hexpected]
    exact hcleared.symm
  · have hexpected := hok.expected fun hw => by rw [hw] at hcleared; cases hcleared
    exact if_pos hexpected

/-- **What one step preserves.** -/
theorem ChannelOk.step (h : ChannelOk channel s) (hs : ChannelStep channel s op s') :
    ChannelOk channel s' := by
  cases op with
  | command drive =>
    rw [ChannelStep, ChannelState.step] at hs
    split at hs
    · next hcond =>
      obtain rfl := Option.some.inj hs
      refine ⟨fun c' hc' => ?_, h.done⟩
      obtain rfl := Option.some.inj hc'
      exact ⟨hcond.2, fun _ => rfl, fun hw => absurd rfl hw, nofun, nofun⟩
    · cases hs
  | wait =>
    obtain ⟨c, hc, hs⟩ := Option.bind_eq_some_iff.mp hs
    exact h.waitStep hc hs
  | irq =>
    obtain ⟨c, hc, hs⟩ := Option.bind_eq_some_iff.mp hs
    split at hs
    · obtain rfl := Option.some.inj hs
      exact h.irqStep hc
    · cases hs

/-! ## The exact condition -/

/-- **Every wait ends without an error in exactly the runs in which every interrupt comes after
`irq_fired` is cleared; and no wait is ever ended by the interrupt of the other drive.** -/
theorem waits_ok_iff {s₀ : ChannelState} (hidle : s₀.command = none) (hdone : s₀.done = [])
    (hrun : Run (ChannelStep channel) (fun _ _ => True) s₀ s) :
    ((∀ w ∈ s.done, w.error = .noError) ↔ ∀ w ∈ s.done, w.irqAt.cleared = true) ∧
      ∀ w ∈ s.done, w.error = .noError → w.firedBy = some w.drive := by
  have h0 : ChannelOk channel s₀ := by
    constructor
    · intro c hc
      cases hidle.symm.trans hc
    · intro w hw
      rw [hdone] at hw
      cases hw
  have hok : ChannelOk channel s := hrun.invariant (fun _ _ _ h _ hs => h.step hs) h0
  exact ⟨forall₂_congr fun w hw => (hok.done w hw).error, fun w hw => (hok.done w hw).firedBy⟩

/-! ## A lost interrupt -/

/-- The loop runs to its end when the flag stays clear. -/
theorem exists_ended (channel : Nat) (hdrive : (s.dev channel drive).irqFired = false)
    {n i : Nat} {p : Option WaitPoint} (hn : i + n + 1 = 1000000)
    (hc : s.command = some ⟨drive, .polling i, p⟩) :
    Run (ChannelStep channel) (fun _ _ => True) s
      { s with command := some ⟨drive, .ended, p⟩ } := by
  induction n generalizing i s with
  | zero =>
    refine Run.single (a := .wait) trivial ?_
    rw [ChannelStep, ChannelState.step, hc, Option.bind_some]
    simp [ChannelState.waitStep, hdrive, show 1000000 ≤ i + 1 by omega]
  | succ n ih =>
    have hfirst : ChannelStep channel s .wait
        { s with command := some ⟨drive, .polling (i + 1), p⟩ } := by
      rw [ChannelStep, ChannelState.step, hc, Option.bind_some]
      simp [ChannelState.waitStep, hdrive, show ¬ 1000000 ≤ i + 1 by omega]
    exact (Run.single trivial hfirst).trans (ih hdrive (by omega) rfl)

/-- The drives of a channel after the kernel has started. -/
def quietChannel : ChannelState :=
  ⟨fun i => ⟨ataPrimary, i, 0, 512, 0, false, false⟩, none, fun _ => none, []⟩

/-- A command to each drive, with the interrupt in the first and in the second turn of the loop. -/
theorem waits_ok_iff_quietChannel :
    ∃ s : ChannelState, Run (ChannelStep ataPrimary) (fun _ _ => True) quietChannel s ∧
      s.done.map WaitRecord.drive = [1, 0] ∧ (∀ w ∈ s.done, w.error = .noError) ∧
      ∀ w ∈ s.done, w.firedBy = some w.drive := by
  obtain ⟨s, hrun, hdrives, hpoints⟩ : ∃ s, runList (ChannelState.step ataPrimary) (fun _ _ => True)
      quietChannel [.command 0, .wait, .wait, .irq, .wait, .wait,
        .command 1, .wait, .wait, .wait, .irq, .wait, .wait] = some s ∧
      s.done.map WaitRecord.drive = [1, 0] ∧
      s.done.map WaitRecord.irqAt = [.polling 1, .polling 0] := ⟨_, rfl, rfl, rfl⟩
  have hrun := Run.of_runList id hrun
  obtain ⟨herror, hfiredBy⟩ := waits_ok_iff rfl rfl hrun
  have hcleared : ∀ w ∈ s.done, w.irqAt.cleared = true := by
    intro w hw
    have hmem := List.mem_map_of_mem (f := WaitRecord.irqAt) hw
    rw [hpoints, List.mem_cons, List.mem_singleton] at hmem
    rcases hmem with hat | hat <;> rw [hat] <;> rfl
  have hnoError := herror.mpr hcleared
  exact ⟨s, hrun, hdrives, hnoError, fun w hw => hfiredBy w hw (hnoError w hw)⟩

/-- The interrupt comes right after the command is written; the wait reports a time-out, and the
drive goes on expecting an interrupt. -/
theorem exists_lost_interrupt :
    ∃ s, Run (ChannelStep ataPrimary) (fun _ _ => True) quietChannel s ∧
      s.done = [⟨0, .written, .irqTimeout, none⟩] ∧ (s.dev ataPrimary 0).irqExpected = true := by
  obtain ⟨s₁, hrun, hcommand, hfired, hexpected, hfiredBy, hdone⟩ :
      ∃ s, runList (ChannelState.step ataPrimary) (fun _ _ => True) quietChannel
        [.command 0, .irq, .wait, .wait] = some s ∧
        s.command = some ⟨0, .polling 0, some .written⟩ ∧
        (s.dev ataPrimary 0).irqFired = false ∧ (s.dev ataPrimary 0).irqExpected = true ∧
        s.firedBy 0 = none ∧ s.done = [] := ⟨_, rfl, rfl, rfl, rfl, rfl, rfl⟩
  have hended := exists_ended ataPrimary hfired (n := 999999) rfl hcommand
  have hend : ataWaitIrqEnd (s₁.dev ataPrimary 0) = (s₁.dev ataPrimary 0, .irqTimeout) :=
    if_neg (Bool.eq_false_iff.mp hfired)
  obtain ⟨s, hlast, hs, hdev⟩ : ∃ s, ChannelStep ataPrimary
      { s₁ with command := some ⟨0, .ended, some .written⟩ } .wait s ∧
      s.done = ⟨0, .written, (ataWaitIrqEnd (s₁.dev ataPrimary 0)).2, s₁.firedBy 0⟩ :: s₁.done ∧
      s.dev ataPrimary 0 = (ataWaitIrqEnd (s₁.dev ataPrimary 0)).1 :=
    ⟨_, rfl, rfl, ChannelState.setDev_dev s₁ ataPrimary 0 _⟩
  rw [hend] at hs hdev
  exact ⟨s, ((Run.of_runList id hrun).trans hended).tail trivial hlast,
    by rw [hs, hfiredBy, hdone], by rw [hdev, hexpected]⟩

end Xylophone
