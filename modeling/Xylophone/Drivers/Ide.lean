import Mathlib.Logic.Function.Basic
import Mathlib.Data.List.Count

/-!
# IDE drives and their interrupt handlers

The part of a drive's record that the code reads when a sector is transferred, the accesses the
code makes to I/O ports, and the two interrupt handlers of the IDE driver.

* `irEoi` — the end-of-interrupt commands for an interrupt number
* `ataIrqHandle` — the body of both handlers: every drive of the channel that expects an
  interrupt is told that it came
-/

namespace Xylophone

/-! ## Ports -/

/-- An access to an 8-bit I/O port. A value that is read is not part of it. -/
inductive PortAccess where
  | outportb (port value : Nat)
  | inportb (port : Nat)
deriving DecidableEq, Repr

/-- `PIC1` -/
def pic1 : Nat := 0x20

/-- `PIC2` -/
def pic2 : Nat := 0xA0

/-- `PIC_SLAVE_OFFSET` -/
def picSlaveOffset : Nat := 0x28

/-- The end-of-interrupt command for the master PIC. -/
def masterEoi : PortAccess := .outportb pic1 0x20

/-- The end-of-interrupt command for the slave PIC. -/
def slaveEoi : PortAccess := .outportb pic2 0x20

/-- `IR_EOI` -/
def irEoi (idx : Nat) : List PortAccess :=
  if picSlaveOffset ≤ idx then [slaveEoi, masterEoi] else [masterEoi]

theorem count_masterEoi_irEoi (idx : Nat) : (irEoi idx).count masterEoi = 1 := by
  unfold irEoi
  split <;> rfl

theorem count_slaveEoi_irEoi (idx : Nat) :
    (irEoi idx).count slaveEoi = if 40 ≤ idx then 1 else 0 := by
  unfold irEoi picSlaveOffset
  split <;> rfl

/-! ## Drives -/

/-- `ide_device_t`, without what only the identification of a drive reads and writes. -/
structure IdeDevice where
  channel : Nat
  drive : Nat
  commandSets : Nat
  sectorSize : Nat
  controllerStatus : Nat
  irqExpected : Bool
  irqFired : Bool
deriving DecidableEq, Repr

/-- `ATA_PRIMARY` -/
def ataPrimary : Nat := 0

/-- `ATA_SECONDARY` -/
def ataSecondary : Nat := 1

/-- `ATA_MASTER` -/
def ataMaster : Nat := 0

/-- `ATA_SLAVE` -/
def ataSlave : Nat := 1

/-- `ATA_PRIMARY_IRQ` -/
def ataPrimaryIrq : Nat := 14

/-- `ATA_SECONDARY_IRQ` -/
def ataSecondaryIrq : Nat := 15

/-- The first port of a channel: `ATA_PRIMARY_IO` or `ATA_SECONDARY_IO`. -/
def ioBase (channel : Nat) : Nat := if channel = ataPrimary then 0x1F0 else 0x170

/-- `ATA_REG_STATUS` -/
def ataRegStatus : Nat := 7

/-- `ata_pio_clear_status` -/
def ataPioClearStatus (dev : IdeDevice) : List PortAccess :=
  [.inportb (ioBase dev.channel + ataRegStatus)]

/-- The index of a drive in `ide_devices`. -/
def ideIndex (channel drive : Nat) : Nat := channel <<< 1 ||| drive

/-! ## The interrupt handlers -/

/-- One turn of the loop of an interrupt handler over the drives of its channel. -/
def signalDrive (channel drive : Nat) (devs : Nat → IdeDevice) :
    (Nat → IdeDevice) × List PortAccess :=
  let dev := devs (ideIndex channel drive)
  if dev.irqExpected then
    (Function.update devs (ideIndex channel drive) { dev with irqFired := true },
      ataPioClearStatus dev)
  else (devs, [])

/-- The body of the two interrupt handlers: the loop over the drives of the channel, then the
acknowledgement, for which they give the number of the line and not that of the interrupt. -/
def ataIrqHandle (channel irq : Nat) (devs : Nat → IdeDevice) :
    (Nat → IdeDevice) × List PortAccess :=
  let master := signalDrive channel ataMaster devs
  let slave := signalDrive channel ataSlave master.1
  (slave.1, master.2 ++ slave.2 ++ irEoi irq)

/-- `ata_primary_irq_handle` -/
def ataPrimaryIrqHandle : (Nat → IdeDevice) → (Nat → IdeDevice) × List PortAccess :=
  ataIrqHandle ataPrimary ataPrimaryIrq

/-- `ata_secondary_irq_handle` -/
def ataSecondaryIrqHandle : (Nat → IdeDevice) → (Nat → IdeDevice) × List PortAccess :=
  ataIrqHandle ataSecondary ataSecondaryIrq

/-- Telling a drive that its interrupt came writes to no port. -/
theorem count_signalDrive (channel drive port value : Nat) (devs : Nat → IdeDevice) :
    (signalDrive channel drive devs).2.count (.outportb port value) = 0 := by
  unfold signalDrive
  dsimp only
  split
  · exact List.count_eq_zero.mpr fun h => nomatch List.mem_singleton.mp h
  · rfl

/-- What a handler of the IDE driver writes, it writes to acknowledge the interrupt. -/
theorem count_ataIrqHandle (channel irq port value : Nat) (devs : Nat → IdeDevice) :
    (ataIrqHandle channel irq devs).2.count (.outportb port value)
      = (irEoi irq).count (.outportb port value) := by
  unfold ataIrqHandle
  rw [List.count_append, List.count_append, count_signalDrive, count_signalDrive, Nat.zero_add]

end Xylophone
