import Mathlib.Algebra.Order.Group.Nat
import Xylophone.Drivers.Ide
import Xylophone.Infra.Word

/-!
# Reading and writing sectors

`ide_read` and `ide_write` command the drive once for every sector. What the drive and its channel
answer is a parameter: the registers read, and whether the interrupt comes while it is waited for.
What the functions do is the list of their accesses to ports and to the buffer.

* `ataPioReadSector`, `ataPioWriteSector` — one sector
* `ideRead`, `ideWrite` — all sectors
-/

namespace Xylophone

open Infra

/-! ## Errors -/

/-- `ata_error_t` -/
inductive AtaError where
  | noError | unknown | bsyTimeout | drqTimeout | driveFault | irqTimeout | cmdAborted | badBlock
  | uncorrectable | mediaChanged | idnf | mcr | tk0nf | amnf | unsupported48bit
deriving DecidableEq, Repr

/-- `ATA_REG_DATA` -/
def ataRegData : Nat := 0

/-- `ATA_REG_ERROR` -/
def ataRegError : Nat := 1

/-- `ATA_REG_SECCOUNT0` -/
def ataRegSeccount0 : Nat := 2

/-- `ATA_REG_LBA0` -/
def ataRegLba0 : Nat := 3

/-- `ATA_REG_LBA1` -/
def ataRegLba1 : Nat := 4

/-- `ATA_REG_LBA2` -/
def ataRegLba2 : Nat := 5

/-- `ATA_REG_HDDEVSEL` -/
def ataRegHddevsel : Nat := 6

/-- `ATA_REG_COMMAND` -/
def ataRegCommand : Nat := 7

/-- `ATA_REG_ALTSTATUS` -/
def ataRegAltstatus : Nat := 0x0C

/-- `ATA_CMD_READ_PIO` -/
def ataCmdReadPio : Nat := 0x20

/-- `ATA_CMD_WRITE_PIO` -/
def ataCmdWritePio : Nat := 0x30

/-- `ATA_CMD_CACHE_FLUSH` -/
def ataCmdCacheFlush : Nat := 0xE7

/-- `ATA_SR_ERR` is set. -/
def srErr (status : Nat) : Bool := status.testBit 0

/-- `ATA_SR_DRQ` is set. -/
def srDrq (status : Nat) : Bool := status.testBit 3

/-- `ATA_SR_DF` is set. -/
def srDf (status : Nat) : Bool := status.testBit 5

/-! ## What the code does -/

/-- An access to a port, or a statement that moves a word between the data port and an offset in
the buffer. -/
inductive IoEvent where
  | port (a : PortAccess)
  | wordIn (port offset : Nat)
  | wordOut (offset port : Nat)
deriving DecidableEq, Repr

/-- `outportb`, which takes an 8-bit value. -/
def outportb (port value : Nat) : IoEvent := .port (.outportb port (value % 0x100))

/-- `inportb` -/
def inportb (port : Nat) : IoEvent := .port (.inportb port)

/-- What the drive and its channel answer while a sector is transferred. -/
structure SectorResponse where
  /-- The status and the error register read when the drive is selected. -/
  selectStatus : Nat
  selectError : Nat
  /-- The interrupt of the command comes while it is waited for. -/
  irq : Bool
  /-- The status register read after the interrupt. -/
  status : Nat
  /-- The interrupt of the cache flush comes while it is waited for. -/
  flushIrq : Bool
deriving DecidableEq, Repr

/-- `ata_pio_check_error` -/
def ataPioCheckError (io status error : Nat) : AtaError × List IoEvent :=
  if srDf status then (.driveFault, [inportb (io + ataRegStatus)])
  else if srErr status then
    (if error.testBit 7 then .badBlock
      else if error.testBit 6 then .uncorrectable
      else if error.testBit 5 then .mediaChanged
      else if error.testBit 4 then .idnf
      else if error.testBit 3 then .mcr
      else if error.testBit 2 then .cmdAborted
      else if error.testBit 1 then .tk0nf
      else if error.testBit 0 then .amnf
      else .unknown,
     [inportb (io + ataRegStatus), inportb (io + ataRegError)])
  else (.noError, [inportb (io + ataRegStatus)])

/-- `ata_pio_io_wait` -/
def ataPioIoWait (io : Nat) : List IoEvent :=
  [inportb (io + ataRegAltstatus), inportb (io + ataRegAltstatus),
    inportb (io + ataRegAltstatus), inportb (io + ataRegAltstatus)]

/-- `ata_pio_select_drive` -/
def ataPioSelectDrive (channel drive status error : Nat) : AtaError × List IoEvent :=
  let io := ioBase channel
  let check := ataPioCheckError io status error
  (check.1,
    outportb (io + ataRegHddevsel) (if drive = ataMaster then 0xA0 else 0xB0)
      :: (ataPioIoWait io ++ check.2))

/-- The end of `ata_wait_irq`, after the loop that polls. -/
def ataWaitIrqEnd (dev : IdeDevice) : IdeDevice × AtaError :=
  if dev.irqFired then ({ dev with irqExpected := false, irqFired := false }, .noError)
  else (dev, .irqTimeout)

/-- `ata_wait_irq`, given whether the interrupt comes after the flags are set and before the loop
that polls has ended. -/
def ataWaitIrq (dev : IdeDevice) (irq : Bool) : IdeDevice × AtaError :=
  ataWaitIrqEnd { dev with irqExpected := true, irqFired := irq }

/-- `ata_post_irq_check` -/
def ataPostIrqCheck (io status : Nat) : AtaError × List IoEvent :=
  (if srErr status then .cmdAborted
    else if srDf status then .driveFault
    else if srDrq status then .noError
    else .drqTimeout,
   [inportb (io + ataRegStatus)])

/-- The register writes of both sector functions, up to the command. -/
def ataPioCommand (dev : IdeDevice) (lba command : Nat) (resp : SectorResponse) : List IoEvent :=
  let io := ioBase dev.channel
  (ataPioSelectDrive dev.channel dev.drive resp.selectStatus resp.selectError).2
    ++ outportb (io + ataRegHddevsel) (0xE0 ||| dev.drive <<< 4 ||| (lba >>> 24 &&& 0x0F))
      :: ataPioIoWait io
    ++ [outportb (io + ataRegSeccount0) 1,
      outportb (io + ataRegLba0) lba,
      outportb (io + ataRegLba1) (lba >>> 8),
      outportb (io + ataRegLba2) (lba >>> 16),
      outportb (io + ataRegCommand) command]

/-- What a sector function leaves: the drive's record, the error and what was done. -/
structure SectorResult where
  dev : IdeDevice
  error : AtaError
  events : List IoEvent

/-- The body of both sector functions, for the 256 words from `buf` on. They differ in the command,
and in what they do once the drive has answered it. -/
def ataPioSector (command : Nat)
    (finish : IdeDevice → Nat → SectorResponse → IdeDevice × List IoEvent)
    (dev : IdeDevice) (lba buf : Nat) (resp : SectorResponse) : SectorResult :=
  if dev.commandSets.testBit 26 then ⟨dev, .unsupported48bit, []⟩
  else
    let sent := ataPioCommand dev lba command resp
    let wait := ataWaitIrq dev resp.irq
    if wait.2 ≠ .noError then ⟨wait.1, wait.2, sent⟩
    else
      let check := ataPostIrqCheck (ioBase dev.channel) resp.status
      if check.1 ≠ .noError then ⟨wait.1, check.1, sent ++ check.2⟩
      else
        let last := finish wait.1 buf resp
        ⟨last.1, .noError, sent ++ (check.2 ++ last.2)⟩

/-- The end of `ata_pio_read_sector`: the words come in. -/
def readWords (dev : IdeDevice) (buf : Nat) (_ : SectorResponse) : IdeDevice × List IoEvent :=
  (dev, (List.range 256).map fun i => .wordIn (ioBase dev.channel + ataRegData) (buf + 2 * i))

/-- The end of `ata_pio_write_sector`: the words go out and the cache is flushed. What the wait for
the flush returns is dropped. -/
def writeWords (dev : IdeDevice) (buf : Nat) (resp : SectorResponse) : IdeDevice × List IoEvent :=
  ((ataWaitIrq dev resp.flushIrq).1,
    ((List.range 256).map fun i => .wordOut (buf + 2 * i) (ioBase dev.channel + ataRegData))
      ++ [outportb (ioBase dev.channel + ataRegCommand) ataCmdCacheFlush])

/-- `ata_pio_read_sector` -/
def ataPioReadSector : IdeDevice → Nat → Nat → SectorResponse → SectorResult :=
  ataPioSector ataCmdReadPio readWords

/-- `ata_pio_write_sector` -/
def ataPioWriteSector : IdeDevice → Nat → Nat → SectorResponse → SectorResult :=
  ataPioSector ataCmdWritePio writeWords

/-! ## All sectors -/

/-- `STORAGE_CONTROLLER_FLAG_BUSY` -/
def flagBusy : Nat := 1 <<< 0

/-- `STORAGE_CONTROLLER_FLAG_READING` -/
def flagReading : Nat := 1 <<< 1

/-- `STORAGE_CONTROLLER_FLAG_WRITING` -/
def flagWriting : Nat := 1 <<< 2

/-- `STORAGE_CONTROLLER_FLAG_ERROR` -/
def flagError : Nat := 1 <<< 3

/-- `STORAGE_CONTROLLER_SET_FLAG` -/
def setFlag (dev : IdeDevice) (flag : Nat) : IdeDevice :=
  { dev with controllerStatus := dev.controllerStatus ||| flag }

/-- `STORAGE_CONTROLLER_CLEAR_FLAG` -/
def clearFlag (dev : IdeDevice) (flag : Nat) : IdeDevice :=
  { dev with controllerStatus := dev.controllerStatus &&& (0xFFFFFFFF ^^^ flag) }

/-- What `ide_read` and `ide_write` leave: the drive's record, what was done, and the value
returned. -/
structure IdeResult where
  dev : IdeDevice
  events : List IoEvent
  returned : Int

/-- The loop of `ide_read` and `ide_write` for `n` more sectors from sector `i` on. It tells
whether no sector has failed. -/
def ideTransferLoop (sector : IdeDevice → Nat → Nat → SectorResponse → SectorResult) (lba : Nat)
    (resp : Nat → SectorResponse) :
    Nat → Nat → IdeDevice → List IoEvent → IdeDevice × List IoEvent × Bool
  | 0, _, dev, events => (dev, events, true)
  | n + 1, i, dev, events =>
    let r := sector dev ((lba + i) % 2 ^ 64) (wrap32 (i * dev.sectorSize)) (resp i)
    if r.error ≠ .noError then (r.dev, events ++ r.events, false)
    else ideTransferLoop sector lba resp n (i + 1) r.dev (events ++ r.events)

/-- The body of `ide_read` and `ide_write`. -/
def ideTransfer (sector : IdeDevice → Nat → Nat → SectorResponse → SectorResult) (flag : Nat)
    (dev : IdeDevice) (lba sectorCount : Nat) (resp : Nat → SectorResponse) : IdeResult :=
  let dev := clearFlag (setFlag dev (flagBusy ||| flag)) flagError
  let r := ideTransferLoop sector lba resp sectorCount 0 dev []
  if r.2.2 then ⟨clearFlag r.1 (flagBusy ||| flag), r.2.1, toInt32 sectorCount⟩
  else ⟨clearFlag (setFlag r.1 flagError) (flagBusy ||| flag), r.2.1, -1⟩

/-- `ide_read` -/
def ideRead : IdeDevice → Nat → Nat → (Nat → SectorResponse) → IdeResult :=
  ideTransfer ataPioReadSector flagReading

/-- `ide_write` -/
def ideWrite : IdeDevice → Nat → Nat → (Nat → SectorResponse) → IdeResult :=
  ideTransfer ataPioWriteSector flagWriting

end Xylophone
