import Xylophone.Infra.DepthFirst

/-!
# The PCI bus

`pci_scan_bus` reads the configuration space and records the functions it finds; behind a bridge
it scans the buses of its range at once. The configuration space does not change during the scan,
and the probe functions of drivers return.

* `busLoop` — the loop over the buses behind a bridge, with its 8-bit counter
* `pciScanBus` — the scan of a bus
-/

namespace Xylophone

open Infra

/-! ## Configuration space -/

/-- The words of the configuration space: by bus, slot, function and offset. -/
abbrev ConfigSpace := Nat → Nat → Nat → Nat → Nat

/-- `pci_read32` -/
def pciRead32 (cfg : ConfigSpace) (bus slot func offset : Nat) : Nat :=
  cfg bus (slot &&& 0x1F) (func &&& 0x07) (offset &&& 0xFC)

/-- `pci_read16` -/
def pciRead16 (cfg : ConfigSpace) (bus slot func offset : Nat) : Nat :=
  pciRead32 cfg bus slot func offset >>> ((offset &&& 2) * 8) &&& 0xFFFF

/-- `pci_read8` -/
def pciRead8 (cfg : ConfigSpace) (bus slot func offset : Nat) : Nat :=
  pciRead32 cfg bus slot func offset >>> ((offset &&& 3) * 8) &&& 0xFF

/-- `pci_read_config_block`: the words of the block. -/
def pciReadConfigBlock (cfg : ConfigSpace) (bus slot func size : Nat) : List Nat :=
  (List.range (size / 4)).map fun i => pciRead32 cfg bus slot func (4 * i)

/-! ## Devices and drivers -/

/-- `PCI_MAX_DEVICES` -/
def pciMaxDevices : Nat := 256

/-- `pci_header_type_general` -/
def headerTypeGeneral : Nat := 0

/-- `pci_header_type_pci_to_pci` -/
def headerTypePciToPci : Nat := 1

/-- `pci_header_type_pci_to_card` -/
def headerTypePciToCard : Nat := 2

/-- The size of each of the three headers. -/
def pciHeaderSize : Nat := 64

/-- A function of a device, by its bus, its slot and its number. -/
abbrev PciFunction := Nat × Nat × Nat

/-- `pci_device_t`. The header is a list of words, and the driver the index of its entry. -/
structure PciDevice where
  bus : Nat
  slot : Nat
  function : Nat
  headerType : Nat
  header : List Nat
  driver : Option Nat
deriving DecidableEq, Repr

/-- A byte of the header. -/
def PciDevice.headerByte (dev : PciDevice) (offset : Nat) : Nat :=
  dev.header.getD (offset / 4) 0 >>> (offset % 4 * 8) &&& 0xFF

/-- `header.type1.secondary_bus` -/
def PciDevice.secondaryBus (dev : PciDevice) : Nat := dev.headerByte 0x19

/-- `header.type1.subordinate_bus` -/
def PciDevice.subordinateBus (dev : PciDevice) : Nat := dev.headerByte 0x1A

/-- `header.type0.common.vendor_id` -/
def PciDevice.vendorId (dev : PciDevice) : Nat := dev.headerByte 0 + dev.headerByte 1 * 0x100

/-- `header.type0.common.device_id` -/
def PciDevice.deviceId (dev : PciDevice) : Nat := dev.headerByte 2 + dev.headerByte 3 * 0x100

/-- `header.type0.common.subclass_code` -/
def PciDevice.subclassCode (dev : PciDevice) : Nat := dev.headerByte 0x0A

/-- `header.type0.common.class_code` -/
def PciDevice.classCode (dev : PciDevice) : Nat := dev.headerByte 0x0B

/-- Which function a device is. -/
def PciDevice.key (dev : PciDevice) : PciFunction := (dev.bus, dev.slot, dev.function)

/-- `pci_driver_t`. A driver may have no probe function. -/
structure PciDriver where
  vendorId : Nat
  deviceId : Nat
  classCode : Nat
  subclass : Nat
  probe : Option (PciDevice → Nat)

/-- `PCI_ANY_ID` -/
def pciAnyId : Nat := 0xFFFF

/-- `PCI_ANY_CLASS` -/
def pciAnyClass : Nat := 0xFF

/-- `PCI_ANY_SUBCLASS` -/
def pciAnySubclass : Nat := 0xFF

/-- The tests of `pci_register_device_to_driver` for one driver. -/
def PciDriver.accepts (e : PciDriver) (dev : PciDevice) : Bool :=
  (e.vendorId = pciAnyId || e.vendorId = dev.vendorId) &&
    (e.deviceId = pciAnyId || e.deviceId = dev.deviceId) &&
    (e.classCode = pciAnyClass || e.classCode = dev.classCode) &&
    (e.subclass = pciAnySubclass || e.subclass = dev.subclassCode) &&
    e.probe.any fun probe => probe dev = 0

/-- `pci_register_device_to_driver` -/
def pciRegisterDeviceToDriver (drivers : List PciDriver) (dev : PciDevice) : PciDevice :=
  match drivers.findIdx? fun e => e.accepts dev with
  | none => dev
  | some i => { dev with driver := some i }

/-- `pci_decode_device`, of an entry that is all zero. -/
def pciDecodeDevice (cfg : ConfigSpace) (bus slot func : Nat) : PciDevice where
  bus := bus
  slot := slot
  function := func
  headerType := pciRead8 cfg bus slot func 0x0E &&& 0x7F
  header :=
    if (pciRead8 cfg bus slot func 0x0E &&& 0x7F) ≤ headerTypePciToCard then
      pciReadConfigBlock cfg bus slot func pciHeaderSize
    else List.replicate (pciHeaderSize / 4) 0
  driver := none

/-! ## The scan -/

/-- The variables of `pci.c`. -/
structure PciState where
  /-- The entries of `pci_devices` in use. -/
  devices : List PciDevice
  /-- `pci_scanned_bus` -/
  scannedBus : Nat → Bool
  /-- `pci_decoded` -/
  decoded : PciFunction → Bool

/-- The functions recorded. -/
def PciState.keys (s : PciState) : List PciFunction := s.devices.map PciDevice.key

/-- The loop over the buses behind a bridge: `for (uint8_t b = sec; b <= sub; b++)`. -/
def busLoop (scan : PciState → Nat → Option PciState) (sub : Nat) :
    (fuel : Nat) → (b : Nat) → PciState → Option PciState
  | 0, _, _ => none
  | fuel + 1, b, s =>
    if b ≤ sub then (scan s b).bind fun s => busLoop scan sub fuel ((b + 1) % 0x100) s
    else some s

section

variable (cfg : ConfigSpace) (drivers : List PciDriver)

/-- The device is entered in `pci_devices`, and in `pci_decoded` when its header is known. -/
def PciState.enter (s : PciState) (dev : PciDevice) : PciState :=
  { s with
    devices := s.devices ++ [dev]
    decoded := if dev.headerType ≤ headerTypePciToCard then Function.update s.decoded dev.key true
      else s.decoded }

/-- `pci_register_device`. The loop over the buses of a bridge has `loopFuel` turns. -/
def pciRegisterDevice (scan : PciState → Nat → Option PciState) (loopFuel : Nat) (s : PciState)
    (bus slot func : Nat) : Option PciState :=
  if pciMaxDevices ≤ s.devices.length then some s
  else if s.decoded (bus, slot, func) then some s
  else
    let dev := pciDecodeDevice cfg bus slot func
    let scanned :=
      if dev.headerType = headerTypePciToPci then
        busLoop scan dev.subordinateBus loopFuel dev.secondaryBus (s.enter dev)
      else some (s.enter dev)
    -- the entry keeps its place while the buses behind it are scanned
    scanned.map fun s' => { s' with
      devices := s'.devices.set s.devices.length (pciRegisterDeviceToDriver drivers dev) }

/-- The functions of a slot that the code looks at. -/
def slotFunctions (bus slot : Nat) : Nat :=
  if (pciRead8 cfg bus slot 0 0x0E).testBit 7 then 8 else 1

/-- A turn of the loop of `pci_scan_bus` over the slots. -/
def pciScanSlot (scan : PciState → Nat → Option PciState) (loopFuel bus : Nat) (s : PciState)
    (slot : Nat) : Option PciState :=
  if pciRead16 cfg bus slot 0 0x00 = 0xFFFF then some s
  else (List.range (slotFunctions cfg bus slot)).foldlM (fun s func =>
    if pciRead16 cfg bus slot func 0x00 = 0xFFFF then some s
    else pciRegisterDevice cfg drivers scan loopFuel s bus slot func) s

/-- `pci_scan_bus`. The fuel bounds how deep calls are nested. -/
def pciScanBus (loopFuel : Nat) : (fuel : Nat) → PciState → (bus : Nat) → Option PciState
  | 0, _, _ => none
  | fuel + 1, s, bus =>
    if s.scannedBus bus then some s
    else (List.range 32).foldlM (pciScanSlot cfg drivers (pciScanBus loopFuel fuel) loopFuel bus)
      { s with scannedBus := Function.update s.scannedBus bus true }

end

/-- The variables of `pci.c` when the kernel starts. -/
def pciBoot : PciState := ⟨[], fun _ => false, fun _ => false⟩

end Xylophone
