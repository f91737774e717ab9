import Mathlib.Data.Nat.Digits.Defs
import Xylophone.Drivers.AtaPio
import Xylophone.Drivers.EndOfInterrupt
import Xylophone.Storage.Manager
import Xylophone.Strings.Trim

/-!
# Finding the drives

`ide_pci_probe` asks the four drives who they are, and adds a controller to the storage manager for
each that answers. It does not look at which PCI device it is called for, so the drives are added
again by every IDE device, until the manager is full.

* `trim_model` — the name of a drive
* `ataPioInitDrive_spec` — what the identification of a drive comes to
* `drives_listed` — the drives and the controllers after any calls
-/

namespace Xylophone

open Infra Memory

/-! ## Identification -/

/-- `ATA_CMD_IDENTIFY` -/
def ataCmdIdentify : Nat := 0xEC

/-- `ATA_IDENT_DEVICETYPE` -/
def ataIdentDevicetype : Nat := 0

/-- `ATA_IDENT_MODEL` -/
def ataIdentModel : Nat := 54

/-- `ATA_IDENT_COMMANDSETS` -/
def ataIdentCommandsets : Nat := 164

/-- `ATA_IDENT_MAX_LBA` -/
def ataIdentMaxLba : Nat := 120

/-- `ATA_IDENT_MAX_LBA_EXT` -/
def ataIdentMaxLbaExt : Nat := 200

/-- `ide_device_t`, with what the identification writes. The name is the string in `model`. -/
structure IdeRecord extends IdeDevice where
  signature : Nat
  sectorCount : Nat
  model : List Nat
  identifyData : List Nat

/-- The record that `memset` leaves. -/
def noDrive : IdeRecord := ⟨⟨0, 0, 0, 0, 0, false, false⟩, 0, 0, [], List.replicate 512 0⟩

/-- What a drive and its channel answer while the drive is identified. The registers are bytes. -/
structure IdentifyResponse where
  /-- The status and the error register read when the drive is selected. -/
  selectStatus : Nat
  selectError : Nat
  /-- The status register read after the command, twice. -/
  status : Nat
  statusAgain : Nat
  /-- The status register, as often as the loop reads it. -/
  polled : List Nat
  /-- The words of the data register. -/
  data : Nat → Nat

/-- The loop over the status is left. -/
def statusEnds (status : Nat) : Bool := srErr status || srDrq status

/-- The loop over the status, and its reads. -/
def pollStatus (io : Nat) : List Nat → Option (Nat × List IoEvent)
  | [] => none
  | status :: polled =>
    if statusEnds status then some (status, [inportb (io + ataRegStatus)])
    else (pollStatus io polled).map fun p => (p.1, inportb (io + ataRegStatus) :: p.2)

/-- The bytes of `identify_data`. -/
def identifyBytes (data : Nat → Nat) : List Nat :=
  (List.range 256).flatMap fun i => [data i % 0x100, data i / 0x100 % 0x100]

/-- A field of `identify_data`, of some bytes from an offset on. -/
def identField (bytes : List Nat) (offset width : Nat) : Nat :=
  Nat.ofDigits 0x100 ((bytes.drop offset).take width)

/-- The bytes that the loop over `model` copies. -/
def modelBytes (bytes : List Nat) : List Nat :=
  (List.range 20).flatMap fun k =>
    [bytes.getD (ataIdentModel + 2 * k + 1) 0, bytes.getD (ataIdentModel + 2 * k) 0]

/-- The string that the bytes of `model` make, without the blanks around it. -/
def modelName (bytes : List Nat) : List Nat :=
  trimmed ((modelBytes bytes).takeWhile (· ≠ 0))

/-- The record that the identification fills. -/
def fillRecord (dev : IdeRecord) (data : Nat → Nat) : IdeRecord :=
  let bytes := identifyBytes data
  let commandSets := identField bytes ataIdentCommandsets 4
  { dev with
    identifyData := bytes
    model := modelName bytes
    signature := identField bytes ataIdentDevicetype 2
    commandSets := commandSets
    sectorCount :=
      if commandSets.testBit 26 then identField bytes ataIdentMaxLbaExt 8
      else identField bytes ataIdentMaxLba 4
    sectorSize := 512
    irqExpected := false
    irqFired := false }

/-- What `ata_pio_init_drive` leaves: the code it returns, the record and what was done. -/
structure InitResult where
  code : Nat
  dev : IdeRecord
  events : List IoEvent

/-- `ata_pio_init_drive`, with a record to fill. There is no result while the status is polled. -/
def ataPioInitDrive (channel drive : Nat) (dev : IdeRecord) (resp : IdentifyResponse) :
    Option InitResult :=
  let io := ioBase channel
  let sent :=
    (ataPioSelectDrive channel drive resp.selectStatus resp.selectError).2
      ++ [outportb (io + ataRegSeccount0) 0,
        outportb (io + ataRegLba0) 0,
        outportb (io + ataRegLba1) 0,
        outportb (io + ataRegLba2) 0,
        outportb (io + ataRegCommand) ataCmdIdentify,
        inportb (io + ataRegStatus)]
  if resp.status = 0 then some ⟨3, noDrive, sent⟩
  else
    let sent := sent ++ [inportb (io + ataRegStatus)]
    if resp.statusAgain = 0 ∨ resp.statusAgain = 0xFF then some ⟨1, noDrive, sent⟩
    else (pollStatus io resp.polled).map fun p =>
      if srErr p.1 then ⟨1, noDrive, sent ++ p.2⟩
      else
        ⟨0, fillRecord { dev with channel := channel, drive := drive } resp.data, sent ++ p.2
          ++ (List.range 256).map fun i => .wordIn (io + ataRegData) (2 * i)⟩

namespace IdentifyResponse

/-- The drive is found to be absent, or at some time it reports an error or has data. -/
def Answers (resp : IdentifyResponse) : Prop :=
  resp.status = 0 ∨ resp.statusAgain = 0 ∨ resp.statusAgain = 0xFF ∨
    ∃ status ∈ resp.polled, statusEnds status

/-- The first status of the loop that ends it has data and no error. -/
def identified (resp : IdentifyResponse) : Bool :=
  resp.status != 0 && resp.statusAgain != 0 && resp.statusAgain != 0xFF &&
    (resp.polled.find? statusEnds).any fun status => !srErr status

end IdentifyResponse

variable {m : Memory} {a : Nat} {bytes : List Nat} {channel drive : Nat} {dev : IdeRecord}
  {resp : IdentifyResponse}

theorem pollStatus_eq (io : Nat) (polled : List Nat) :
    (pollStatus io polled).map Prod.fst = polled.find? statusEnds := by
  induction polled with
  | nil => rfl
  | cons status polled ih =>
    rw [pollStatus]
    by_cases hends : statusEnds status = true
    · rw [if_pos hends, List.find?_cons_of_pos hends]
      rfl
    · rw [if_neg hends, List.find?_cons_of_neg hends, ← ih, Option.map_map]
      rfl

/-- What an identification comes to. -/
structure Inits (channel drive : Nat) (dev : IdeRecord) (resp : IdentifyResponse)
    (r : InitResult) : Prop where
  code : r.code = 0 ↔ resp.identified = true
  dev : r.dev =
    if resp.identified then fillRecord { dev with channel := channel, drive := drive } resp.data
    else noDrive

theorem ataPioInitDrive_spec (channel drive : Nat) (dev : IdeRecord) (resp : IdentifyResponse) :
    ((∃ r, ataPioInitDrive channel drive dev resp = some r) ↔ resp.Answers) ∧
      ∀ r, ataPioInitDrive channel drive dev resp = some r → Inits channel drive dev resp r := by
  have hpoll := pollStatus_eq (ioBase channel) resp.polled
  unfold ataPioInitDrive
  dsimp only
  by_cases hstatus : resp.status = 0
  · have hnot : resp.identified = false := by simp [IdentifyResponse.identified, hstatus]
    rw [if_pos hstatus]
    refine ⟨⟨fun _ => .inl hstatus, fun _ => ⟨_, rfl⟩⟩, ?_⟩
    rintro r ⟨⟩
    exact ⟨by simp [hnot], by simp [hnot]⟩
  rw [if_neg hstatus]
  by_cases hagain : resp.statusAgain = 0 ∨ resp.statusAgain = 0xFF
  · have hnot : resp.identified = false := by
      rcases hagain with hagain | hagain <;> simp [IdentifyResponse.identified, hagain]
    rw [if_pos hagain]
    refine ⟨⟨fun _ => .inr (or_assoc.mp (.inl hagain)), fun _ => ⟨_, rfl⟩⟩, ?_⟩
    rintro r ⟨⟩
    exact ⟨by simp [hnot], by simp [hnot]⟩
  rw [if_neg hagain]
  obtain ⟨hzero, hfloating⟩ := not_or.mp hagain
  have hidentified : resp.identified =
      (resp.polled.find? statusEnds).any fun status => !srErr status := by
    simp [IdentifyResponse.identified, hstatus, hzero, hfloating]
  have hanswers : resp.Answers ↔ ∃ status ∈ resp.polled, statusEnds status := by
    simp [IdentifyResponse.Answers, hstatus, hzero, hfloating]
  rw [hanswers, ← List.find?_isSome, ← hpoll]
  rw [← hpoll] at hidentified
  cases hp : pollStatus (ioBase channel) resp.polled with
  | none => simp
  | some p =>
    rw [hp] at hidentified
    refine ⟨⟨fun _ => rfl, fun _ => ⟨_, rfl⟩⟩, ?_⟩
    rintro r ⟨⟩
    have hvalue : resp.identified = !srErr p.1 := hidentified
    dsimp only
    by_cases herr : srErr p.1 = true
    · have hnot : resp.identified = false := by rw [hvalue, herr]; rfl
      rw [if_pos herr]
      exact ⟨by simp [hnot], by simp [hnot]⟩
    · have hyes : resp.identified = true := by
        rw [hvalue, Bool.eq_false_of_not_eq_true herr]
        rfl
      rw [if_neg herr]
      exact ⟨by simp [hyes], by simp [hyes]⟩

/-! ## The name -/

theorem holdsString_takeWhile {l : List Nat}
    (hchars : ∀ i (h : i < l.length), m.read8 (a + i) = l[i])
    (hstop : m.read8 (a + l.length) = 0) (hshort : l.length + 1 < 0x80000000)
    (hfits : a + l.length < 0x100000000) : HoldsString m a (l.takeWhile (· ≠ 0)) := by
  have hparts : l.takeWhile (· ≠ 0) ++ l.dropWhile (· ≠ 0) = l := List.takeWhile_append_dropWhile
  have hlen : (l.takeWhile (· ≠ 0)).length ≤ l.length := (List.takeWhile_prefix _).length_le
  have hnonzero : ∀ c ∈ l.takeWhile (· ≠ 0), c ≠ 0 := fun c hc => by
    simpa using List.mem_takeWhile_imp hc
  refine ⟨fun i hi => ?_, ?_, hnonzero, by omega, by omega⟩
  · rw [hchars i (by omega)]
    exact (List.IsPrefix.getElem (List.takeWhile_prefix _) hi).symm
  · cases hrest : l.dropWhile (· ≠ 0) with
    | nil =>
      rw [hrest, List.append_nil] at hparts
      rw [hparts, hstop]
    | cons c rest =>
      -- the byte where the string ends is the first 0
      have hzero : c = 0 := by
        have hnot := List.head?_dropWhile_not (· ≠ 0) l
        rw [hrest] at hnot
        simpa using hnot
      rw [hrest] at hparts
      have hlt : (l.takeWhile (· ≠ 0)).length < l.length := by
        conv_rhs => rw [← hparts]
        simp
      rw [hchars _ hlt]
      have hat : (l.takeWhile (· ≠ 0) ++ c :: rest)[(l.takeWhile (· ≠ 0)).length]? = some c := by
        simp
      rw [hparts] at hat
      exact (List.getElem?_eq_some_iff.mp hat).2.trans hzero

theorem modelBytes_length (bytes : List Nat) : (modelBytes bytes).length = 40 := by
  simp [modelBytes]

/-- **The name of a drive** is what `trim` makes of the bytes of `model`, whose last one is 0. -/
theorem trim_model (hchars : ∀ i (h : i < (modelBytes bytes).length),
      m.read8 (a + i) = (modelBytes bytes)[i])
    (hstop : m.read8 (a + 40) = 0) (ha : a ≠ 0) (hfits : a + 40 < 0x100000000) :
    ∃ m', trim m a = some m' ∧ HoldsString m' a (modelName bytes) := by
  have hlen := modelBytes_length bytes
  have hholds : HoldsString m a ((modelBytes bytes).takeWhile (· ≠ 0)) :=
    holdsString_takeWhile hchars (by rw [hlen, hstop]) (by omega) (by omega)
  obtain ⟨m', htrim, hname, -, -⟩ := trim_holds hholds ha
  exact ⟨m', htrim, hname⟩

/-! ## The controllers -/

section Controllers

variable (devices ops : Nat)

/-- The controller that `ide_pci_probe` adds for a drive, where `ide_devices` is at `devices` and
`ide_ops` at `ops`. -/
def ideController (idx : Nat) : StorageController where
  name := devices + 592 * idx + 28
  impl := devices + 592 * idx
  ops := ops
  flags := 0
  uid := 0xFFFFFFFF

/-- The controllers of drives that were added one after the other to an empty manager. -/
def listed (l : List Nat) : List StorageController :=
  ((l.take storageManagerMaxControllers).zipIdx 1).map fun p =>
    { ideController devices ops p.1 with uid := p.2 }

/-- The manager has the controllers of these drives, and no others. -/
structure Lists (sm : StorageManager) (l : List Nat) : Prop where
  isInitialized : sm.isInitialized = true
  present : sm.present = listed devices ops l
  next : sm.nextControllerUid = (l.take storageManagerMaxControllers).length + 1

variable {devices ops} {sm : StorageManager} {l : List Nat}

theorem Lists.count (h : Lists devices ops sm l) :
    sm.controllerCount = (l.take storageManagerMaxControllers).length := by
  rw [← sm.length_present, h.present, listed, List.length_map, List.length_zipIdx]

theorem Lists.add (h : Lists devices ops sm l) (idx : Nat) :
    Lists devices ops (sm.addController (ideController devices ops idx)).2 (l ++ [idx]) := by
  have hcount := h.count
  have hlength : (l.take storageManagerMaxControllers).length = min 8 l.length := List.length_take
  by_cases hroom : l.length < storageManagerMaxControllers
  · have htake : l.take storageManagerMaxControllers = l := List.take_of_length_le hroom.le
    have htake' : (l ++ [idx]).take storageManagerMaxControllers = l ++ [idx] :=
      List.take_of_length_le (by rw [List.length_append, List.length_singleton]; exact hroom)
    have hnew : StorageManager.indexOf sm.controllers 0xFFFFFFFF sm.controllerCount 0 = none := by
      refine StorageManager.indexOf_eq_none.mpr fun k _ hk huid => ?_
      have hmem : sm.controllers k ∈ sm.present :=
        StorageManager.mem_present.mpr ⟨k, by omega, rfl⟩
      rw [h.present] at hmem
      obtain ⟨⟨j, uid⟩, hj, hcontroller⟩ := List.mem_map.mp hmem
      have hle := (List.mem_zipIdx hj).2.1
      rw [← hcontroller] at huid
      have huid' : uid = 0xFFFFFFFF := huid
      omega
    have hok : (sm.addController (ideController devices ops idx)).1 = .ok := by
      unfold StorageManager.addController
      rw [if_neg (by simp [h.isInitialized]), if_neg (by rw [hcount, htake]; omega)]
      have hindex : StorageManager.indexOf sm.controllers (ideController devices ops idx).uid
          sm.controllerCount 0 = none := hnew
      rw [hindex]
      rfl
    obtain ⟨hpresent, hnext, hinit⟩ := StorageManager.addController_present hok
    have hlt : l.length < 8 := hroom
    rw [htake] at hcount
    refine ⟨hinit.trans h.isInitialized, ?_, ?_⟩
    · rw [hpresent, h.present, h.next, listed, listed, htake, htake', List.zipIdx_append,
        List.map_append, Nat.add_comm l.length 1]
      rfl
    · rw [hnext, h.next, htake, htake', List.length_append, List.length_singleton,
        wrap32_of_lt (by omega)]
  · have hfull : storageManagerMaxControllers ≤ l.length := Nat.le_of_not_lt hroom
    have htake : (l ++ [idx]).take storageManagerMaxControllers =
        l.take storageManagerMaxControllers := List.take_append_of_le_length hfull
    have hrefused : (sm.addController (ideController devices ops idx)).1 ≠ .ok := by
      have hle : storageManagerMaxControllers ≤ sm.controllerCount := by
        have hmax : storageManagerMaxControllers = 8 := rfl
        omega
      unfold StorageManager.addController
      rw [if_neg (by simp [h.isInitialized]), if_pos hle]
      intro hok
      cases hok
    rw [StorageManager.addController_refused hrefused]
    exact ⟨h.isInitialized, by rw [h.present, listed, listed, htake], by rw [h.next, htake]⟩

end Controllers

/-! ## What comes to an end -/

theorem map_ends {α β : Type} {x : Option α} {f : α → β} :
    (∃ b, x.map f = some b) ↔ ∃ a, x = some a := by
  constructor
  · rintro ⟨b, h⟩
    obtain ⟨a, ha, -⟩ := Option.map_eq_some_iff.mp h
    exact ⟨a, ha⟩
  · rintro ⟨a, rfl⟩
    exact ⟨f a, rfl⟩

theorem bind_ends {α β : Type} {x : Option α} {f : α → Option β} {P : Prop}
    (hf : ∀ a, (∃ b, f a = some b) ↔ P) :
    (∃ b, x.bind f = some b) ↔ (∃ a, x = some a) ∧ P := by
  constructor
  · rintro ⟨b, h⟩
    obtain ⟨a, ha, hb⟩ := Option.bind_eq_some_iff.mp h
    exact ⟨⟨a, ha⟩, (hf a).mp ⟨b, hb⟩⟩
  · rintro ⟨⟨a, rfl⟩, hP⟩
    exact (hf a).mpr hP

/-! ## The probe -/

/-- The drives, the storage manager and the table of handles. -/
structure IdeState where
  handles : InterruptsHandles
  records : Nat → IdeRecord
  storage : StorageManager

/-- A call of `ide_pci_probe`: the class of the PCI device, and what each drive answers. -/
structure PciProbe where
  classCode : Nat
  subclassCode : Nat
  resp : Nat → IdentifyResponse

/-- The device is an IDE controller. -/
def PciProbe.isIde (p : PciProbe) : Bool := p.classCode = 0x1 && p.subclassCode = 0x1

/-- The turns of the two loops over the channels and their drives. -/
def ideDrives : List (Nat × Nat) :=
  [(ataPrimary, ataMaster), (ataPrimary, ataSlave), (ataSecondary, ataMaster),
    (ataSecondary, ataSlave)]

section Probe

variable (devices ops : Nat)

/-- The body of the loops. -/
def probeDrive (resp : Nat → IdentifyResponse) (channel drive : Nat) (s : IdeState) :
    Option IdeState :=
  let devIdx := ideIndex channel drive
  (ataPioInitDrive channel drive (s.records devIdx) (resp devIdx)).map fun r =>
    let s := { s with records := Function.update s.records devIdx r.dev }
    if r.code ≠ 0 then s
    else { s with storage := (s.storage.addController (ideController devices ops devIdx)).2 }

/-- The turns of the loops that are left. -/
def probeDrives (resp : Nat → IdentifyResponse) : List (Nat × Nat) → IdeState → Option IdeState
  | [], s => some s
  | (channel, drive) :: drives, s =>
    (probeDrive devices ops resp channel drive s).bind (probeDrives resp drives)

/-- `ide_pci_probe` -/
def idePciProbe (p : PciProbe) (s : IdeState) : Option (Nat × IdeState) :=
  if p.classCode ≠ 0x1 ∨ p.subclassCode ≠ 0x1 then some (1, s)
  else
    (probeDrives devices ops p.resp ideDrives { s with handles := ideHandles s.handles }).map
      fun s => (0, s)

/-- Calls of `ide_pci_probe`, one after the other. -/
def probeAll : List PciProbe → IdeState → Option IdeState
  | [], s => some s
  | p :: calls, s => (idePciProbe devices ops p s).bind fun r => probeAll calls r.2

end Probe

/-- The record of a drive that identified itself. -/
def driveRecord (channel drive : Nat) (data : Nat → Nat) : IdeRecord :=
  fillRecord { noDrive with channel := channel, drive := drive } data

/-- The record of a drive after it was asked. -/
def foundRecord (channel drive : Nat) (resp : IdentifyResponse) : IdeRecord :=
  if resp.identified then driveRecord channel drive resp.data else noDrive

/-- Those of these drives that identify themselves. -/
def found (resp : Nat → IdentifyResponse) (drives : List (Nat × Nat)) : List Nat :=
  (drives.map fun d => ideIndex d.1 d.2).filter fun idx => (resp idx).identified

/-- The records after these drives were asked. -/
def recordsAfter (resp : Nat → IdentifyResponse) (drives : List (Nat × Nat))
    (records : Nat → IdeRecord) : Nat → IdeRecord :=
  drives.foldl (fun records d =>
    Function.update records (ideIndex d.1 d.2)
      (foundRecord d.1 d.2 (resp (ideIndex d.1 d.2)))) records

/-- No transfer has been started. -/
def NoTransfers (s : IdeState) : Prop := ∀ idx, (s.records idx).controllerStatus = 0

variable {devices ops : Nat} {s s' : IdeState} {answers : Nat → IdentifyResponse}
  {drives : List (Nat × Nat)} {p : PciProbe} {calls prev : List PciProbe}

theorem foundRecord_status (channel drive : Nat) (resp : IdentifyResponse) :
    (foundRecord channel drive resp).controllerStatus = 0 := by
  unfold foundRecord
  split <;> rfl

theorem fillRecord_of_status (hidle : dev.controllerStatus = 0) (channel drive : Nat)
    (data : Nat → Nat) :
    fillRecord { dev with channel := channel, drive := drive } data =
      driveRecord channel drive data := by
  simp only [driveRecord, fillRecord, noDrive, hidle]

/-- What is left by a probe of some drives that comes to an end: those that were found have been
added, and the records are written. -/
structure Probes (devices ops : Nat) (resp : Nat → IdentifyResponse) (drives : List (Nat × Nat))
    (s s' : IdeState) : Prop where
  records : s'.records = recordsAfter resp drives s.records
  lists : ∀ l, Lists devices ops s.storage l →
    Lists devices ops s'.storage (l ++ found resp drives)

theorem probeDrive_ends (devices ops : Nat) (s : IdeState) (channel drive : Nat) :
    (∃ s', probeDrive devices ops answers channel drive s = some s') ↔
      (answers (ideIndex channel drive)).Answers := by
  rw [← (ataPioInitDrive_spec channel drive (s.records (ideIndex channel drive)) _).1]
  exact map_ends

theorem probeDrive_spec {channel drive : Nat} (hidle : NoTransfers s)
    (h : probeDrive devices ops answers channel drive s = some s') :
    Probes devices ops answers [(channel, drive)] s s' := by
  unfold probeDrive at h
  dsimp only at h
  obtain ⟨r, hr, rfl⟩ := Option.map_eq_some_iff.mp h
  have hspec := (ataPioInitDrive_spec channel drive _ _).2 r hr
  have hdev : r.dev = foundRecord channel drive (answers (ideIndex channel drive)) := by
    rw [hspec.dev, fillRecord_of_status (hidle _)]
    rfl
  by_cases hcode : r.code = 0
  · have hyes := hspec.code.mp hcode
    have hfound : found answers [(channel, drive)] = [ideIndex channel drive] := by
      simp [found, hyes]
    rw [if_neg (not_not.mpr hcode)]
    refine ⟨by rw [hdev]; rfl, fun l hl => ?_⟩
    rw [hfound]
    exact hl.add _
  · have hnot : ¬(answers (ideIndex channel drive)).identified = true :=
      fun hyes => hcode (hspec.code.mpr hyes)
    have hfound : found answers [(channel, drive)] = [] := by simp [found, hnot]
    rw [if_pos hcode]
    refine ⟨by rw [hdev]; rfl, fun l hl => ?_⟩
    rw [hfound, List.append_nil]
    exact hl

theorem recordsAfter_noTransfers {records : Nat → IdeRecord}
    (hidle : ∀ idx, (records idx).controllerStatus = 0) (idx : Nat) :
    (recordsAfter answers drives records idx).controllerStatus = 0 := by
  induction drives generalizing records with
  | nil => exact hidle idx
  | cons d drives ih =>
    refine ih fun k => ?_
    dsimp only
    by_cases hk : k = ideIndex d.1 d.2
    · rw [hk, Function.update_self]
      exact foundRecord_status _ _ _
    · rw [Function.update_of_ne hk]
      exact hidle k

theorem Probes.noTransfers {resp : Nat → IdentifyResponse} (h : Probes devices ops resp drives s s')
    (hidle : NoTransfers s) : NoTransfers s' := fun idx => by
  rw [h.records]
  exact recordsAfter_noTransfers hidle idx

theorem found_cons (resp : Nat → IdentifyResponse) (d : Nat × Nat) (drives : List (Nat × Nat)) :
    found resp (d :: drives) = found resp [d] ++ found resp drives := by
  rw [found, List.map_cons, ← List.singleton_append, List.filter_append]
  rfl

theorem probeDrives_spec (hidle : NoTransfers s)
    (h : probeDrives devices ops answers drives s = some s') :
    Probes devices ops answers drives s s' := by
  induction drives generalizing s with
  | nil =>
    obtain rfl := Option.some.inj h
    exact ⟨rfl, fun l hl => by rw [found, List.map_nil, List.filter_nil, List.append_nil]; exact hl⟩
  | cons d drives ih =>
    obtain ⟨s₁, hs₁, hrest⟩ := Option.bind_eq_some_iff.mp h
    have hfirst := probeDrive_spec hidle hs₁
    have hthen := ih (hfirst.noTransfers hidle) hrest
    refine ⟨by rw [hthen.records, hfirst.records]; rfl, fun l hl => ?_⟩
    rw [found_cons, ← List.append_assoc]
    exact hthen.lists _ (hfirst.lists l hl)

theorem probeDrives_ends (devices ops : Nat) (s : IdeState) :
    (∃ s', probeDrives devices ops answers drives s = some s') ↔
      ∀ d ∈ drives, (answers (ideIndex d.1 d.2)).Answers := by
  induction drives generalizing s with
  | nil => exact iff_of_true ⟨s, rfl⟩ (List.forall_mem_nil _)
  | cons d drives ih =>
    rw [List.forall_mem_cons, ← probeDrive_ends devices ops s]
    exact bind_ends ih

/-! ## Runs -/

/-- The calls for IDE controllers. -/
def ideCalls (calls : List PciProbe) : List PciProbe := calls.filter PciProbe.isIde

/-- The drives that identify themselves in a call. -/
def PciProbe.identified (p : PciProbe) : List Nat :=
  (List.range 4).filter fun idx => (p.resp idx).identified

/-- The record of a drive after these calls: the last one for an IDE controller decides. -/
def recordAfter (calls : List PciProbe) (idx : Nat) : IdeRecord :=
  match (ideCalls calls).getLast? with
  | none => noDrive
  | some p => foundRecord (idx / 2) (idx % 2) (p.resp idx)

/-- The drives and the manager after these calls. -/
structure Enumerated (devices ops : Nat) (calls : List PciProbe) (s : IdeState) : Prop where
  noTransfers : NoTransfers s
  lists : Lists devices ops s.storage ((ideCalls calls).flatMap PciProbe.identified)
  records : ∀ idx < 4, s.records idx = recordAfter calls idx

theorem isIde_iff : ¬(p.classCode ≠ 0x1 ∨ p.subclassCode ≠ 0x1) ↔ p.isIde = true := by
  simp [PciProbe.isIde]

theorem found_ideDrives (p : PciProbe) : found p.resp ideDrives = p.identified := rfl

theorem recordsAfter_ideDrives (records : Nat → IdeRecord) {idx : Nat} (hidx : idx < 4) :
    recordsAfter answers ideDrives records idx =
      foundRecord (idx / 2) (idx % 2) (answers idx) := by
  obtain rfl | rfl | rfl | rfl : idx = 0 ∨ idx = 1 ∨ idx = 2 ∨ idx = 3 := by omega
  all_goals rfl

theorem forall_ideDrives {P : Nat → Prop} :
    (∀ d ∈ ideDrives, P (ideIndex d.1 d.2)) ↔ ∀ idx < 4, P idx := by
  constructor
  · intro h idx hidx
    obtain rfl | rfl | rfl | rfl : idx = 0 ∨ idx = 1 ∨ idx = 2 ∨ idx = 3 := by omega
    · exact h (ataPrimary, ataMaster) (by decide)
    · exact h (ataPrimary, ataSlave) (by decide)
    · exact h (ataSecondary, ataMaster) (by decide)
    · exact h (ataSecondary, ataSlave) (by decide)
  · intro h d hd
    refine h _ ?_
    revert d
    decide

theorem Enumerated.step (h : Enumerated devices ops prev s) {code : Nat}
    (hcall : idePciProbe devices ops p s = some (code, s')) :
    Enumerated devices ops (prev ++ [p]) s' := by
  unfold idePciProbe at hcall
  by_cases hide : p.isIde = true
  · rw [if_neg (isIde_iff.mpr hide)] at hcall
    obtain ⟨s₁, hs₁, heq⟩ := Option.map_eq_some_iff.mp hcall
    obtain rfl : s₁ = s' := congrArg Prod.snd heq
    have hcalls : ideCalls (prev ++ [p]) = ideCalls prev ++ [p] := by
      simp [ideCalls, List.filter_append, hide]
    have hidle : NoTransfers { s with handles := ideHandles s.handles } := h.noTransfers
    have hprobes := probeDrives_spec hidle hs₁
    refine ⟨hprobes.noTransfers hidle, ?_, fun idx hidx => ?_⟩
    · rw [hcalls, List.flatMap_append, List.flatMap_singleton, ← found_ideDrives]
      exact hprobes.lists _ h.lists
    · rw [hprobes.records, recordsAfter_ideDrives _ hidx, recordAfter, hcalls,
        List.getLast?_concat]
  · rw [if_pos (Classical.not_not.mp (mt isIde_iff.mp hide))] at hcall
    obtain rfl : s = s' := congrArg Prod.snd (Option.some.inj hcall)
    have hcalls : ideCalls (prev ++ [p]) = ideCalls prev := by
      simp [ideCalls, List.filter_append, hide]
    refine ⟨h.noTransfers, by rw [hcalls]; exact h.lists, fun idx hidx => ?_⟩
    rw [h.records idx hidx, recordAfter, recordAfter, hcalls]

theorem Enumerated.run (h : Enumerated devices ops prev s)
    (hrun : probeAll devices ops calls s = some s') :
    Enumerated devices ops (prev ++ calls) s' := by
  induction calls generalizing prev s with
  | nil =>
    obtain rfl := Option.some.inj hrun
    rw [List.append_nil]
    exact h
  | cons p calls ih =>
    obtain ⟨⟨code, s₁⟩, hs₁, hrest⟩ := Option.bind_eq_some_iff.mp hrun
    rw [List.append_cons]
    exact ih (h.step hs₁) hrest

theorem idePciProbe_ends (devices ops : Nat) (s : IdeState) :
    (∃ r, idePciProbe devices ops p s = some r) ↔
      (p.isIde = true → ∀ idx < 4, (p.resp idx).Answers) := by
  unfold idePciProbe
  by_cases hide : p.isIde = true
  · rw [if_neg (isIde_iff.mpr hide), ← forall_ideDrives (P := fun idx => (p.resp idx).Answers),
      ← probeDrives_ends devices ops { s with handles := ideHandles s.handles }]
    exact ⟨fun h _ => map_ends.mp h, fun h => map_ends.mpr (h hide)⟩
  · rw [if_pos (Classical.not_not.mp (mt isIde_iff.mp hide))]
    exact iff_of_true ⟨_, rfl⟩ fun h => absurd h hide

theorem probeAll_ends (devices ops : Nat) (s : IdeState) :
    (∃ s', probeAll devices ops calls s = some s') ↔
      ∀ p ∈ calls, p.isIde = true → ∀ idx < 4, (p.resp idx).Answers := by
  induction calls generalizing s with
  | nil => exact iff_of_true ⟨s, rfl⟩ (List.forall_mem_nil _)
  | cons p calls ih =>
    rw [List.forall_mem_cons, ← idePciProbe_ends devices ops s]
    exact bind_ends fun r => ih r.2

/-! ## Large drives -/

/-- A transfer has failed before anything was done. -/
structure Refused (r : IdeResult) : Prop where
  returned : r.returned = -1
  events : r.events = []

/-- No sector of a drive with 48-bit addresses is transferred. -/
theorem ideTransfer_unsupported {command flag lba n : Nat}
    {finish : IdeDevice → Nat → SectorResponse → IdeDevice × List IoEvent} {device : IdeDevice}
    (h48 : device.commandSets.testBit 26 = true) (hn : 0 < n) (resp : Nat → SectorResponse) :
    Refused (ideTransfer (ataPioSector command finish) flag device lba n resp) := by
  obtain ⟨n, rfl⟩ := Nat.exists_eq_succ_of_ne_zero hn.ne'
  have h48' : (clearFlag (setFlag device (flagBusy ||| flag)) flagError).commandSets.testBit 26 =
      true := h48
  unfold ideTransfer
  simp only [Nat.succ_eq_add_one, ideTransferLoop, ataPioSector, if_pos h48']
  exact ⟨rfl, rfl⟩

/-- A drive refuses to transfer anything if it has 48-bit addresses. -/
def RefusesLarge (s : IdeState) : Prop :=
  ∀ idx, (s.records idx).commandSets.testBit 26 = true → ∀ lba n resp, 0 < n →
    Refused (ideRead (s.records idx).toIdeDevice lba n resp) ∧
      Refused (ideWrite (s.records idx).toIdeDevice lba n resp)

theorem refusesLarge (s : IdeState) : RefusesLarge s := fun _ h48 _ _ resp hn =>
  ⟨ideTransfer_unsupported h48 hn resp, ideTransfer_unsupported h48 hn resp⟩

/-! ## The result -/

/-- The drives before the first call, with the manager set up. -/
def bootIde : IdeState := ⟨serviceHandles, fun _ => noDrive, bootStorage.setup.2⟩

theorem enumerated_bootIde (devices ops : Nat) : Enumerated devices ops [] bootIde :=
  ⟨fun _ => rfl, ⟨rfl, rfl, rfl⟩, fun _ _ => rfl⟩

/-- **Finding the drives.** The calls of `ide_pci_probe` come to an end exactly when every drive
that is there reports at some time that it has data or an error. Then the manager has, for one call
after the other and in the order of the drives, the controllers of those that identified themselves,
numbered from 1 on, up to the eighth; and the records have what was said in the last call. Drives
with 48-bit addresses are among them, though they refuse every transfer. -/
theorem drives_listed (devices ops : Nat) (calls : List PciProbe) :
    ((∃ s, probeAll devices ops calls bootIde = some s) ↔
        ∀ p ∈ calls, p.isIde = true → ∀ idx < 4, (p.resp idx).Answers) ∧
      ∀ s, probeAll devices ops calls bootIde = some s →
        Enumerated devices ops calls s ∧ RefusesLarge s :=
  ⟨probeAll_ends devices ops bootIde, fun s hrun =>
    ⟨(enumerated_bootIde devices ops).run hrun, refusesLarge s⟩⟩

/-- The first drive has data at the second look, and the others are absent. -/
def oneDrive (idx : Nat) : IdentifyResponse :=
  if idx = 0 then
    ⟨0x50, 0, 0x80, 0x80, [0x80, 0x58], fun i => if i = 60 then 0x4000 else 0x2020⟩
  else ⟨0, 0, 0, 0, [], fun _ => 0⟩

/-- Two IDE controllers, and a network card between them: the drive is listed twice. -/
theorem drives_listed_twoControllers : ∃ s,
    probeAll 0xC0110000 0xC0108000 [⟨1, 1, oneDrive⟩, ⟨2, 0, oneDrive⟩, ⟨1, 1, oneDrive⟩] bootIde =
        some s ∧
      s.storage.present =
        [⟨0xC011001C, 0xC0110000, 0xC0108000, 0, 1⟩,
          ⟨0xC011001C, 0xC0110000, 0xC0108000, 0, 2⟩] := by
  have hanswers : ∀ idx < 4, (oneDrive idx).Answers := by
    intro idx _
    cases idx with
    | zero => exact .inr (.inr (.inr ⟨0x58, by decide, by decide⟩))
    | succ _ => exact .inl rfl
  have hlisted := drives_listed 0xC0110000 0xC0108000
    [⟨1, 1, oneDrive⟩, ⟨2, 0, oneDrive⟩, ⟨1, 1, oneDrive⟩]
  obtain ⟨s, hs⟩ := hlisted.1.mpr fun p hp _ => by
    have hresp : p.resp = oneDrive := by
      simp only [List.mem_cons, List.not_mem_nil, or_false] at hp
      rcases hp with rfl | rfl | rfl <;> rfl
    rw [hresp]
    exact hanswers
  exact ⟨s, hs, (hlisted.2 s hs).1.lists.present⟩

end Xylophone
