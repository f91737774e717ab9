import Mathlib.Data.List.FinRange
import Xylophone.Drivers.AtaPio

/-!
# The sectors a drive is commanded to transfer

A drive sees the writes to the registers of its channel: the command, which of the two drives it is
for, and the address of the sector. The address has 28 bits there: eight in each of `LBA0` to `LBA2`
and four in `HDDEVSEL`. The code drops the others, and it computes the offset of a sector in the
buffer as a 32-bit product.

* `ideTransferLoop_observed` — the drive is commanded one sector after the other, up to the first
  that fails, each with the low bits of its address
* `transferCorrect_iff` — these are the right sectors of the right drive, read or written as asked
  for and at the right offsets, exactly when every sector transferred has a number below `2 ^ 28`
  and an offset below `2 ^ 32`
-/

namespace Xylophone

open Infra

/-! ## What a drive sees -/

/-- A command as the drives of a channel get it. -/
structure DriveCommand where
  code : Nat
  /-- Bit 4 of `HDDEVSEL`: the drive that the command is for. -/
  drive : Nat
  /-- Bit 6 of `HDDEVSEL`: the address is the number of a sector. -/
  lba : Bool
  sector : Nat
  count : Nat
deriving DecidableEq, Repr

/-- Which way a word moves. -/
inductive Direction where
  | toBuffer
  | toDrive
deriving DecidableEq, Repr

/-- The registers of a channel, and the last command. -/
structure TaskFile where
  seccount : Nat
  lba0 : Nat
  lba1 : Nat
  lba2 : Nat
  hddevsel : Nat
  last : DriveCommand
deriving DecidableEq, Repr

/-- What happens at the drives of a channel: a command, and a word of the last command that moves to
or from an offset in the buffer. -/
inductive DriveEvent where
  | command (c : DriveCommand)
  | word (direction : Direction) (c : DriveCommand) (offset : Nat)
deriving DecidableEq, Repr

namespace TaskFile

/-- The sector address in the registers. -/
def address (r : TaskFile) : Nat :=
  r.hddevsel % 0x10 * 0x1000000 + r.lba2 * 0x10000 + r.lba1 * 0x100 + r.lba0

/-- What a write of `code` to the command register commands. -/
def command (r : TaskFile) (code : Nat) : DriveCommand where
  code := code
  drive := (r.hddevsel.testBit 4).toNat
  lba := r.hddevsel.testBit 6
  sector := r.address
  count := r.seccount

/-- A write to a register of the channel at `io`. -/
def write (io : Nat) (r : TaskFile) (port value : Nat) : TaskFile × List DriveEvent :=
  if port = io + ataRegSeccount0 then ({ r with seccount := value }, [])
  else if port = io + ataRegLba0 then ({ r with lba0 := value }, [])
  else if port = io + ataRegLba1 then ({ r with lba1 := value }, [])
  else if port = io + ataRegLba2 then ({ r with lba2 := value }, [])
  else if port = io + ataRegHddevsel then ({ r with hddevsel := value }, [])
  else if port = io + ataRegCommand then
    ({ r with last := r.command value }, [.command (r.command value)])
  else (r, [])

/-- What the drives make of an access. -/
def see (io : Nat) (r : TaskFile) : IoEvent → TaskFile × List DriveEvent
  | .port (.outportb port value) => r.write io port value
  | .port (.inportb _) => (r, [])
  | .wordIn port offset =>
    (r, if port = io + ataRegData then [.word .toBuffer r.last offset] else [])
  | .wordOut offset port =>
    (r, if port = io + ataRegData then [.word .toDrive r.last offset] else [])

/-- What the drives make of several accesses. -/
def seeAll (io : Nat) (r : TaskFile) : List IoEvent → TaskFile × List DriveEvent
  | [] => (r, [])
  | e :: es =>
    let first := r.see io e
    let rest := first.1.seeAll io es
    (rest.1, first.2 ++ rest.2)

variable {io : Nat} {r : TaskFile}

theorem seeAll_cons (e : IoEvent) (es : List IoEvent) :
    r.seeAll io (e :: es) = (((r.see io e).1.seeAll io es).1,
      (r.see io e).2 ++ ((r.see io e).1.seeAll io es).2) := rfl

theorem seeAll_append (es fs : List IoEvent) :
    r.seeAll io (es ++ fs) = (((r.seeAll io es).1.seeAll io fs).1,
      (r.seeAll io es).2 ++ ((r.seeAll io es).1.seeAll io fs).2) := by
  induction es generalizing r with
  | nil => rfl
  | cons e es ih => rw [List.cons_append, seeAll_cons, seeAll_cons, ih, List.append_assoc]

/-- Reading registers tells the drives nothing. -/
theorem seeAll_inportb {es : List IoEvent} (h : ∀ e ∈ es, ∃ port, e = inportb port) :
    r.seeAll io es = (r, []) := by
  induction es with
  | nil => rfl
  | cons e es ih =>
    obtain ⟨port, rfl⟩ := h e List.mem_cons_self
    rw [seeAll_cons, show r.see io (inportb port) = (r, []) from rfl,
      ih fun e he => h e (List.mem_cons_of_mem _ he), List.nil_append]

/-- Words that move through the data port. -/
theorem seeAll_words {f : Nat → IoEvent} {direction : Direction} {offset : Nat → Nat}
    (h : ∀ r : TaskFile, ∀ i, r.see io (f i) = (r, [.word direction r.last (offset i)]))
    (l : List Nat) :
    r.seeAll io (l.map f) = (r, l.map fun i => .word direction r.last (offset i)) := by
  induction l with
  | nil => rfl
  | cons i l ih => rw [List.map_cons, seeAll_cons, h, ih, List.map_cons, List.singleton_append]

end TaskFile

/-! ## One sector -/

theorem ataPioCheckError_inportb (io status error : Nat) :
    ∀ e ∈ (ataPioCheckError io status error).2, ∃ port, e = inportb port := by
  intro e he
  unfold ataPioCheckError at he
  split at he
  · exact ⟨_, List.mem_singleton.mp he⟩
  · split at he
    · obtain he | he := List.mem_cons.mp he
      · exact ⟨_, he⟩
      · exact ⟨_, List.mem_singleton.mp he⟩
    · exact ⟨_, List.mem_singleton.mp he⟩

/-- The address that the four registers hold: the low 28 bits. -/
theorem address_of_writes (lba drive : Nat) :
    (0xE0 ||| drive <<< 4 ||| (lba >>> 24 &&& 0x0F)) % 0x100 % 0x10 * 0x1000000
        + (lba >>> 16) % 0x100 * 0x10000 + (lba >>> 8) % 0x100 * 0x100 + lba % 0x100
      = lba % 2 ^ 28 := by
  have hnibble : (0xE0 ||| drive <<< 4 ||| (lba >>> 24 &&& 0x0F)) % 2 ^ 4 = (lba >>> 24) % 2 ^ 4 := by
    rw [Nat.or_mod_two_pow, Nat.or_mod_two_pow, Nat.and_two_pow_sub_one_eq_mod (lba >>> 24) 4,
      Nat.mod_mod, Nat.shiftLeft_eq, Nat.mul_mod_left]
    exact Nat.zero_or _
  rw [Nat.mod_mod_of_dvd _ (by decide : 0x10 ∣ 0x100), show (0x10 : Nat) = 2 ^ 4 from rfl, hnibble,
    Nat.shiftRight_eq_div_pow, Nat.shiftRight_eq_div_pow, Nat.shiftRight_eq_div_pow]
  omega

/-- The drive bit of `HDDEVSEL` is the low bit of the drive's number. -/
theorem drive_of_write (lba drive : Nat) :
    (((0xE0 ||| drive <<< 4 ||| (lba >>> 24 &&& 0x0F)) % 0x100).testBit 4).toNat = drive % 2 := by
  have hhigh : Nat.testBit 0xE0 4 = false := rfl
  have hlow : Nat.testBit 0x0F 4 = false := rfl
  rw [show (0x100 : Nat) = 2 ^ 8 from rfl, Nat.testBit_mod_two_pow, Nat.testBit_or, Nat.testBit_or,
    Nat.testBit_and, Nat.testBit_shiftLeft, hhigh, hlow]
  simp only [Nat.reduceLT, decide_true, Bool.true_and, Bool.false_or, Bool.and_false, Bool.or_false,
    ge_iff_le, Nat.le_refl, Nat.sub_self]
  rw [Nat.toNat_testBit, Nat.pow_zero, Nat.div_one]

/-- The address is the number of a sector. -/
theorem lba_of_write (lba drive : Nat) :
    ((0xE0 ||| drive <<< 4 ||| (lba >>> 24 &&& 0x0F)) % 0x100).testBit 6 = true := by
  have hhigh : Nat.testBit 0xE0 6 = true := rfl
  rw [show (0x100 : Nat) = 2 ^ 8 from rfl, Nat.testBit_mod_two_pow, Nat.testBit_or, Nat.testBit_or,
    hhigh]
  rfl

/-- The command to transfer one sector. -/
def sectorCommand (code : Nat) (dev : IdeDevice) (sector : Nat) : DriveCommand where
  code := code
  drive := dev.drive % 2
  lba := true
  sector := sector
  count := 1

/-- **The drive is commanded one sector, the one with the low 28 bits of the address.** -/
theorem ataPioCommand_observed (dev : IdeDevice) (lba command : Nat) (resp : SectorResponse)
    (hcommand : command < 0x100) (r : TaskFile) :
    ∃ r', r'.last = sectorCommand command dev (lba % 2 ^ 28) ∧
      r.seeAll (ioBase dev.channel) (ataPioCommand dev lba command resp)
        = (r', [.command (sectorCommand command dev (lba % 2 ^ 28))]) := by
  have haddress := address_of_writes lba dev.drive
  have hdrive := drive_of_write lba dev.drive
  have hlba := lba_of_write lba dev.drive
  refine ⟨⟨1, lba % 0x100, (lba >>> 8) % 0x100, (lba >>> 16) % 0x100,
    (0xE0 ||| dev.drive <<< 4 ||| (lba >>> 24 &&& 0x0F)) % 0x100,
    sectorCommand command dev (lba % 2 ^ 28)⟩, rfl, ?_⟩
  unfold sectorCommand
  rw [← haddress, ← hdrive, ← hlba]
  generalize hselect : (0xE0 ||| dev.drive <<< 4 ||| (lba >>> 24 &&& 0x0F)) = select
  unfold ataPioCommand ataPioSelectDrive
  simp only [List.cons_append, TaskFile.seeAll_cons, TaskFile.seeAll_append, List.append_assoc,
    TaskFile.seeAll_inportb (ataPioCheckError_inportb _ _ _), hselect]
  -- every register is written once more after the drive has been selected
  simp [TaskFile.seeAll, TaskFile.see, TaskFile.write, TaskFile.command, TaskFile.address, outportb,
    inportb, ataPioIoWait, ataRegSeccount0, ataRegLba0, ataRegLba1, ataRegLba2, ataRegHddevsel,
    ataRegCommand, Nat.mod_eq_of_lt hcommand]

/-- The drive answers the command of a sector without an error, and in time. -/
def SectorResponse.handled (resp : SectorResponse) : Bool :=
  resp.irq && !srErr resp.status && !srDf resp.status && srDrq resp.status

/-- The words of a command, from an offset in the buffer on. -/
def sectorWords (direction : Direction) (c : DriveCommand) (offset : Nat) : List DriveEvent :=
  (List.range 256).map fun i => .word direction c (offset + 2 * i)

/-- Nothing but commands to flush the cache. -/
def Flushes (l : List DriveEvent) : Prop :=
  ∀ e ∈ l, ∃ c : DriveCommand, c.code = ataCmdCacheFlush ∧ e = .command c

/-- A sector function of a drive without the 48-bit feature: it sends one command with `code`, and
without an error it moves the words in its direction and may flush the cache. -/
structure SectorFunction (sector : IdeDevice → Nat → Nat → SectorResponse → SectorResult)
    (code : Nat) (direction : Direction) : Prop where
  observed : ∀ dev lba buf resp, dev.commandSets.testBit 26 = false → ∀ r : TaskFile,
    ∃ r' flush, Flushes flush ∧ r.seeAll (ioBase dev.channel) (sector dev lba buf resp).events
      = (r', .command (sectorCommand code dev (lba % 2 ^ 28)) :: if resp.handled
          then sectorWords direction (sectorCommand code dev (lba % 2 ^ 28)) buf ++ flush else [])
  error : ∀ dev lba buf resp, dev.commandSets.testBit 26 = false →
    ((sector dev lba buf resp).error = .noError ↔ resp.handled = true)
  keeps : ∀ dev lba buf resp, (sector dev lba buf resp).dev
    = { dev with irqExpected := (sector dev lba buf resp).dev.irqExpected,
                 irqFired := (sector dev lba buf resp).dev.irqFired }

theorem ataWaitIrq_error (dev : IdeDevice) (irq : Bool) :
    (ataWaitIrq dev irq).2 = .noError ↔ irq = true := by
  cases irq
  · exact iff_of_false nofun Bool.false_ne_true
  · exact iff_of_true rfl rfl

theorem ataWaitIrq_keeps (dev : IdeDevice) (irq : Bool) :
    (ataWaitIrq dev irq).1 = { dev with irqExpected := (ataWaitIrq dev irq).1.irqExpected,
                                        irqFired := (ataWaitIrq dev irq).1.irqFired } := by
  cases irq <;> rfl

theorem ataPostIrqCheck_error (io status : Nat) :
    (ataPostIrqCheck io status).1 = .noError ↔
      srErr status = false ∧ srDf status = false ∧ srDrq status = true := by
  unfold ataPostIrqCheck
  cases srErr status <;> cases srDf status <;> cases srDrq status <;> simp

theorem ataPostIrqCheck_inportb (io status : Nat) :
    ∀ e ∈ (ataPostIrqCheck io status).2, ∃ port, e = inportb port :=
  fun _ he => ⟨_, List.mem_singleton.mp he⟩

theorem SectorResponse.handled_iff (resp : SectorResponse) (io : Nat) :
    resp.handled = true ↔ resp.irq = true ∧ (ataPostIrqCheck io resp.status).1 = .noError := by
  rw [ataPostIrqCheck_error, SectorResponse.handled]
  simp only [Bool.and_eq_true, Bool.not_eq_true', and_assoc]

/-- Both sector functions are one, up to what they do when the drive has answered. -/
theorem ataPioSector_function {code : Nat} {direction : Direction}
    {finish : IdeDevice → Nat → SectorResponse → IdeDevice × List IoEvent}
    (hcode : code < 0x100)
    (hobserved : ∀ dev buf resp, ∀ r : TaskFile, ∃ r' flush, Flushes flush ∧
      r.seeAll (ioBase dev.channel) (finish dev buf resp).2
        = (r', sectorWords direction r.last buf ++ flush))
    (hkeeps : ∀ dev buf resp, (finish dev buf resp).1
      = { dev with irqExpected := (finish dev buf resp).1.irqExpected,
                   irqFired := (finish dev buf resp).1.irqFired }) :
    SectorFunction (ataPioSector code finish) code direction where
  observed dev lba buf resp h48 r := by
    obtain ⟨r₁, hlast₁, hcommand⟩ := ataPioCommand_observed dev lba code resp hcode r
    unfold ataPioSector
    rw [if_neg (Bool.eq_false_iff.mp h48)]
    dsimp only
    split
    · next hwait =>
      have hirq : ¬ resp.handled = true := fun hh =>
        hwait ((ataWaitIrq_error dev resp.irq).mpr
          ((resp.handled_iff (ioBase dev.channel)).mp hh).1)
      refine ⟨r₁, [], nofun, ?_⟩
      rw [if_neg hirq]
      exact hcommand
    · next hwait =>
      split
      · next hcheck =>
        have hstatus : ¬ resp.handled = true := fun hh =>
          hcheck ((resp.handled_iff (ioBase dev.channel)).mp hh).2
        refine ⟨r₁, [], nofun, ?_⟩
        rw [if_neg hstatus, TaskFile.seeAll_append, hcommand,
          TaskFile.seeAll_inportb (ataPostIrqCheck_inportb _ _), List.append_nil]
      · next hcheck =>
        have hhandled : resp.handled = true := (resp.handled_iff (ioBase dev.channel)).mpr
          ⟨(ataWaitIrq_error dev resp.irq).mp (not_not.mp hwait), not_not.mp hcheck⟩
        obtain ⟨r₂, flush, hflush, hlast⟩ := hobserved (ataWaitIrq dev resp.irq).1 buf resp r₁
        rw [show (ataWaitIrq dev resp.irq).1.channel = dev.channel by rw [ataWaitIrq_keeps]]
          at hlast
        refine ⟨r₂, flush, hflush, ?_⟩
        rw [if_pos hhandled, TaskFile.seeAll_append, hcommand, TaskFile.seeAll_append,
          TaskFile.seeAll_inportb (ataPostIrqCheck_inportb _ _), hlast, hlast₁]
        rfl
  error dev lba buf resp h48 := by
    rw [resp.handled_iff (ioBase dev.channel), ← ataWaitIrq_error dev]
    unfold ataPioSector
    rw [if_neg (Bool.eq_false_iff.mp h48)]
    dsimp only
    split
    · next hwait => exact iff_of_false hwait fun h => hwait h.1
    · next hwait =>
      split
      · next hcheck => exact iff_of_false hcheck fun h => hcheck h.2
      · next hcheck => exact iff_of_true rfl ⟨not_not.mp hwait, not_not.mp hcheck⟩
  keeps dev lba buf resp := by
    unfold ataPioSector
    split
    · rfl
    · dsimp only
      split
      · exact ataWaitIrq_keeps dev resp.irq
      · split
        · exact ataWaitIrq_keeps dev resp.irq
        · dsimp only
          rw [hkeeps, ataWaitIrq_keeps]

theorem ataPioReadSector_function : SectorFunction ataPioReadSector ataCmdReadPio .toBuffer := by
  refine ataPioSector_function (by decide) (fun dev buf resp r => ⟨r, [], nofun, ?_⟩)
    fun dev buf resp => rfl
  rw [List.append_nil]
  exact TaskFile.seeAll_words (fun r i => by rw [TaskFile.see, if_pos rfl]) _

theorem ataPioWriteSector_function :
    SectorFunction ataPioWriteSector ataCmdWritePio .toDrive := by
  refine ataPioSector_function (by decide) (fun dev buf resp r =>
    ⟨{ r with last := r.command ataCmdCacheFlush }, [.command (r.command ataCmdCacheFlush)],
      fun e he => ⟨_, rfl, List.mem_singleton.mp he⟩, ?_⟩)
    fun dev buf resp => ataWaitIrq_keeps dev resp.flushIrq
  unfold writeWords
  rw [TaskFile.seeAll_append,
    TaskFile.seeAll_words (fun r i => by rw [TaskFile.see, if_pos rfl])]
  simp [TaskFile.seeAll, TaskFile.see, TaskFile.write, outportb, sectorWords, ataRegSeccount0,
    ataRegLba0, ataRegLba1, ataRegLba2, ataRegHddevsel, ataRegCommand, ataCmdCacheFlush]

/-! ## All sectors -/

/-- The commands that a drive got, but for the cache flushes. -/
def commandedSectors (events : List DriveEvent) : List DriveCommand :=
  events.filterMap fun
    | .command c => if c.code = ataCmdCacheFlush then none else some c
    | .word _ _ _ => none

/-- The words that moved: their directions, their commands and their offsets in the buffer. -/
def movedWords (events : List DriveEvent) : List (Direction × DriveCommand × Nat) :=
  events.filterMap fun
    | .command _ => none
    | .word direction c offset => some (direction, c, offset)

/-- The words of a command and their offsets in the buffer. -/
def sectorAt (direction : Direction) (c : DriveCommand) (offset : Nat) :
    List (Direction × DriveCommand × Nat) :=
  (List.range 256).map fun i => (direction, c, offset + 2 * i)

theorem map_range_succ {α : Type} (f : Nat → α) (i n : Nat) :
    (List.range (n + 1)).map (fun j => f (i + j))
      = f i :: (List.range n).map (fun j => f (i + 1 + j)) := by
  rw [List.range_succ_eq_map, List.map_cons, List.map_map]
  exact congrArg (f i :: ·) (List.map_congr_left fun j _ => congrArg f (by omega))

theorem flatMap_range_succ {α : Type} (f : Nat → List α) (i n : Nat) :
    (List.range (n + 1)).flatMap (fun j => f (i + j))
      = f i ++ (List.range n).flatMap (fun j => f (i + 1 + j)) := by
  rw [List.flatMap_def, map_range_succ f, List.flatten_cons, ← List.flatMap_def]

/-- Blocks of one length can be told apart when they are put together. -/
theorem flatMap_range_eq_iff {α : Type} {f g : Nat → List α} (h : ∀ i, (f i).length = (g i).length)
    (n : Nat) : (List.range n).flatMap f = (List.range n).flatMap g ↔ ∀ i, i < n → f i = g i := by
  induction n with
  | zero => exact iff_of_true rfl nofun
  | succ n ih =>
    have hlen : ((List.range n).flatMap f).length = ((List.range n).flatMap g).length := by
      simp only [List.length_flatMap, h]
    rw [List.range_succ, List.flatMap_append, List.flatMap_append, List.flatMap_singleton,
      List.flatMap_singleton]
    constructor
    · intro heq
      obtain ⟨hinit, hlast⟩ := List.append_inj heq hlen
      intro i hi
      obtain hi | rfl := Nat.lt_succ_iff_lt_or_eq.mp hi
      · exact ih.mp hinit i hi
      · exact hlast
    · intro hall
      rw [ih.mpr fun i hi => hall i (Nat.lt_succ_of_lt hi), hall n (Nat.lt_succ_self n)]

/-- What one sector function shows of its sector. -/
structure SectorSeen (resp : SectorResponse) (direction : Direction) (c : DriveCommand) (offset : Nat)
    (l : List DriveEvent) : Prop where
  commanded : commandedSectors l = [c]
  moved : movedWords l = if resp.handled then sectorAt direction c offset else []

theorem commandedSectors_append (l l' : List DriveEvent) :
    commandedSectors (l ++ l') = commandedSectors l ++ commandedSectors l' :=
  List.filterMap_append

theorem movedWords_append (l l' : List DriveEvent) :
    movedWords (l ++ l') = movedWords l ++ movedWords l' :=
  List.filterMap_append

theorem commandedSectors_sectorWords (direction : Direction) (c : DriveCommand) (offset : Nat) :
    commandedSectors (sectorWords direction c offset) = [] := by
  rw [commandedSectors, List.filterMap_eq_nil_iff]
  intro e he
  obtain ⟨i, -, rfl⟩ := List.mem_map.mp he
  rfl

theorem movedWords_sectorWords (direction : Direction) (c : DriveCommand) (offset : Nat) :
    movedWords (sectorWords direction c offset) = sectorAt direction c offset := by
  rw [movedWords, sectorWords, List.filterMap_map, sectorAt, ← List.filterMap_eq_map]
  rfl

theorem Flushes.commandedSectors_eq {l : List DriveEvent} (h : Flushes l) :
    commandedSectors l = [] := by
  rw [commandedSectors, List.filterMap_eq_nil_iff]
  intro e he
  obtain ⟨c, hc, rfl⟩ := h e he
  exact if_pos hc

theorem Flushes.movedWords_eq {l : List DriveEvent} (h : Flushes l) : movedWords l = [] := by
  rw [movedWords, List.filterMap_eq_nil_iff]
  intro e he
  obtain ⟨c, -, rfl⟩ := h e he
  rfl

variable {sector : IdeDevice → Nat → Nat → SectorResponse → SectorResult} {code : Nat}
  {direction : Direction} {dev : IdeDevice} {resp : Nat → SectorResponse} {lba n i : Nat}
  {es : List IoEvent} {r : TaskFile}

theorem SectorFunction.seen (h : SectorFunction sector code direction)
    (hcode : code ≠ ataCmdCacheFlush)
    (h48 : dev.commandSets.testBit 26 = false) (lba buf : Nat) (resp : SectorResponse)
    (r : TaskFile) :
    SectorSeen resp direction (sectorCommand code dev (lba % 2 ^ 28)) buf
      (r.seeAll (ioBase dev.channel) (sector dev lba buf resp).events).2 := by
  obtain ⟨r', flush, hflush, hseen⟩ := h.observed dev lba buf resp h48 r
  rw [hseen]
  have hcommand : ∀ l, commandedSectors (.command (sectorCommand code dev (lba % 2 ^ 28)) :: l)
      = sectorCommand code dev (lba % 2 ^ 28) :: commandedSectors l := fun l =>
    List.filterMap_cons_some (if_neg hcode)
  have hmoved : ∀ l, movedWords (.command (sectorCommand code dev (lba % 2 ^ 28)) :: l)
      = movedWords l := fun l => List.filterMap_cons_none rfl
  refine ⟨?_, ?_⟩
  · rw [hcommand]
    split
    · rw [commandedSectors_append, commandedSectors_sectorWords, hflush.commandedSectors_eq]
      rfl
    · rfl
  · rw [hmoved]
    split
    · rw [movedWords_append, movedWords_sectorWords, hflush.movedWords_eq, List.append_nil]
    · rfl

/-- The first of `n` sectors from `i` on that fails is the one after `k`, or all are handled. -/
structure HandledUpTo (resp : Nat → SectorResponse) (n i k : Nat) : Prop where
  le : k ≤ n
  handled : ∀ j, j < k → (resp (i + j)).handled = true
  failed : k < n → (resp (i + k)).handled = false

/-- **The loop commands the drive one sector after the other, up to the first that fails.** -/
theorem ideTransferLoop_observed (h : SectorFunction sector code direction)
    (hcode : code ≠ ataCmdCacheFlush) (h48 : dev.commandSets.testBit 26 = false)
    (lba n i : Nat) (resp : Nat → SectorResponse) (r : TaskFile) (es : List IoEvent) :
    ∃ k new, HandledUpTo resp n i k ∧
      (ideTransferLoop sector lba resp n i dev es).2
        = (es ++ new, decide (k = n)) ∧
      commandedSectors (r.seeAll (ioBase dev.channel) new).2
        = (List.range (min (k + 1) n)).map
            (fun j => sectorCommand code dev ((lba + (i + j)) % 2 ^ 28)) ∧
      movedWords (r.seeAll (ioBase dev.channel) new).2
        = (List.range k).flatMap (fun j =>
            sectorAt direction (sectorCommand code dev ((lba + (i + j)) % 2 ^ 28))
              (wrap32 ((i + j) * dev.sectorSize))) := by
  induction n generalizing i dev es r with
  | zero => exact ⟨0, [], ⟨le_rfl, nofun, nofun⟩, by rw [ideTransferLoop, List.append_nil]; rfl, rfl, rfl⟩
  | succ n ih =>
    have hmod : (lba + i) % 2 ^ 64 % 2 ^ 28 = (lba + i) % 2 ^ 28 :=
      Nat.mod_mod_of_dvd _ (by decide)
    have hseen := h.seen hcode h48 ((lba + i) % 2 ^ 64) (wrap32 (i * dev.sectorSize)) (resp i) r
    rw [hmod] at hseen
    have hkeeps := h.keeps dev ((lba + i) % 2 ^ 64) (wrap32 (i * dev.sectorSize)) (resp i)
    have herror := h.error dev ((lba + i) % 2 ^ 64) (wrap32 (i * dev.sectorSize)) (resp i) h48
    rw [ideTransferLoop]
    generalize sector dev ((lba + i) % 2 ^ 64) (wrap32 (i * dev.sectorSize)) (resp i) = first
      at hseen hkeeps herror
    split
    · next hfail =>
      have hbad : (resp i).handled = false := Bool.eq_false_iff.mpr fun hh => hfail (herror.mpr hh)
      refine ⟨0, first.events, ⟨Nat.zero_le _, nofun, fun _ => hbad⟩, rfl, ?_, ?_⟩
      · rw [hseen.commanded]
        rfl
      · rw [hseen.moved, hbad]
        rfl
    · next hok =>
      have hgood : (resp i).handled = true := herror.mp (not_not.mp hok)
      have hchannel : first.dev.channel = dev.channel := by rw [hkeeps]
      have hsize : first.dev.sectorSize = dev.sectorSize := by rw [hkeeps]
      have hfirst48 : first.dev.commandSets.testBit 26 = false := by
        rw [hkeeps]
        exact h48
      obtain ⟨k, new, hk, hloop, hcommanded, hmoved⟩ := ih hfirst48 (i + 1)
        (r.seeAll (ioBase dev.channel) first.events).1 (es ++ first.events)
      have hcommand : sectorCommand code first.dev = sectorCommand code dev := by
        unfold sectorCommand
        rw [hkeeps]
      rw [hchannel, hcommand] at hcommanded hmoved
      rw [hsize] at hmoved
      refine ⟨k + 1, first.events ++ new, ⟨Nat.succ_le_succ hk.le, ?_, ?_⟩, ?_, ?_, ?_⟩
      · intro j hj
        cases j with
        | zero => exact hgood
        | succ j =>
          rw [show i + (j + 1) = i + 1 + j by omega]
          exact hk.handled j (Nat.lt_of_succ_lt_succ hj)
      · intro hlt
        rw [show i + (k + 1) = i + 1 + k by omega]
        exact hk.failed (Nat.lt_of_succ_lt_succ hlt)
      · rw [hloop, List.append_assoc]
        simp only [Nat.add_right_cancel_iff]
      · rw [TaskFile.seeAll_append, commandedSectors_append, hseen.commanded, hcommanded,
          show min (k + 1 + 1) (n + 1) = min (k + 1) n + 1 by omega,
          map_range_succ fun j => sectorCommand code dev ((lba + j) % 2 ^ 28)]
        rfl
      · rw [TaskFile.seeAll_append, movedWords_append, hseen.moved, if_pos hgood, hmoved,
          flatMap_range_succ fun j => sectorAt direction
            (sectorCommand code dev ((lba + j) % 2 ^ 28)) (wrap32 (j * dev.sectorSize))]

/-! ## The right sectors -/

/-- Two sectors of words are the same ones at the same offsets. -/
theorem sectorAt_eq_iff {s s' offset offset' : Nat} :
    sectorAt direction (sectorCommand code dev s) offset
        = sectorAt direction (sectorCommand code dev s') offset' ↔ s = s' ∧ offset = offset' := by
  constructor
  · intro h
    have hfirst := congrArg List.head? h
    rw [sectorAt, sectorAt, show List.range 256 = 0 :: (List.range 255).map Nat.succ from
      List.range_succ_eq_map, List.map_cons, List.map_cons, List.head?_cons, List.head?_cons] at hfirst
    obtain ⟨hcommand, hoffset⟩ := Prod.mk.inj (Prod.mk.inj (Option.some.inj hfirst)).2
    exact ⟨congrArg DriveCommand.sector hcommand, hoffset⟩
  · rintro ⟨rfl, rfl⟩
    rfl

/-- What the value returned promises. The commands and the words moved are those that the drives of
the channel have seen: each sector is commanded with `code`, of the drive of `dev`, and its words
move in `direction`. -/
structure TransferCorrect (code : Nat) (direction : Direction) (dev : IdeDevice)
    (lba sectorCount : Nat) (resp : Nat → SectorResponse) (result : IdeResult)
    (seen : List DriveEvent) : Prop where
  success : result.returned ≠ -1 →
    commandedSectors seen
      = (List.range sectorCount).map (fun i => sectorCommand code dev (lba + i)) ∧
    movedWords seen = (List.range sectorCount).flatMap
      (fun i => sectorAt direction (sectorCommand code dev (lba + i)) (i * 512))
  failure : result.returned = -1 → result.dev.controllerStatus.testBit 3 = true ∧
    ∃ k, k < sectorCount ∧ HandledUpTo resp sectorCount 0 k ∧
      movedWords seen = (List.range k).flatMap
        (fun i => sectorAt direction (sectorCommand code dev (lba + i)) (i * 512))

/-- Every sector that is transferred has a number of 28 bits and an offset of 32. -/
def Addressable (lba sectorCount : Nat) (resp : Nat → SectorResponse) : Prop :=
  ∀ i, i < sectorCount → (∀ j, j ≤ i → (resp j).handled = true) →
    lba + i < 2 ^ 28 ∧ i * 512 < 2 ^ 32

theorem HandledUpTo.addressable_iff {k : Nat} (h : HandledUpTo resp n 0 k) :
    Addressable lba n resp ↔ ∀ i, i < k → lba + i < 2 ^ 28 ∧ i * 512 < 2 ^ 32 := by
  constructor
  · intro ha i hi
    refine ha i (Nat.lt_of_lt_of_le hi h.le) fun j hj => ?_
    have hj' := h.handled j (by omega)
    rwa [Nat.zero_add] at hj'
  · intro ha i hi hall
    refine ha i (Nat.lt_of_not_le fun hk => ?_)
    have hfailed := h.failed (by omega)
    rw [Nat.zero_add, hall k hk] at hfailed
    cases hfailed

theorem HandledUpTo.unique {k k' : Nat} (h : HandledUpTo resp n i k)
    (h' : HandledUpTo resp n i k') : k = k' := by
  have hle : ∀ {k k'}, HandledUpTo resp n i k → HandledUpTo resp n i k' → k ≤ k' := by
    intro k k' h h'
    by_contra hlt
    have hle := h.le
    have hbad := h'.failed (by omega)
    rw [h.handled k' (by omega)] at hbad
    cases hbad
  exact le_antisymm (hle h h') (hle h' h)

/-- The words moved are the right ones when the addresses and the offsets fit. -/
theorem moved_eq_iff (lba k : Nat) :
    (List.range k).flatMap (fun i => sectorAt direction
          (sectorCommand code dev ((lba + i) % 2 ^ 28)) (wrap32 (i * 512)))
        = (List.range k).flatMap
          (fun i => sectorAt direction (sectorCommand code dev (lba + i)) (i * 512)) ↔
      ∀ i, i < k → lba + i < 2 ^ 28 ∧ i * 512 < 2 ^ 32 := by
  rw [flatMap_range_eq_iff fun i => by simp only [sectorAt, List.length_map]]
  refine forall₂_congr fun i _ => ?_
  rw [sectorAt_eq_iff, wrap32, Nat.mod_eq_iff_lt (by decide), Nat.mod_eq_iff_lt (by decide)]
  rfl

/-- The error flag is left set, as the other flags are cleared beside it. -/
theorem errorFlag_set (status flag : Nat)
    (hflag : (0xFFFFFFFF ^^^ (flagBusy ||| flag)).testBit 3 = true) :
    ((status ||| flagError) &&& (0xFFFFFFFF ^^^ (flagBusy ||| flag))).testBit 3 = true := by
  rw [Nat.testBit_and, Nat.testBit_or, hflag, show flagError.testBit 3 = true from rfl,
    Bool.or_true, Bool.and_true]

theorem toInt32_eq_neg_one {n : Nat} (hn : n < 2 ^ 32) : toInt32 n = -1 ↔ n = 2 ^ 32 - 1 := by
  unfold toInt32
  split <;> omega

/-- **What a transfer does.** -/
theorem ideTransfer_observed (h : SectorFunction sector code direction)
    (hcode : code ≠ ataCmdCacheFlush) {flag : Nat}
    (hflag : (0xFFFFFFFF ^^^ (flagBusy ||| flag)).testBit 3 = true)
    (h48 : dev.commandSets.testBit 26 = false) (hsize : dev.sectorSize = 512)
    (lba sectorCount : Nat) (resp : Nat → SectorResponse) (r : TaskFile) :
    ∃ k, HandledUpTo resp sectorCount 0 k ∧
      (ideTransfer sector flag dev lba sectorCount resp).returned
        = (if k = sectorCount then toInt32 sectorCount else -1) ∧
      (k ≠ sectorCount → (ideTransfer sector flag dev lba sectorCount
        resp).dev.controllerStatus.testBit 3 = true) ∧
      commandedSectors (r.seeAll (ioBase dev.channel)
          (ideTransfer sector flag dev lba sectorCount resp).events).2
        = (List.range (min (k + 1) sectorCount)).map
            (fun i => sectorCommand code dev ((lba + i) % 2 ^ 28)) ∧
      movedWords (r.seeAll (ioBase dev.channel)
          (ideTransfer sector flag dev lba sectorCount resp).events).2
        = (List.range k).flatMap (fun i => sectorAt direction
            (sectorCommand code dev ((lba + i) % 2 ^ 28)) (wrap32 (i * 512))) := by
  obtain ⟨k, new, hk, hloop, hcommanded, hmoved⟩ := ideTransferLoop_observed h hcode
    (show (clearFlag (setFlag dev (flagBusy ||| flag)) flagError).commandSets.testBit 26 = false
      from h48) lba sectorCount 0 resp r []
  simp only [Nat.zero_add] at hcommanded hmoved
  rw [show (clearFlag (setFlag dev (flagBusy ||| flag)) flagError).sectorSize = 512 from hsize]
    at hmoved
  rw [List.nil_append] at hloop
  refine ⟨k, hk, ?_⟩
  unfold ideTransfer
  dsimp only
  rw [hloop]
  by_cases hall : k = sectorCount
  · rw [if_pos (decide_eq_true hall), if_pos hall]
    exact ⟨rfl, fun hne => absurd hall hne, hcommanded, hmoved⟩
  · rw [if_neg (fun hd => hall (of_decide_eq_true hd)), if_neg hall]
    exact ⟨rfl, fun _ => errorFlag_set _ flag hflag, hcommanded, hmoved⟩

/-- **A transfer is correct exactly when the sectors it transfers are addressable.** -/
theorem ideTransfer_correct_iff (h : SectorFunction sector code direction)
    (hcode : code ≠ ataCmdCacheFlush) {flag : Nat}
    (hflag : (0xFFFFFFFF ^^^ (flagBusy ||| flag)).testBit 3 = true)
    (h48 : dev.commandSets.testBit 26 = false) (hsize : dev.sectorSize = 512) (lba : Nat)
    {sectorCount : Nat} (hcount : sectorCount < 2 ^ 32) (resp : Nat → SectorResponse)
    (r : TaskFile) :
    TransferCorrect code direction dev lba sectorCount resp
        (ideTransfer sector flag dev lba sectorCount resp) (r.seeAll (ioBase dev.channel)
          (ideTransfer sector flag dev lba sectorCount resp).events).2 ↔
      Addressable lba sectorCount resp := by
  obtain ⟨k, hk, hreturned, herror, hcommanded, hmoved⟩ :=
    ideTransfer_observed h hcode hflag h48 hsize lba sectorCount resp r
  rw [hk.addressable_iff, ← moved_eq_iff, ← hmoved]
  by_cases hall : k = sectorCount
  · subst hall
    rw [if_pos rfl] at hreturned
    constructor
    · intro hcorrect
      by_cases hneg : (ideTransfer sector flag dev lba k resp).returned = -1
      · obtain ⟨-, k', hlt, hk', -⟩ := hcorrect.failure hneg
        exact absurd (hk.unique hk') (by omega)
      · exact (hcorrect.success hneg).2
    · intro hright
      have hfits := (@moved_eq_iff code direction dev lba k).mp (hmoved ▸ hright)
      have hneg : (ideTransfer sector flag dev lba k resp).returned ≠ -1 := by
        rw [hreturned, Ne, toInt32_eq_neg_one hcount]
        intro heq
        have hlast := (hfits (2 ^ 28) (by omega)).1
        omega
      refine ⟨fun _ => ⟨?_, hright⟩, fun heq => absurd heq hneg⟩
      rw [hcommanded, Nat.min_eq_right (Nat.le_succ k)]
      refine List.map_congr_left fun i hi => ?_
      rw [Nat.mod_eq_of_lt (hfits i (List.mem_range.mp hi)).1]
  · rw [if_neg hall] at hreturned
    have hlt : k < sectorCount := Nat.lt_of_le_of_ne hk.le hall
    constructor
    · intro hcorrect
      obtain ⟨-, k', -, hk', hright⟩ := hcorrect.failure hreturned
      rwa [hk.unique hk']
    · intro hright
      exact ⟨fun hne => absurd hreturned hne, fun _ => ⟨herror hall, k, hlt, hk, hright⟩⟩

/-- What the drive sees of a transfer, from any registers on. -/
def IdeResult.seen (result : IdeResult) (dev : IdeDevice) (r : TaskFile) : List DriveEvent :=
  (r.seeAll (ioBase dev.channel) result.events).2

/-- **Reading and writing are correct exactly when every sector transferred is addressable.** -/
theorem transferCorrect_iff (h48 : dev.commandSets.testBit 26 = false)
    (hsize : dev.sectorSize = 512) (lba : Nat) {sectorCount : Nat} (hcount : sectorCount < 2 ^ 32)
    (resp : Nat → SectorResponse) (r : TaskFile) :
    (TransferCorrect ataCmdReadPio .toBuffer dev lba sectorCount resp
        (ideRead dev lba sectorCount resp) ((ideRead dev lba sectorCount resp).seen dev r) ↔
      Addressable lba sectorCount resp) ∧
    (TransferCorrect ataCmdWritePio .toDrive dev lba sectorCount resp
        (ideWrite dev lba sectorCount resp) ((ideWrite dev lba sectorCount resp).seen dev r) ↔
      Addressable lba sectorCount resp) :=
  ⟨ideTransfer_correct_iff ataPioReadSector_function (by decide) (by decide) h48 hsize lba hcount
      resp r,
    ideTransfer_correct_iff ataPioWriteSector_function (by decide) (by decide) h48 hsize lba hcount
      resp r⟩

/-- The master of the primary channel, identified without the 48-bit feature. -/
def identifiedDrive : IdeDevice := ⟨ataPrimary, ataMaster, 0, 512, 0, false, false⟩

/-- The drive answers at once and is ready to transfer the words. -/
def promptResponse : SectorResponse := ⟨0x50, 0, true, 0x58, true⟩

/-- The registers of a channel after a reset. -/
def resetFile : TaskFile := ⟨1, 1, 0, 0, 0, ⟨0, 0, false, 0, 0⟩⟩

/-- Two sectors are read, the second of two is not written. -/
theorem transferCorrect_iff_identifiedDrive :
    TransferCorrect ataCmdReadPio .toBuffer identifiedDrive 5 2 (fun _ => promptResponse)
      (ideRead identifiedDrive 5 2 fun _ => promptResponse)
      ((ideRead identifiedDrive 5 2 fun _ => promptResponse).seen identifiedDrive resetFile) ∧
    TransferCorrect ataCmdWritePio .toDrive { identifiedDrive with drive := ataSlave } 5 2
      (fun i => { promptResponse with irq := i = 0 })
      (ideWrite { identifiedDrive with drive := ataSlave } 5 2
        fun i => { promptResponse with irq := i = 0 })
      ((ideWrite { identifiedDrive with drive := ataSlave } 5 2
        fun i => { promptResponse with irq := i = 0 }).seen
          { identifiedDrive with drive := ataSlave } resetFile) :=
  ⟨(transferCorrect_iff rfl rfl 5 (by decide) (fun _ => promptResponse) resetFile).1.mpr
      fun i hi _ => by omega,
    (transferCorrect_iff rfl rfl 5 (by decide) (fun i => { promptResponse with irq := i = 0 })
      resetFile).2.mpr fun i hi _ => by omega⟩

/-- Sector `2 ^ 28` is asked for, and sector 0 is read without an error. -/
theorem exists_wrong_sector :
    let result := ideRead identifiedDrive (2 ^ 28) 1 fun _ => promptResponse
    result.returned = 1 ∧
      commandedSectors (result.seen identifiedDrive resetFile) = [⟨ataCmdReadPio, 0, true, 0, 1⟩] ∧
      ¬ TransferCorrect ataCmdReadPio .toBuffer identifiedDrive (2 ^ 28) 1 (fun _ => promptResponse)
        result (result.seen identifiedDrive resetFile) := by
  have hcommanded : commandedSectors ((ideRead identifiedDrive (2 ^ 28) 1 fun _ =>
      promptResponse).seen identifiedDrive resetFile) = [⟨ataCmdReadPio, 0, true, 0, 1⟩] := by decide
  refine ⟨by decide, hcommanded, fun hcorrect => ?_⟩
  have hright := (hcorrect.success (by decide)).1
  rw [hcommanded] at hright
  exact absurd hright (by decide)

end Xylophone
