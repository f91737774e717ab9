import Mathlib.Algebra.BigOperators.Group.List.Basic
import Xylophone.Infra.Memory

/-!
# `multiboot2.c`

The boot loader leaves a list of tags in memory, one of which is the memory map.
`multiboot2_get_physical_memory_size` walks the tags and adds up the lengths of the available
regions that do not start at address 0. Nothing bounds the walk, so it takes fuel.

* `sumEntries_holds` — the loop over the entries of a memory map
* `multiboot2GetPhysicalMemorySize_holds` — the sum is that of the first memory map
-/

namespace Xylophone

open Infra

/-- `MULTIBOOT_TAG_TYPE_END`. -/
def multibootTagTypeEnd : Nat := 0

/-- `MULTIBOOT_TAG_TYPE_MMAP`. -/
def multibootTagTypeMmap : Nat := 6

/-- `MULTIBOOT_MEMORY_AVAILABLE`. -/
def multibootMemoryAvailable : Nat := 1

/-- `multiboot_memory_map_t`: a region of physical memory. Addresses and lengths have 64 bits. -/
structure MultibootMmapEntry where
  addr : Nat
  len : Nat
  type : Nat
deriving DecidableEq, Repr

/-- The entry at `a`. -/
def readEntry (m : Memory) (a : Nat) : MultibootMmapEntry where
  addr := m.read32 a + 0x100000000 * m.read32 (a + 4)
  len := m.read32 (a + 8) + 0x100000000 * m.read32 (a + 12)
  type := m.read32 (a + 16)

/-- `(n + 7) & ~7`. -/
def alignTag (n : Nat) : Nat := wrap32 (n + 7) / 8 * 8

/-- The loop of `multiboot2_get_physical_memory_size` over the entries of the map. -/
def sumEntries (m : Memory) (entrySize stop : Nat) : (fuel mmap memory : Nat) → Option Nat
  | 0, _, _ => none
  | fuel + 1, mmap, memory =>
    if mmap < stop then
      let e := readEntry m mmap
      let memory :=
        if e.type ≠ multibootMemoryAvailable ∨ e.addr = 0 then memory
        else wrap32 (memory + e.len)
      sumEntries m entrySize stop fuel (wrap32 (mmap + entrySize)) memory
    else some memory

/-- The loop of `multiboot2_get_physical_memory_size` over the tags. -/
def walkTags (m : Memory) : (fuel tag memory : Nat) → Option Nat
  | 0, _, _ => none
  | fuel + 1, tag, memory =>
    let type := m.read32 tag
    let size := m.read32 (tag + 4)
    if type = multibootTagTypeEnd then some memory
    else if type = multibootTagTypeMmap then
      sumEntries m (m.read32 (tag + 8)) (wrap32 (tag + size)) (fuel + 1) (wrap32 (tag + 16)) memory
    else walkTags m fuel (wrap32 (tag + alignTag size)) memory

/-- `multiboot2_get_physical_memory_size`. The sum is added to what `memory` points to. -/
def multiboot2GetPhysicalMemorySize (m : Memory) (fuel addr memory : Nat) : Option Nat :=
  walkTags m fuel (wrap32 (addr + 8)) memory

/-! ## The information structure -/

/-- A tag. -/
inductive MultibootTag where
  | mmap (entrySize : Nat) (entries : List MultibootMmapEntry)
  | other (type size : Nat)

namespace MultibootTag

def type : MultibootTag → Nat
  | mmap _ _ => multibootTagTypeMmap
  | other type _ => type

def size : MultibootTag → Nat
  | mmap entrySize entries => 16 + entrySize * entries.length
  | other _ size => size

/-- The bytes from the tag to the next one. -/
def span (t : MultibootTag) : Nat := (t.size + 7) / 8 * 8

end MultibootTag

/-- The bytes from the first tag to the end tag. -/
def spanTags (tags : List MultibootTag) : Nat := (tags.map MultibootTag.span).sum

/-- The entries are in memory, from `a` on. -/
def HoldsEntries (m : Memory) (entrySize : Nat) : (a : Nat) → List MultibootMmapEntry → Prop
  | _, [] => True
  | a, e :: es => readEntry m a = e ∧ HoldsEntries m entrySize (a + entrySize) es

/-- The tag is in memory at `a`. -/
def MultibootTag.HeldAt (m : Memory) (a : Nat) : MultibootTag → Prop
  | mmap entrySize entries =>
    24 ≤ entrySize ∧ m.read32 (a + 8) = entrySize ∧ HoldsEntries m entrySize (a + 16) entries
  | other type size => type ≠ multibootTagTypeEnd ∧ type ≠ multibootTagTypeMmap ∧ 8 ≤ size

/-- The tags are in memory, from `a` on, and an end tag behind them. -/
def HoldsTags (m : Memory) : (a : Nat) → List MultibootTag → Prop
  | a, [] => m.read32 a = multibootTagTypeEnd
  | a, t :: ts =>
    m.read32 a = t.type ∧ m.read32 (a + 4) = t.size ∧ t.HeldAt m a ∧ HoldsTags m (a + t.span) ts

/-- The information structure at `addr` is these tags. -/
structure HoldsInfo (m : Memory) (addr : Nat) (tags : List MultibootTag) : Prop where
  held : HoldsTags m (addr + 8) tags
  fits : addr + 8 + spanTags tags + 8 ≤ 0x100000000

/-- The memory map: the entries of the first tag that is one. -/
def memoryMap : List MultibootTag → List MultibootMmapEntry
  | [] => []
  | .mmap _ entries :: _ => entries
  | .other _ _ :: ts => memoryMap ts

/-- The region is available and does not start at address 0. -/
def MultibootMmapEntry.Counted (e : MultibootMmapEntry) : Prop :=
  e.type = multibootMemoryAvailable ∧ e.addr ≠ 0

instance (e : MultibootMmapEntry) : Decidable e.Counted := inferInstanceAs (Decidable (_ ∧ _))

/-- The length of the regions that count. -/
def countedMemory (map : List MultibootMmapEntry) : Nat :=
  ((map.filter fun e => e.Counted).map MultibootMmapEntry.len).sum

/-- Fuel for the walk. -/
def tagFuel (tags : List MultibootTag) : Nat := tags.length + (memoryMap tags).length

variable {m : Memory} {a entrySize fuel memory : Nat}

/-! ## The walk -/

theorem countedMemory_cons (e : MultibootMmapEntry) (map : List MultibootMmapEntry) :
    countedMemory (e :: map) = (if e.Counted then e.len else 0) + countedMemory map := by
  unfold countedMemory
  by_cases h : e.Counted
  · simp [h]
  · simp [h]

/-- What a turn of the loop over the entries adds. -/
theorem addEntry_eq (e : MultibootMmapEntry) (hmemory : memory < 0x100000000) :
    (if e.type ≠ multibootMemoryAvailable ∨ e.addr = 0 then memory
      else wrap32 (memory + e.len)) = wrap32 (memory + if e.Counted then e.len else 0) := by
  by_cases h : e.Counted
  · have hnot : ¬(e.type ≠ multibootMemoryAvailable ∨ e.addr = 0) := by
      rintro (htype | haddr)
      · exact htype h.1
      · exact h.2 haddr
    rw [if_neg hnot, if_pos h]
  · have hskip : e.type ≠ multibootMemoryAvailable ∨ e.addr = 0 := by
      by_contra hnot
      push Not at hnot
      exact h hnot
    rw [if_pos hskip, if_neg h, add_zero, wrap32_of_lt hmemory]

/-- **The loop over the entries adds up the regions that count.** -/
theorem sumEntries_holds {entries : List MultibootMmapEntry} (hsize : 24 ≤ entrySize)
    (h : HoldsEntries m entrySize a entries)
    (hfits : a + entrySize * entries.length < 0x100000000) (hmemory : memory < 0x100000000)
    (hfuel : entries.length < fuel) :
    sumEntries m entrySize (a + entrySize * entries.length) fuel a memory =
      some (wrap32 (memory + countedMemory entries)) := by
  induction entries generalizing a memory fuel with
  | nil =>
    obtain ⟨fuel, rfl⟩ : ∃ n, fuel = n + 1 := ⟨fuel - 1, by omega⟩
    unfold sumEntries
    rw [if_neg (by simp)]
    show some memory = some (wrap32 (memory + 0))
    rw [add_zero, wrap32_of_lt hmemory]
  | cons e es ih =>
    obtain ⟨fuel, rfl⟩ : ∃ n, fuel = n + 1 := ⟨fuel - 1, by simp at hfuel; omega⟩
    obtain ⟨hread, hrest⟩ := h
    have hlen : entrySize * (e :: es).length = entrySize + entrySize * es.length := by
      rw [List.length_cons, Nat.mul_succ, Nat.add_comm]
    rw [hlen, ← Nat.add_assoc] at hfits ⊢
    have hnext : wrap32 (a + entrySize) = a + entrySize := wrap32_of_lt (by omega)
    unfold sumEntries
    rw [if_pos (by omega)]
    simp only [hread, addEntry_eq e hmemory, hnext]
    rw [ih hrest hfits (wrap32_lt _) (Nat.lt_of_succ_lt_succ hfuel), countedMemory_cons]
    unfold wrap32
    rw [Nat.mod_add_mod, Nat.add_assoc]

theorem alignTag_size (t : MultibootTag) (h : t.size + 7 < 0x100000000) :
    alignTag t.size = t.span := by
  unfold alignTag MultibootTag.span
  rw [wrap32_of_lt h]

/-- The walk, from any tag on. -/
theorem walkTags_holds {tags : List MultibootTag} (h : HoldsTags m a tags)
    (hfits : a + spanTags tags + 8 ≤ 0x100000000) (hmemory : memory < 0x100000000)
    (hfuel : tagFuel tags < fuel) :
    walkTags m fuel a memory = some (wrap32 (memory + countedMemory (memoryMap tags))) := by
  induction tags generalizing a fuel with
  | nil =>
    obtain ⟨fuel, rfl⟩ : ∃ n, fuel = n + 1 := ⟨fuel - 1, by omega⟩
    unfold walkTags
    simp only [show m.read32 a = multibootTagTypeEnd from h, if_true]
    show some memory = some (wrap32 (memory + 0))
    rw [add_zero, wrap32_of_lt hmemory]
  | cons t ts ih =>
    obtain ⟨fuel, rfl⟩ : ∃ n, fuel = n + 1 := ⟨fuel - 1, by omega⟩
    obtain ⟨htype, hsize, hheld, hrest⟩ := h
    have hspans : spanTags (t :: ts) = t.span + spanTags ts := List.sum_cons
    rw [hspans] at hfits
    have hspan : t.size ≤ t.span := by
      unfold MultibootTag.span
      omega
    unfold walkTags
    simp only [htype, hsize]
    cases t with
    | mmap entrySize entries =>
      obtain ⟨hentry, hread, hentries⟩ := hheld
      have hstop : MultibootTag.size (.mmap entrySize entries) =
          16 + entrySize * entries.length := rfl
      rw [hstop] at hspan ⊢
      rw [show MultibootTag.type (.mmap entrySize entries) = multibootTagTypeMmap from rfl,
        if_neg (by decide), if_pos rfl, hread, wrap32_of_lt (n := a + _) (by omega),
        wrap32_of_lt (n := a + 16) (by omega), ← Nat.add_assoc]
      refine sumEntries_holds hentry hentries (by omega) hmemory ?_
      show entries.length < fuel + 1
      have hall : tagFuel (.mmap entrySize entries :: ts) = ts.length + 1 + entries.length := rfl
      omega
    | other type size =>
      obtain ⟨hend, hmmap, hpos⟩ := hheld
      have hstep : alignTag (MultibootTag.size (.other type size)) =
          MultibootTag.span (.other type size) := alignTag_size _ (by omega)
      have hall : tagFuel (.other type size :: ts) = tagFuel ts + 1 := by
        show ts.length + 1 + (memoryMap ts).length = ts.length + (memoryMap ts).length + 1
        omega
      rw [show MultibootTag.type (.other type size) = type from rfl, if_neg hend, if_neg hmmap,
        hstep, wrap32_of_lt (by omega)]
      exact ih hrest (by omega) (by omega)

/-- **The size of memory is the length of the regions that count.** -/
theorem multiboot2GetPhysicalMemorySize_holds {addr : Nat} {tags : List MultibootTag}
    (h : HoldsInfo m addr tags) (hfuel : tagFuel tags < fuel) (hmemory : memory < 0x100000000) :
    multiboot2GetPhysicalMemorySize m fuel addr memory =
      some (wrap32 (memory + countedMemory (memoryMap tags))) := by
  have hfits := h.fits
  unfold multiboot2GetPhysicalMemorySize
  rw [wrap32_of_lt (by omega)]
  exact walkTags_holds h.held hfits hmemory hfuel

end Xylophone
