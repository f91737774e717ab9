import Xylophone.Infra.Memory

/-!
# `heap-structures.h`

The boundary tags of the kernel heap. Every block and every hole starts with a header and ends
with a footer, both stored in the heap's own memory:

* header, 12 bytes — `magic` at offset 0, `size` at 4, `is_hole` (one byte) at 8
* footer, 8 bytes — `magic` at offset 0, the address of the header at 4

`size` counts the header, the payload and the footer.
-/

namespace Xylophone

open Infra

/-- `HEAP_MAGIC`. -/
def heapMagic : Nat := 0xDEADBEEF

/-! ## Reading and writing the tags -/

def headerMagic (m : Memory) (header : Nat) : Nat := m.read32 header

def headerSize (m : Memory) (header : Nat) : Nat := m.read32 (header + 4)

def headerIsHole (m : Memory) (header : Nat) : Nat := m.read8 (header + 8)

def footerMagic (m : Memory) (footer : Nat) : Nat := m.read32 footer

def footerHeader (m : Memory) (footer : Nat) : Nat := m.read32 (footer + 4)

/-- `header->size = size`. -/
def setHeaderSize (m : Memory) (header size : Nat) : Memory := m.write32 (header + 4) size

/-- `header->is_hole = isHole`. -/
def setHeaderIsHole (m : Memory) (header isHole : Nat) : Memory := m.write8 (header + 8) isHole

/-- `footer->header = header`. -/
def setFooterHeader (m : Memory) (footer header : Nat) : Memory := m.write32 (footer + 4) header

/-- The three assignments that make a header. -/
def writeHeader (m : Memory) (header size isHole : Nat) : Memory :=
  setHeaderIsHole (setHeaderSize (m.write32 header heapMagic) header size) header isHole

/-- The two assignments that make a footer. -/
def writeFooter (m : Memory) (footer header : Nat) : Memory :=
  (setFooterHeader m footer header).write32 footer heapMagic

/-! ## What a tag says -/

/-- The header at `header` is in order and says `size` and `isHole`. -/
structure HeaderAt (m : Memory) (header size : Nat) (isHole : Bool) : Prop where
  magic : headerMagic m header = heapMagic
  size : headerSize m header = size
  isHole : headerIsHole m header = isHole.toNat

/-- The footer at `footer` is in order and points back to `header`. -/
structure FooterAt (m : Memory) (footer header : Nat) : Prop where
  magic : footerMagic m footer = heapMagic
  header : footerHeader m footer = header

variable {m m' : Memory} {header footer size isHole lo hi : Nat} {hole : Bool}

/-! ## Writes stay inside the tag -/

theorem agreeOff_writeHeader (hlo : lo ≤ header) (hhi : header + 12 ≤ hi)
    (hw : header + 12 ≤ 0x100000000) :
    Memory.AgreeOff lo hi m (writeHeader m header size isHole) := by
  have h1 : Memory.AgreeOff lo hi m (m.write32 header heapMagic) :=
    Memory.agreeOff_write32 m _ hlo (by omega) (by omega)
  have h2 := Memory.agreeOff_write32 (m.write32 header heapMagic) (a := header + 4) size
    (show lo ≤ header + 4 by omega) (show header + 4 + 4 ≤ hi by omega) (by omega)
  have h3 := Memory.agreeOff_write8 (setHeaderSize (m.write32 header heapMagic) header size)
    (a := header + 8) isHole (show lo ≤ header + 8 by omega) (show header + 8 < hi by omega)
    (by omega)
  exact (h1.trans h2).trans h3

theorem agreeOff_writeFooter (hlo : lo ≤ footer) (hhi : footer + 8 ≤ hi)
    (hw : footer + 8 ≤ 0x100000000) :
    Memory.AgreeOff lo hi m (writeFooter m footer header) := by
  have h1 : Memory.AgreeOff lo hi m (setFooterHeader m footer header) :=
    Memory.agreeOff_write32 m _ (by omega) (by omega) (by omega)
  have h2 := Memory.agreeOff_write32 (setFooterHeader m footer header) (a := footer) heapMagic
    hlo (show footer + 4 ≤ hi by omega) (by omega)
  exact h1.trans h2

/-! ## A tag outside the written interval stays as it is -/

theorem HeaderAt.frame (h : HeaderAt m header size hole) (hag : Memory.AgreeOff lo hi m m')
    (hout : header + 12 ≤ lo ∨ hi ≤ header) (hw : header + 12 ≤ 0x100000000) :
    HeaderAt m' header size hole where
  magic := by
    unfold headerMagic
    rw [hag.read32 (by omega) (by omega)]
    exact h.magic
  size := by
    unfold headerSize
    rw [hag.read32 (by omega) (by omega)]
    exact h.size
  isHole := by
    unfold headerIsHole
    rw [hag.read8 (by omega) (by omega)]
    exact h.isHole

theorem FooterAt.frame (h : FooterAt m footer header) (hag : Memory.AgreeOff lo hi m m')
    (hout : footer + 8 ≤ lo ∨ hi ≤ footer) (hw : footer + 8 ≤ 0x100000000) :
    FooterAt m' footer header where
  magic := by
    unfold footerMagic
    rw [hag.read32 (by omega) (by omega)]
    exact h.magic
  header := by
    unfold footerHeader
    rw [hag.read32 (by omega) (by omega)]
    exact h.header

/-! ## A written tag is in order -/

theorem headerAt_writeHeader (m : Memory) {header size : Nat} (hole : Bool)
    (hw : header + 12 ≤ 0x100000000) (hsize : size < 0x100000000) :
    HeaderAt (writeHeader m header size hole.toNat) header size hole := by
  have h2 : Memory.AgreeOff (header + 4) (header + 8) (m.write32 header heapMagic)
      (setHeaderSize (m.write32 header heapMagic) header size) :=
    Memory.agreeOff_write32 _ _ (Nat.le_refl _) (by omega) (by omega)
  have h3 : Memory.AgreeOff (header + 8) (header + 12)
      (setHeaderSize (m.write32 header heapMagic) header size)
      (writeHeader m header size hole.toNat) :=
    Memory.agreeOff_write8 _ _ (Nat.le_refl _) (by omega) (by omega)
  refine ⟨?_, ?_, ?_⟩
  · unfold headerMagic
    rw [h3.read32 (by omega) (by omega), h2.read32 (by omega) (by omega)]
    exact Memory.read32_write32_self m (by decide)
  · unfold headerSize
    rw [h3.read32 (by omega) (by omega)]
    exact Memory.read32_write32_self _ hsize
  · unfold headerIsHole writeHeader setHeaderIsHole
    rw [Memory.read8_write8_self]
    cases hole <;> rfl

theorem footerAt_writeFooter (m : Memory) {footer header : Nat} (hw : footer + 8 ≤ 0x100000000)
    (hheader : header < 0x100000000) : FooterAt (writeFooter m footer header) footer header := by
  have h2 : Memory.AgreeOff footer (footer + 4) (setFooterHeader m footer header)
      (writeFooter m footer header) :=
    Memory.agreeOff_write32 _ _ (Nat.le_refl _) (by omega) (by omega)
  refine ⟨?_, ?_⟩
  · unfold footerMagic writeFooter
    exact Memory.read32_write32_self _ (by decide)
  · unfold footerHeader
    rw [h2.read32 (by omega) (by omega)]
    exact Memory.read32_write32_self m hheader

/-- Changing the size of a header that is in order. -/
theorem HeaderAt.setSize (h : HeaderAt m header size hole) {size' : Nat}
    (hw : header + 12 ≤ 0x100000000) (hsize : size' < 0x100000000) :
    HeaderAt (setHeaderSize m header size') header size' hole := by
  have hag : Memory.AgreeOff (header + 4) (header + 8) m (setHeaderSize m header size') :=
    Memory.agreeOff_write32 _ _ (Nat.le_refl _) (by omega) (by omega)
  refine ⟨?_, Memory.read32_write32_self m hsize, ?_⟩
  · unfold headerMagic
    rw [hag.read32 (by omega) (by omega)]
    exact h.magic
  · unfold headerIsHole
    rw [hag.read8 (by omega) (by omega)]
    exact h.isHole

/-- Setting the hole flag of a header that is in order. -/
theorem HeaderAt.setIsHole (h : HeaderAt m header size hole) (hole' : Bool)
    (hw : header + 12 ≤ 0x100000000) :
    HeaderAt (setHeaderIsHole m header hole'.toNat) header size hole' := by
  have hag : Memory.AgreeOff (header + 8) (header + 12) m
      (setHeaderIsHole m header hole'.toNat) :=
    Memory.agreeOff_write8 _ _ (Nat.le_refl _) (by omega) (by omega)
  refine ⟨?_, ?_, ?_⟩
  · unfold headerMagic
    rw [hag.read32 (by omega) (by omega)]
    exact h.magic
  · unfold headerSize
    rw [hag.read32 (by omega) (by omega)]
    exact h.size
  · unfold headerIsHole setHeaderIsHole
    rw [Memory.read8_write8_self]
    cases hole' <;> rfl

/-- Pointing a footer that is in order to another header. -/
theorem FooterAt.setHeader (h : FooterAt m footer header) {header' : Nat}
    (hw : footer + 8 ≤ 0x100000000) (hheader : header' < 0x100000000) :
    FooterAt (setFooterHeader m footer header') footer header' := by
  have hag : Memory.AgreeOff (footer + 4) (footer + 8) m (setFooterHeader m footer header') :=
    Memory.agreeOff_write32 _ _ (Nat.le_refl _) (by omega) (by omega)
  refine ⟨?_, Memory.read32_write32_self m hheader⟩
  unfold footerMagic
  rw [hag.read32 (by omega) (by omega)]
  exact h.magic

/-! ## The size of a header, also where the addresses wrap around -/

theorem headerSize_setHeaderSize_self (m : Memory) (header : Nat) {size : Nat}
    (hsize : size < 0x100000000) : headerSize (setHeaderSize m header size) header = size :=
  Memory.read32_write32_self m hsize

theorem headerSize_setHeaderSize_ne {a : Nat}
    (h : ∀ k j, k < 4 → j < 4 → wrap32 (a + 4 + k) ≠ wrap32 (header + 4 + j)) :
    headerSize (setHeaderSize m header size) a = headerSize m a := Memory.read32_write32_ne size h

theorem headerSize_writeFooter_ne {a : Nat}
    (h : ∀ k j, k < 4 → j < 8 → wrap32 (a + 4 + k) ≠ wrap32 (footer + j)) :
    headerSize (writeFooter m footer header) a = headerSize m a := by
  have hmagic : headerSize (writeFooter m footer header) a =
      headerSize (setFooterHeader m footer header) a :=
    Memory.read32_write32_ne heapMagic fun k j hk hj => h k j hk (by omega)
  refine hmagic.trans (Memory.read32_write32_ne header fun k j hk hj => ?_)
  rw [Nat.add_assoc footer]
  exact h k (4 + j) hk (by omega)

theorem headerSize_writeHeader_self (m : Memory) (header isHole : Nat) {size : Nat}
    (hsize : size < 0x100000000) : headerSize (writeHeader m header size isHole) header = size := by
  refine (Memory.read32_write8_ne isHole fun k hk => ?_).trans
    (headerSize_setHeaderSize_self (m.write32 header heapMagic) header hsize)
  rw [Nat.add_assoc]
  exact Memory.wrap32_add_ne (by omega) (by omega)

theorem headerSize_writeHeader_ne {a : Nat}
    (h : ∀ k j, k < 4 → j < 9 → wrap32 (a + 4 + k) ≠ wrap32 (header + j)) :
    headerSize (writeHeader m header size isHole) a = headerSize m a := by
  have hflag : headerSize (writeHeader m header size isHole) a =
      headerSize (setHeaderSize (m.write32 header heapMagic) header size) a :=
    Memory.read32_write8_ne isHole fun k hk => h k 8 hk (by decide)
  refine hflag.trans ((headerSize_setHeaderSize_ne fun k j hk hj => ?_).trans
    (Memory.read32_write32_ne heapMagic fun k j hk hj => h k j hk (by omega)))
  rw [Nat.add_assoc header]
  exact h k (4 + j) hk (by omega)

end Xylophone
