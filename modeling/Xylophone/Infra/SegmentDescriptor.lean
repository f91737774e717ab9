import Xylophone.Infra.Memory

/-!
# Segment descriptors

The processor reads a descriptor from eight bytes, as two words. Base and limit are spread over both
of them, and the limit shares a byte with the flags.

* `ofWords` — the descriptor in two words
* `ofWords_bytes` — its fields from the eight bytes
-/

namespace Infra

/-- The fields of a descriptor, each within its width. -/
@[ext]
structure SegmentDescriptor where
  base : Nat
  limit : Nat
  access : Nat
  flags : Nat
  base_lt : base < 0x100000000
  limit_lt : limit < 0x100000
  access_lt : access < 0x100
  flags_lt : flags < 0x10

namespace SegmentDescriptor

/-- The descriptor in the words `lo` and `hi`. -/
def ofWords (lo hi : Nat) : SegmentDescriptor where
  base := lo / 0x10000 % 0x10000 + 0x10000 * (hi % 0x100) + 0x1000000 * (hi / 0x1000000 % 0x100)
  limit := lo % 0x10000 + 0x10000 * (hi / 0x10000 % 0x10)
  access := hi / 0x100 % 0x100
  flags := hi / 0x100000 % 0x10
  base_lt := by omega
  limit_lt := by omega
  access_lt := Nat.mod_lt _ (by decide)
  flags_lt := Nat.mod_lt _ (by decide)

/-- The granularity bit is clear: the limit is a number of bytes. -/
def ByteGranular (d : SegmentDescriptor) : Prop := d.flags / 8 = 0

instance (d : SegmentDescriptor) : Decidable d.ByteGranular := inferInstanceAs (Decidable (_ = _))

/-- The bytes of a descriptor. The seventh one holds the flags over the upper part of the limit. -/
def byte (d : SegmentDescriptor) : Nat → Nat
  | 0 => d.limit % 0x100
  | 1 => d.limit / 0x100 % 0x100
  | 2 => d.base % 0x100
  | 3 => d.base / 0x100 % 0x100
  | 4 => d.base / 0x10000 % 0x100
  | 5 => d.access
  | 6 => d.limit / 0x10000 + 0x10 * d.flags
  | _ => d.base / 0x1000000

/-- **The words of the bytes of a descriptor.** -/
theorem ofWords_bytes (d : SegmentDescriptor) :
    ofWords (d.byte 0 + 0x100 * d.byte 1 + 0x10000 * d.byte 2 + 0x1000000 * d.byte 3)
      (d.byte 4 + 0x100 * d.byte 5 + 0x10000 * d.byte 6 + 0x1000000 * d.byte 7) = d := by
  have hbase := d.base_lt
  have hlimit := d.limit_lt
  have haccess := d.access_lt
  have hflags := d.flags_lt
  have hlo : d.byte 0 + 0x100 * d.byte 1 + 0x10000 * d.byte 2 + 0x1000000 * d.byte 3 =
      d.limit % 0x10000 + 0x10000 * (d.base % 0x10000) := by
    simp only [byte]
    omega
  have hhi : d.byte 4 + 0x100 * d.byte 5 + 0x10000 * d.byte 6 + 0x1000000 * d.byte 7 =
      d.base / 0x10000 % 0x100 + 0x100 * d.access + 0x10000 * (d.limit / 0x10000) +
        0x100000 * d.flags + 0x1000000 * (d.base / 0x1000000) := by
    simp only [byte]
    omega
  have hbaseParts : d.base = d.base % 0x10000 + 0x10000 * (d.base / 0x10000 % 0x100) +
      0x1000000 * (d.base / 0x1000000) := by omega
  have hlimitParts : d.limit = d.limit % 0x10000 + 0x10000 * (d.limit / 0x10000) := by omega
  have hhigh : d.base / 0x1000000 < 0x100 := by omega
  have hmiddle : d.base / 0x10000 % 0x100 < 0x100 := Nat.mod_lt _ (by decide)
  have hlow : d.base % 0x10000 < 0x10000 := Nat.mod_lt _ (by decide)
  have hupper : d.limit / 0x10000 < 0x10 := by omega
  have hlower : d.limit % 0x10000 < 0x10000 := Nat.mod_lt _ (by decide)
  rw [hlo, hhi]
  generalize d.base / 0x1000000 = high, d.base / 0x10000 % 0x100 = middle, d.base % 0x10000 = low,
    d.limit / 0x10000 = upper, d.limit % 0x10000 = lower at *
  -- what stands from each field of the second word on
  have hfrom8 : (middle + 0x100 * d.access + 0x10000 * upper + 0x100000 * d.flags +
      0x1000000 * high) / 0x100 = d.access + 0x100 * (upper + 0x10 * d.flags + 0x100 * high) := by
    omega
  have hfrom16 : (middle + 0x100 * d.access + 0x10000 * upper + 0x100000 * d.flags +
      0x1000000 * high) / 0x10000 = upper + 0x10 * (d.flags + 0x10 * high) := by omega
  have hfrom20 : (middle + 0x100 * d.access + 0x10000 * upper + 0x100000 * d.flags +
      0x1000000 * high) / 0x100000 = d.flags + 0x10 * high := by omega
  have hfrom24 : (middle + 0x100 * d.access + 0x10000 * upper + 0x100000 * d.flags +
      0x1000000 * high) / 0x1000000 = high := by omega
  ext
  · simp only [ofWords, hfrom24]
    omega
  · simp only [ofWords, hfrom16]
    omega
  · simp only [ofWords, hfrom8]
    omega
  · simp only [ofWords, hfrom20]
    omega

end SegmentDescriptor

namespace Memory

/-- The descriptor at `a`. -/
def readDescriptor (m : Memory) (a : Nat) : SegmentDescriptor :=
  .ofWords (m.read32 a) (m.read32 (a + 4))

/-- A descriptor whose bytes are at `a`. -/
theorem readDescriptor_eq {m : Memory} {a : Nat} {d : SegmentDescriptor}
    (h : ∀ k < 8, m.read8 (a + k) = d.byte k) : m.readDescriptor a = d := by
  have h0 : m.read8 a = d.byte 0 := h 0 (by decide)
  rw [readDescriptor, read32, read32, h0, h 1 (by decide), h 2 (by decide), h 3 (by decide),
    h 4 (by decide), Nat.add_assoc a, Nat.add_assoc a, Nat.add_assoc a, h 5 (by decide),
    h 6 (by decide), h 7 (by decide), SegmentDescriptor.ofWords_bytes]

/-- A descriptor none of whose bytes have been written. -/
theorem readDescriptor_congr {m m' : Memory} {a : Nat}
    (h : ∀ k < 8, m'.read8 (a + k) = m.read8 (a + k)) :
    m'.readDescriptor a = m.readDescriptor a := by
  have hlo : m'.read32 a = m.read32 a := read32_congr fun k hk => h k (by omega)
  have hhi : m'.read32 (a + 4) = m.read32 (a + 4) := read32_congr fun k hk => by
    rw [Nat.add_assoc]
    exact h (4 + k) (by omega)
  rw [readDescriptor, readDescriptor, hlo, hhi]

end Memory

end Infra
