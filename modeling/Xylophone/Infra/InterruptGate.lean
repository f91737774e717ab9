import Xylophone.Infra.Memory

/-!
# Interrupt gates

The processor reads a gate from eight bytes, as two words. The offset of the entry is in the outer
halves of the words.

* `ofWords` — the gate in two words
* `ofWords_bytes` — its fields from the eight bytes
-/

namespace Infra

/-- The fields of a gate, each within its width. -/
@[ext]
structure InterruptGate where
  offset : Nat
  selector : Nat
  flags : Nat
  offset_lt : offset < 0x100000000
  selector_lt : selector < 0x10000
  flags_lt : flags < 0x100

namespace InterruptGate

theorem offset_words_lt (lo hi : Nat) :
    lo % 0x10000 + 0x10000 * (hi / 0x10000 % 0x10000) < 0x100000000 := by
  omega

theorem selector_word_lt (lo : Nat) : lo / 0x10000 % 0x10000 < 0x10000 := Nat.mod_lt _ (by decide)

theorem flags_word_lt (hi : Nat) : hi / 0x100 % 0x100 < 0x100 := Nat.mod_lt _ (by decide)

/-- The gate in the words `lo` and `hi`. -/
def ofWords (lo hi : Nat) : InterruptGate where
  offset := lo % 0x10000 + 0x10000 * (hi / 0x10000 % 0x10000)
  selector := lo / 0x10000 % 0x10000
  flags := hi / 0x100 % 0x100
  offset_lt := offset_words_lt lo hi
  selector_lt := selector_word_lt lo
  flags_lt := flags_word_lt hi

/-- The gate can be used. -/
def Present (g : InterruptGate) : Prop := 0x80 ≤ g.flags

/-- The gate of an interrupt for 32-bit code: interrupts are disabled behind it. -/
def Interrupt32 (g : InterruptGate) : Prop := g.flags % 0x20 = 0x0E

/-- The least privileged level that may use the gate by an instruction. -/
def privilege (g : InterruptGate) : Nat := g.flags / 0x20 % 4

instance (g : InterruptGate) : Decidable g.Present := inferInstanceAs (Decidable (_ ≤ _))

instance (g : InterruptGate) : Decidable g.Interrupt32 := inferInstanceAs (Decidable (_ = _))

/-- The bytes of a gate. -/
def byte (g : InterruptGate) : Nat → Nat
  | 0 => g.offset % 0x100
  | 1 => g.offset / 0x100 % 0x100
  | 2 => g.selector % 0x100
  | 3 => g.selector / 0x100
  | 4 => 0
  | 5 => g.flags
  | 6 => g.offset / 0x10000 % 0x100
  | _ => g.offset / 0x1000000

/-- **The words of the bytes of a gate.** -/
theorem ofWords_bytes (g : InterruptGate) :
    ofWords (g.byte 0 + 0x100 * g.byte 1 + 0x10000 * g.byte 2 + 0x1000000 * g.byte 3)
      (g.byte 4 + 0x100 * g.byte 5 + 0x10000 * g.byte 6 + 0x1000000 * g.byte 7) = g := by
  have hoffset := g.offset_lt
  have hselector := g.selector_lt
  have hflags := g.flags_lt
  have hlo : g.byte 0 + 0x100 * g.byte 1 + 0x10000 * g.byte 2 + 0x1000000 * g.byte 3 =
      g.offset % 0x10000 + 0x10000 * g.selector := by
    simp only [byte]
    omega
  have hhi : g.byte 4 + 0x100 * g.byte 5 + 0x10000 * g.byte 6 + 0x1000000 * g.byte 7 =
      0x100 * g.flags + 0x10000 * (g.offset / 0x10000) := by
    simp only [byte]
    omega
  rw [hlo, hhi]
  ext
  · simp only [ofWords]
    omega
  · simp only [ofWords]
    omega
  · simp only [ofWords]
    omega

end InterruptGate

namespace Memory

/-- The gate at `a`. -/
def readGate (m : Memory) (a : Nat) : InterruptGate := .ofWords (m.read32 a) (m.read32 (a + 4))

/-- A gate whose bytes are at `a`. -/
theorem readGate_eq {m : Memory} {a : Nat} {g : InterruptGate}
    (h : ∀ k < 8, m.read8 (a + k) = g.byte k) : m.readGate a = g := by
  have h0 : m.read8 a = g.byte 0 := h 0 (by decide)
  rw [readGate, read32, read32, h0, h 1 (by decide), h 2 (by decide), h 3 (by decide),
    h 4 (by decide), Nat.add_assoc a, Nat.add_assoc a, Nat.add_assoc a, h 5 (by decide),
    h 6 (by decide), h 7 (by decide), InterruptGate.ofWords_bytes]

/-- A gate none of whose bytes have been written. -/
theorem readGate_congr {m m' : Memory} {a : Nat}
    (h : ∀ k < 8, m'.read8 (a + k) = m.read8 (a + k)) : m'.readGate a = m.readGate a := by
  have hlo : m'.read32 a = m.read32 a := read32_congr fun k hk => h k (by omega)
  have hhi : m'.read32 (a + 4) = m.read32 (a + 4) := read32_congr fun k hk => by
    rw [Nat.add_assoc]
    exact h (4 + k) (by omega)
  rw [readGate, readGate, hlo, hhi]

end Memory

end Infra
