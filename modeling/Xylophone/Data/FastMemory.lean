import Xylophone.Heap.Realloc
import Xylophone.Infra.Loop

/-!
# `memory.h`: copies and fills by words

`fast_memcpy` and `fast_memset` go on by bytes up to an aligned address, by words from there on, and by
bytes again at the end. Each turn of each loop leaves the same work as the turns of the plain loop
would.

* `memcpy_setsExactly`, `memset_setsExactly` — what the plain loops do
* `fast_memory_eq` — the fast functions do the same
-/

namespace Xylophone

open Infra Memory

/-! ## The source -/

/-- The variables of `fast_memcpy`: `n` bytes are to be copied from `s` to `d`. -/
structure CopyState where
  mem : Memory
  d : Nat
  s : Nat
  n : Nat

namespace CopyState

/-- `*d++ = *s++; n--;` -/
def byte (c : CopyState) : CopyState :=
  ⟨c.mem.write8 c.d (c.mem.read8 c.s), c.d + 1, c.s + 1, c.n - 1⟩

/-- `*d32++ = *s32++; n -= 4;` -/
def word (c : CopyState) : CopyState :=
  ⟨c.mem.write32 c.d (c.mem.read32 c.s), c.d + 4, c.s + 4, c.n - 4⟩

/-- Four words, and `n -= 16`. -/
def block (c : CopyState) : CopyState :=
  let m := c.mem.write32 c.d (c.mem.read32 c.s)
  let m := m.write32 (c.d + 4) (m.read32 (c.s + 4))
  let m := m.write32 (c.d + 8) (m.read32 (c.s + 8))
  let m := m.write32 (c.d + 12) (m.read32 (c.s + 12))
  ⟨m, c.d + 16, c.s + 16, c.n - 16⟩

/-- `while (n > 0 && ((uintptr_t)d & 3))` -/
def align (c : CopyState) : CopyState :=
  whileLoop (fun c => 0 < c.n && c.d &&& 3 != 0) byte c.n c

/-- `while (n >= 16)` -/
def blocks (c : CopyState) : CopyState := whileLoop (fun c => 16 ≤ c.n) block c.n c

/-- `while (n >= 4)` -/
def words (c : CopyState) : CopyState := whileLoop (fun c => 4 ≤ c.n) word c.n c

/-- `while (n--)` -/
def bytes (c : CopyState) : CopyState := whileLoop (fun c => c.n != 0) byte c.n c

end CopyState

/-- `fast_memcpy` -/
def fastMemcpy (m : Memory) (dest src n : Nat) : Memory :=
  (CopyState.mk m dest src n).align.blocks.words.bytes.mem

/-- `memset`: the memory after `count` turns of its loop. -/
def memset (m : Memory) (dest val : Nat) : (count : Nat) → Memory
  | 0 => m
  | i + 1 => (memset m dest val i).write8 (dest + i) val

/-- The variables of `fast_memset`. -/
structure FillState where
  mem : Memory
  d : Nat
  n : Nat

namespace FillState

/-- `*d++ = (uint8_t)value; n--;` -/
def byte (val : Nat) (c : FillState) : FillState := ⟨c.mem.write8 c.d val, c.d + 1, c.n - 1⟩

/-- `*d32++ = val32; n -= 4;` -/
def word (val32 : Nat) (c : FillState) : FillState := ⟨c.mem.write32 c.d val32, c.d + 4, c.n - 4⟩

/-- `while (n > 0 && ((uintptr_t)d & 3))` -/
def align (val : Nat) (c : FillState) : FillState :=
  whileLoop (fun c => 0 < c.n && c.d &&& 3 != 0) (byte val) c.n c

/-- `while (n >= 4)` -/
def words (val32 : Nat) (c : FillState) : FillState :=
  whileLoop (fun c => 4 ≤ c.n) (word val32) c.n c

/-- `while (n--)` -/
def bytes (val : Nat) (c : FillState) : FillState :=
  whileLoop (fun c => c.n != 0) (byte val) c.n c

end FillState

/-- `(uint8_t)value` -/
def fillByte (value : Int) : Nat := (value % 0x100).toNat

/-- `val32`: the byte in all four places. -/
def fillWord (value : Int) : Nat :=
  let val32 := fillByte value
  let val32 := val32 ||| wrap32 (val32 <<< 8)
  val32 ||| wrap32 (val32 <<< 16)

/-- `fast_memset` -/
def fastMemset (m : Memory) (dest : Nat) (value : Int) (n : Nat) : Memory :=
  let val := fillByte value
  ((((FillState.mk m dest n).align val).words (fillWord value)).bytes val).mem

variable {m : Memory} {c : CopyState}

/-! ## `memcpy` -/

/-- No byte of the source lies in the destination, for `n` bytes from each on. -/
def Apart (d s n : Nat) : Prop := ∀ i < n, ∀ j < n, wrap32 (d + i) ≠ wrap32 (s + j)

theorem Apart.drop {d s n : Nat} (h : Apart d s n) {k : Nat} (hk : k ≤ n) :
    Apart (d + k) (s + k) (n - k) := by
  intro i hi j hj
  have hne := h (k + i) (by omega) (k + j) (by omega)
  rwa [← Nat.add_assoc, ← Nat.add_assoc] at hne

theorem memcpy_add (m : Memory) (d s k n : Nat) :
    memcpy m d s (k + n) = memcpy (memcpy m d s k) (d + k) (s + k) n := by
  induction n with
  | zero => rfl
  | succ n ih => rw [← Nat.add_assoc, memcpy, memcpy, ih, Nat.add_assoc, Nat.add_assoc]

/-- A word that is copied is four bytes that are copied. -/
theorem write32_read32_eq (m : Memory) {d s : Nat} (h : Apart d s 4) :
    m.write32 d (m.read32 s) = memcpy m d s 4 := by
  have h0 := m.read8_lt s
  have h1 := m.read8_lt (s + 1)
  have h2 := m.read8_lt (s + 2)
  have h3 := m.read8_lt (s + 3)
  have hkeep : ∀ (m : Memory) (v i j : Nat), i < 4 → j < 4 →
      (m.write8 (d + i) v).read8 (s + j) = m.read8 (s + j) := fun m v i j hi hj =>
    read8_write8_ne v (h i hi j hj).symm
  have hfirst : ∀ (m : Memory) (v j : Nat), j < 4 →
      (m.write8 d v).read8 (s + j) = m.read8 (s + j) := fun m v j hj =>
    hkeep m v 0 j (by decide) hj
  rw [read32, write32_eq m d h0 h1 h2 h3]
  simp (disch := omega) only [memcpy, Nat.add_zero, hfirst, hkeep]

/-- The bytes of the destination are the ones given by `f`, and all others are as they were. -/
def SetsExactly (m m' : Memory) (dest n : Nat) (f : Nat → Nat) : Prop :=
  (∀ k < n, m'.read8 (dest + k) = f k) ∧ ∀ b, (∀ k < n, wrap32 (dest + k) ≠ b) → m' b = m b

/-- One byte more. -/
theorem SetsExactly.write8 {m' : Memory} {d n v : Nat} {f : Nat → Nat} (h : SetsExactly m m' d n f)
    (hn : n + 1 < 0x100000000) (hv : v = f n) (hbyte : v < 0x100) :
    SetsExactly m (m'.write8 (d + n) v) d (n + 1) f := by
  obtain ⟨hset, hkeep⟩ := h
  refine ⟨fun k hk => ?_, fun b hb => ?_⟩
  · rcases Nat.lt_or_eq_of_le (Nat.le_of_lt_succ hk) with hlt | rfl
    · rw [read8_write8_ne _ (wrap32_add_ne hlt (by omega)), hset k hlt]
    · rw [read8_write8_self, Nat.mod_eq_of_lt hbyte, hv]
  · rw [write8_of_ne _ (hb n (by omega))]
    exact hkeep b fun k hk => hb k (by omega)

/-- **What `memcpy` does**, when the source is not in the destination. -/
theorem memcpy_setsExactly (m : Memory) {d s n : Nat} (hn : n < 0x100000000) (h : Apart d s n) :
    SetsExactly m (memcpy m d s n) d n fun k => m.read8 (s + k) := by
  induction n with
  | zero => exact ⟨fun k hk => absurd hk (Nat.not_lt_zero k), fun b _ => rfl⟩
  | succ n ih =>
    have hbefore := ih (by omega) fun i hi j hj => h i (by omega) j (by omega)
    have hsource : (memcpy m d s n).read8 (s + n) = m.read8 (s + n) :=
      congrArg UInt8.toNat (hbefore.2 _ fun k hk => h k (by omega) n (by omega))
    exact hbefore.write8 hn hsource ((memcpy m d s n).read8_lt (s + n))

/-! ## `fast_memcpy` -/

namespace CopyState

/-- What the plain loop makes of the rest. -/
def rest (c : CopyState) : Memory := memcpy c.mem c.d c.s c.n

/-- The rest is copied to the result, and nothing of its source has been written. -/
def CopiesTo (r : Memory) (c : CopyState) : Prop := c.rest = r ∧ Apart c.d c.s c.n

variable {r : Memory}

theorem CopiesTo.byte (h : c.CopiesTo r) (hn : 0 < c.n) : c.byte.CopiesTo r := by
  obtain ⟨hrest, hapart⟩ := h
  refine ⟨?_, hapart.drop hn⟩
  rw [← hrest, rest, rest, show c.n = 1 + (c.n - 1) by omega, memcpy_add]
  simp only [CopyState.byte, memcpy, Nat.add_zero]

theorem CopiesTo.word (h : c.CopiesTo r) (hn : 4 ≤ c.n) : c.word.CopiesTo r := by
  obtain ⟨hrest, hapart⟩ := h
  refine ⟨?_, hapart.drop hn⟩
  have hword := write32_read32_eq c.mem (d := c.d) (s := c.s) fun i hi j hj =>
    hapart i (by omega) j (by omega)
  rw [← hrest, rest, rest, show c.n = 4 + (c.n - 4) by omega, memcpy_add, ← hword]
  simp only [CopyState.word]

/-- A block is four words. -/
theorem block_eq (c : CopyState) : c.block = c.word.word.word.word := by
  simp only [block, word, Nat.add_assoc, Nat.sub_sub, Nat.reduceAdd]

theorem CopiesTo.block (h : c.CopiesTo r) (hn : 16 ≤ c.n) : c.block.CopiesTo r := by
  rw [block_eq]
  have h1 := h.word (by omega)
  have h2 := h1.word (show 4 ≤ c.n - 4 by omega)
  have h3 := h2.word (show 4 ≤ c.n - 4 - 4 by omega)
  exact h3.word (show 4 ≤ c.n - 4 - 4 - 4 by omega)

theorem CopiesTo.align (h : c.CopiesTo r) : c.align.CopiesTo r :=
  whileLoop_keeps (fun c hc hI => hI.byte (by simp at hc; omega)) c.n h

theorem CopiesTo.blocks (h : c.CopiesTo r) : c.blocks.CopiesTo r :=
  whileLoop_keeps (fun c hc hI => hI.block (by simpa using hc)) c.n h

theorem CopiesTo.words (h : c.CopiesTo r) : c.words.CopiesTo r :=
  whileLoop_keeps (fun c hc hI => hI.word (by simpa using hc)) c.n h

/-- Nothing is left after the last loop. -/
theorem CopiesTo.bytes (h : c.CopiesTo r) : c.bytes.mem = r := by
  have hend : c.bytes.CopiesTo r :=
    whileLoop_keeps (fun c hc hI => hI.byte (by simp at hc; omega)) c.n h
  have hstop : (c.bytes.n != 0) = false :=
    whileLoop_stops (fun c => c.n != 0) CopyState.byte n
      (fun c hc => by simp at hc; simp [CopyState.byte]; omega) (Nat.le_refl c.n)
  have hrest := hend.1
  rwa [rest, bne_eq_false_iff_eq.mp hstop] at hrest

end CopyState

/-- Every loop of `fast_memcpy` goes on towards what `memcpy` gives. -/
theorem fastMemcpy_eq (m : Memory) {dest src n : Nat} (h : Apart dest src n) :
    fastMemcpy m dest src n = memcpy m dest src n := by
  have hstart : (CopyState.mk m dest src n).CopiesTo (memcpy m dest src n) := ⟨rfl, h⟩
  exact hstart.align.blocks.words.bytes

/-! ## `memset` and `fast_memset` -/

theorem memset_add (m : Memory) (d val k n : Nat) :
    memset m d val (k + n) = memset (memset m d val k) (d + k) val n := by
  induction n with
  | zero => rfl
  | succ n ih => rw [← Nat.add_assoc, memset, memset, ih, Nat.add_assoc]

/-- **What `memset` does.** -/
theorem memset_setsExactly (m : Memory) (d : Nat) {val n : Nat} (hn : n < 0x100000000)
    (hval : val < 0x100) : SetsExactly m (memset m d val n) d n fun _ => val := by
  induction n with
  | zero => exact ⟨fun k hk => absurd hk (Nat.not_lt_zero k), fun b _ => rfl⟩
  | succ n ih => exact (ih (by omega)).write8 hn rfl hval

/-- A word of memory that has been cleared. -/
theorem memset_zero_read32 (m : Memory) (d : Nat) {k n : Nat} (hn : n < 0x100000000)
    (hk : k + 4 ≤ n) : (memset m d 0 n).read32 (d + k) = 0 := by
  have hset := (memset_setsExactly m d hn (show 0 < 0x100 by decide)).1
  have h0 := hset k (by omega)
  have h1 := hset (k + 1) (by omega)
  have h2 := hset (k + 2) (by omega)
  have h3 := hset (k + 3) (by omega)
  simp only [← Nat.add_assoc] at h1 h2 h3
  rw [Memory.read32, h0, h1, h2, h3]

theorem fillByte_lt (value : Int) : fillByte value < 0x100 := by
  unfold fillByte
  omega

/-- The byte in all four places of the word. -/
theorem fillWord_eq (value : Int) : fillWord value = fillByte value + 0x100 * fillByte value +
    0x10000 * fillByte value + 0x1000000 * fillByte value := by
  have hlt := fillByte_lt value
  have hhalf : fillByte value ||| wrap32 (fillByte value <<< 8) = fillByte value * 0x101 := by
    have hshift : wrap32 (fillByte value <<< 8) = fillByte value <<< 8 := by
      rw [Nat.shiftLeft_eq]
      exact wrap32_of_lt (by omega)
    rw [hshift, Nat.or_comm, ← Nat.shiftLeft_add_eq_or_of_lt (show _ < 2 ^ 8 from hlt),
      Nat.shiftLeft_eq]
    omega
  have hshift : wrap32 ((fillByte value * 0x101) <<< 16) = (fillByte value * 0x101) <<< 16 := by
    rw [Nat.shiftLeft_eq]
    exact wrap32_of_lt (by omega)
  rw [fillWord]
  simp only [hhalf]
  rw [hshift, Nat.or_comm, ← Nat.shiftLeft_add_eq_or_of_lt (show _ < 2 ^ 16 by omega),
    Nat.shiftLeft_eq]
  omega

/-- A word that is filled is four bytes that are filled. -/
theorem write32_fillWord (m : Memory) (d : Nat) (value : Int) :
    m.write32 d (fillWord value) = memset m d (fillByte value) 4 := by
  have hlt := fillByte_lt value
  rw [fillWord_eq, write32_eq m d hlt hlt hlt hlt]
  simp only [memset, Nat.add_zero]

namespace FillState

variable {r : Memory} {val : Nat} {value : Int} {c : FillState}

/-- The plain loop would fill the rest to the result. -/
def FillsTo (r : Memory) (val : Nat) (c : FillState) : Prop := memset c.mem c.d val c.n = r

theorem FillsTo.byte (h : c.FillsTo r val) (hn : 0 < c.n) : (c.byte val).FillsTo r val := by
  have hrest : memset c.mem c.d val c.n = r := h
  rw [show c.n = 1 + (c.n - 1) by omega, memset_add] at hrest
  exact hrest

theorem FillsTo.word (h : c.FillsTo r (fillByte value)) (hn : 4 ≤ c.n) :
    (c.word (fillWord value)).FillsTo r (fillByte value) := by
  have hrest : memset c.mem c.d (fillByte value) c.n = r := h
  rw [show c.n = 4 + (c.n - 4) by omega, memset_add, ← write32_fillWord] at hrest
  exact hrest

theorem FillsTo.align (h : c.FillsTo r val) : (c.align val).FillsTo r val :=
  whileLoop_keeps (fun c hc hI => hI.byte (by simp at hc; omega)) c.n h

theorem FillsTo.words (h : c.FillsTo r (fillByte value)) :
    (c.words (fillWord value)).FillsTo r (fillByte value) :=
  whileLoop_keeps (fun c hc hI => hI.word (by simpa using hc)) c.n h

/-- Nothing is left after the last loop. -/
theorem FillsTo.bytes (h : c.FillsTo r val) : (c.bytes val).mem = r := by
  have hend : (c.bytes val).FillsTo r val :=
    whileLoop_keeps (fun c hc hI => hI.byte (by simp at hc; omega)) c.n h
  have hstop : ((c.bytes val).n != 0) = false :=
    whileLoop_stops (fun c => c.n != 0) (FillState.byte val) n
      (fun c hc => by simp at hc; simp [FillState.byte]; omega) (Nat.le_refl c.n)
  have hrest : memset (c.bytes val).mem (c.bytes val).d val (c.bytes val).n = r := hend
  rwa [bne_eq_false_iff_eq.mp hstop] at hrest

end FillState

/-- Every loop of `fast_memset` goes on towards what `memset` gives. -/
theorem fastMemset_eq (m : Memory) (dest : Nat) (value : Int) (n : Nat) :
    fastMemset m dest value n = memset m dest (fillByte value) n := by
  have hstart : (FillState.mk m dest n).FillsTo (memset m dest (fillByte value) n)
    (fillByte value) := rfl
  exact hstart.align.words.bytes

/-- **The fast functions do what the plain ones do**: the bytes of the destination are set, and no
other byte is written. -/
theorem fast_memory_eq (m : Memory) (dest src : Nat) (value : Int) {n : Nat}
    (hn : n < 0x100000000) :
    (Apart dest src n → fastMemcpy m dest src n = memcpy m dest src n ∧
      SetsExactly m (fastMemcpy m dest src n) dest n fun k => m.read8 (src + k)) ∧
    fastMemset m dest value n = memset m dest (fillByte value) n ∧
      SetsExactly m (fastMemset m dest value n) dest n fun _ => fillByte value := by
  refine ⟨fun h => ⟨fastMemcpy_eq m h, ?_⟩, fastMemset_eq m dest value n, ?_⟩
  · rw [fastMemcpy_eq m h]
    exact memcpy_setsExactly m hn h
  · rw [fastMemset_eq]
    exact memset_setsExactly m dest hn (fillByte_lt value)

/-- An address that is not aligned, and a length with a rest. -/
theorem fast_memory_eq_odd :
    fastMemcpy UInt8.ofNat 0x1001 0x2002 23 = memcpy UInt8.ofNat 0x1001 0x2002 23 := by
  refine ((fast_memory_eq UInt8.ofNat 0x1001 0x2002 0 (by decide)).1 fun i hi j hj => ?_).1
  unfold wrap32
  omega

end Xylophone
