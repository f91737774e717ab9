import Xylophone.Infra.Word

/-!
# Byte-addressed memory

The memory of a 32-bit machine: one byte for each address, words little-endian, addresses
taken modulo `0x100000000`. Proofs about a write do not look inside it. They say which interval
it may have changed (`AgreeOff`), and every read of a word outside that interval is unchanged
(`AgreeOff.read32`, `AgreeOff.read8`), or which interval it has left alone (`AgreeOn`).
-/

namespace Infra

/-- One byte for each address. -/
def Memory := Nat → UInt8

namespace Memory

def read8 (m : Memory) (a : Nat) : Nat := (m (wrap32 a)).toNat

def write8 (m : Memory) (a v : Nat) : Memory :=
  fun b => if b = wrap32 a then UInt8.ofNat v else m b

/-- The little-endian word at `a`. -/
def read32 (m : Memory) (a : Nat) : Nat :=
  m.read8 a + 0x100 * m.read8 (a + 1) + 0x10000 * m.read8 (a + 2) + 0x1000000 * m.read8 (a + 3)

def write32 (m : Memory) (a v : Nat) : Memory :=
  (((m.write8 a v).write8 (a + 1) (v / 0x100)).write8 (a + 2) (v / 0x10000)).write8 (a + 3)
    (v / 0x1000000)

/-- The little-endian halfword at `a`. -/
def write16 (m : Memory) (a v : Nat) : Memory := (m.write8 a v).write8 (a + 1) (v / 0x100)

/-- Memory after the `n` bytes from `a` on have been set to zero. -/
def zero (m : Memory) (a n : Nat) : Memory := fun b => if sub32 b a < n then 0 else m b

theorem read8_lt (m : Memory) (a : Nat) : m.read8 a < 0x100 := (m (wrap32 a)).toNat_lt

theorem read32_lt (m : Memory) (a : Nat) : m.read32 a < 0x100000000 := by
  have h0 := m.read8_lt a
  have h1 := m.read8_lt (a + 1)
  have h2 := m.read8_lt (a + 2)
  have h3 := m.read8_lt (a + 3)
  unfold read32
  omega

theorem read32_congr {m m' : Memory} {a : Nat}
    (h : ∀ k, k < 4 → m'.read8 (a + k) = m.read8 (a + k)) :
    m'.read32 a = m.read32 a := by
  have h0 : m'.read8 a = m.read8 a := h 0 (by omega)
  unfold read32
  rw [h0, h 1 (by omega), h 2 (by omega), h 3 (by omega)]

/-! ## A byte read after a byte write -/

theorem read8_write8_self (m : Memory) (a v : Nat) : (m.write8 a v).read8 a = v % 0x100 := by
  simp [read8, write8]

theorem read8_write8_ne {m : Memory} {a b : Nat} (v : Nat) (h : wrap32 b ≠ wrap32 a) :
    (m.write8 a v).read8 b = m.read8 b := by
  simp [read8, write8, h]

theorem write8_of_ne {m : Memory} {a b : Nat} (v : Nat) (h : wrap32 a ≠ b) :
    m.write8 a v b = m b := if_neg h.symm

theorem write32_of_ne (m : Memory) {a b : Nat} (v : Nat) (h : ∀ k < 4, wrap32 (a + k) ≠ b) :
    m.write32 a v b = m b := by
  have h0 : wrap32 a ≠ b := h 0 (by decide)
  rw [write32, write8_of_ne _ (h 3 (by decide)), write8_of_ne _ (h 2 (by decide)),
    write8_of_ne _ (h 1 (by decide)), write8_of_ne _ h0]

/-- A byte is the same after two writes of one word if it was the same where they do not write. -/
theorem write32_congr {m m' : Memory} {a b : Nat} (v : Nat)
    (h : (∀ k < 4, wrap32 (a + k) ≠ b) → m' b = m b) : m'.write32 a v b = m.write32 a v b := by
  by_cases hout : ∀ k < 4, wrap32 (a + k) ≠ b
  · rw [write32_of_ne m' v hout, write32_of_ne m v hout, h hout]
  · push Not at hout
    obtain ⟨k, hk, rfl⟩ := hout
    unfold write32 write8
    rcases show k = 0 ∨ k = 1 ∨ k = 2 ∨ k = 3 by omega with rfl | rfl | rfl | rfl <;>
      simp only [Nat.add_zero, if_true]

/-- Only the low byte is stored. -/
theorem write8_mod (m : Memory) (a v : Nat) : m.write8 a (v % 0x100) = m.write8 a v := by
  funext b
  simp only [write8]
  split
  · exact UInt8.toNat_inj.mp (by simp)
  · rfl

/-- A byte that is there already is stored once more. -/
theorem write8_self {m : Memory} {a v : Nat} (h : m.read8 a = v) : m.write8 a v = m := by
  subst h
  funext b
  simp only [write8, read8]
  split
  · simp_all
  · rfl

/-! ## Where two memories agree -/

/-- The two memories differ at most on the interval `[lo, hi)`. -/
def AgreeOff (lo hi : Nat) (m m' : Memory) : Prop :=
  ∀ a, a < 0x100000000 → a < lo ∨ hi ≤ a → m' a = m a

namespace AgreeOff

variable {lo hi lo' hi' a : Nat} {m m' m'' : Memory}

theorem refl (lo hi : Nat) (m : Memory) : AgreeOff lo hi m m := fun _ _ _ => rfl

theorem trans (h : AgreeOff lo hi m m') (h' : AgreeOff lo hi m' m'') : AgreeOff lo hi m m'' :=
  fun a ha hout => (h' a ha hout).trans (h a ha hout)

/-- A larger interval says less. -/
theorem mono (h : AgreeOff lo hi m m') (hlo : lo' ≤ lo) (hhi : hi ≤ hi') :
    AgreeOff lo' hi' m m' :=
  fun a ha hout => h a ha (by omega)

theorem read8 (h : AgreeOff lo hi m m') (ha : a < 0x100000000) (hout : a < lo ∨ hi ≤ a) :
    m'.read8 a = m.read8 a := by
  unfold Memory.read8
  rw [wrap32_of_lt ha, h a ha hout]

theorem read32 (h : AgreeOff lo hi m m') (ha : a + 4 ≤ 0x100000000)
    (hout : a + 4 ≤ lo ∨ hi ≤ a) : m'.read32 a = m.read32 a := by
  unfold Memory.read32
  rw [h.read8 (by omega) (by omega), h.read8 (by omega) (by omega), h.read8 (by omega) (by omega),
    h.read8 (by omega) (by omega)]

/-- Reading through an address that wraps around, when the interval does not reach it. -/
theorem read8_wrap (h : AgreeOff lo hi m m') (hout : wrap32 a < lo ∨ hi ≤ wrap32 a) :
    m'.read8 a = m.read8 a := congrArg UInt8.toNat (h _ (wrap32_lt a) hout)

end AgreeOff

theorem agreeOff_write8 (m : Memory) {lo hi a : Nat} (v : Nat) (hlo : lo ≤ a) (hhi : a < hi)
    (ha : a < 0x100000000) : AgreeOff lo hi m (m.write8 a v) := by
  intro b hb hout
  unfold write8
  rw [if_neg]
  rw [wrap32_of_lt ha]
  omega

theorem agreeOff_write32 (m : Memory) {lo hi a : Nat} (v : Nat) (hlo : lo ≤ a) (hhi : a + 4 ≤ hi)
    (ha : a + 4 ≤ 0x100000000) : AgreeOff lo hi m (m.write32 a v) := by
  have h0 := agreeOff_write8 m v hlo (show a < hi by omega) (by omega)
  have h1 := agreeOff_write8 (m.write8 a v) (v / 0x100) (show lo ≤ a + 1 by omega)
    (show a + 1 < hi by omega) (by omega)
  have h2 := agreeOff_write8 ((m.write8 a v).write8 (a + 1) (v / 0x100)) (v / 0x10000)
    (show lo ≤ a + 2 by omega) (show a + 2 < hi by omega) (by omega)
  have h3 := agreeOff_write8 (((m.write8 a v).write8 (a + 1) (v / 0x100)).write8 (a + 2)
    (v / 0x10000)) (v / 0x1000000) (show lo ≤ a + 3 by omega) (show a + 3 < hi by omega) (by omega)
  exact ((h0.trans h1).trans h2).trans h3

/-- The two memories have the same bytes on the interval `[lo, hi)`. -/
def AgreeOn (lo hi : Nat) (m m' : Memory) : Prop := ∀ a, lo ≤ a → a < hi → m' a = m a

namespace AgreeOn

variable {lo hi lo' hi' a : Nat} {m m' m'' : Memory}

theorem refl (lo hi : Nat) (m : Memory) : AgreeOn lo hi m m := fun _ _ _ => rfl

theorem trans (h : AgreeOn lo hi m m') (h' : AgreeOn lo hi m' m'') : AgreeOn lo hi m m'' :=
  fun a hlo hhi => (h' a hlo hhi).trans (h a hlo hhi)

/-- A smaller interval says less. -/
theorem mono (h : AgreeOn lo hi m m') (hlo : lo ≤ lo') (hhi : hi' ≤ hi) : AgreeOn lo' hi' m m' :=
  fun a ha hout => h a (by omega) (by omega)

theorem read32 (h : AgreeOn lo hi m m') (ha : a + 4 ≤ 0x100000000) (hlo : lo ≤ a)
    (hhi : a + 4 ≤ hi) : m'.read32 a = m.read32 a :=
  read32_congr fun k hk => by
    unfold Memory.read8
    rw [wrap32_of_lt (by omega), h _ (by omega) (by omega)]

end AgreeOn

theorem AgreeOff.agreeOn {lo hi lo' hi' : Nat} {m m' : Memory} (h : AgreeOff lo hi m m')
    (hfits : hi' ≤ 0x100000000) (hapart : hi' ≤ lo ∨ hi ≤ lo') : AgreeOn lo' hi' m m' :=
  fun a ha hout => h a (by omega) (by omega)

/-! ## Words, also where the addresses wrap around -/

theorem wrap32_add_ne {a j k : Nat} (hjk : j < k) (hk : k < 0x100000000) :
    wrap32 (a + j) ≠ wrap32 (a + k) := by
  unfold wrap32
  omega

theorem read32_write32_self (m : Memory) {a v : Nat} (hv : v < 0x100000000) :
    (m.write32 a v).read32 a = v := by
  have hne : ∀ {j k : Nat}, j < k → k < 4 → wrap32 (a + j) ≠ wrap32 (a + k) :=
    fun hjk hk => wrap32_add_ne hjk (by omega)
  have hne0 : ∀ {k : Nat}, 0 < k → k < 4 → wrap32 a ≠ wrap32 (a + k) := hne (j := 0)
  have h0 : (m.write32 a v).read8 a = v % 0x100 := by
    unfold write32
    rw [read8_write8_ne _ (hne0 (by omega) (by omega)),
      read8_write8_ne _ (hne0 (by omega) (by omega)),
      read8_write8_ne _ (hne0 (by omega) (by omega)), read8_write8_self]
  have h1 : (m.write32 a v).read8 (a + 1) = v / 0x100 % 0x100 := by
    unfold write32
    rw [read8_write8_ne _ (hne (by omega) (by omega)),
      read8_write8_ne _ (hne (by omega) (by omega)), read8_write8_self]
  have h2 : (m.write32 a v).read8 (a + 2) = v / 0x10000 % 0x100 := by
    unfold write32
    rw [read8_write8_ne _ (hne (by omega) (by omega)), read8_write8_self]
  have h3 : (m.write32 a v).read8 (a + 3) = v / 0x1000000 % 0x100 := by
    unfold write32
    rw [read8_write8_self]
  unfold read32
  rw [h0, h1, h2, h3]
  omega

/-- A word is stored as its four bytes. -/
theorem write32_eq (m : Memory) (a : Nat) {b0 b1 b2 b3 : Nat} (h0 : b0 < 0x100) (h1 : b1 < 0x100)
    (h2 : b2 < 0x100) (h3 : b3 < 0x100) :
    m.write32 a (b0 + 0x100 * b1 + 0x10000 * b2 + 0x1000000 * b3) =
      (((m.write8 a b0).write8 (a + 1) b1).write8 (a + 2) b2).write8 (a + 3) b3 := by
  rw [write32, ← write8_mod m, ← write8_mod _ (a + 1), ← write8_mod _ (a + 2),
    ← write8_mod _ (a + 3)]
  congr 1
  · congr 1
    · congr 1
      · congr 1
        omega
      · omega
    · omega
  · omega

theorem read32_write8_ne {m : Memory} {a b : Nat} (v : Nat)
    (h : ∀ k, k < 4 → wrap32 (a + k) ≠ wrap32 b) : (m.write8 b v).read32 a = m.read32 a :=
  read32_congr fun k hk => read8_write8_ne v (h k hk)

theorem read32_write32_ne {m : Memory} {a b : Nat} (v : Nat)
    (h : ∀ k j, k < 4 → j < 4 → wrap32 (a + k) ≠ wrap32 (b + j)) :
    (m.write32 b v).read32 a = m.read32 a := by
  unfold write32
  rw [read32_write8_ne _ fun k hk => h k 3 hk (by decide),
    read32_write8_ne _ fun k hk => h k 2 hk (by decide),
    read32_write8_ne _ fun k hk => h k 1 hk (by decide),
    read32_write8_ne _ fun k hk => by simpa using h k 0 hk (by decide)]

end Memory

end Infra
