import Xylophone.Drivers.Pci
import Xylophone.Infra.Memory

/-!
# Access to the configuration space

The address of a word goes to one port, and the word is then read and written through another. A byte
or a pair of bytes is written by reading the word, replacing its bits and writing it back.

The configuration space is a memory: the byte `o` of a function stands at the address of the function
and `o`.

* `replaceBits_eq` — the bits of a field are replaced
* `read32_words` — the words that the scan of the bus reads
* `pci_access` — every access is one to the bytes at the offset
* `pci_access_other` — and to the bytes of that function only
-/

namespace Xylophone

open Infra Memory

/-! ## The source -/

/-- `pci_make_address` -/
def pciMakeAddress (bus slot func offset : Nat) : Nat :=
  0x80000000 ||| (bus <<< 16) ||| ((slot &&& 0x1F) <<< 11) ||| ((func &&& 0x07) <<< 8) |||
    (offset &&& 0xFC)

/-- The two ports, and the configuration space behind them. -/
structure PciPorts where
  address : Nat
  space : Memory

namespace PciPorts

/-- `outportl(PCI_CONFIG_ADDRESS, address)` -/
def select (p : PciPorts) (address : Nat) : PciPorts := { p with address }

/-- `inportl(PCI_CONFIG_DATA)`: the ports take whole words. -/
def inData (p : PciPorts) : Nat := p.space.read32 (p.address / 4 * 4)

/-- `outportl(PCI_CONFIG_DATA, data)` -/
def outData (p : PciPorts) (data : Nat) : PciPorts :=
  { p with space := p.space.write32 (p.address / 4 * 4) data }

/-- `pci_read32` -/
def read32 (p : PciPorts) (bus slot func offset : Nat) : Nat × PciPorts :=
  let p := p.select (pciMakeAddress bus slot func offset)
  (p.inData, p)

/-- `pci_read16` -/
def read16 (p : PciPorts) (bus slot func offset : Nat) : Nat × PciPorts :=
  let (value, p) := p.read32 bus slot func offset
  (value >>> ((offset &&& 2) * 8) &&& 0xFFFF, p)

/-- `pci_read8` -/
def read8 (p : PciPorts) (bus slot func offset : Nat) : Nat × PciPorts :=
  let (value, p) := p.read32 bus slot func offset
  (value >>> ((offset &&& 3) * 8) &&& 0xFF, p)

/-- `pci_write32` -/
def write32 (p : PciPorts) (bus slot func offset data : Nat) : PciPorts :=
  (p.select (pciMakeAddress bus slot func offset)).outData data

/-- `value &= ~(mask << shift); value |= data << shift;` -/
def replaceBits (value mask shift data : Nat) : Nat :=
  (value &&& (0xFFFFFFFF ^^^ wrap32 (mask <<< shift))) ||| wrap32 (data <<< shift)

/-- `pci_write16` -/
def write16 (p : PciPorts) (bus slot func offset data : Nat) : PciPorts :=
  let (value, p) := p.read32 bus slot func offset
  p.write32 bus slot func offset (replaceBits value 0xFFFF ((offset &&& 2) * 8) data)

/-- `pci_write8` -/
def write8 (p : PciPorts) (bus slot func offset data : Nat) : PciPorts :=
  let (value, p) := p.read32 bus slot func offset
  p.write32 bus slot func offset (replaceBits value 0xFF ((offset &&& 3) * 8) data)

end PciPorts

variable {p : PciPorts} {bus slot func o d : Nat}

/-! ## Bits -/

/-- **The bits of a field are replaced**, and the ones above and below it are kept. -/
theorem replaceBits_eq {v d w s : Nat} (hv : v < 0x100000000) (hd : d < 2 ^ w) (hw : s + w ≤ 32) :
    PciPorts.replaceBits v (2 ^ w - 1) s d =
      v / 2 ^ (s + w) * 2 ^ (s + w) + (d * 2 ^ s + v % 2 ^ s) := by
  have hpow : 2 ^ w * 2 ^ s ≤ 0x100000000 := by
    rw [← Nat.pow_add, Nat.add_comm]
    exact Nat.pow_le_pow_right (by decide) hw
  have hbound : ∀ x < 2 ^ w, wrap32 (x <<< s) = x <<< s := by
    intro x hx
    rw [Nat.shiftLeft_eq]
    exact wrap32_of_lt
      (Nat.lt_of_lt_of_le (Nat.mul_lt_mul_of_pos_right hx (Nat.two_pow_pos s)) hpow)
  have hmod := Nat.mod_lt v (Nat.two_pow_pos s)
  have hlow : d * 2 ^ s + v % 2 ^ s < 2 ^ (s + w) :=
    calc d * 2 ^ s + v % 2 ^ s < (d + 1) * 2 ^ s := by rw [Nat.add_mul]; omega
      _ ≤ 2 ^ w * 2 ^ s := Nat.mul_le_mul_right _ hd
      _ = 2 ^ (s + w) := by rw [← Nat.pow_add, Nat.add_comm]
  rw [PciPorts.replaceBits, hbound d hd, hbound _ (Nat.sub_lt (Nat.two_pow_pos w) (by decide)),
    ← Nat.shiftLeft_eq, Nat.shiftLeft_add_eq_or_of_lt hlow, ← Nat.shiftLeft_eq,
    Nat.shiftLeft_add_eq_or_of_lt hmod]
  apply Nat.eq_of_testBit_eq
  intro i
  have hhigh : 32 ≤ i → v.testBit i = false := fun hi => Nat.testBit_lt_two_pow
    (Nat.lt_of_lt_of_le hv (Nat.pow_le_pow_right Nat.two_pos hi))
  have hdata : w ≤ i - s → d.testBit (i - s) = false := fun hi => Nat.testBit_lt_two_pow
    (Nat.lt_of_lt_of_le hd (Nat.pow_le_pow_right Nat.two_pos hi))
  rw [show (0xFFFFFFFF : Nat) = 2 ^ 32 - 1 from rfl]
  simp only [Nat.testBit_or, Nat.testBit_and, Nat.testBit_xor, Nat.testBit_shiftLeft,
    Nat.testBit_two_pow_sub_one, Nat.testBit_mod_two_pow, Nat.testBit_div_two_pow]
  rcases Nat.lt_or_ge i s with hi | hi
  · simp [show ¬s ≤ i by omega, show ¬s + w ≤ i by omega, show i < 32 by omega, hi]
  rcases Nat.lt_or_ge i (s + w) with hiw | hiw
  · simp [hi, show ¬s + w ≤ i by omega, show i < 32 by omega, show i - s < w by omega,
      show ¬i < s by omega]
  · rw [hdata (by omega), show i - (s + w) + (s + w) = i by omega]
    rcases Nat.lt_or_ge i 32 with h32 | h32
    · simp [hi, hiw, h32, show ¬i - s < w by omega, show ¬i < s by omega]
    · simp [hhigh h32]

/-! ## Addresses -/

/-- The address of the first byte of a function. -/
def functionBase (bus slot func : Nat) : Nat := pciMakeAddress bus slot func 0

theorem and_fc_eq (ho : o < 256) : o &&& 0xFC = o / 4 * 4 := by
  have hdiv : (o &&& 0xFC) / 2 ^ 2 = o / 2 ^ 2 &&& 2 ^ 6 - 1 := Nat.and_div_two_pow
  have hmod : (o &&& 0xFC) % 2 ^ 2 = o % 2 ^ 2 &&& 0 := Nat.and_mod_two_pow
  rw [Nat.and_two_pow_sub_one_eq_mod] at hdiv
  rw [Nat.and_zero] at hmod
  omega

theorem and_two_eq (heven : o % 2 = 0) : o &&& 2 = o % 4 := by
  have hmod : (o &&& 2) % 2 ^ 2 = o % 2 ^ 2 &&& 2 % 2 ^ 2 := Nat.and_mod_two_pow
  have hle : o &&& 2 ≤ 2 := Nat.and_le_right
  rw [Nat.mod_eq_of_lt (by omega)] at hmod
  rw [hmod]
  have hlt := Nat.mod_lt o (show 4 > 0 by decide)
  rcases (show o % 4 = 0 ∨ o % 4 = 2 by omega) with h | h <;> simp [h]

theorem and_three_eq (o : Nat) : o &&& 3 = o % 4 := Nat.and_two_pow_sub_one_eq_mod o 2

/-- The address of a word is the one of its function and the offset. -/
theorem pciMakeAddress_eq (bus slot func : Nat) (ho : o < 256) :
    pciMakeAddress bus slot func o = functionBase bus slot func + o / 4 * 4 ∧
      functionBase bus slot func % 0x100 = 0 := by
  have hbase : functionBase bus slot func % 2 ^ 8 = 0 := by
    rw [functionBase, pciMakeAddress, Nat.or_mod_two_pow, Nat.or_mod_two_pow, Nat.or_mod_two_pow,
      Nat.or_mod_two_pow]
    have hshift : ∀ x k, 8 ≤ k → x <<< k % 2 ^ 8 = 0 := by
      intro x k hk
      rw [Nat.shiftLeft_eq, show k = (k - 8) + 8 by omega, Nat.pow_add, ← Nat.mul_assoc]
      exact Nat.mul_mod_left _ _
    simp only [hshift _ 16 (by decide), hshift _ 11 (by decide), hshift _ 8 (by decide)]
    simp
  refine ⟨?_, hbase⟩
  have hsplit : functionBase bus slot func = 2 ^ 8 * (functionBase bus slot func / 2 ^ 8) := by omega
  have hor : pciMakeAddress bus slot func o = functionBase bus slot func ||| (o &&& 0xFC) := by
    simp [functionBase, pciMakeAddress]
  rw [hor, and_fc_eq ho, hsplit, ← Nat.two_pow_add_eq_or_of_lt (by omega)]

/-- A field below the bits that are set. -/
theorem or_eq_add {a b : Nat} (k : Nat) (ha : a % 2 ^ k = 0) (hb : b < 2 ^ k) : a ||| b = a + b := by
  have hsplit : a = 2 ^ k * (a / 2 ^ k) := (Nat.mul_div_cancel' (Nat.dvd_of_mod_eq_zero ha)).symm
  rw [hsplit, ← Nat.two_pow_add_eq_or_of_lt hb]

/-- The numbers fit in the fields of an address. -/
structure FitsAddress (bus slot func : Nat) : Prop where
  bus : bus < 256
  slot : slot < 32
  func : func < 8

/-- The fields of an address stand side by side. -/
theorem functionBase_eq (h : FitsAddress bus slot func) :
    functionBase bus slot func = 0x80000000 + bus * 0x10000 + slot * 0x800 + func * 0x100 := by
  obtain ⟨hbus, hslot, hfunc⟩ := h
  have hslot' : slot &&& 0x1F = slot :=
    (Nat.and_two_pow_sub_one_eq_mod slot 5).trans (Nat.mod_eq_of_lt hslot)
  have hfunc' : func &&& 0x07 = func :=
    (Nat.and_two_pow_sub_one_eq_mod func 3).trans (Nat.mod_eq_of_lt hfunc)
  have htop : 0x80000000 ||| bus * 2 ^ 16 = 0x80000000 + bus * 2 ^ 16 :=
    or_eq_add 31 (by decide) (by omega)
  have hmiddle : (0x80000000 + bus * 2 ^ 16) ||| slot * 2 ^ 11 = _ :=
    or_eq_add 16 (by omega) (by omega)
  rw [functionBase, pciMakeAddress, hslot', hfunc', Nat.zero_and, Nat.or_zero, Nat.shiftLeft_eq,
    Nat.shiftLeft_eq, Nat.shiftLeft_eq, htop, hmiddle, or_eq_add 11 (by omega) (by omega)]
  rfl

/-- **Different functions have different bytes.** -/
theorem functionBase_ne {bus' slot' func' o' : Nat} (h : FitsAddress bus slot func)
    (h' : FitsAddress bus' slot' func') (hne : (bus, slot, func) ≠ (bus', slot', func'))
    (ho : o < 256) (ho' : o' < 256) :
    wrap32 (functionBase bus slot func + o) ≠ wrap32 (functionBase bus' slot' func' + o') := by
  rw [functionBase_eq h, functionBase_eq h']
  obtain ⟨hbus, hslot, hfunc⟩ := h
  obtain ⟨hbus', hslot', hfunc'⟩ := h'
  rw [wrap32_of_lt (by omega), wrap32_of_lt (by omega)]
  simp only [ne_eq, Prod.mk.injEq] at hne
  omega

/-! ## Words -/

/-- The word with these bytes. -/
def wordOf (b : Nat → Nat) : Nat := b 0 + 0x100 * b 1 + 0x10000 * b 2 + 0x1000000 * b 3

/-- Four bytes that are written give the memory that has them and is the same elsewhere. -/
theorem write32_wordOf {m m' : Memory} {a : Nat} {b : Nat → Nat} (hb : ∀ j, b j < 0x100)
    (hin : ∀ j < 4, m'.read8 (a + j) = b j)
    (hout : ∀ x, (∀ j < 4, wrap32 (a + j) ≠ x) → m' x = m x) : m.write32 a (wordOf b) = m' := by
  have hbyte : ∀ j < 4, UInt8.ofNat (b j) = m' (wrap32 (a + j)) := fun j hj => by
    rw [← hin j hj, Memory.read8, UInt8.ofNat_toNat]
  rw [wordOf, write32_eq m a (hb 0) (hb 1) (hb 2) (hb 3)]
  funext x
  simp only [Memory.write8]
  split
  · simp_all
  split
  · simp_all
  split
  · simp_all
  split
  · have h0 := hbyte 0 (by decide)
    simp_all
  · refine (hout x fun j hj => ?_).symm
    rcases (show j = 0 ∨ j = 1 ∨ j = 2 ∨ j = 3 by omega) with rfl | rfl | rfl | rfl <;>
      simp_all [eq_comm]

/-- The bytes after one of them has been written. -/
theorem read8_write8_update (m : Memory) (a : Nat) {k : Nat} (hk : k < 4) (hd : d < 0x100) {j : Nat}
    (hj : j < 4) : (m.write8 (a + k) d).read8 (a + j) =
      Function.update (fun j => m.read8 (a + j)) k d j := by
  rcases Nat.lt_trichotomy j k with hlt | rfl | hgt
  · rw [Function.update_of_ne hlt.ne, read8_write8_ne _ (wrap32_add_ne hlt (by omega))]
  · rw [Function.update_self, read8_write8_self, Nat.mod_eq_of_lt hd]
  · rw [Function.update_of_ne hgt.ne', read8_write8_ne _ (wrap32_add_ne hgt (by omega)).symm]

namespace PciPorts

/-- The word with one byte replaced. -/
theorem replaceBits_byte {b : Nat → Nat} {k : Nat} (hb : ∀ j, b j < 0x100) (hk : k < 4)
    (hd : d < 0x100) :
    replaceBits (wordOf b) 0xFF (k * 8) d = wordOf (Function.update b k d) := by
  have h0 := hb 0
  have h1 := hb 1
  have h2 := hb 2
  have h3 := hb 3
  have hreplace := replaceBits_eq (v := wordOf b) (w := 8) (s := k * 8)
    (by unfold wordOf; omega) hd (by omega)
  rw [show (0xFF : Nat) = 2 ^ 8 - 1 from rfl, hreplace]
  rcases (show k = 0 ∨ k = 1 ∨ k = 2 ∨ k = 3 by omega) with rfl | rfl | rfl | rfl <;>
    simp [wordOf, Function.update] <;> omega

/-- The word with one half replaced. -/
theorem replaceBits_half {b : Nat → Nat} {k : Nat} (hb : ∀ j, b j < 0x100) (hk : k = 0 ∨ k = 2)
    (hd : d < 0x10000) :
    replaceBits (wordOf b) 0xFFFF (k * 8) d =
      wordOf (Function.update (Function.update b k (d % 0x100)) (k + 1) (d / 0x100)) := by
  have h0 := hb 0
  have h1 := hb 1
  have h2 := hb 2
  have h3 := hb 3
  have hreplace := replaceBits_eq (v := wordOf b) (w := 16) (s := k * 8)
    (by unfold wordOf; omega) hd (by omega)
  rw [show (0xFFFF : Nat) = 2 ^ 16 - 1 from rfl, hreplace]
  rcases hk with rfl | rfl <;> simp [wordOf, Function.update] <;> omega

/-- The bytes of the word around the offset. -/
def around (p : PciPorts) (bus slot func o : Nat) : Nat → Nat :=
  fun j => p.space.read8 (functionBase bus slot func + o / 4 * 4 + j)

theorem around_lt (p : PciPorts) (bus slot func o j : Nat) : p.around bus slot func o j < 0x100 :=
  read8_lt _ _

/-- The address of the word around the offset. -/
theorem select_address (bus slot func : Nat) (ho : o < 256) :
    pciMakeAddress bus slot func o / 4 * 4 = functionBase bus slot func + o / 4 * 4 := by
  obtain ⟨haddress, hbase⟩ := pciMakeAddress_eq bus slot func ho
  omega

theorem read32_eq (p : PciPorts) (bus slot func : Nat) (ho : o < 256) :
    (p.read32 bus slot func o).1 = wordOf (p.around bus slot func o) := by
  simp only [read32, select, inData, select_address bus slot func ho]
  rfl

/-- A word that is written, with the memory that comes of it. -/
theorem write32_space (p : PciPorts) (bus slot func : Nat) (ho : o < 256) {b : Nat → Nat}
    {m' : Memory} (hb : ∀ j, b j < 0x100)
    (hin : ∀ j < 4, m'.read8 (functionBase bus slot func + o / 4 * 4 + j) = b j)
    (hout : ∀ x, (∀ j < 4, wrap32 (functionBase bus slot func + o / 4 * 4 + j) ≠ x) →
      m' x = p.space x) : (p.write32 bus slot func o (wordOf b)).space = m' := by
  simp only [write32, select, outData, select_address bus slot func ho]
  exact write32_wordOf hb hin hout

theorem update_lt {b : Nat → Nat} (hb : ∀ j, b j < 0x100) (k : Nat) (hd : d < 0x100) (j : Nat) :
    Function.update b k d j < 0x100 := by
  by_cases hj : j = k
  · rw [hj, Function.update_self]
    exact hd
  · rw [Function.update_of_ne hj]
    exact hb j

/-- **One byte is written**: the others of the word are written back as they are. -/
theorem write8_space (p : PciPorts) (bus slot func : Nat) (ho : o < 256) (hd : d < 0x100) :
    (p.write8 bus slot func o d).space = p.space.write8 (functionBase bus slot func + o) d := by
  have hk : o % 4 < 4 := Nat.mod_lt o (by decide)
  have hbytes := p.around_lt bus slot func o
  have hplace : functionBase bus slot func + o =
      functionBase bus slot func + o / 4 * 4 + o % 4 := by omega
  simp only [write8, and_three_eq, read32_eq p bus slot func ho, replaceBits_byte hbytes hk hd]
  refine write32_space _ bus slot func ho (update_lt hbytes _ hd) (fun j hj => ?_) fun x hx => ?_
  · rw [hplace]
    exact read8_write8_update _ _ hk hd hj
  · rw [hplace]
    exact write8_of_ne d (hx _ hk)

/-- **Two bytes are written** at an even offset. -/
theorem write16_space (p : PciPorts) (bus slot func : Nat) (ho : o < 256) (heven : o % 2 = 0)
    (hd : d < 0x10000) :
    (p.write16 bus slot func o d).space =
      (p.space.write8 (functionBase bus slot func + o) (d % 0x100)).write8
        (functionBase bus slot func + (o + 1)) (d / 0x100) := by
  have hk : o % 4 = 0 ∨ o % 4 = 2 := by omega
  have hlow : d % 0x100 < 0x100 := Nat.mod_lt d (by decide)
  have hhigh : d / 0x100 < 0x100 := by omega
  have hbytes := p.around_lt bus slot func o
  have hplace : functionBase bus slot func + o =
      functionBase bus slot func + o / 4 * 4 + o % 4 := by omega
  have hnext : functionBase bus slot func + (o + 1) =
      functionBase bus slot func + o / 4 * 4 + (o % 4 + 1) := by omega
  simp only [write16, and_two_eq heven, read32_eq p bus slot func ho, replaceBits_half hbytes hk hd]
  refine write32_space _ bus slot func ho (update_lt (update_lt hbytes _ hlow) _ hhigh)
    (fun j hj => ?_) fun x hx => ?_
  · rw [hplace, hnext, read8_write8_update _ _ (by omega) hhigh hj]
    rcases eq_or_ne j (o % 4 + 1) with rfl | hne
    · rw [Function.update_self, Function.update_self]
    · rw [Function.update_of_ne hne, Function.update_of_ne hne]
      exact read8_write8_update _ _ (by omega) hlow hj
  · rw [hplace, hnext, write8_of_ne _ (hx _ (by omega)), write8_of_ne _ (hx _ (by omega))]
    rfl

/-! ## Bytes -/

/-- The byte `o` of the configuration space of a function. -/
def byte (p : PciPorts) (bus slot func o : Nat) : Nat :=
  p.space.read8 (functionBase bus slot func + o)

theorem around_eq (p : PciPorts) (bus slot func o k : Nat) :
    p.around bus slot func o k = p.byte bus slot func (o / 4 * 4 + k) := by
  rw [around, byte, Nat.add_assoc]

theorem read8_eq (p : PciPorts) (bus slot func : Nat) (ho : o < 256) :
    (p.read8 bus slot func o).1 = p.byte bus slot func o := by
  have hlt := p.around_lt bus slot func o
  have h0 := hlt 0
  have h1 := hlt 1
  have h2 := hlt 2
  have h3 := hlt 3
  have hbyte := p.around_eq bus slot func o (o % 4)
  rw [Nat.div_add_mod' o 4] at hbyte
  simp only [read8, read32_eq p bus slot func ho, and_three_eq]
  rw [← hbyte, Nat.shiftRight_eq_div_pow, show (0xFF : Nat) = 2 ^ 8 - 1 from rfl,
    Nat.and_two_pow_sub_one_eq_mod]
  rcases (show o % 4 = 0 ∨ o % 4 = 1 ∨ o % 4 = 2 ∨ o % 4 = 3 by omega) with h | h | h | h <;>
    simp only [h, wordOf] <;> omega

theorem read16_eq (p : PciPorts) (bus slot func : Nat) (ho : o < 256) (heven : o % 2 = 0) :
    (p.read16 bus slot func o).1 =
      p.byte bus slot func o + 0x100 * p.byte bus slot func (o + 1) := by
  have hlt := p.around_lt bus slot func o
  have h0 := hlt 0
  have h1 := hlt 1
  have h2 := hlt 2
  have h3 := hlt 3
  have hbyte := p.around_eq bus slot func o (o % 4)
  have hnext := p.around_eq bus slot func o (o % 4 + 1)
  rw [Nat.div_add_mod' o 4] at hbyte
  rw [← Nat.add_assoc, Nat.div_add_mod' o 4] at hnext
  simp only [read16, read32_eq p bus slot func ho, and_two_eq heven]
  rw [← hbyte, ← hnext, Nat.shiftRight_eq_div_pow, show (0xFFFF : Nat) = 2 ^ 16 - 1 from rfl,
    Nat.and_two_pow_sub_one_eq_mod]
  rcases (show o % 4 = 0 ∨ o % 4 = 2 by omega) with h | h <;>
    simp only [h, wordOf, Nat.reduceAdd] <;> omega

/-- The words that the scan of the bus reads. -/
def words (p : PciPorts) : ConfigSpace := fun bus slot func offset =>
  p.space.read32 (pciMakeAddress bus slot func offset / 4 * 4)

/-- **The scan reads the same words.** -/
theorem read32_words (p : PciPorts) (bus slot func offset : Nat) :
    (p.read32 bus slot func offset).1 = pciRead32 p.words bus slot func offset := by
  simp [read32, select, inData, pciRead32, words, pciMakeAddress]

end PciPorts

/-- **Every access is one to the bytes at the offset**: the reads give them, and the writes change no
others. -/
theorem pci_access (p : PciPorts) (bus slot func : Nat) (ho : o < 256) :
    (p.read8 bus slot func o).1 = p.byte bus slot func o ∧
    (o % 2 = 0 → (p.read16 bus slot func o).1 =
      p.byte bus slot func o + 0x100 * p.byte bus slot func (o + 1)) ∧
    (o % 4 = 0 → (p.read32 bus slot func o).1 =
      p.byte bus slot func o + 0x100 * p.byte bus slot func (o + 1) +
        0x10000 * p.byte bus slot func (o + 2) + 0x1000000 * p.byte bus slot func (o + 3)) ∧
    (∀ d < 0x100,
      (p.write8 bus slot func o d).space = p.space.write8 (functionBase bus slot func + o) d ∧
      ∀ o' < 256, (p.write8 bus slot func o d).byte bus slot func o' =
        if o' = o then d else p.byte bus slot func o') ∧
    (o % 2 = 0 → ∀ d < 0x10000,
      (p.write16 bus slot func o d).space =
        (p.space.write8 (functionBase bus slot func + o) (d % 0x100)).write8
          (functionBase bus slot func + (o + 1)) (d / 0x100) ∧
      ∀ o' < 256, (p.write16 bus slot func o d).byte bus slot func o' =
        if o' = o then d % 0x100 else if o' = o + 1 then d / 0x100
        else p.byte bus slot func o') := by
  have hput : ∀ (m : Memory) (k o' d : Nat), k ≤ 256 → o' < 256 → d < 0x100 →
      (m.write8 (functionBase bus slot func + k) d).read8 (functionBase bus slot func + o') =
        if o' = k then d else m.read8 (functionBase bus slot func + o') := by
    intro m k o' d hk ho' hd
    rcases Nat.lt_trichotomy o' k with hlt | rfl | hgt
    · rw [if_neg hlt.ne, read8_write8_ne _ (wrap32_add_ne hlt (by omega))]
    · rw [if_pos rfl, read8_write8_self, Nat.mod_eq_of_lt hd]
    · rw [if_neg hgt.ne', read8_write8_ne _ (wrap32_add_ne hgt (by omega)).symm]
  refine ⟨p.read8_eq bus slot func ho, p.read16_eq bus slot func ho, fun h4 => ?_, fun d hd => ?_,
    fun heven d hd => ?_⟩
  · have hplace : o / 4 * 4 = o := by omega
    rw [p.read32_eq bus slot func ho, wordOf, p.around_eq, p.around_eq, p.around_eq, p.around_eq,
      hplace]
    rfl
  · have hspace := p.write8_space bus slot func ho hd
    refine ⟨hspace, fun o' ho' => ?_⟩
    rw [PciPorts.byte, hspace, hput _ _ _ _ (by omega) ho' hd]
    rfl
  · have hspace := p.write16_space bus slot func ho heven hd
    refine ⟨hspace, fun o' ho' => ?_⟩
    rw [PciPorts.byte, hspace, hput _ _ _ _ (by omega) ho' (by omega),
      hput _ _ _ _ (by omega) ho' (by omega)]
    by_cases h : o' = o
    · rw [if_neg (by omega), if_pos h, if_pos h]
    · rw [if_neg h, if_neg h]
      rfl

/-- The status register is read, and the command register in front of it is written. -/
theorem pci_access_command :
    let p : PciPorts := ⟨0, UInt8.ofNat⟩
    (p.read16 0 31 2 6).1 = 0x0706 ∧ (p.write16 0 31 2 4 0x0107).byte 0 31 2 4 = 0x07 ∧
      (p.write16 0 31 2 4 0x0107).byte 0 31 2 5 = 0x01 ∧
      (p.write16 0 31 2 4 0x0107).byte 0 31 2 6 = p.byte 0 31 2 6 := by
  intro p
  have hread := (pci_access p 0 31 2 (o := 6) (by decide)).2.1 (by decide)
  have hbytes : p.byte 0 31 2 6 + 0x100 * p.byte 0 31 2 7 = 0x0706 := by decide +kernel
  have hwrite := ((pci_access p 0 31 2 (o := 4) (by decide)).2.2.2.2 (by decide) 0x0107 (by decide)).2
  exact ⟨hread.trans hbytes, (hwrite 4 (by decide)).trans (if_pos rfl),
    (hwrite 5 (by decide)).trans ((if_neg (by decide)).trans (if_pos rfl)),
    (hwrite 6 (by decide)).trans ((if_neg (by decide)).trans (if_neg (by decide)))⟩

/-- **What is written to one function is not seen in another.** -/
theorem pci_access_other (p : PciPorts) {bus' slot' func' o' : Nat} (h : FitsAddress bus slot func)
    (h' : FitsAddress bus' slot' func') (hne : (bus, slot, func) ≠ (bus', slot', func'))
    (ho : o < 256) (ho' : o' < 256) :
    (∀ d < 0x100, (p.write8 bus slot func o d).byte bus' slot' func' o' =
      p.byte bus' slot' func' o') ∧
    (o % 2 = 0 → ∀ d < 0x10000, (p.write16 bus slot func o d).byte bus' slot' func' o' =
      p.byte bus' slot' func' o') := by
  have hout : ∀ k < 256, wrap32 (functionBase bus slot func + k) ≠
      wrap32 (functionBase bus' slot' func' + o') := fun k hk =>
    functionBase_ne h h' hne hk ho'
  refine ⟨fun d hd => ?_, fun heven d hd => ?_⟩
  · rw [PciPorts.byte, p.write8_space bus slot func ho hd, read8_write8_ne _ (hout o ho).symm]
    rfl
  · rw [PciPorts.byte, p.write16_space bus slot func ho heven hd,
      read8_write8_ne _ (hout (o + 1) (by omega)).symm, read8_write8_ne _ (hout o ho).symm]
    rfl

end Xylophone
