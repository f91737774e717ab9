import Mathlib.Data.Nat.Bitwise

/-!
# 32-bit unsigned arithmetic

A machine word is a `Nat` below `0x100000000`. Every operation that can leave that range
reduces its result explicitly, so a proof sees exactly where a sum can wrap around.

* `wrap32` — the value stored when a result is assigned to a 32-bit variable
* `sub32` — unsigned subtraction
* `toInt32` — the signed reading of a word (a C cast from `uint32_t` to `int`)
-/

namespace Infra

/-- The value a 32-bit variable holds after `n` is stored in it. -/
def wrap32 (n : Nat) : Nat := n % 0x100000000

/-- Unsigned 32-bit subtraction. -/
def sub32 (a b : Nat) : Nat := (a + 0x100000000 - b) % 0x100000000

/-- A word read as a signed 32-bit integer. -/
def toInt32 (n : Nat) : Int := if n < 0x80000000 then n else n - 0x100000000

theorem wrap32_lt (n : Nat) : wrap32 n < 0x100000000 := Nat.mod_lt _ (by decide)

theorem wrap32_of_lt {n : Nat} (h : n < 0x100000000) : wrap32 n = n := Nat.mod_eq_of_lt h

theorem wrap32_wrap32 (n : Nat) : wrap32 (wrap32 n) = wrap32 n := Nat.mod_mod ..

theorem wrap32_add_congr {a b : Nat} (h : wrap32 a = wrap32 b) (c : Nat) :
    wrap32 (a + c) = wrap32 (b + c) := by
  unfold wrap32 at *
  omega

theorem sub32_lt (a b : Nat) : sub32 a b < 0x100000000 := Nat.mod_lt _ (by decide)

theorem sub32_of_le {a b : Nat} (h : b ≤ a) (ha : a < 0x100000000) : sub32 a b = a - b := by
  unfold sub32
  omega

/-! ## Masks -/

theorem and_low12 (n : Nat) : n &&& 0xFFF = n % 0x1000 :=
  Nat.and_two_pow_sub_one_eq_mod n 12

theorem and_low10 (n : Nat) : n &&& 0x3FF = n % 0x400 :=
  Nat.and_two_pow_sub_one_eq_mod n 10

/-- Masking the low twelve bits of a word away rounds it down to a multiple of `0x1000`. -/
theorem and_high20 {n : Nat} (h : n < 0x100000000) : n &&& 0xFFFFF000 = n - n % 0x1000 := by
  have hshift : n &&& 0xFFFFF000 = (n >>> 12) <<< 12 := by
    apply Nat.eq_of_testBit_eq
    intro i
    rw [Nat.testBit_and, show (0xFFFFF000 : Nat) = (2 ^ 20 - 1) <<< 12 from rfl,
      Nat.testBit_shiftLeft, Nat.testBit_shiftLeft, Nat.testBit_shiftRight,
      Nat.testBit_two_pow_sub_one]
    by_cases hi : 12 ≤ i
    · rw [show 12 + (i - 12) = i by omega]
      by_cases hlt : i < 32
      · simp [hi, show i - 12 < 20 by omega]
      · have hpow : n < 2 ^ i := Nat.lt_of_lt_of_le (show n < 2 ^ 32 from h)
          (Nat.pow_le_pow_right Nat.two_pos (by omega))
        simp [Nat.testBit_lt_two_pow hpow]
    · simp [hi]
  rw [hshift, Nat.shiftLeft_eq, Nat.shiftRight_eq_div_pow]
  omega

theorem and_high20_eq_zero {n : Nat} (h : n < 0x100000000) :
    n &&& 0xFFFFF000 = 0 ↔ n < 0x1000 := by
  rw [and_high20 h]
  omega

/-! ## Pages -/

/-- The whole number of pages that hold `n` bytes, in bytes. -/
def pagesFor (n : Nat) : Nat := (n + 0xFFF) / 0x1000 * 0x1000

theorem le_pagesFor (n : Nat) : n ≤ pagesFor n := by
  unfold pagesFor
  omega

theorem pagesFor_mod (n : Nat) : pagesFor n % 0x1000 = 0 := Nat.mul_mod_left ..

end Infra
