import Xylophone.Infra.CString

/-!
# `string.h`: lengths and comparisons

The loops over a string go on to its NUL, and not beyond it.

* `strlen_holds` — the length of a string
* `memcmp_eq_zero_iff` — when the bytes are the same
* `memcmp_prefix_iff` — a comparison of as many bytes as the second string has
-/

namespace Xylophone

open Infra Memory

/-- The loop of `strlen`. It has read all of memory when the fuel is used up. -/
def strlenLoop (m : Memory) (str : Nat) : (fuel len : Nat) → Option Nat
  | 0, _ => none
  | fuel + 1, len => if m.read8 (str + len) ≠ 0 then strlenLoop m str fuel (len + 1) else some len

/-- `strlen` -/
def strlen (m : Memory) (str : Nat) : Option Nat := strlenLoop m str 0x100000000 0

/-- The loop of `memcmp`, with `n` bytes left. -/
def memcmpLoop (m : Memory) (s1 s2 : Nat) : (n i : Nat) → Int
  | 0, _ => 0
  | n + 1, i =>
    if m.read8 (s1 + i) ≠ m.read8 (s2 + i) then (m.read8 (s1 + i) : Int) - m.read8 (s2 + i)
    else memcmpLoop m s1 s2 n (i + 1)

/-- `memcmp` -/
def memcmp (m : Memory) (s1 s2 n : Nat) : Int := memcmpLoop m s1 s2 n 0

variable {m : Memory} {a b : Nat} {s t : List Nat}

theorem strlenLoop_holds (h : HoldsString m a s) (fuel : Nat) {len : Nat} (hlen : len ≤ s.length)
    (hfuel : s.length - len < fuel) : strlenLoop m a fuel len = some s.length := by
  induction fuel generalizing len with
  | zero => exact absurd hfuel (Nat.not_lt_zero _)
  | succ fuel ih =>
    rw [strlenLoop]
    rcases Nat.lt_or_eq_of_le hlen with hlt | rfl
    · rw [if_pos (h.read_ne hlt)]
      exact ih hlt (by omega)
    · rw [h.stop]
      simp

/-- **The length of a string.** -/
theorem strlen_holds (h : HoldsString m a s) : strlen m a = some s.length := by
  have hshort := h.short
  exact strlenLoop_holds h _ (Nat.zero_le _) (by omega)

theorem memcmpLoop_eq_zero_iff (n i : Nat) : memcmpLoop m a b n i = 0 ↔
    ∀ k, i ≤ k → k < i + n → m.read8 (a + k) = m.read8 (b + k) := by
  induction n generalizing i with
  | zero => exact iff_of_true rfl fun k hle hlt => absurd hlt (by omega)
  | succ n ih =>
    rw [memcmpLoop]
    by_cases heq : m.read8 (a + i) = m.read8 (b + i)
    · rw [if_neg (not_not.mpr heq), ih]
      refine forall_congr' fun k => ?_
      rcases Nat.lt_trichotomy k i with hlt | rfl | hgt
      · exact iff_of_true (fun hle => absurd hle (by omega)) fun hle => absurd hle (by omega)
      · exact iff_of_true (fun hle => absurd hle (by omega)) fun _ _ => heq
      · exact ⟨fun hk _ hlt => hk hgt (by omega), fun hk _ hlt => hk hgt.le (by omega)⟩
    · rw [if_pos heq]
      refine iff_of_false ?_ fun h => heq (h i (Nat.le_refl i) (by omega))
      omega

/-- **When the bytes are the same.** -/
theorem memcmp_eq_zero_iff (n : Nat) :
    memcmp m a b n = 0 ↔ ∀ k < n, m.read8 (a + k) = m.read8 (b + k) := by
  unfold memcmp
  rw [memcmpLoop_eq_zero_iff]
  simp

/-- **A comparison of as many bytes as the second string has**: it is a prefix of the first. -/
theorem memcmp_prefix_iff (ha : HoldsString m a s) (hb : HoldsString m b t) :
    memcmp m a b t.length = 0 ↔ t <+: s := by
  rw [memcmp_eq_zero_iff, List.prefix_iff_getElem]
  constructor
  · intro h
    -- behind the NUL of the first string nothing is compared
    have hle : t.length ≤ s.length := by
      by_contra hgt
      have hlt : s.length < t.length := by omega
      exact hb.read_ne hlt (by rw [← h _ hlt, ha.stop])
    refine ⟨hle, fun i hi => ?_⟩
    rw [← hb.chars i hi, ← h i hi, ha.chars i (by omega)]
  · rintro ⟨hle, h⟩ k hk
    rw [ha.chars k (by omega), hb.chars k hk, h k hk]

end Xylophone
