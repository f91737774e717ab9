import Mathlib.Data.List.Basic
import Xylophone.Infra.Memory

/-!
# Strings in memory

A string is the bytes up to the first NUL, which stands behind them.

* `HoldsString.read` — the bytes of a string and its NUL
* `writeBytes_holdsString` — a string that is written byte by byte
-/

namespace Infra

namespace Memory

/-- The string `s` stands at `a`. An object has less than `2 ^ 31` bytes and does not wrap around. -/
structure HoldsString (m : Memory) (a : Nat) (s : List Nat) : Prop where
  chars : ∀ i (h : i < s.length), m.read8 (a + i) = s[i]
  stop : m.read8 (a + s.length) = 0
  nonzero : ∀ c ∈ s, c ≠ 0
  short : s.length + 1 < 0x80000000
  fits : a + s.length < 0x100000000

variable {m m' : Memory} {a b : Nat} {s s' : List Nat}

namespace HoldsString

/-- The bytes up to the NUL. -/
theorem read (h : HoldsString m a s) {i : Nat} (hi : i ≤ s.length) :
    m.read8 (a + i) = s.getD i 0 := by
  rcases Nat.lt_or_eq_of_le hi with hlt | rfl
  · rw [h.chars i hlt, List.getD_eq_getElem _ _ hlt]
  · rw [h.stop, List.getD_eq_default _ _ (Nat.le_refl _)]

theorem getD_ne (h : HoldsString m a s) {i : Nat} (hi : i < s.length) : s.getD i 0 ≠ 0 := by
  rw [List.getD_eq_getElem _ _ hi]
  exact h.nonzero _ (List.getElem_mem hi)

theorem read_ne (h : HoldsString m a s) {i : Nat} (hi : i < s.length) : m.read8 (a + i) ≠ 0 := by
  rw [h.read hi.le]
  exact h.getD_ne hi

/-- The character in front of the rest of the string. -/
theorem read_drop (h : HoldsString m a s) {i c : Nat} {rest : List Nat}
    (hs : s.drop i = c :: rest) :
    i < s.length ∧ m.read8 (a + i) = c ∧ s.drop (i + 1) = rest := by
  have hi : i < s.length := by
    by_contra hge
    rw [List.drop_eq_nil_of_le (Nat.le_of_not_lt hge)] at hs
    cases hs
  rw [List.drop_eq_getElem_cons hi, List.cons.injEq] at hs
  exact ⟨hi, (h.chars i hi).trans hs.1, hs.2⟩

/-- The NUL behind the string. -/
theorem read_drop_nil (h : HoldsString m a s) {i : Nat} (hi : i ≤ s.length)
    (hs : s.drop i = []) : m.read8 (a + i) = 0 := by
  have hlen : i = s.length := Nat.le_antisymm hi (List.drop_eq_nil_iff.mp hs)
  rw [hlen, h.stop]

/-- Characters are bytes. -/
theorem lt (h : HoldsString m a s) {c : Nat} (hc : c ∈ s) : c < 0x100 := by
  obtain ⟨i, hi, rfl⟩ := List.mem_iff_getElem.mp hc
  rw [← h.chars i hi]
  exact m.read8_lt _

/-- Only one string stands at an address. -/
theorem unique (h : HoldsString m a s) (h' : HoldsString m a s') : s = s' := by
  have hlen : s.length = s'.length := by
    by_contra hne
    rcases Nat.lt_or_gt_of_ne hne with hlt | hlt
    · exact h'.read_ne hlt h.stop
    · exact h.read_ne hlt h'.stop
  refine List.ext_getElem hlen fun i hi hi' => ?_
  rw [← h.chars i hi, h'.chars i hi']

/-- Nothing of the string, or of its NUL, has been written. -/
theorem of_agreeOff {lo hi : Nat} (h : HoldsString m a s) (hagree : AgreeOff lo hi m m')
    (hout : a + s.length < lo ∨ hi ≤ a) : HoldsString m' a s := by
  have hfits := h.fits
  refine ⟨fun i hi => ?_, ?_, h.nonzero, h.short, hfits⟩
  · rw [hagree.read8 (by omega) (by omega), h.chars i hi]
  · rw [hagree.read8 (by omega) (by omega), h.stop]

end HoldsString

/-! ## Writing bytes -/

/-- The bytes `l`, one after the other. -/
def writeBytes (m : Memory) (a : Nat) : List Nat → Memory
  | [] => m
  | c :: l => writeBytes (m.write8 a c) (a + 1) l

theorem writeBytes_append (m : Memory) (a : Nat) (l l' : List Nat) :
    m.writeBytes a (l ++ l') = (m.writeBytes a l).writeBytes (a + l.length) l' := by
  induction l generalizing m a with
  | nil => rfl
  | cons c l ih =>
    rw [List.cons_append, writeBytes, ih, writeBytes, List.length_cons, Nat.add_right_comm,
      Nat.add_assoc]

/-- Only these bytes are written. -/
theorem agreeOff_writeBytes (m : Memory) {l : List Nat} (hfits : a + l.length ≤ 0x100000000) :
    AgreeOff a (a + l.length) m (m.writeBytes a l) := by
  induction l generalizing m a with
  | nil => exact AgreeOff.refl _ _ m
  | cons c l ih =>
    rw [List.length_cons] at hfits ⊢
    have hfirst : AgreeOff a (a + (l.length + 1)) m (m.write8 a c) :=
      agreeOff_write8 m c (Nat.le_refl a) (by omega) (by omega)
    have hrest := @ih (a + 1) (m.write8 a c) (by omega)
    exact hfirst.trans (hrest.mono (by omega) (by omega))

/-- The bytes that have been written. -/
theorem read8_writeBytes (m : Memory) {l : List Nat} (hfits : a + l.length ≤ 0x100000000) {i : Nat}
    (hi : i < l.length) : (m.writeBytes a l).read8 (a + i) = l[i] % 0x100 := by
  induction l generalizing m a i with
  | nil => exact absurd hi (Nat.not_lt_zero i)
  | cons c l ih =>
    rw [List.length_cons] at hfits hi
    cases i with
    | zero =>
      have hrest := agreeOff_writeBytes (m.write8 a c) (a := a + 1) (l := l) (by omega)
      have hself : ((m.write8 a c).writeBytes (a + 1) l).read8 a = c % 0x100 := by
        rw [hrest.read8 (by omega) (by omega), read8_write8_self]
      exact hself
    | succ i =>
      have hrest := @ih (a + 1) (m.write8 a c) (by omega) i (by omega)
      rw [Nat.add_right_comm, Nat.add_assoc] at hrest
      rw [writeBytes, hrest]
      rfl

/-- What has been written already is written once more. -/
theorem writeBytes_self {l : List Nat} (h : ∀ q (hq : q < l.length), m.read8 (a + q) = l[q]) :
    m.writeBytes a l = m := by
  induction l generalizing a with
  | nil => rfl
  | cons c l ih =>
    have hsame : m.write8 a c = m := write8_self (h 0 (by simp))
    rw [writeBytes, hsame]
    refine ih fun q hq => ?_
    have hnext := h (q + 1) (by simpa using hq)
    rwa [List.getElem_cons_succ, show a + (q + 1) = a + 1 + q by omega] at hnext

/-- **A string that has been written with its NUL.** -/
theorem writeBytes_holdsString (m : Memory) (hbytes : ∀ c ∈ s, 0 < c ∧ c < 0x100)
    (hshort : s.length + 1 < 0x80000000) (hfits : a + s.length < 0x100000000) :
    HoldsString (m.writeBytes a (s ++ [0])) a s := by
  have hread := @read8_writeBytes a m (s ++ [0]) (by simp; omega)
  refine ⟨fun i hi => ?_, ?_, fun c hc => (hbytes c hc).1.ne', hshort, hfits⟩
  · have hlt : i < (s ++ [0]).length := by simp; omega
    rw [hread hlt, List.getElem_append_left hi]
    exact Nat.mod_eq_of_lt (hbytes _ (List.getElem_mem hi)).2
  · have hlt : s.length < (s ++ [0]).length := by simp
    rw [hread hlt, List.getElem_append_right (Nat.le_refl _)]
    simp

end Memory

end Infra
