import Mathlib.Data.Nat.Digits.Lemmas

/-!
# Numerals

The digits of a number, the most significant one first, as the characters `0-9` and `A-Z`.

* `numeral_numeralText` — `numeralText` is a numeral of the number
* `Numeral.eq_numeralText` — and the only one that does not begin with a zero
* `numeralDigits_length_le` — the number of its digits
-/

namespace Infra

/-- The character of a digit. -/
def digitChar (d : Nat) : Nat := if d < 10 then 48 + d else 55 + d

/-- `text` consists of the digits of `n`. -/
def Numeral (base : Nat) (text : List Nat) (n : Nat) : Prop :=
  ∃ ds : List Nat, ds ≠ [] ∧ (∀ d ∈ ds, d < base) ∧ text = ds.reverse.map digitChar ∧
    Nat.ofDigits base ds = n

/-- The numeral does not begin with a zero, unless it is the numeral of zero. -/
def NoLeadingZero (text : List Nat) : Prop := text.head? = some 48 → text = [48]

/-- The digits of `n`, the least significant one first; those of `0` are not empty. -/
def numeralDigits (base n : Nat) : List Nat := if n = 0 then [0] else Nat.digits base n

def numeralText (base n : Nat) : List Nat := (numeralDigits base n).reverse.map digitChar

variable {base n d : Nat} {text : List Nat}

/-! ## Characters -/

theorem digitChar_pos (d : Nat) : 0 < digitChar d := by
  unfold digitChar
  split <;> omega

theorem digitChar_lt (h : d < 36) : digitChar d < 0x100 := by
  unfold digitChar
  split <;> omega

theorem digitChar_eq_zero_iff : digitChar d = 48 ↔ d = 0 := by
  unfold digitChar
  split <;> omega

theorem digitChar_of_lt_ten (h : d < 10) : digitChar d = 48 + d := if_pos h

/-- A digit is no sign and no bracket. -/
theorem le_digitChar (d : Nat) : 48 ≤ digitChar d := by
  unfold digitChar
  split <;> omega

/-! ## Digits -/

theorem numeralDigits_of_lt (h : n < base) : numeralDigits base n = [n] := by
  unfold numeralDigits
  split
  · simp_all
  · exact Nat.digits_of_lt base n ‹_› h

theorem numeralDigits_of_le (hbase : 1 < base) (h : base ≤ n) :
    numeralDigits base n = n % base :: numeralDigits base (n / base) := by
  have hn : n ≠ 0 := by omega
  have hdiv : n / base ≠ 0 := (Nat.div_pos h (by omega)).ne'
  rw [numeralDigits, if_neg hn, numeralDigits, if_neg hdiv]
  exact Nat.digits_eq_cons_digits_div hbase hn

theorem numeralDigits_ne_nil (base n : Nat) : numeralDigits base n ≠ [] := by
  unfold numeralDigits
  split
  · simp
  · exact Nat.digits_ne_nil_iff_ne_zero.mpr ‹_›

theorem numeralDigits_lt (hbase : 1 < base) (h : d ∈ numeralDigits base n) : d < base := by
  unfold numeralDigits at h
  split at h
  · simp only [List.mem_singleton] at h
    omega
  · exact Nat.digits_lt_base hbase h

theorem ofDigits_numeralDigits (base n : Nat) : Nat.ofDigits base (numeralDigits base n) = n := by
  unfold numeralDigits
  split
  · simp_all
  · exact Nat.ofDigits_digits base n

/-- The number of digits. -/
theorem numeralDigits_length_le {k : Nat} (hbase : 1 < base) (hk : 0 < k) (h : n < base ^ k) :
    (numeralDigits base n).length ≤ k := by
  unfold numeralDigits
  split
  · exact hk
  · exact (Nat.digits_length_le_iff hbase n).mpr h

/-! ## Texts -/

theorem numeralText_length (base n : Nat) :
    (numeralText base n).length = (numeralDigits base n).length := by
  simp [numeralText]

theorem mem_numeralText {c : Nat} (hbase : 1 < base) (h : c ∈ numeralText base n) :
    ∃ d < base, c = digitChar d := by
  simp only [numeralText, List.mem_map, List.mem_reverse] at h
  obtain ⟨d, hd, rfl⟩ := h
  exact ⟨d, numeralDigits_lt hbase hd, rfl⟩

/-- **A numeral of the number.** -/
theorem numeral_numeralText (hbase : 1 < base) (n : Nat) : Numeral base (numeralText base n) n :=
  ⟨numeralDigits base n, numeralDigits_ne_nil base n, fun _ => numeralDigits_lt hbase, rfl,
    ofDigits_numeralDigits base n⟩

/-- The most significant digit of a number is not zero. -/
theorem numeralText_noLeadingZero (base n : Nat) : NoLeadingZero (numeralText base n) := by
  intro hhead
  rcases eq_or_ne n 0 with rfl | hn
  · simp [numeralText, numeralDigits, digitChar]
  · have hne := Nat.digits_ne_nil_iff_ne_zero (b := base).mpr hn
    have hlast := Nat.getLast_digit_ne_zero base hn
    rw [numeralText, numeralDigits, if_neg hn, List.head?_map, List.head?_reverse,
      List.getLast?_eq_some_getLast hne, Option.map_some, Option.some_inj,
      digitChar_eq_zero_iff] at hhead
    exact absurd hhead hlast

/-- **The only numeral of the number that does not begin with a zero.** -/
theorem Numeral.eq_numeralText (hbase : 1 < base) (h : Numeral base text n)
    (hzero : NoLeadingZero text) : text = numeralText base n := by
  obtain ⟨ds, hne, hlt, rfl, rfl⟩ := h
  by_cases hlast : ds.getLast hne = 0
  · -- then the numeral is "0"
    have hhead : (ds.reverse.map digitChar).head? = some 48 := by
      rw [List.head?_map, List.head?_reverse, List.getLast?_eq_some_getLast hne, hlast]
      rfl
    have hone : ds.length = 1 := by simpa using congrArg List.length (hzero hhead)
    obtain ⟨d, rfl⟩ := List.length_eq_one_iff.mp hone
    have hd : d = 0 := hlast
    subst hd
    simp [numeralText, numeralDigits]
  · have hdigits := Nat.digits_ofDigits base hbase ds hlt fun _ => hlast
    have hn : Nat.ofDigits base ds ≠ 0 := by
      rw [← Nat.digits_ne_nil_iff_ne_zero (b := base), hdigits]
      exact hne
    rw [numeralText, numeralDigits, if_neg hn, hdigits]

theorem Numeral.ne_nil (h : Numeral base text n) : text ≠ [] := by
  obtain ⟨ds, hne, -, rfl, -⟩ := h
  simpa using hne

/-- A numeral has no sign and no bracket in it. -/
theorem Numeral.le_char (h : Numeral base text n) {c : Nat} (hc : c ∈ text) : 48 ≤ c := by
  obtain ⟨ds, -, -, rfl, -⟩ := h
  simp only [List.mem_map] at hc
  obtain ⟨d, -, rfl⟩ := hc
  exact le_digitChar d

/-- The numeral "0" is the one of zero. -/
theorem Numeral.eq_zero (h : Numeral base [48] n) : n = 0 := by
  obtain ⟨ds, -, -, htext, rfl⟩ := h
  have hone : ds.length = 1 := by simpa using (congrArg List.length htext).symm
  obtain ⟨d, rfl⟩ := List.length_eq_one_iff.mp hone
  simp only [List.reverse_singleton, List.map_cons, List.map_nil, List.cons.injEq] at htext
  rw [digitChar_eq_zero_iff.mp htext.1.symm]
  exact Nat.ofDigits_singleton

/-- A numeral is read from the front. -/
theorem foldl_numeralDigits (base n : Nat) :
    (numeralDigits base n).reverse.foldl (fun r d => r * base + d) 0 = n := by
  have hvalue := ofDigits_numeralDigits base n
  rw [Nat.ofDigits_eq_foldr] at hvalue
  rw [List.foldl_reverse]
  conv_rhs => rw [← hvalue]
  refine congrArg (fun f => List.foldr f 0 _) ?_
  funext d r
  simp [Nat.mul_comm, Nat.add_comm]

end Infra
