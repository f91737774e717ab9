import Mathlib.Data.List.DropRight
import Xylophone.Strings.Basic

/-!
# `trim`

The string is moved to the front over its own blanks. A character is read before anything is written
to its place, since the copy never runs ahead of what it reads.

* `trimmed_parts` — the string without the blanks around it
* `trim_holds` — what `trim` leaves in place
-/

namespace Xylophone

open Infra Memory

/-! ## The source -/

/-- `c == ' ' || c == '\t'` -/
def isBlank (c : Nat) : Bool := c == 32 || c == 9

/-- The loop over `start`. -/
def skipBlanks (m : Memory) (str : Nat) : (fuel start : Nat) → Option Nat
  | 0, _ => none
  | fuel + 1, start =>
    if isBlank (m.read8 (str + start)) then skipBlanks m str fuel (start + 1) else some start

/-- The loop over `end`, which is one less than the argument here. -/
def backBlanks (m : Memory) (str start : Nat) : Nat → Nat
  | 0 => 0
  | last + 1 =>
    if start ≤ last ∧ isBlank (m.read8 (str + last)) then backBlanks m str start last else last + 1

/-- The loop over `i`, with `n` turns left, and the value of `j` at its end. -/
def moveDown (str : Nat) : (n i j : Nat) → Memory → Memory × Nat
  | 0, _, j, m => (m, j)
  | n + 1, i, j, m => moveDown str n (i + 1) (j + 1) (m.write8 (str + j) (m.read8 (str + i)))

/-- `trim` -/
def trim (m : Memory) (str : Nat) : Option Memory :=
  if str = 0 then some m
  else do
    let start ← skipBlanks m str 0x100000000 0
    let len ← strlen m str
    let stop := backBlanks m str start len
    let (m, j) := moveDown str (stop - start) start 0 m
    some (m.write8 (str + j) 0)

variable {m m' : Memory} {str a : Nat} {s t : List Nat}

/-! ## Strings without blanks around them -/

/-- The string without the spaces and tabs at its front and at its end. -/
def trimmed (s : List Nat) : List Nat := (s.dropWhile isBlank).rdropWhile isBlank

theorem trimmed_prefix (s : List Nat) : trimmed s <+: s.dropWhile isBlank :=
  List.rdropWhile_prefix ..

/-- What is dropped are the longest runs of blanks. -/
theorem trimmed_parts (s : List Nat) :
    ∃ p q, s = p ++ trimmed s ++ q ∧ (∀ c ∈ p ++ q, isBlank c) ∧
      (∀ c ∈ (trimmed s).head?, isBlank c = false) ∧
      ∀ c ∈ (trimmed s).getLast?, isBlank c = false := by
  have hlast : ∀ c ∈ (trimmed s).getLast?, isBlank c = false := by
    intro c hc
    obtain ⟨hne, rfl⟩ := List.mem_getLast?_eq_getLast hc
    exact Bool.eq_false_of_not_eq_true (List.rdropWhile_last_not isBlank _ hne)
  have hhead : ∀ c ∈ (trimmed s).head?, isBlank c = false := by
    intro c hc
    obtain ⟨rest, hrest⟩ := trimmed_prefix s
    have hmem : c ∈ (s.dropWhile isBlank).head? := by
      rw [← hrest, List.head?_append, Option.mem_def.mp hc]
      rfl
    have hnot := List.head?_dropWhile_not isBlank s
    rw [Option.mem_def.mp hmem] at hnot
    simpa using hnot
  refine ⟨s.takeWhile isBlank, (s.dropWhile isBlank).rtakeWhile isBlank, ?_, ?_, hhead, hlast⟩
  · rw [List.append_assoc, trimmed, List.rdropWhile_append_rtakeWhile, List.takeWhile_append_dropWhile]
  · intro c hc
    rcases List.mem_append.mp hc with hc | hc
    · exact List.mem_takeWhile_imp hc
    · exact List.mem_rtakeWhile_imp hc

/-- Nothing is left to be dropped. -/
theorem trimmed_trimmed (s : List Nat) : trimmed (trimmed s) = trimmed s := by
  obtain ⟨-, -, -, -, hhead, -⟩ := trimmed_parts s
  have hfront : (trimmed s).dropWhile isBlank = trimmed s := by
    cases htext : trimmed s with
    | nil => rfl
    | cons c rest =>
      have hc := hhead c (by rw [htext]; rfl)
      rw [List.dropWhile_cons_of_neg (by simp [hc])]
  conv_lhs => rw [trimmed, hfront]
  exact List.rdropWhile_idempotent isBlank _

/-! ## The loops -/

theorem skipBlanks_holds (h : HoldsString m str s) (fuel : Nat) {start : Nat}
    (hstart : start ≤ s.length) (hfuel : s.length - start < fuel) :
    skipBlanks m str fuel start = some (start + ((s.drop start).takeWhile isBlank).length) := by
  induction fuel generalizing start with
  | zero => exact absurd hfuel (Nat.not_lt_zero _)
  | succ fuel ih =>
    rw [skipBlanks]
    cases hdrop : s.drop start with
    | nil =>
      rw [h.read_drop_nil hstart hdrop, if_neg (by decide)]
      rfl
    | cons c rest =>
      obtain ⟨hlt, hread, hrest⟩ := h.read_drop hdrop
      rw [hread]
      by_cases hc : isBlank c
      · rw [if_pos hc, ih hlt (by omega), hrest, List.takeWhile_cons_of_pos hc, List.length_cons]
        exact congrArg some (by omega)
      · rw [if_neg hc, List.takeWhile_cons_of_neg hc]
        rfl

theorem backBlanks_holds (h : HoldsString m str s) {start last : Nat} (hstart : start ≤ last)
    (hlast : last ≤ s.length) :
    backBlanks m str start last =
      start + (((s.take last).drop start).rdropWhile isBlank).length := by
  induction last with
  | zero =>
    obtain rfl : start = 0 := by omega
    rfl
  | succ last ih =>
    rw [backBlanks]
    rcases Nat.lt_or_eq_of_le hstart with hlt | rfl
    · have htake : (s.take (last + 1)).drop start = (s.take last).drop start ++ [s[last]] := by
        rw [List.take_succ_eq_append_getElem hlast, List.drop_append_of_le_length (by simp; omega)]
      rw [htake, h.chars last hlast]
      by_cases hc : isBlank s[last]
      · rw [if_pos ⟨by omega, hc⟩, ih (by omega) (by omega), List.rdropWhile_concat_pos _ _ _ hc]
      · rw [if_neg fun hcond => hc hcond.2, List.rdropWhile_concat_neg _ _ _ hc]
        simp
        omega
    · rw [if_neg (by omega), List.drop_eq_nil_of_le (List.length_take_le _ s)]
      rfl

/-- The copy does not overtake what it reads. -/
theorem moveDown_eq (m : Memory) {n i j : Nat} (hji : j ≤ i) (hfits : str + i + n ≤ 0x100000000)
    {l : List Nat} (hlen : l.length = n)
    (hread : ∀ q (h : q < l.length), m.read8 (str + i + q) = l[q]) :
    moveDown str n i j m = (m.writeBytes (str + j) l, j + n) := by
  induction n generalizing i j m l with
  | zero =>
    rw [List.eq_nil_of_length_eq_zero hlen]
    rfl
  | succ n ih =>
    obtain ⟨c, l, rfl⟩ := List.exists_cons_of_length_eq_add_one hlen
    simp only [List.length_cons, Nat.add_right_cancel_iff] at hlen
    have hc : m.read8 (str + i) = c := hread 0 (by simp)
    have hrest : ∀ q (h : q < l.length),
        (m.write8 (str + j) c).read8 (str + (i + 1) + q) = l[q] := by
      intro q hq
      have hagree : Memory.AgreeOff (str + j) (str + j + 1) m (m.write8 (str + j) c) :=
        agreeOff_write8 m c (Nat.le_refl _) (by omega) (by omega)
      rw [hagree.read8 (by omega) (by omega)]
      have hnext := hread (q + 1) (by simpa using hq)
      rwa [List.getElem_cons_succ, show str + i + (q + 1) = str + (i + 1) + q by omega] at hnext
    rw [moveDown, hc, ih (m.write8 (str + j) c) (by omega) (by omega) hlen hrest, writeBytes]
    simp only [Prod.mk.injEq]
    exact ⟨rfl, by omega⟩

/-! ## The whole of `trim` -/

/-- `trim` writes the trimmed string to the front. -/
theorem trim_eq (h : HoldsString m str s) (hstr : str ≠ 0) :
    trim m str = some (m.writeBytes str (trimmed s ++ [0])) := by
  have hshort := h.short
  have hfits := h.fits
  have hsplit : s.takeWhile isBlank ++ s.dropWhile isBlank = s := List.takeWhile_append_dropWhile
  have hskip := skipBlanks_holds h 0x100000000 (Nat.zero_le _) (by omega)
  have hle := (List.takeWhile_prefix isBlank (l := s)).length_le
  have hdrop : (s.takeWhile isBlank ++ s.dropWhile isBlank).drop (s.takeWhile isBlank).length =
      s.dropWhile isBlank := List.drop_left
  rw [hsplit] at hdrop
  have hback : backBlanks m str (s.takeWhile isBlank).length s.length =
      (s.takeWhile isBlank).length + (trimmed s).length := by
    have hloop := backBlanks_holds h hle (Nat.le_refl _)
    rwa [List.take_length, hdrop] at hloop
  obtain ⟨rest, hrest⟩ := trimmed_prefix s
  have hlen : s.length = (s.takeWhile isBlank).length + ((trimmed s).length + rest.length) := by
    rw [← List.length_append, hrest, ← List.length_append, hsplit]
  have hread : ∀ q (hq : q < (trimmed s).length),
      m.read8 (str + (s.takeWhile isBlank).length + q) = (trimmed s)[q] := by
    intro q hq
    have hparts : s = s.takeWhile isBlank ++ trimmed s ++ rest := by
      rw [List.append_assoc, hrest, hsplit]
    have hchar := h.chars ((s.takeWhile isBlank).length + q) (by omega)
    rw [← Nat.add_assoc] at hchar
    rw [hchar, List.getElem_of_eq hparts, List.getElem_append_left (by simp; omega),
      List.getElem_append_right (by omega)]
    simp
  have hmove := moveDown_eq m (Nat.zero_le (s.takeWhile isBlank).length) (by omega) rfl hread
  rw [Nat.zero_add] at hmove
  rw [trim, if_neg hstr]
  simp only [hskip, List.drop_zero, Nat.zero_add, strlen_holds h, hback, Option.bind_eq_bind,
    Option.bind_some, Nat.add_sub_cancel_left, hmove, writeBytes_append, Nat.add_zero, writeBytes]

/-- **What `trim` leaves in place**: the trimmed string, inside the storage of the old one. A second
`trim` changes nothing any more. -/
theorem trim_holds (h : HoldsString m str s) (hstr : str ≠ 0) :
    ∃ m', trim m str = some m' ∧ HoldsString m' str (trimmed s) ∧
      AgreeOff str (str + (s.length + 1)) m m' ∧ trim m' str = some m' := by
  have hshort := h.short
  have hfits := h.fits
  obtain ⟨p, q, hparts, -, -, -⟩ := trimmed_parts s
  have hlen : (trimmed s).length ≤ s.length := by
    conv_rhs => rw [hparts]
    simp
    omega
  have hbytes : ∀ c ∈ trimmed s, 0 < c ∧ c < 0x100 := by
    intro c hc
    have hmem : c ∈ s := by
      rw [hparts]
      simp [hc]
    exact ⟨Nat.pos_of_ne_zero (h.nonzero c hmem), h.lt hmem⟩
  have hholds : HoldsString (m.writeBytes str (trimmed s ++ [0])) str (trimmed s) :=
    writeBytes_holdsString m hbytes (by omega) (by omega)
  have hagree := agreeOff_writeBytes m (a := str) (l := trimmed s ++ [0]) (by simp; omega)
  refine ⟨_, trim_eq h hstr, hholds, hagree.mono (Nat.le_refl _) (by simp; omega), ?_⟩
  rw [trim_eq hholds hstr, trimmed_trimmed, writeBytes_self]
  intro i hi
  rw [List.length_append, List.length_singleton] at hi
  rw [hholds.read (by omega)]
  rcases Nat.lt_or_eq_of_le (Nat.le_of_lt_succ hi) with hlt | rfl
  · rw [List.getD_eq_getElem _ _ hlt, List.getElem_append_left hlt]
  · simp

/-- Two words, with blanks around them and between them. -/
theorem trim_holds_padded :
    let m := Memory.writeBytes (fun _ => 0) 0x1000 [32, 9, 65, 32, 66, 32, 0]
    ∃ m', trim m 0x1000 = some m' ∧ HoldsString m' 0x1000 (trimmed [32, 9, 65, 32, 66, 32]) ∧
      AgreeOff 0x1000 (0x1000 + ([32, 9, 65, 32, 66, 32].length + 1)) m m' ∧
      trim m' 0x1000 = some m' :=
  trim_holds (writeBytes_holdsString (s := [32, 9, 65, 32, 66, 32]) _ (by decide) (by decide)
    (by decide)) (by decide)

end Xylophone
